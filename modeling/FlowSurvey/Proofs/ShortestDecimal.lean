import FlowSurvey.Decimal.Shortest
import FlowSurvey.Proofs.JsonText
import Mathlib.Algebra.Order.Field.Power
import Mathlib.Algebra.Order.Field.Rat
import Mathlib.Data.List.TakeWhile
import Mathlib.Tactic.Linarith
import Mathlib.Tactic.NormNum
import Mathlib.Tactic.Ring

/-!
# The decimal that is found for a double

Among the decimals that are tried for a double there is always one that rounds to
it: the last ones lie so close together that the next one above the value is still
less than half a unit away.  So what is printed is a positive number between the two
bounds of the double, also after the zeros at its end have been left out.
-/

namespace FlowSurvey.Decimal

/-! ## Ratios -/

def Ratio.toRat (r : Ratio) : ℚ := r.num / r.den

theorem Ratio.lt_iff {a b : Ratio} (ha : 0 < a.den) (hb : 0 < b.den) :
    a.lt b = true ↔ a.toRat < b.toRat := by
  have hda : (0 : ℚ) < a.den := Nat.cast_pos.mpr ha
  have hdb : (0 : ℚ) < b.den := Nat.cast_pos.mpr hb
  rw [Ratio.lt, decide_eq_true_eq, toRat, toRat, div_lt_div_iff₀ hda hdb]
  exact_mod_cast Iff.rfl

theorem Ratio.le_iff {a b : Ratio} (ha : 0 < a.den) (hb : 0 < b.den) :
    a.le b = true ↔ a.toRat ≤ b.toRat := by
  have hda : (0 : ℚ) < a.den := Nat.cast_pos.mpr ha
  have hdb : (0 : ℚ) < b.den := Nat.cast_pos.mpr hb
  rw [Ratio.le, decide_eq_true_eq, toRat, toRat, div_le_div_iff₀ hda hdb]
  exact_mod_cast Iff.rfl

theorem Ratio.den_scaled_pos (n : Nat) {base : Nat} (hbase : 0 < base) (exponent : Int) :
    0 < (Ratio.scaled n base exponent).den := by
  unfold scaled
  split
  · exact Nat.one_pos
  · exact Nat.pow_pos hbase

theorem Ratio.toRat_scaled (n base : Nat) (exponent : Int) :
    (Ratio.scaled n base exponent).toRat = n * (base : ℚ) ^ exponent := by
  unfold scaled
  split
  next hsign =>
    obtain ⟨k, rfl⟩ := Int.eq_ofNat_of_zero_le hsign
    simp [toRat]
  next hsign =>
    obtain ⟨k, hk⟩ := Int.eq_ofNat_of_zero_le (show 0 ≤ -exponent by omega)
    obtain rfl : exponent = -k := by omega
    simp [toRat, div_eq_mul_inv]

/-! ## The bounds of a double -/

namespace Binary

/-- The mantissa and the exponent are those of a finite double. -/
structure InRange (b : Binary) : Prop where
  mantissa_pos : 0 < b.mantissa
  mantissa_lt : b.mantissa < 2 ^ 53
  least : -1074 ≤ b.exponent
  greatest : b.exponent ≤ 971

variable {b : Binary}

theorem InRange.log2_le (hb : b.InRange) : b.mantissa.log2 ≤ 52 := by
  have hbits := (Nat.log2_lt hb.mantissa_pos.ne').mpr hb.mantissa_lt
  omega

theorem den_lower_pos : 0 < b.lower.den := by
  unfold lower
  split <;> exact Ratio.den_scaled_pos _ (by decide) _

theorem den_upper_pos : 0 < b.upper.den :=
  Ratio.den_scaled_pos _ (by decide) _

theorem toRat_value : b.value.toRat = b.mantissa * 2 ^ b.exponent :=
  Ratio.toRat_scaled _ _ _

theorem toRat_upper : b.upper.toRat = (2 * b.mantissa + 1) * 2 ^ (b.exponent - 1) := by
  rw [upper, Ratio.toRat_scaled]
  push_cast
  rfl

theorem le_upper_of_covers {x : Ratio} (hx : 0 < x.den) (hcovers : b.covers x = true) :
    x.toRat ≤ b.upper.toRat := by
  unfold covers at hcovers
  split at hcovers
  · rw [Bool.and_eq_true] at hcovers
    exact (Ratio.le_iff hx den_upper_pos).mp hcovers.2
  · rw [Bool.and_eq_true] at hcovers
    exact ((Ratio.lt_iff hx den_upper_pos).mp hcovers.2).le

theorem lower_le_of_covers {x : Ratio} (hx : 0 < x.den) (hcovers : b.covers x = true) :
    b.lower.toRat ≤ x.toRat := by
  unfold covers at hcovers
  split at hcovers
  · rw [Bool.and_eq_true] at hcovers
    exact (Ratio.le_iff den_lower_pos hx).mp hcovers.1
  · rw [Bool.and_eq_true] at hcovers
    exact ((Ratio.lt_iff den_lower_pos hx).mp hcovers.1).le

theorem covers_of_lt
    {x : Ratio} (hx : 0 < x.den) (hlower : b.lower.toRat < x.toRat)
    (hupper : x.toRat < b.upper.toRat) : b.covers x = true := by
  unfold covers
  split
  · rw [Bool.and_eq_true]
    exact ⟨(Ratio.le_iff den_lower_pos hx).mpr hlower.le,
      (Ratio.le_iff hx den_upper_pos).mpr hupper.le⟩
  · rw [Bool.and_eq_true]
    exact ⟨(Ratio.lt_iff den_lower_pos hx).mpr hlower, (Ratio.lt_iff hx den_upper_pos).mpr hupper⟩

/-- The lower bound is positive, and at least a quarter of a unit below the value. -/
theorem lower_bounds (hb : b.InRange) :
    2 ^ (b.exponent - 1) ≤ b.lower.toRat ∧ b.lower.toRat < b.value.toRat := by
  have hpos : (1 : ℚ) ≤ b.mantissa := by exact_mod_cast hb.mantissa_pos
  have hunit : (0 : ℚ) < 2 ^ b.exponent := by positivity
  have hhalf : (2 : ℚ) ^ (b.exponent - 1) = 2 ^ b.exponent / 2 := by
    rw [zpow_sub₀ (by norm_num), zpow_one]
  have hquarter : (2 : ℚ) ^ (b.exponent - 2) = 2 ^ b.exponent / 4 := by
    rw [zpow_sub₀ (by norm_num)]
    norm_num
  have hmantissa := hb.mantissa_pos
  rw [toRat_value, lower]
  split
  · rw [Ratio.toRat_scaled, Nat.cast_sub (by omega)]
    push_cast
    rw [hhalf, hquarter]
    constructor <;> nlinarith
  · rw [Ratio.toRat_scaled, Nat.cast_sub (by omega)]
    push_cast
    rw [hhalf]
    constructor <;> nlinarith

/-! ## Grids -/

theorem den_value_pos (d : Scientific) : 0 < d.value.den :=
  Ratio.den_scaled_pos _ (by decide) _

theorem toRat_scientific (d : Scientific) : d.value.toRat = d.digits * 10 ^ d.exponent :=
  Ratio.toRat_scaled _ _ _

/-- How often the step of a grid fits into a value. -/
def stepsBelow (b : Binary) (exponent : Int) : Nat :=
  b.value.num * (Ratio.scaled 1 10 exponent).den / (b.value.den * (Ratio.scaled 1 10 exponent).num)

theorem stepsBelow_bounds (b : Binary) (exponent : Int) :
    (b.stepsBelow exponent : ℚ) * 10 ^ exponent ≤ b.value.toRat ∧
      b.value.toRat < (b.stepsBelow exponent + 1) * 10 ^ exponent := by
  have hstep : (Ratio.scaled 1 10 exponent).toRat = 10 ^ exponent := by
    rw [Ratio.toRat_scaled]
    simp
  have hden : 0 < (Ratio.scaled 1 10 exponent).den := Ratio.den_scaled_pos 1 (by decide) _
  have hvalue : 0 < b.value.den := Ratio.den_scaled_pos _ (by decide) _
  have hnum : 0 < (Ratio.scaled 1 10 exponent).num := by
    unfold Ratio.scaled
    split
    · exact Nat.mul_pos Nat.one_pos (Nat.pow_pos (by decide))
    · exact Nat.one_pos
  rw [← hstep, Ratio.toRat, Ratio.toRat, mul_div_assoc', mul_div_assoc',
    div_le_div_iff₀ (Nat.cast_pos.mpr hden) (Nat.cast_pos.mpr hvalue),
    div_lt_div_iff₀ (Nat.cast_pos.mpr hvalue) (Nat.cast_pos.mpr hden)]
  unfold stepsBelow
  generalize (Ratio.scaled 1 10 exponent) = step at hden hnum
  have hdivisor : 0 < b.value.den * step.num := Nat.mul_pos hvalue hnum
  have hle := Nat.div_mul_le_self (b.value.num * step.den) (b.value.den * step.num)
  have hlt := (Nat.div_lt_iff_lt_mul hdivisor).mp
    (Nat.lt_succ_self (b.value.num * step.den / (b.value.den * step.num)))
  constructor
  · rw [mul_assoc, mul_comm (step.num : ℚ)]
    exact_mod_cast hle
  · rw [mul_assoc, mul_comm (step.num : ℚ)]
    exact_mod_cast hlt

theorem onGrid?_eq_some {exponent : Int} {d : Scientific} (hgrid : b.onGrid? exponent = some d) :
    0 < d.digits ∧ d.digits ≤ b.stepsBelow exponent + 1 ∧ b.covers d.value = true := by
  unfold onGrid? at hgrid
  dsimp only at hgrid
  rw [← stepsBelow] at hgrid
  generalize b.stepsBelow exponent = below at hgrid
  have hlow (hfits : (decide (0 < below) && b.covers (Scientific.value ⟨below, exponent⟩)) = true)
      (heq : some (⟨below, exponent⟩ : Scientific) = some d) :
      0 < d.digits ∧ d.digits ≤ below + 1 ∧ b.covers d.value = true := by
    obtain rfl := Option.some.inj heq
    rw [Bool.and_eq_true, decide_eq_true_eq] at hfits
    exact ⟨hfits.1, Nat.le_succ below, hfits.2⟩
  have hhigh (hfits : b.covers (Scientific.value ⟨below + 1, exponent⟩) = true)
      (heq : some (⟨below + 1, exponent⟩ : Scientific) = some d) :
      0 < d.digits ∧ d.digits ≤ below + 1 ∧ b.covers d.value = true := by
    obtain rfl := Option.some.inj heq
    exact ⟨Nat.succ_pos _, Nat.le_refl _, hfits⟩
  split at hgrid
  next hboth =>
    rw [Bool.and_eq_true] at hboth
    split at hgrid
    · exact hlow hboth.1 hgrid
    · exact hhigh hboth.2 hgrid
  · split at hgrid
    next hfits => exact hlow hfits hgrid
    · split at hgrid
      next hfits => exact hhigh hfits hgrid
      · exact absurd hgrid (by simp)

/-- Some decimal of a grid rounds to the value if the grid is finer than half a unit. -/
theorem isSome_onGrid? (hb : b.InRange) {exponent : Int}
    (hstep : (10 : ℚ) ^ exponent < 2 ^ (b.exponent - 1)) : (b.onGrid? exponent).isSome = true := by
  -- The decimal above the value is always near enough; the one below need not be.
  have hhigh : b.covers (Scientific.value ⟨b.stepsBelow exponent + 1, exponent⟩) = true := by
    obtain ⟨hle, hlt⟩ := b.stepsBelow_bounds exponent
    obtain ⟨-, hlower⟩ := lower_bounds hb
    refine covers_of_lt (den_value_pos _) ?_ ?_
    · rw [toRat_scientific]
      push_cast
      exact hlower.trans hlt
    · have hupper : b.upper.toRat = b.value.toRat + 2 ^ (b.exponent - 1) := by
        have hdouble : (2 : ℚ) ^ b.exponent = 2 * 2 ^ (b.exponent - 1) := by
          rw [← zpow_one_add₀ (by norm_num)]
          congr 1
          ring
        rw [toRat_upper, toRat_value, hdouble]
        ring
      rw [toRat_scientific, hupper]
      push_cast
      linarith
  unfold onGrid?
  dsimp only
  rw [← stepsBelow, hhigh]
  split
  · split <;> rfl
  · split
    · rfl
    · rfl

/-- Whether the last grid that is tried is finer than half a unit, for the greatest mantissa. -/
def lastGridIsFine (n : Nat) : Bool :=
  (Ratio.scaled 1 10 (Int.fdiv (((n : Int) - 1021) * 78913) 262144 - 17)).lt
    (Ratio.scaled 1 2 ((n : Int) - 1075))

theorem lastGridIsFine_of_lt {n : Nat} (hn : n < 2046) : lastGridIsFine n = true := by
  have hall : (List.range 2046).all lastGridIsFine = true := by decide +kernel
  exact List.all_eq_true.mp hall n (List.mem_range.mpr hn)

theorem magnitude_step (hb : b.InRange) :
    (10 : ℚ) ^ (b.magnitude - 19) < 2 ^ (b.exponent - 1) := by
  have hlog := hb.log2_le
  obtain ⟨-, -, hleast, hgreatest⟩ := hb
  -- The magnitude grows with the mantissa, so one check for each exponent is enough.
  obtain ⟨n, hn⟩ : ∃ n : Nat, b.exponent = n - 1074 := ⟨(b.exponent + 1074).toNat, by omega⟩
  have hfine := @lastGridIsFine_of_lt n (by omega)
  rw [lastGridIsFine, Ratio.lt_iff (Ratio.den_scaled_pos 1 (by decide) _)
    (Ratio.den_scaled_pos 1 (by decide) _), Ratio.toRat_scaled, Ratio.toRat_scaled] at hfine
  have hexponent : (n : Int) - 1075 = b.exponent - 1 := by omega
  have hmagnitude : b.magnitude - 19 ≤ Int.fdiv (((n : Int) - 1021) * 78913) 262144 - 17 := by
    rw [magnitude, Int.fdiv_eq_ediv_of_nonneg _ (by decide),
      Int.fdiv_eq_ediv_of_nonneg _ (by decide)]
    omega
  calc (10 : ℚ) ^ (b.magnitude - 19)
      ≤ 10 ^ (Int.fdiv (((n : Int) - 1021) * 78913) 262144 - 17) :=
        zpow_le_zpow_right₀ (by norm_num) hmagnitude
    _ < 2 ^ (b.exponent - 1) := by simpa [hexponent] using hfine

/-- Whether a power of two is below the power of ten that is taken for its magnitude. -/
def magnitudeIsAbove (n : Nat) : Bool :=
  (Ratio.scaled 1 2 ((n : Int) - 1073)).le
    (Ratio.scaled 1 10 (Int.fdiv (((n : Int) - 1073) * 78913) 262144 + 2))

theorem magnitudeIsAbove_of_lt {n : Nat} (hn : n < 2098) : magnitudeIsAbove n = true := by
  have hall : (List.range 2098).all magnitudeIsAbove = true := by decide +kernel
  exact List.all_eq_true.mp hall n (List.mem_range.mpr hn)

theorem value_lt_magnitude (hb : b.InRange) : b.value.toRat < 10 ^ b.magnitude := by
  have hlog := hb.log2_le
  obtain ⟨-, -, hleast, hgreatest⟩ := hb
  obtain ⟨n, hn⟩ : ∃ n : Nat, (b.mantissa.log2 : Int) + b.exponent + 1 = n - 1073 :=
    ⟨(b.mantissa.log2 + b.exponent + 1 + 1073).toNat, by omega⟩
  have habove := @magnitudeIsAbove_of_lt n (by omega)
  rw [magnitudeIsAbove, Ratio.le_iff (Ratio.den_scaled_pos 1 (by decide) _)
    (Ratio.den_scaled_pos 1 (by decide) _), Ratio.toRat_scaled, Ratio.toRat_scaled, ← hn,
    ← magnitude] at habove
  have hmantissa : (b.mantissa : ℚ) < 2 ^ (b.mantissa.log2 + 1) := by
    exact_mod_cast Nat.lt_log2_self
  rw [toRat_value]
  calc (b.mantissa : ℚ) * 2 ^ b.exponent
      < 2 ^ (b.mantissa.log2 + 1) * 2 ^ b.exponent := by gcongr
    _ = 2 ^ ((b.mantissa.log2 : Int) + b.exponent + 1) := by
        rw [← zpow_natCast, ← zpow_add₀ (by norm_num)]
        congr 1
        push_cast
        ring
    _ ≤ 10 ^ b.magnitude := by simpa using habove

/-- On a grid that is tried no more than nineteen digits and one more unit fit below a value. -/
theorem stepsBelow_le (hb : b.InRange) {n : Nat} (hn : n < 20) :
    b.stepsBelow (b.magnitude - n) ≤ 10 ^ 19 := by
  have hsteps : (b.stepsBelow (b.magnitude - n) : ℚ) * 10 ^ (b.magnitude - n) <
      10 ^ n * 10 ^ (b.magnitude - n) := by
    calc (b.stepsBelow (b.magnitude - n) : ℚ) * 10 ^ (b.magnitude - n)
        ≤ b.value.toRat := (b.stepsBelow_bounds _).1
      _ < 10 ^ b.magnitude := value_lt_magnitude hb
      _ = 10 ^ n * 10 ^ (b.magnitude - n) := by
          rw [← zpow_natCast, ← zpow_add₀ (by norm_num)]
          congr 1
          ring
  have hlt : b.stepsBelow (b.magnitude - n) < 10 ^ n := by
    exact_mod_cast lt_of_mul_lt_mul_right hsteps (by positivity)
  exact hlt.le.trans (Nat.pow_le_pow_right (by decide) (by omega))

theorem shortest_spec (hb : b.InRange) :
    0 < b.shortest.digits ∧ b.shortest.digits ≤ 10 ^ 19 + 1 ∧
      b.covers b.shortest.value = true := by
  have hlast := isSome_onGrid? hb (magnitude_step hb)
  have hfound : ((List.range 20).findSome? fun n : Nat => b.onGrid? (b.magnitude - n)).isSome := by
    rw [List.findSome?_isSome_iff]
    exact ⟨19, by simp, hlast⟩
  obtain ⟨d, hd⟩ := Option.isSome_iff_exists.mp hfound
  obtain ⟨n, hn, hgrid⟩ := List.exists_of_findSome?_eq_some hd
  obtain ⟨hpos, hle, hcovers⟩ := onGrid?_eq_some hgrid
  have hsteps := stepsBelow_le hb (List.mem_range.mp hn)
  rw [shortest, hd]
  exact ⟨hpos, hle.trans (Nat.add_le_add_right hsteps 1), hcovers⟩

end Binary

/-! ## Zeros at the end -/

theorem pow_length_toDigits_le {n : Nat} (hn : 0 < n) :
    10 ^ ((Nat.toDigits 10 n).length - 1) ≤ n := by
  have hpos : 0 < (Nat.toDigits 10 n).length := Nat.length_toDigits_pos
  by_cases hsingle : (Nat.toDigits 10 n).length = 1
  · rw [hsingle]
    exact hn
  · have hiff := @Nat.length_toDigits_le_iff 10 n ((Nat.toDigits 10 n).length - 1) (by decide)
      (by omega)
    exact Nat.not_lt.mp fun hlt => absurd (hiff.mpr hlt) (by omega)

theorem lt_pow_length_toDigits (n : Nat) : n < 10 ^ (Nat.toDigits 10 n).length :=
  (Nat.length_toDigits_le_iff (by decide) Nat.length_toDigits_pos).mp (Nat.le_refl _)

/-- The digits of a number are those that are kept and zeros. -/
theorem exists_toDigits_eq_append_zeros (n : Nat) :
    ∃ j, Nat.toDigits 10 n =
        ((Nat.toDigits 10 n).reverse.dropWhile (· = '0')).reverse ++ List.replicate j '0' ∧
      (Nat.toDigits 10 n).length -
        ((Nat.toDigits 10 n).reverse.dropWhile (· = '0')).reverse.length = j := by
  generalize Nat.toDigits 10 n = digits
  have hsplit : digits.reverse.takeWhile (· = '0') ++ digits.reverse.dropWhile (· = '0') =
      digits.reverse := List.takeWhile_append_dropWhile
  have hzeros : digits.reverse.takeWhile (· = '0') =
      List.replicate (digits.reverse.takeWhile (· = '0')).length '0' :=
    List.eq_replicate_iff.mpr ⟨rfl, fun c hc => by simpa using List.mem_takeWhile_imp hc⟩
  refine ⟨(digits.reverse.takeWhile (· = '0')).length, ?_, ?_⟩
  · have hreverse := congrArg List.reverse hsplit
    rw [List.reverse_append, List.reverse_reverse, hzeros, List.reverse_replicate] at hreverse
    exact hreverse.symm
  · have hlength := congrArg List.length hsplit
    simp only [List.length_append, List.length_reverse] at hlength ⊢
    omega

/-- Leaving out the zeros at the end of a number does not change what it stands for. -/
theorem normalize_spec {d : Scientific} (hd : 0 < d.digits) :
    0 < d.normalize.digits ∧ d.normalize.digits ≤ d.digits ∧
      d.normalize.value.toRat = d.value.toRat := by
  obtain ⟨j, hdigits, hdropped⟩ := exists_toDigits_eq_append_zeros d.digits
  have hnormalize : d.normalize = ⟨d.digits / 10 ^ j, d.exponent + j⟩ := by
    rw [Scientific.normalize, hdropped]
    rfl
  have hvalue : d.digits = 10 ^ j * (d.digits / 10 ^ j) := by
    have hread := @Nat.ofDigitChars_ten_toDigits d.digits
    rw [hdigits, Nat.ofDigitChars_append, Nat.ofDigitChars_replicate_zero] at hread
    exact (Nat.mul_div_cancel' ⟨_, hread.symm⟩).symm
  rw [hnormalize]
  refine ⟨Nat.pos_of_mul_pos_left (hvalue ▸ hd), Nat.div_le_self _ _, ?_⟩
  rw [Binary.toRat_scientific, Binary.toRat_scientific, zpow_add₀ (by norm_num), zpow_natCast]
  have hcast : (d.digits : ℚ) = 10 ^ j * ((d.digits / 10 ^ j : Nat) : ℚ) := by exact_mod_cast hvalue
  rw [hcast]
  ring

/-- What is printed for a double lies between its bounds, and its digits fit into a word. -/
theorem printed_spec {b : Binary} (hb : b.InRange) :
    0 < b.shortest.normalize.digits ∧ b.shortest.normalize.digits ≤ 10 ^ 19 + 1 ∧
      b.lower.toRat ≤ b.shortest.normalize.value.toRat ∧
      b.shortest.normalize.value.toRat ≤ b.upper.toRat := by
  obtain ⟨hpos, hle, hcovers⟩ := Binary.shortest_spec hb
  obtain ⟨hnormalPos, hnormalLe, hvalue⟩ := normalize_spec hpos
  rw [hvalue]
  exact ⟨hnormalPos, hnormalLe.trans hle,
    Binary.lower_le_of_covers (Binary.den_value_pos _) hcovers,
    Binary.le_upper_of_covers (Binary.den_value_pos _) hcovers⟩

end FlowSurvey.Decimal
