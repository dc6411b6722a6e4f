import Mathlib.Algebra.Order.Field.Power
import Mathlib.Algebra.Order.Field.Rat
import Mathlib.Tactic.GCongr
import Mathlib.Tactic.Linarith
import Mathlib.Tactic.NormNum
import Mathlib.Tactic.Positivity
import Mathlib.Tactic.Ring

/-!
# Products of doubles

A product of doubles is the double nearest to the exact product, and so it exceeds
that by a factor of `1 + 2 ^ -53` at most.  It is infinite only if the exact product
reaches half a unit beyond the greatest double.  A whole number and a power of ten
become doubles in the same way, which bounds the number that they stand for together.
-/

namespace FlowSurvey.Double

open Float.Model Float.Model.UnpackedFloat

/-- The least magnitude that is rounded to infinity. -/
@[irreducible] def overflow : Nat := (2 ^ 54 - 1) * 2 ^ 970

theorem cast_overflow : (overflow : ℚ) = (2 ^ 54 - 1) * 2 ^ 970 := by
  have hcast (n : Nat) : (((2 ^ 54 - 1) * 2 ^ n : Nat) : ℚ) = (2 ^ 54 - 1) * 2 ^ n := by
    push_cast
    norm_num
  unfold overflow
  exact hcast 970

/-- By how much a rounded magnitude may be greater than the exact one. -/
def excess : ℚ := 1 + 1 / 2 ^ 53

/-- The mantissa and the exponent of a finite double that is not subnormal. -/
structure Normal (mantissa : Nat) (exponent : Int) : Prop where
  lower : 2 ^ 52 ≤ mantissa
  upper : mantissa < 2 ^ 53
  least : -1074 ≤ exponent
  greatest : exponent ≤ 971

/-! ## Shifts -/

theorem shift_succ (em : ExtendedMantissa) (k : Nat) :
    em >>> (k + 1) = (em >>> k).shiftRightOne := by
  rfl

theorem mantissa_shift (em : ExtendedMantissa) (k : Nat) :
    (em >>> k).mantissa = em.mantissa / 2 ^ k := by
  induction k with
  | zero => simp [HShiftRight.hShiftRight, Nat.repeat]
  | succ k ih =>
      rw [shift_succ, ExtendedMantissa.shiftRightOne, ih, Nat.div_div_eq_div_mul, Nat.pow_succ]

/-- The bit behind the mantissa stands for half a unit of it. -/
theorem roundBit_shift (m k : Nat) :
    2 * ((⟨m, false, false⟩ : ExtendedMantissa) >>> k).mantissa * 2 ^ k +
      ((⟨m, false, false⟩ : ExtendedMantissa) >>> k).roundBit.toNat * 2 ^ k ≤ 2 * m := by
  induction k with
  | zero => simp [HShiftRight.hShiftRight, Nat.repeat]
  | succ k ih =>
      rw [shift_succ]
      generalize (⟨m, false, false⟩ : ExtendedMantissa) >>> k = em at ih
      have hbit : (em.mantissa % 2 != 0).toNat = em.mantissa % 2 := by
        rcases Nat.mod_two_eq_zero_or_one em.mantissa with h | h <;> simp [h]
      have hsplit : 2 * (em.mantissa / 2) + em.mantissa % 2 = em.mantissa := by omega
      simp only [ExtendedMantissa.shiftRightOne, hbit]
      calc 2 * (em.mantissa / 2) * 2 ^ (k + 1) + em.mantissa % 2 * 2 ^ (k + 1)
          = (2 * (em.mantissa / 2) + em.mantissa % 2) * 2 ^ (k + 1) := by ring
        _ = 2 * em.mantissa * 2 ^ k := by rw [hsplit]; ring
        _ ≤ 2 * m := by omega

theorem roundedMantissa_le (em : ExtendedMantissa) :
    em.mantissa ≤ em.roundedMantissa ∧
      em.roundedMantissa ≤ em.mantissa + em.roundBit.toNat := by
  obtain ⟨m, roundBit, stickyBit⟩ := em
  cases roundBit <;> cases stickyBit <;>
    simp [ExtendedMantissa.roundedMantissa, ExtendedMantissa.accuracy,
      Accuracy.roundToNearestEven]
  omega

theorem mantissaBits_binary64 : Format.binary64.mantissaBits = 53 := rfl

/-- A mantissa is shifted until it has fifty-three bits. -/
theorem shiftToTargetExponent_exact
    {m k : Nat} {e : Int} (hlog : m.log2 = 52 + k) (he : -1074 ≤ e + k) :
    shiftToTargetExponent Format.binary64 m e .exact =
      ((⟨m, false, false⟩ : ExtendedMantissa) >>> k, e + k) := by
  have htarget : Format.binary64.targetExponent (totalExponent m e) = e + k := by
    simp [Format.targetExponent, totalExponent, mantissaBits_binary64, Format.minExponent, hlog]
    omega
  have hshift : (e + k - e).toNat = k := by omega
  rw [shiftToTargetExponent, htarget, shiftToExponent, hshift]
  rfl

/-! ## Rounding -/

theorem finite_of_eq {s : Sign} {m r : Nat} {e q : Int} (hmantissa : m = r) (hexponent : e = q)
    (hr : 0 < r) :
    (if h : m = 0 then UnpackedFloat.zero s else .finite s m e (Nat.pos_of_ne_zero h)) =
      .finite s r q hr := by
  subst hmantissa hexponent
  exact dif_neg hr.ne'

/--
Of a number with at least fifty-three bits, rounding leaves a mantissa of fifty-three
bits.  If the rounded mantissa has one bit more it is a power of two, which the second
shift halves.
-/
theorem roundWithAccuracy_exact
    (s : Sign) {m k : Nat} {e : Int} (hlog : m.log2 = 52 + k) (he : -1074 ≤ e + k) :
    ∃ r q hr, roundWithAccuracy Format.binary64 s m e .exact = .finite s r q hr ∧
      2 ^ 52 ≤ r ∧ r < 2 ^ 53 ∧
      ∃ rounded, 2 * rounded * 2 ^ k ≤ 2 * m + 2 ^ k ∧
        (rounded = r ∧ q = e + k ∨ rounded = 2 * r ∧ r = 2 ^ 52 ∧ q = e + k + 1) := by
  have hfirst := shiftToTargetExponent_exact hlog he
  have hmantissa := mantissa_shift ⟨m, false, false⟩ k
  have hbit := roundBit_shift m k
  rw [roundWithAccuracy, hfirst]
  generalize (⟨m, false, false⟩ : ExtendedMantissa) >>> k = em at hmantissa hbit
  obtain ⟨hlower, hupper⟩ := roundedMantissa_le em
  have hpos : m ≠ 0 := by
    rintro rfl
    rw [Nat.log2_zero] at hlog
    omega
  have hbits : 2 ^ 52 ≤ em.mantissa ∧ em.mantissa < 2 ^ 53 := by
    obtain ⟨hle, hlt⟩ := (Nat.log2_eq_iff hpos).mp hlog
    rw [Nat.pow_add] at hle
    have hlt' : m < 2 ^ 53 * 2 ^ k := by rw [← Nat.pow_add]; convert hlt using 2; omega
    rw [hmantissa]
    exact ⟨(Nat.le_div_iff_mul_le (by positivity)).mpr hle,
      (Nat.div_lt_iff_lt_mul (by positivity)).mpr hlt'⟩
  have hrounded : 2 * em.roundedMantissa * 2 ^ k ≤ 2 * m + 2 ^ k := by
    have hone : em.roundBit.toNat ≤ 1 := Bool.toNat_le _
    calc 2 * em.roundedMantissa * 2 ^ k
        ≤ 2 * (em.mantissa + em.roundBit.toNat) * 2 ^ k := by gcongr
      _ = 2 * em.mantissa * 2 ^ k + em.roundBit.toNat * 2 ^ k + em.roundBit.toNat * 2 ^ k := by
          ring
      _ ≤ 2 * m + 1 * 2 ^ k := by gcongr
      _ = 2 * m + 2 ^ k := by rw [Nat.one_mul]
  dsimp only
  generalize em.roundedMantissa = rounded at hlower hupper hrounded
  have hone : em.roundBit.toNat ≤ 1 := Bool.toNat_le _
  rcases Nat.lt_or_ge rounded (2 ^ 53) with hfits | hcarry
  · have hlog : rounded.log2 = 52 + 0 := (Nat.log2_eq_iff (by omega)).mpr ⟨by omega, hfits⟩
    have hsecond := shiftToTargetExponent_exact hlog (show -1074 ≤ e + k + (0 : Nat) by omega)
    rw [hsecond]
    refine ⟨rounded, e + k, by omega, ?_, by omega, hfits, rounded, hrounded, Or.inl ⟨rfl, rfl⟩⟩
    exact finite_of_eq (by simp [mantissa_shift]) (by simp) _
  · obtain rfl : rounded = 2 ^ 53 := by omega
    have hlog : (2 ^ 53).log2 = 52 + 1 := by rw [Nat.log2_two_pow]
    have hsecond := shiftToTargetExponent_exact hlog (show -1074 ≤ e + k + (1 : Nat) by omega)
    rw [hsecond]
    refine ⟨2 ^ 52, e + k + 1, by omega, ?_, by omega, by omega, 2 ^ 53, hrounded,
      Or.inr ⟨by norm_num, rfl, rfl⟩⟩
    exact finite_of_eq (by simp [mantissa_shift]) (by simp) _

theorem two_zpow_add_natCast (e : Int) (k : Nat) : (2 : ℚ) ^ (e + k) = 2 ^ k * 2 ^ e := by
  rw [zpow_add₀ (by norm_num), zpow_natCast, mul_comm]

/-- What is below the overflow has the exponent of a finite double. -/
theorem exponent_le_of_lt_overflow
    {m k : Nat} {e : Int} (hm : 2 ^ 52 * 2 ^ k ≤ m) (hlt : (m : ℚ) * 2 ^ e < overflow) :
    e + k ≤ 971 := by
  have hleast : (2 : ℚ) ^ 52 * 2 ^ k ≤ m := by exact_mod_cast hm
  have hpower : (2 : ℚ) ^ (52 + (e + k)) < 2 ^ (1024 : ℤ) := by
    calc (2 : ℚ) ^ (52 + (e + k)) = 2 ^ 52 * 2 ^ k * 2 ^ e := by
          rw [zpow_add₀ (by norm_num), two_zpow_add_natCast, zpow_ofNat, mul_assoc]
      _ ≤ m * 2 ^ e := by gcongr
      _ < overflow := hlt
      _ ≤ 2 ^ 54 * 2 ^ 970 := by
          rw [cast_overflow]
          gcongr
          norm_num
      _ = 2 ^ (1024 : ℤ) := by rw [← pow_add, zpow_ofNat]
  have hexponent := (zpow_lt_zpow_iff_right₀ (by norm_num : (1 : ℚ) < 2)).mp hpower
  omega

/-- What is rounded up to a mantissa of one bit more, at the greatest exponent, overflows. -/
theorem overflow_le_of_carry
    {m k : Nat} {e : Int} (hlast : e + k = 971)
    (hcarry : 2 * 2 ^ 53 * 2 ^ k ≤ 2 * m + 2 ^ k) : (overflow : ℚ) ≤ m * 2 ^ e := by
  have hunits : (2 ^ 54 - 1) * 2 ^ k ≤ 2 * (m : ℚ) := by
    have hcast : 2 * 2 ^ 53 * 2 ^ k ≤ 2 * (m : ℚ) + 2 ^ k := by exact_mod_cast hcarry
    linarith
  have hpower : (2 : ℚ) ^ k * 2 ^ e = 2 * 2 ^ 970 := by
    rw [← two_zpow_add_natCast, hlast, ← pow_succ']
    exact zpow_ofNat 2 971
  calc (overflow : ℚ) = (2 ^ 54 - 1) * (2 * 2 ^ 970) / 2 := by
        rw [cast_overflow, mul_left_comm, mul_div_cancel_left₀ _ two_ne_zero]
    _ = (2 ^ 54 - 1) * 2 ^ k * 2 ^ e / 2 := by rw [← hpower, mul_assoc]
    _ ≤ 2 * m * 2 ^ e / 2 := by gcongr
    _ = m * 2 ^ e := by ring

/-- What is below the overflow is rounded to a double that is finite. -/
theorem exists_normal_of_lt_overflow
    (s : Sign) {m k : Nat} {e : Int} (hlog : m.log2 = 52 + k) (he : -1074 ≤ e + k)
    (hlt : (m : ℚ) * 2 ^ e < overflow) :
    ∃ r q hr, roundWithAccuracy Format.binary64 s m e .exact = .finite s r q hr ∧
      Normal r q ∧ e + k ≤ q ∧ (r : ℚ) * 2 ^ q ≤ m * 2 ^ e * excess := by
  have hpos : m ≠ 0 := by
    rintro rfl
    rw [Nat.log2_zero] at hlog
    omega
  have hleast : 2 ^ 52 * 2 ^ k ≤ m := by
    have hle := Nat.log2_self_le hpos
    rwa [hlog, Nat.pow_add] at hle
  have htop := exponent_le_of_lt_overflow hleast hlt
  obtain ⟨r, q, hr, heq, hlower, hupper, rounded, hrounded, hvalue⟩ :=
    roundWithAccuracy_exact s hlog he
  have hnear : 2 * (rounded : ℚ) * 2 ^ k ≤ 2 * m + 2 ^ k := by exact_mod_cast hrounded
  have hexcess : (rounded : ℚ) * 2 ^ k ≤ m * excess := by
    have hmantissa : (2 : ℚ) ^ 52 * 2 ^ k ≤ m := by exact_mod_cast hleast
    unfold excess
    linarith
  have hsame : (r : ℚ) * 2 ^ q = rounded * 2 ^ k * 2 ^ e := by
    rcases hvalue with ⟨rfl, rfl⟩ | ⟨rfl, -, rfl⟩
    · rw [two_zpow_add_natCast, mul_assoc]
    · rw [zpow_add₀ (by norm_num), two_zpow_add_natCast]
      push_cast
      ring
  have hbound : (r : ℚ) * 2 ^ q ≤ m * 2 ^ e * excess := by
    calc (r : ℚ) * 2 ^ q = rounded * 2 ^ k * 2 ^ e := hsame
      _ ≤ m * excess * 2 ^ e := by gcongr
      _ = m * 2 ^ e * excess := by ring
  rcases hvalue with ⟨-, rfl⟩ | ⟨rfl, rfl, rfl⟩
  · exact ⟨r, _, hr, heq, ⟨hlower, hupper, he, htop⟩, le_refl _, hbound⟩
  · have hbelow : e + k ≠ 971 := fun hlast =>
      absurd hlt (not_lt.mpr (overflow_le_of_carry hlast (by omega)))
    exact ⟨_, _, hr, heq, ⟨hlower, hupper, by omega, by omega⟩, by omega, hbound⟩

/-! ## Doubles -/

theorem append_one_ofNat {m : Nat} (hlower : 2 ^ 52 ≤ m) (hupper : m < 2 ^ 53) :
    (1#1 ++ BitVec.ofNat 52 m).toNat = m := by
  rw [BitVec.toNat_append, BitVec.toNat_ofNat, ← Nat.shiftLeft_add_eq_or_of_lt (by omega)]
  simp only [BitVec.toNat_ofNat, Nat.shiftLeft_eq]
  omega

theorem pack_finite (s : Sign) (m : Nat) (e : Int) (hm : 0 < m) :
    UnpackedFloat.pack Format.binary64 (.finite s m e hm) =
      if 2 ^ 11 ≤ (e + 1023 + 52).toNat + 1 then packedInfinity Format.binary64 s
      else if m.log2 + 1 = 53 then
        packComponents Format.binary64 s (BitVec.ofNat 11 (e + 1023 + 52).toNat) (BitVec.ofNat 52 m)
      else packComponents Format.binary64 s 0#11 (BitVec.ofNat 52 m) :=
  rfl

/-- A normal double is unpacked as it was packed, whatever its sign is. -/
theorem unpack_pack_normal
    (s : Sign) {m : Nat} {e : Int} (hm : 0 < m) (hnormal : Normal m e) :
    ∃ s', (Float.Model.pack (.finite s m e hm)).unpack = .finite s' m e hm := by
  obtain ⟨hlower, hupper, hleast, hgreatest⟩ := hnormal
  have hlog : m.log2 = 52 := (Nat.log2_eq_iff (by omega)).mpr ⟨hlower, hupper⟩
  have happend := append_one_ofNat hlower hupper
  obtain ⟨biased, hbiased⟩ : ∃ biased : Nat, e = biased - 1075 := ⟨(e + 1075).toNat, by omega⟩
  have hfits : (BitVec.ofNat 11 biased).toNat = biased := by
    rw [BitVec.toNat_ofNat]
    omega
  have hfinite : BitVec.ofNat 11 biased ≠ -1#11 := by
    intro heq
    have hnat := congrArg BitVec.toNat heq
    rw [hfits] at hnat
    simp at hnat
    omega
  have hnotSubnormal : BitVec.ofNat 11 biased ≠ 0#11 := by
    intro heq
    have hnat := congrArg BitVec.toNat heq
    rw [hfits] at hnat
    simp at hnat
    omega
  have hpack : UnpackedFloat.pack Format.binary64 (.finite s m e hm) =
      packComponents Format.binary64 s (BitVec.ofNat 11 biased) (BitVec.ofNat 52 m) := by
    have hexponent : (e + 1023 + 52).toNat = biased := by omega
    rw [pack_finite, hexponent, if_neg (by omega), if_pos (by omega)]
  refine ⟨.ofBitVec (unpackSign (packComponents Format.binary64 s (BitVec.ofNat 11 biased)
    (BitVec.ofNat 52 m))), ?_⟩
  change UnpackedFloat.unpack Format.binary64 (UnpackedFloat.pack Format.binary64 _) = _
  rw [hpack]
  -- Which case of unpacking it is depends on the exponent alone.
  have hexponent : unpackExponent (packComponents Format.binary64 s (BitVec.ofNat 11 biased)
      (BitVec.ofNat 52 m)) = BitVec.ofNat 11 biased := unpackExponent_packComponents
  have hmantissa : unpackMantissa (packComponents Format.binary64 s (BitVec.ofNat 11 biased)
      (BitVec.ofNat 52 m)) = BitVec.ofNat 52 m := unpackMantissa_packComponents
  generalize packComponents Format.binary64 s (BitVec.ofNat 11 biased) (BitVec.ofNat 52 m) = bits
    at hexponent hmantissa
  delta UnpackedFloat.unpack
  rw [if_neg (hexponent ▸ hfinite), if_neg (hexponent ▸ hnotSubnormal)]
  refine (UnpackedFloat.finite.injEq ..).mpr ⟨rfl, ?_, ?_⟩
  · rw [hmantissa, happend]
  · rw [hexponent, hfits]
    simp [Format.exponentBias]
    omega

/-- A double whose magnitude is at least one and at most a bound. -/
def Within (x : Float) (bound : ℚ) : Prop :=
  ∃ s m e hm, x.toModel.unpack = .finite s m e hm ∧ Normal m e ∧ -52 ≤ e ∧
    (m : ℚ) * 2 ^ e ≤ bound

theorem log2_mul_two_pow {n : Nat} (hn : n ≠ 0) (k : Nat) : (n * 2 ^ k).log2 = n.log2 + k := by
  obtain ⟨hle, hlt⟩ := (Nat.log2_eq_iff hn).mp rfl
  have hpos : 0 < 2 ^ k := Nat.two_pow_pos k
  refine (Nat.log2_eq_iff (Nat.mul_ne_zero hn hpos.ne')).mpr ⟨?_, ?_⟩
  · rw [Nat.pow_add]
    exact Nat.mul_le_mul_right _ hle
  · rw [Nat.add_right_comm, Nat.pow_add]
    exact Nat.mul_lt_mul_of_pos_right hlt hpos

theorem Within.isInf {x : Float} {bound : ℚ} (hx : Within x bound) : x.isInf = false := by
  obtain ⟨s, m, e, hm, hunpack, -⟩ := hx
  rw [Float.isInf, Float.Model.isInf, hunpack]
  rfl

theorem within_round
    (s : Sign) {m k : Nat} {e : Int} (hlog : m.log2 = 52 + k) (he : -52 ≤ e + k)
    (hlt : (m : ℚ) * 2 ^ e < overflow) :
    Within (.ofModel (.pack (roundWithAccuracy Format.binary64 s m e .exact)))
      (m * 2 ^ e * excess) := by
  obtain ⟨r, q, hr, heq, hnormal, hq, hvalue⟩ :=
    exists_normal_of_lt_overflow s hlog (by omega) hlt
  obtain ⟨s', hunpack⟩ := unpack_pack_normal s hr hnormal
  rw [heq]
  exact ⟨s', r, q, hr, hunpack, hnormal, by omega, hvalue⟩

theorem within_toFloat {n : UInt64} (hpos : 0 < n.toNat) :
    Within n.toFloat (n.toNat * excess) := by
  have hbound := n.toNat_lt
  have hmodel : n.toFloat =
      .ofModel (.pack (UnpackedFloat.normalize Format.binary64 n.toNat 0 .positive)) := rfl
  rw [hmodel]
  generalize n.toNat = a at hpos hbound
  have hnormalize : UnpackedFloat.normalize Format.binary64 a 0 .positive =
      UnpackedFloat.round Format.binary64 .positive a 0 := by
    have hcompare : compare (a : Int) 0 = .gt := by
      rw [compare_gt_iff_gt]
      omega
    rw [UnpackedFloat.normalize, hcompare]
    rfl
  -- a number of fewer than fifty-three bits is shifted to the left
  have hshift : (0 - Format.binary64.targetExponent (totalExponent a 0)).toNat = 52 - a.log2 := by
    simp [Format.targetExponent, totalExponent, mantissaBits_binary64, Format.minExponent]
    omega
  rw [hnormalize, UnpackedFloat.round]
  simp only [decreaseExponent, hshift, Nat.shiftLeft_eq]
  have hlog : (a * 2 ^ (52 - a.log2)).log2 = 52 + (a.log2 - 52) := by
    rw [log2_mul_two_pow (by omega)]
    omega
  have hvalue :
      ((a * 2 ^ (52 - a.log2) : Nat) : ℚ) * 2 ^ (0 - ((52 - a.log2 : Nat) : Int)) = a := by
    rw [zero_sub, zpow_neg, zpow_natCast]
    push_cast
    rw [mul_assoc, mul_inv_cancel₀ (by positivity), mul_one]
  have hlt : (a : ℚ) < overflow := by
    have hlarge : 2 ^ 64 ≤ overflow := by decide +kernel
    exact_mod_cast Nat.lt_of_lt_of_le hbound hlarge
  have hleast : -52 ≤ 0 - ((52 - a.log2 : Nat) : Int) + ((a.log2 - 52 : Nat) : Int) := by omega
  have hround := within_round .positive hlog hleast (by rwa [hvalue])
  rwa [hvalue] at hround

theorem within_power {e : Nat} (he : e ≤ 308) :
    Within (Float.ofScientific 1 false e) (10 ^ e * excess) := by
  have hsmall : ∀ e < 23, Float.ofScientific 1 false e =
      .ofModel (Float.Model.ofScientific 1 e) := by
    decide +kernel
  have hmodel : Float.ofScientific 1 false e = .ofModel (Float.Model.ofScientific 1 e) := by
    rcases Nat.lt_or_ge e 23 with hlt | hge
    · exact hsmall e hlt
    · rw [Float.ofScientific, dif_neg (by omega)]
      rfl
  have hround : Float.Model.ofScientific 1 e = .pack (roundWithAccuracy Format.binary64
      .positive (2 ^ 53 * 10 ^ e) (-53) .exact) := by
    have hbig : ¬(e : Int) > 2 ^ 11 := by omega
    have htiny : ¬(e : Int) < -(2 ^ 11 + (1 : Nat).log2) := by omega
    rw [Float.Model.ofScientific, UnpackedFloat.ofScientific, dif_neg (by decide), if_neg hbig,
      if_neg htiny, if_pos (by omega)]
    rfl
  have hpos : 10 ^ e ≠ 0 := by positivity
  have hlog : (2 ^ 53 * 10 ^ e).log2 = 52 + ((10 ^ e).log2 + 1) := by
    rw [Nat.mul_comm, log2_mul_two_pow hpos]
    omega
  have hvalue : ((2 ^ 53 * 10 ^ e : Nat) : ℚ) * 2 ^ (-53 : ℤ) = 10 ^ e := by
    push_cast
    rw [mul_comm, ← mul_assoc]
    norm_num
  have hlt : ((2 ^ 53 * 10 ^ e : Nat) : ℚ) * 2 ^ (-53 : ℤ) < overflow := by
    have hpowers : ∀ n < 309, 10 ^ n < overflow := by decide +kernel
    have hcast : (10 : ℚ) ^ e = (10 ^ e : Nat) := by push_cast; rfl
    rw [hvalue, hcast]
    exact Nat.cast_lt.mpr (hpowers e (by omega))
  rw [hmodel, hround]
  have hwithin := within_round .positive hlog (by omega) hlt
  rwa [hvalue] at hwithin

/-- The product of two doubles is finite if their bounds say so. -/
theorem within_mul
    {x y : Float} {a b : ℚ} (hx : Within x a) (hy : Within y b) (hlt : a * b < overflow) :
    Within (x * y) (a * b * excess) := by
  obtain ⟨s, m, e, hm, hux, ⟨hml, hmu, -, -⟩, he, hxa⟩ := hx
  obtain ⟨t, n, f, hn, huy, ⟨hnl, hnu, -, -⟩, hf, hyb⟩ := hy
  have hmodel : x * y = .ofModel (.pack
      (roundWithAccuracy Format.binary64 (s * t) (m * n) (e + f) .exact)) := by
    change Float.ofModel (.pack (UnpackedFloat.mul Format.binary64 x.toModel.unpack
      y.toModel.unpack)) = _
    rw [hux, huy]
    rfl
  have hlog : 104 ≤ (m * n).log2 := by
    rw [Nat.le_log2 (by positivity)]
    calc 2 ^ 104 = 2 ^ 52 * 2 ^ 52 := by norm_num
      _ ≤ m * n := Nat.mul_le_mul hml hnl
  have hexact : ((m * n : Nat) : ℚ) * 2 ^ (e + f) ≤ a * b := by
    calc ((m * n : Nat) : ℚ) * 2 ^ (e + f) = m * 2 ^ e * (n * 2 ^ f) := by
          rw [zpow_add₀ (by norm_num)]
          push_cast
          ring
      _ ≤ a * b := mul_le_mul hxa hyb (by positivity) (le_trans (by positivity) hxa)
  rw [hmodel]
  obtain ⟨s', r, q, hr, hunpack, hnormal, hq, hvalue⟩ :=
    within_round (s * t) (show (m * n).log2 = 52 + ((m * n).log2 - 52) by omega)
      (show -52 ≤ e + f + _ by omega) (lt_of_le_of_lt hexact hlt)
  refine ⟨s', r, q, hr, hunpack, hnormal, hq, le_trans hvalue ?_⟩
  have hexcess : 0 ≤ excess := by norm_num [excess]
  gcongr

end FlowSurvey.Double
