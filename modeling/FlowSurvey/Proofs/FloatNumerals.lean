import FlowSurvey.Proofs.DoubleProducts
import FlowSurvey.Proofs.JsonText
import FlowSurvey.Proofs.ShortestDecimal

/-!
# Numerals of doubles

The text of a finite double is a numeral that the reader takes for some double.  Its
digits fit into the word they are read into, so that the reader has the very digits and
the very power of ten that were printed; and their product is within the range of the
doubles, although it is found by two roundings and not by one.  The two greatest doubles
lie too close to the end of that range for an estimate: for these the product is computed.
-/

namespace FlowSurvey.Json

open Decimal

/-! ## Digits behind a point, and powers -/

section Digits

variable {d : Digits} {digits rest : List Char}

theorem ofDigitChars_le_append (digits more : List Char) :
    Nat.ofDigitChars 10 digits 0 ≤ Nat.ofDigitChars 10 (digits ++ more) 0 := by
  rw [Nat.ofDigitChars_append]
  exact le_ofDigitChars more _

theorem finishDecimal_of_endsNumeral (positive : Bool) (d : Digits) (hrest : EndsNumeral rest) :
    finishDecimal positive d rest = finishFloat positive d rest := by
  unfold finishDecimal
  split
  next => exact absurd rfl (hrest 'e' rfl).2.2.1
  next => exact absurd rfl (hrest 'E' rfl).2.2.2
  next => rfl

theorem readFraction_append
    (positive : Bool) {seen : Bool} (hdigits : ∀ c ∈ digits, c.isDigit = true)
    (hfits : Nat.ofDigitChars 10 digits d.significand ≤ maxWord)
    (hseen : digits = [] → seen = true) (hrest : EndsDigits rest) :
    readFraction positive d seen (digits ++ rest) =
      finishDecimal positive
        ⟨Nat.ofDigitChars 10 digits d.significand, d.exponent - digits.length⟩ rest := by
  -- After the first digit one has been seen, so no more is asked of what is left.
  induction digits generalizing d seen with
  | nil =>
      obtain rfl := hseen rfl
      cases rest with
      | nil => simp [readFraction]
      | cons c cs => simp [readFraction, hrest c rfl]
  | cons c cs ih =>
      have hdigit := hdigits c List.mem_cons_self
      rw [ofDigitChars_cons_of_isDigit hdigit] at hfits ⊢
      have hpush : d.push? (Text.digitValue c) = some (d.significand * 10 + Text.digitValue c) :=
        if_pos (Nat.le_trans (le_ofDigitChars cs _) hfits)
      have htail := @ih ⟨d.significand * 10 + Text.digitValue c, d.exponent - 1⟩ true
        (fun d hd => hdigits d (List.mem_cons_of_mem _ hd)) hfits (fun _ => rfl)
      have hexponent : d.exponent - (c :: cs).length = d.exponent - 1 - cs.length := by
        rw [List.length_cons]
        omega
      rw [List.cons_append, readFraction, if_pos hdigit, hpush, hexponent]
      exact htail

theorem exponentDigits_append
    {start : Nat} (hdigits : ∀ c ∈ digits, c.isDigit = true)
    (hfits : Nat.ofDigitChars 10 digits start ≤ maxExponent) (hrest : EndsDigits rest) :
    exponentDigits start (digits ++ rest) = .ok (Nat.ofDigitChars 10 digits start, rest) := by
  induction digits generalizing start with
  | nil =>
      cases rest with
      | nil => simp [exponentDigits]
      | cons c cs => simp [exponentDigits, hrest c rfl]
  | cons c cs ih =>
      have hdigit := hdigits c List.mem_cons_self
      rw [ofDigitChars_cons_of_isDigit hdigit] at hfits ⊢
      have hnext : start * 10 + Text.digitValue c ≤ maxExponent :=
        Nat.le_trans (le_ofDigitChars cs _) hfits
      have htail := ih (fun d hd => hdigits d (List.mem_cons_of_mem _ hd)) hfits
      simpa [exponentDigits, hdigit, hnext] using htail

/-- The printed power of ten is added to the one of the digits. -/
theorem readExponent_printed
    (positive : Bool) (d : Digits) {power : Int} (hpower : power.natAbs ≤ maxExponent)
    (hrest : EndsNumeral rest) :
    readExponent positive d
        ((if 0 ≤ power then '+' else '-') :: (Nat.toDigits 10 power.natAbs ++ rest)) =
      finishFloat positive ⟨d.significand, d.exponent + power⟩ rest := by
  have hshift : power = if 0 ≤ power then (power.natAbs : Int) else -power.natAbs := by
    split <;> omega
  generalize power.natAbs = n at hpower hshift ⊢
  have hvalue := @Nat.ofDigitChars_ten_toDigits n
  have hdigits := @isDigit_of_mem_toDigits n
  cases hprinted : Nat.toDigits 10 n with
  | nil => exact absurd hprinted Nat.toDigits_ne_nil
  | cons c cs =>
      rw [hprinted] at hvalue hdigits
      have hdigit := hdigits c List.mem_cons_self
      rw [ofDigitChars_cons_of_isDigit hdigit, Nat.zero_mul, Nat.zero_add] at hvalue
      have hread := @exponentDigits_append cs rest (Text.digitValue c)
        (fun d hd => hdigits d (List.mem_cons_of_mem _ hd)) (by rwa [hvalue]) hrest.endsDigits
      rw [hvalue] at hread
      by_cases hsign : 0 ≤ power
      · rw [if_pos hsign] at hshift
        simp [readExponent, hsign, hdigit, hread, ← hshift]
      · rw [if_neg hsign] at hshift
        simp [readExponent, hsign, hdigit, hread, ← hshift]

end Digits

/-! ## Whole numerals -/

/-- A numeral whose digits and power of ten are these, whatever its sign is and what follows. -/
structure ReadsAs (text : List Char) (d : Digits) : Prop where
  starts : ∃ c cs, text = c :: cs ∧ c.isDigit = true
  reads : ∀ positive {rest}, EndsNumeral rest →
    readNumber positive (text ++ rest) = finishFloat positive d rest

/-- The digits before a decimal point. -/
structure WholePart (digits : List Char) : Prop where
  isDigit : ∀ c ∈ digits, c.isDigit = true
  nonempty : digits ≠ []
  canonical : digits = ['0'] ∨ digits.head? ≠ some '0'

theorem WholePart.starts {digits : List Char} (hwhole : WholePart digits) (more : List Char) :
    ∃ c cs, digits ++ more = c :: cs ∧ c.isDigit = true := by
  obtain ⟨c, cs, rfl⟩ := List.exists_cons_of_ne_nil hwhole.nonempty
  exact ⟨c, cs ++ more, rfl, hwhole.isDigit c List.mem_cons_self⟩

section Numerals

variable {whole fraction : List Char}

/-- Digits in front of something that is no digit are taken as a number. -/
theorem readNumber_whole
    (positive : Bool) (hwhole : WholePart whole)
    (hfits : Nat.ofDigitChars 10 whole 0 ≤ maxWord) {tail : List Char}
    (htail : EndsDigits tail) :
    readNumber positive (whole ++ tail) =
      readInteger positive (Nat.ofDigitChars 10 whole 0) tail := by
  rcases hwhole.canonical with rfl | hhead
  · exact readNumber_zero positive htail
  · exact readNumber_append positive hwhole.isDigit hwhole.nonempty hhead hfits tail

theorem readNumber_point
    (positive : Bool) (hwhole : WholePart whole) (hfraction : ∀ c ∈ fraction, c.isDigit = true)
    (hne : fraction ≠ []) (hfits : Nat.ofDigitChars 10 (whole ++ fraction) 0 ≤ maxWord)
    {tail : List Char} (htail : EndsDigits tail) :
    readNumber positive (whole ++ '.' :: (fraction ++ tail)) =
      finishDecimal positive
        ⟨Nat.ofDigitChars 10 (whole ++ fraction) 0, -fraction.length⟩ tail := by
  have hwholeFits := Nat.le_trans (ofDigitChars_le_append whole fraction) hfits
  have hpoint : EndsDigits ('.' :: (fraction ++ tail)) := endsDigits_cons rfl _
  rw [Nat.ofDigitChars_append] at hfits ⊢
  have hread := @readFraction_append ⟨Nat.ofDigitChars 10 whole 0, 0⟩ fraction tail positive false
    hfraction hfits (fun hnil => absurd hnil hne) htail
  rw [Int.zero_sub] at hread
  rw [readNumber_whole positive hwhole hwholeFits hpoint]
  exact hread

theorem readsAs_point
    (hwhole : WholePart whole) (hfraction : ∀ c ∈ fraction, c.isDigit = true)
    (hne : fraction ≠ []) (hfits : Nat.ofDigitChars 10 (whole ++ fraction) 0 ≤ maxWord) :
    ReadsAs (whole ++ '.' :: fraction)
      ⟨Nat.ofDigitChars 10 (whole ++ fraction) 0, -fraction.length⟩ := by
  refine ⟨hwhole.starts _, fun positive rest hrest => ?_⟩
  rw [List.append_assoc, List.cons_append,
    readNumber_point positive hwhole hfraction hne hfits hrest.endsDigits]
  exact finishDecimal_of_endsNumeral positive _ hrest

/-- Digits behind a point leave a negative power of ten. -/
theorem exists_readsAs_point
    (hwhole : WholePart whole) (hfraction : ∀ c ∈ fraction, c.isDigit = true)
    (hne : fraction ≠ []) (hfits : Nat.ofDigitChars 10 (whole ++ fraction) 0 ≤ maxWord) :
    ∃ r, ReadsAs (whole ++ '.' :: fraction) r ∧ r.exponent < 0 := by
  have hlength := List.length_pos_iff.mpr hne
  refine ⟨_, readsAs_point hwhole hfraction hne hfits, ?_⟩
  simp only
  omega

variable {power : Int}

theorem readsAs_point_power
    (hwhole : WholePart whole) (hfraction : ∀ c ∈ fraction, c.isDigit = true)
    (hne : fraction ≠ []) (hfits : Nat.ofDigitChars 10 (whole ++ fraction) 0 ≤ maxWord)
    (hpower : power.natAbs ≤ maxExponent) :
    ReadsAs (whole ++ '.' :: (fraction ++
        'e' :: (if 0 ≤ power then '+' else '-') :: Nat.toDigits 10 power.natAbs))
      ⟨Nat.ofDigitChars 10 (whole ++ fraction) 0, -fraction.length + power⟩ := by
  refine ⟨hwhole.starts _, fun positive rest hrest => ?_⟩
  simp only [List.append_assoc, List.cons_append]
  rw [readNumber_point positive hwhole hfraction hne hfits (endsDigits_cons rfl _)]
  exact readExponent_printed positive _ hpower hrest

theorem readsAs_power
    (hwhole : WholePart whole) (hfits : Nat.ofDigitChars 10 whole 0 ≤ maxWord)
    (hpower : power.natAbs ≤ maxExponent) :
    ReadsAs (whole ++ 'e' :: (if 0 ≤ power then '+' else '-') :: Nat.toDigits 10 power.natAbs)
      ⟨Nat.ofDigitChars 10 whole 0, power⟩ := by
  refine ⟨hwhole.starts _, fun positive rest hrest => ?_⟩
  simp only [List.append_assoc, List.cons_append]
  rw [readNumber_whole positive hwhole hfits (endsDigits_cons rfl _)]
  have hread := readExponent_printed positive ⟨Nat.ofDigitChars 10 whole 0, 0⟩ hpower hrest
  rw [Int.zero_add] at hread
  exact hread

end Numerals

/-! ## Printed decimals -/

section Render

variable {n : Nat}

theorem isDigit_of_mem_zeros : ∀ c ∈ List.replicate n '0', c.isDigit = true := by
  intro c hc
  rw [List.eq_of_mem_replicate hc]
  rfl

theorem wholePart_zero : WholePart ['0'] where
  isDigit := @isDigit_of_mem_zeros 1
  nonempty := List.cons_ne_nil _ _
  canonical := Or.inl rfl

theorem wholePart_toDigits (hn : 0 < n) : WholePart (Nat.toDigits 10 n) where
  isDigit := isDigit_of_mem_toDigits
  nonempty := Nat.toDigits_ne_nil
  canonical := Or.inr (head?_toDigits_ne_zero hn)

/-- Of a number of more than one digit some are before the point. -/
theorem WholePart.take {digits : List Char} (hwhole : WholePart digits) (k : Nat) :
    WholePart (digits.take (k + 1)) := by
  obtain ⟨c, cs, rfl⟩ := List.exists_cons_of_ne_nil hwhole.nonempty
  refine ⟨fun c hc => hwhole.isDigit c (List.mem_of_mem_take hc), List.cons_ne_nil _ _, ?_⟩
  rcases hwhole.canonical with hzero | hhead
  · obtain ⟨rfl, rfl⟩ := List.cons.inj hzero
    exact Or.inl (by rw [List.take_succ_cons, List.take_nil])
  · exact Or.inr hhead

theorem WholePart.append {digits : List Char} (hwhole : WholePart digits)
    (hhead : digits.head? ≠ some '0') {more : List Char} (hmore : ∀ c ∈ more, c.isDigit = true) :
    WholePart (digits ++ more) := by
  obtain ⟨c, cs, rfl⟩ := List.exists_cons_of_ne_nil hwhole.nonempty
  exact ⟨fun c hc => (List.mem_append.mp hc).elim (hwhole.isDigit c) (hmore c),
    List.cons_ne_nil _ _, Or.inr hhead⟩

/-- Zeros fill the digits up to the point, and one stands behind it. -/
theorem exists_readsAs_filled
    (hn : 0 < n) {k : Nat} (hroom : k + (Nat.toDigits 10 n).length ≤ 16) :
    ∃ r, ReadsAs (Nat.toDigits 10 n ++ List.replicate k '0' ++ ['.', '0']) r ∧
      r.exponent < 0 := by
  have hlt := lt_pow_length_toDigits n
  have hfits : Nat.ofDigitChars 10
      (Nat.toDigits 10 n ++ List.replicate k '0' ++ List.replicate 1 '0') 0 ≤ maxWord := by
    rw [Nat.ofDigitChars_append, Nat.ofDigitChars_append, Nat.ofDigitChars_ten_toDigits,
      Nat.ofDigitChars_replicate_zero, Nat.ofDigitChars_replicate_zero]
    calc 10 ^ 1 * (10 ^ k * n)
        ≤ 10 ^ 1 * (10 ^ k * 10 ^ (Nat.toDigits 10 n).length) := by gcongr
      _ = 10 ^ (1 + (k + (Nat.toDigits 10 n).length)) := by rw [pow_add, pow_add]
      _ ≤ 10 ^ 17 := Nat.pow_le_pow_right (by decide) (by omega)
      _ ≤ maxWord := by decide
  have hwhole := (wholePart_toDigits hn).append (head?_toDigits_ne_zero hn)
    (@isDigit_of_mem_zeros k)
  exact exists_readsAs_point hwhole (@isDigit_of_mem_zeros 1) (List.cons_ne_nil _ _) hfits

/-- A point stands among the digits. -/
theorem exists_readsAs_split
    (hn : 0 < n) (hfits : n ≤ maxWord) {k : Nat} (hk : k + 1 < (Nat.toDigits 10 n).length) :
    ∃ r, ReadsAs
        ((Nat.toDigits 10 n).take (k + 1) ++ '.' :: (Nat.toDigits 10 n).drop (k + 1)) r ∧
      r.exponent < 0 := by
  have hwhole := wholePart_toDigits hn
  refine exists_readsAs_point (hwhole.take k)
    (fun c hc => hwhole.isDigit c (List.mem_of_mem_drop hc)) ?_ ?_
  · rw [← List.length_pos_iff, List.length_drop]
    omega
  · rwa [List.take_append_drop, Nat.ofDigitChars_ten_toDigits]

/-- Zeros stand between the point and the digits. -/
theorem exists_readsAs_small (hn : 0 < n) (hfits : n ≤ maxWord) (k : Nat) :
    ∃ r, ReadsAs ('0' :: '.' :: (List.replicate k '0' ++ Nat.toDigits 10 n)) r ∧
      r.exponent < 0 := by
  have hwhole := wholePart_toDigits hn
  have hnothing : Nat.ofDigitChars 10 ['0'] 0 = 0 := rfl
  refine exists_readsAs_point wholePart_zero
    (fun c hc => (List.mem_append.mp hc).elim (isDigit_of_mem_zeros c) (hwhole.isDigit c))
    (List.append_ne_nil_of_right_ne_nil _ hwhole.nonempty) ?_
  rwa [Nat.ofDigitChars_append, Nat.ofDigitChars_append, hnothing,
    Nat.ofDigitChars_replicate_zero, Nat.mul_zero, Nat.ofDigitChars_ten_toDigits]

variable {d : Scientific}

/-- How a decimal is printed does not matter to the reader, unless it is printed with a zero. -/
theorem exists_readsAs_render
    (hpos : 0 < d.digits) (hfits : d.digits ≤ maxWord)
    (hpower : (d.exponent + (Nat.toDigits 10 d.digits).length - 1).natAbs ≤ maxExponent) :
    ∃ r, ReadsAs d.render.toList r ∧ (r.exponent < 0 ∨ r = ⟨d.digits, d.exponent⟩) := by
  have hwhole := wholePart_toDigits hpos
  have hvalue := @Nat.ofDigitChars_ten_toDigits d.digits
  unfold Scientific.render
  dsimp only
  rw [String.toList_ofList]
  split
  next hpositional =>
    split
    next hexponent =>
      obtain ⟨r, hread, hr⟩ := @exists_readsAs_filled d.digits hpos d.exponent.toNat (by omega)
      exact ⟨r, hread, Or.inl hr⟩
    · split
      next hexponent hscientific =>
        obtain ⟨r, hread, hr⟩ := @exists_readsAs_split d.digits hpos hfits
          (d.exponent + (Nat.toDigits 10 d.digits).length - 1).toNat (by omega)
        exact ⟨r, hread, Or.inl hr⟩
      next hexponent hscientific =>
        obtain ⟨r, hread, hr⟩ := exists_readsAs_small hpos hfits
          (-(d.exponent + (Nat.toDigits 10 d.digits).length - 1) - 1).toNat
        exact ⟨r, hread, Or.inl hr⟩
  next hpositional =>
    -- Here the power of ten is printed, and that of the fraction is taken off again.
    split
    next first second rest hdigits =>
      rw [hdigits] at hwhole hvalue hpower ⊢
      have hread := @readsAs_point_power [first] (second :: rest) _ (hwhole.take 0)
        (fun c hc => hwhole.isDigit c (List.mem_cons_of_mem _ hc)) (List.cons_ne_nil _ _)
        (by rwa [List.singleton_append, hvalue]) hpower
      refine ⟨_, hread, Or.inr ?_⟩
      rw [List.singleton_append, hvalue]
      congr 1
      simp only [List.length_cons]
      omega
    next hsingle =>
      have hread := readsAs_power hwhole (by rwa [hvalue]) hpower
      have hlength : (Nat.toDigits 10 d.digits).length = 1 := by
        match hdigits : Nat.toDigits 10 d.digits with
        | [] => exact absurd hdigits hwhole.nonempty
        | [_] => rfl
        | first :: second :: rest => exact (hsingle first second rest hdigits).elim
      refine ⟨_, hread, Or.inr ?_⟩
      rw [hvalue, hlength]
      congr 1
      omega

end Render

/-! ## The range of the doubles -/

section Range

variable {b : Binary}

theorem upper_le_overflow (hb : b.InRange) : b.upper.toRat ≤ Double.overflow := by
  have hmantissa : (b.mantissa : ℚ) ≤ 2 ^ 53 - 1 := by
    rw [le_sub_iff_add_le]
    exact_mod_cast hb.mantissa_lt
  have hexponent : b.exponent - 1 ≤ ((970 : Nat) : Int) := by
    have hgreatest := hb.greatest
    omega
  rw [Binary.toRat_upper, Double.cast_overflow, ← zpow_natCast (2 : ℚ) 970]
  gcongr
  · linarith
  · norm_num

section Powers

variable {d : Scientific}

/-- The power of ten of a decimal that rounds to a double is bounded from below. -/
theorem le_power_of_lower_le (hb : b.InRange) (hlower : b.lower.toRat ≤ d.value.toRat) :
    -1075 ≤ d.exponent + (Nat.toDigits 10 d.digits).length - 1 := by
  have hgreatest := lt_pow_length_toDigits d.digits
  generalize (Nat.toDigits 10 d.digits).length = length at hgreatest ⊢
  rw [Binary.toRat_scientific] at hlower
  have hbase (k : Nat) : (10 : ℚ) ^ (-(k : ℤ)) ≤ 2 ^ (-(k : ℤ)) := by
    rw [zpow_neg, zpow_neg, zpow_natCast, zpow_natCast]
    gcongr
    norm_num
  have hsmall : (10 : ℚ) ^ (-1075 : ℤ) < 10 ^ ((length : ℤ) + d.exponent) := by
    calc (10 : ℚ) ^ (-1075 : ℤ) ≤ 2 ^ (-1075 : ℤ) := hbase 1075
      _ ≤ 2 ^ (b.exponent - 1) :=
          zpow_le_zpow_right₀ (by norm_num) (by have hexponent := hb.least; omega)
      _ ≤ b.lower.toRat := (Binary.lower_bounds hb).1
      _ ≤ d.digits * 10 ^ d.exponent := hlower
      _ < 10 ^ length * 10 ^ d.exponent := by
          gcongr
          exact_mod_cast hgreatest
      _ = 10 ^ ((length : ℤ) + d.exponent) := by rw [zpow_add₀ (by norm_num), zpow_natCast]
  have hlt := (zpow_lt_zpow_iff_right₀ (by norm_num)).mp hsmall
  omega

theorem power_le_of_le_upper
    (hb : b.InRange) (hpos : 0 < d.digits) (hupper : d.value.toRat ≤ b.upper.toRat) :
    d.exponent + (Nat.toDigits 10 d.digits).length - 1 ≤ 308 := by
  have hlength : 0 < (Nat.toDigits 10 d.digits).length := Nat.length_toDigits_pos
  have hleast := pow_length_toDigits_le hpos
  generalize (Nat.toDigits 10 d.digits).length = length at hlength hleast ⊢
  obtain ⟨n, rfl⟩ := Nat.exists_eq_add_one.mpr hlength
  rw [Nat.add_sub_cancel] at hleast
  rw [Binary.toRat_scientific] at hupper
  have hoverflow : ∀ k, k = 309 → Double.overflow < 10 ^ k := by
    rintro k rfl
    decide +kernel
  have hlarge : (10 : ℚ) ^ ((n : ℤ) + d.exponent) < 10 ^ ((309 : Nat) : ℤ) := by
    calc (10 : ℚ) ^ ((n : ℤ) + d.exponent) = 10 ^ n * 10 ^ d.exponent := by
          rw [zpow_add₀ (by norm_num), zpow_natCast]
      _ ≤ d.digits * 10 ^ d.exponent := by
          gcongr
          exact_mod_cast hleast
      _ ≤ b.upper.toRat := hupper
      _ ≤ Double.overflow := upper_le_overflow hb
      _ < 10 ^ ((309 : Nat) : ℤ) := by
          rw [zpow_natCast]
          exact_mod_cast hoverflow 309 rfl
  have hlt := (zpow_lt_zpow_iff_right₀ (by norm_num)).mp hlarge
  omega

end Powers

/-- Of the two greatest doubles the text is known, and so is what it is read as. -/
theorem isSome_toFloat?_greatest :
    ∀ tightBelow : Bool, ∀ mantissa ∈ [2 ^ 53 - 2, 2 ^ 53 - 1],
      let d := (Binary.mk mantissa 971 tightBelow).shortest.normalize
      (Digits.toFloat? ⟨d.digits, d.exponent⟩).isSome = true := by
  decide +kernel

/-- Every other double is far enough from the overflow for two roundings. -/
theorem excess_lt_overflow
    (hb : b.InRange) (hnot : ¬(b.exponent = 971 ∧ b.mantissa ∈ [2 ^ 53 - 2, 2 ^ 53 - 1])) :
    b.upper.toRat * Double.excess ^ 2 < Double.overflow := by
  obtain ⟨-, hlt, -, hgreatest⟩ := hb
  have htop : (2 : ℚ) ^ (b.exponent - 1) ≤ 2 ^ 970 := by
    rw [← zpow_natCast]
    exact zpow_le_zpow_right₀ (by norm_num) (by omega)
  have hhalf (hbelow : b.exponent < 971) : 2 * (2 : ℚ) ^ (b.exponent - 1) ≤ 2 ^ 970 := by
    rw [← zpow_one_add₀ (by norm_num), ← zpow_natCast]
    exact zpow_le_zpow_right₀ (by norm_num) (by omega)
  have hunit : (0 : ℚ) < 2 ^ (b.exponent - 1) := by positivity
  rw [Binary.toRat_upper, Double.cast_overflow]
  generalize (2 : ℚ) ^ 970 = greatest at htop hhalf ⊢
  generalize (2 : ℚ) ^ (b.exponent - 1) = unit at htop hhalf hunit ⊢
  -- At the greatest exponent the mantissa leaves the room, below it the exponent does.
  rcases eq_or_lt_of_le hgreatest with htopmost | hbelow
  · have hmantissa : (2 * b.mantissa + 1 : ℚ) ≤ 2 ^ 54 - 5 := by
      have hle : 2 * b.mantissa + 1 + 5 ≤ 2 ^ 54 := by
        simp only [htopmost, true_and, List.mem_cons, List.not_mem_nil, or_false] at hnot
        omega
      rw [le_sub_iff_add_le]
      exact_mod_cast hle
    have hpositive : 0 < greatest := hunit.trans_le htop
    have hsquare : (2 ^ 54 - 5) * Double.excess ^ 2 < 2 ^ 54 - 1 := by norm_num [Double.excess]
    calc (2 * b.mantissa + 1 : ℚ) * unit * Double.excess ^ 2
        ≤ (2 ^ 54 - 5) * greatest * Double.excess ^ 2 := by gcongr
      _ = (2 ^ 54 - 5) * Double.excess ^ 2 * greatest := by rw [mul_right_comm]
      _ < (2 ^ 54 - 1) * greatest := by gcongr
  · have hmantissa : (2 * b.mantissa + 1 : ℚ) ≤ 2 ^ 54 - 1 := by
      have hle : 2 * b.mantissa + 1 + 1 ≤ 2 ^ 54 := by omega
      rw [le_sub_iff_add_le]
      exact_mod_cast hle
    have hsquare : Double.excess ^ 2 < 2 := by norm_num [Double.excess]
    calc (2 * b.mantissa + 1 : ℚ) * unit * Double.excess ^ 2
        < (2 * b.mantissa + 1 : ℚ) * unit * 2 := by gcongr
      _ = (2 * b.mantissa + 1 : ℚ) * (2 * unit) := by ring
      _ ≤ (2 ^ 54 - 1) * greatest := by
          have hhalf := hhalf hbelow
          gcongr

/-- The digits and the power of ten that are printed make a double that is finite. -/
theorem isSome_toFloat?_printed (hb : b.InRange) :
    (Digits.toFloat? ⟨b.shortest.normalize.digits, b.shortest.normalize.exponent⟩).isSome =
      true := by
  obtain ⟨hpos, hfits, -, hupper⟩ := printed_spec hb
  have hpower := power_le_of_le_upper hb hpos hupper
  by_cases hgreatest : b.exponent = 971 ∧ b.mantissa ∈ [2 ^ 53 - 2, 2 ^ 53 - 1]
  · obtain ⟨mantissa, exponent, tightBelow⟩ := b
    obtain ⟨rfl, hmantissa⟩ := hgreatest
    exact isSome_toFloat?_greatest tightBelow mantissa hmantissa
  · have hroom := excess_lt_overflow hb hgreatest
    generalize b.shortest.normalize = d at hpos hfits hupper hpower ⊢
    have hlength : 0 < (Nat.toDigits 10 d.digits).length := Nat.length_toDigits_pos
    unfold Digits.toFloat?
    dsimp only
    split
    next hsign =>
      -- The digits and the power of ten are rounded on their own, and may both be too great.
      obtain ⟨e, he⟩ := Int.eq_ofNat_of_zero_le hsign
      have hword : d.digits.toUInt64.toNat = d.digits :=
        Nat.mod_eq_of_lt (Nat.lt_of_le_of_lt hfits (by decide))
      have hdigits := @Double.within_toFloat d.digits.toUInt64 (by omega)
      have htens := @Double.within_power e (by omega)
      rw [hword] at hdigits
      have hlt : (d.digits : ℚ) * Double.excess * (10 ^ e * Double.excess) < Double.overflow := by
        calc (d.digits : ℚ) * Double.excess * (10 ^ e * Double.excess)
            = d.value.toRat * Double.excess ^ 2 := by
              rw [Binary.toRat_scientific, he, zpow_natCast]
              ring
          _ ≤ b.upper.toRat * Double.excess ^ 2 := by gcongr
          _ < Double.overflow := hroom
      have hfinite := (Double.within_mul hdigits htens hlt).isInf
      rw [if_pos (by omega), he, Int.toNat_natCast, hfinite]
      rfl
    next => rfl

end Range

/-! ## The bits of a double -/

section Bits

open Float.Model Float.Model.UnpackedFloat

theorem toNat_magnitude (bits : UInt64) :
    (bits &&& 0x7FFFFFFFFFFFFFFF).toNat = bits.toNat % 2 ^ 63 := by
  rw [UInt64.toNat_and]
  exact Nat.and_two_pow_sub_one_eq_mod _ 63

theorem toNat_fraction (bits : UInt64) :
    (bits &&& 0xFFFFFFFFFFFFF).toNat = bits.toNat % 2 ^ 52 := by
  rw [UInt64.toNat_and]
  exact Nat.and_two_pow_sub_one_eq_mod _ 52

theorem toNat_biased (bits : UInt64) :
    ((bits >>> 52) &&& 0x7FF).toNat = bits.toNat / 2 ^ 52 % 2 ^ 11 := by
  rw [UInt64.toNat_and, UInt64.toNat_shiftRight, ← Nat.shiftRight_eq_div_pow]
  exact Nat.and_two_pow_sub_one_eq_mod _ 11

/-- A double is finite only if its exponent field is not full. -/
theorem biased_lt_of_isFinite {x : Float} (hx : x.isFinite = true) :
    x.toBits.toNat / 2 ^ 52 % 2 ^ 11 < 2047 := by
  have hexponent : (@unpackExponent Format.binary64 x.toBits.toBitVec).toNat =
      x.toBits.toNat / 2 ^ 52 % 2 ^ 11 := by
    simp [unpackExponent, BitVec.extractLsb, Nat.shiftRight_eq_div_pow]
  by_contra hge
  have hfull : @unpackExponent Format.binary64 x.toBits.toBitVec = -1#11 := by
    apply BitVec.eq_of_toNat_eq
    rw [hexponent]
    simp
    omega
  change (UnpackedFloat.unpack Format.binary64 x.toBits.toBitVec).isFinite = true at hx
  delta UnpackedFloat.unpack at hx
  rw [if_pos hfull] at hx
  split at hx <;> cases hx

theorem inRange_ofBits
    {x : Float} (hx : x.isFinite = true) (hnonzero : x.toBits &&& 0x7FFFFFFFFFFFFFFF ≠ 0) :
    (Binary.ofBits (x.toBits &&& 0x7FFFFFFFFFFFFFFF)).InRange := by
  have hfinite := biased_lt_of_isFinite hx
  have hmagnitude := toNat_magnitude x.toBits
  have hpos : x.toBits.toNat % 2 ^ 63 ≠ 0 := by
    rw [← hmagnitude]
    exact fun hzero => hnonzero (UInt64.toNat_inj.mp hzero)
  unfold Binary.ofBits
  simp only [toNat_fraction, toNat_biased, hmagnitude]
  split <;> constructor <;> simp only <;> omega

end Bits

/-! ## The text of a double -/

/-- A double that is finite is printed as a numeral of some double, perhaps with a sign. -/
theorem exists_readsAs_floatDigits {x : Float} (hx : x.isFinite = true) :
    ∃ text r y, ReadsAs text r ∧ r.toFloat? = some y ∧
      (floatDigits x = text ∨ floatDigits x = '-' :: text) := by
  have hsign (body : String) :
      ((if x.toBits = x.toBits &&& 0x7FFFFFFFFFFFFFFF then "" else "-") ++ body).toList =
          body.toList ∨
        ((if x.toBits = x.toBits &&& 0x7FFFFFFFFFFFFFFF then "" else "-") ++ body).toList =
          '-' :: body.toList := by
    split
    · exact Or.inl (by simp)
    · exact Or.inr (by simp)
  rw [floatDigits, if_pos hx, renderFloat]
  split
  next =>
    have hread := readsAs_point wholePart_zero wholePart_zero.isDigit wholePart_zero.nonempty
      (by decide)
    exact ⟨_, _, _, hread, rfl, hsign "0.0"⟩
  next hnonzero =>
    have hb := inRange_ofBits hx hnonzero
    obtain ⟨hpos, hfits, hlower, hupper⟩ := printed_spec hb
    have hleast := le_power_of_lower_le hb hlower
    have hgreatest := power_le_of_le_upper hb hpos hupper
    have hpower : (308 : Nat) ≤ maxExponent ∧ 1075 ≤ maxExponent := by decide
    obtain ⟨r, hread, hr⟩ := exists_readsAs_render hpos (hfits.trans (by decide)) (by omega)
    have hfinite : ∃ y, r.toFloat? = some y := by
      rcases hr with hnegative | rfl
      · exact ⟨_, if_neg (not_le.mpr hnegative)⟩
      · exact Option.isSome_iff_exists.mp (isSome_toFloat?_printed hb)
    obtain ⟨y, hy⟩ := hfinite
    exact ⟨_, r, y, hread, hy, hsign _⟩

end FlowSurvey.Json
