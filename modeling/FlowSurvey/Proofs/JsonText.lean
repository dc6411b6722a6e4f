import FlowSurvey.Json.Printer
import FlowSurvey.Json.Reader

/-!
# Numerals and quoted texts

A printed whole number is read back as the same number, and a quoted text as the
same text, whatever follows.  What follows a numeral must not go on with it; what
follows a closing quote may be anything.
-/

namespace FlowSurvey.Json

/-! ## Whole numbers -/

/-- What may stand behind a numeral without becoming a part of it. -/
def EndsNumeral (rest : List Char) : Prop :=
  ∀ c ∈ rest.head?, c.isDigit = false ∧ c ≠ '.' ∧ c ≠ 'e' ∧ c ≠ 'E'

/-- What may stand behind digits without being taken with them. -/
def EndsDigits (rest : List Char) : Prop :=
  ∀ c ∈ rest.head?, c.isDigit = false

theorem endsNumeral_nil : EndsNumeral [] := by
  intro c hc
  cases hc

theorem EndsNumeral.endsDigits {rest : List Char} (hrest : EndsNumeral rest) : EndsDigits rest :=
  fun c hc => (hrest c hc).1

theorem endsDigits_cons {c : Char} (hc : c.isDigit = false) (cs : List Char) :
    EndsDigits (c :: cs) := by
  intro d hd
  obtain rfl : c = d := Option.some.inj hd
  exact hc

theorem digitValue_of_isDigit {c : Char} (hdigit : c.isDigit = true) :
    Text.digitValue c = c.toNat - '0'.toNat := by
  simp [Text.digitValue, hdigit]

theorem le_ofDigitChars (digits : List Char) (start : Nat) :
    start ≤ Nat.ofDigitChars 10 digits start := by
  induction digits generalizing start with
  | nil => simp
  | cons c rest ih =>
      rw [Nat.ofDigitChars_cons]
      exact Nat.le_trans (by omega) (ih _)

theorem ofDigitChars_cons_of_isDigit
    {c : Char} (hdigit : c.isDigit = true) (digits : List Char) (start : Nat) :
    Nat.ofDigitChars 10 (c :: digits) start =
      Nat.ofDigitChars 10 digits (start * 10 + Text.digitValue c) := by
  rw [Nat.ofDigitChars_cons, digitValue_of_isDigit hdigit, Nat.mul_comm]

theorem readInteger_of_endsNumeral
    (positive : Bool) (significand : Nat) {rest : List Char} (hrest : EndsNumeral rest) :
    readInteger positive significand rest = .ok (finishWhole positive significand, rest) := by
  cases rest with
  | nil => rfl
  | cons c cs =>
      obtain ⟨hdigit, hpoint, hlower, hupper⟩ := hrest c rfl
      have hnone : readFractionOrExponent? positive ⟨significand, 0⟩ (c :: cs) = none := by
        unfold readFractionOrExponent?
        split <;> simp_all
      simp [readInteger, hdigit, hnone]

/-- Digits are taken one after another as long as all of them fit. -/
theorem readInteger_append
    (positive : Bool) {significand : Nat} {digits : List Char}
    (hdigits : ∀ c ∈ digits, c.isDigit = true)
    (hfits : Nat.ofDigitChars 10 digits significand ≤ maxWord) (rest : List Char) :
    readInteger positive significand (digits ++ rest) =
      readInteger positive (Nat.ofDigitChars 10 digits significand) rest := by
  induction digits generalizing significand with
  | nil => simp
  | cons c cs ih =>
      have hdigit := hdigits c List.mem_cons_self
      rw [ofDigitChars_cons_of_isDigit hdigit] at hfits ⊢
      have hpush : Digits.push? ⟨significand, 0⟩ (Text.digitValue c) =
          some (significand * 10 + Text.digitValue c) := by
        have hle := le_ofDigitChars cs (significand * 10 + Text.digitValue c)
        exact if_pos (Nat.le_trans hle hfits)
      have htail := ih (fun d hd => hdigits d (List.mem_cons_of_mem _ hd)) hfits
      rw [List.cons_append, readInteger, if_pos hdigit, hpush]
      exact htail

theorem head?_toDigits_ne_zero {n : Nat} (hpos : 0 < n) :
    (Nat.toDigits 10 n).head? ≠ some '0' := by
  induction n using Nat.strongRecOn with
  | ind n ih =>
      by_cases hsmall : n < 10
      · have hdigits : ∀ d < 10, 0 < d → d.digitChar ≠ '0' := by decide
        rw [Nat.toDigits_of_lt_base hsmall]
        simpa using hdigits n hsmall hpos
      · have hprefix := ih (n / 10) (by omega) (by omega)
        rw [Nat.toDigits_of_base_le (by omega) (by omega)]
        cases hdigits : Nat.toDigits 10 (n / 10) with
        | nil => exact absurd hdigits Nat.toDigits_ne_nil
        | cons c cs =>
            rw [hdigits] at hprefix
            exact hprefix

/-- Digits that do not begin with a zero are taken together. -/
theorem readNumber_append
    (positive : Bool) {digits : List Char} (hdigits : ∀ c ∈ digits, c.isDigit = true)
    (hne : digits ≠ []) (hhead : digits.head? ≠ some '0')
    (hfits : Nat.ofDigitChars 10 digits 0 ≤ maxWord) (rest : List Char) :
    readNumber positive (digits ++ rest) =
      readInteger positive (Nat.ofDigitChars 10 digits 0) rest := by
  obtain ⟨c, cs, rfl⟩ := List.exists_cons_of_ne_nil hne
  have hc : c ≠ '0' := by simpa using hhead
  have hdigit := hdigits c List.mem_cons_self
  rw [ofDigitChars_cons_of_isDigit hdigit, Nat.zero_mul, Nat.zero_add] at hfits ⊢
  have htail := readInteger_append positive
    (fun d hd => hdigits d (List.mem_cons_of_mem _ hd)) hfits rest
  simpa [readNumber, hc, hdigit] using htail

/-- A zero is taken alone. -/
theorem readNumber_zero
    (positive : Bool) {rest : List Char} (hrest : EndsDigits rest) :
    readNumber positive ('0' :: rest) = readInteger positive 0 rest := by
  cases rest with
  | nil => rfl
  | cons c cs => simp [readNumber, hrest c rfl]

theorem isDigit_of_mem_toDigits {n : Nat} : ∀ c ∈ Nat.toDigits 10 n, c.isDigit = true :=
  fun _ hc => Nat.isDigit_of_mem_toDigits (by omega) (by omega) hc

theorem readNumber_toDigits
    (positive : Bool) {n : Nat} (hfits : n ≤ maxWord) {rest : List Char}
    (hrest : EndsNumeral rest) :
    readNumber positive (Nat.toDigits 10 n ++ rest) = .ok (finishWhole positive n, rest) := by
  rcases Nat.eq_zero_or_pos n with rfl | hpos
  · rw [Nat.toDigits_zero, List.singleton_append, readNumber_zero positive hrest.endsDigits]
    exact readInteger_of_endsNumeral positive 0 hrest
  · have hvalue := @Nat.ofDigitChars_ten_toDigits n
    rw [readNumber_append positive isDigit_of_mem_toDigits Nat.toDigits_ne_nil
      (head?_toDigits_ne_zero hpos) (by rwa [hvalue]), hvalue]
    exact readInteger_of_endsNumeral positive n hrest

theorem finishWhole_true {n : Whole} (hsign : 0 ≤ n.val) :
    finishWhole true n.val.natAbs = .whole n := by
  obtain ⟨value, lower, upper⟩ := n
  have hupper : value.natAbs < 18446744073709551616 := by
    have : 0 ≤ value := hsign
    omega
  have hvalue : (value.natAbs : Int) = value := Int.natAbs_of_nonneg hsign
  rw [finishWhole, if_pos rfl, ofNat, dif_pos hupper]
  simp only [hvalue]

theorem finishWhole_false {n : Whole} (hsign : n.val < 0) :
    finishWhole false n.val.natAbs = .whole n := by
  obtain ⟨value, lower, upper⟩ := n
  have hnegative : value < 0 := hsign
  have hrange : 0 < value.natAbs ∧ value.natAbs ≤ 9223372036854775808 := by omega
  have hvalue : -(value.natAbs : Int) = value := by omega
  rw [finishWhole, if_neg (by decide), dif_pos hrange]
  simp only [hvalue]

theorem natAbs_le_maxWord (n : Whole) : n.val.natAbs ≤ maxWord := by
  have hlower := n.lower
  have hupper := n.upper
  unfold maxWord
  omega

/-! ## Quoted texts -/

theorem hexDigit_spec :
    ∀ d < 16, Text.isHexDigit (hexDigit d) = true ∧ Text.digitValue (hexDigit d) = d := by
  decide

theorem readHex_code {code : Nat} (hcode : code < 0x20) (rest : List Char) :
    readHex ('0' :: '0' :: hexDigit (code / 16) :: hexDigit (code % 16) :: rest) =
      .ok (code, rest) := by
  obtain ⟨hhighHex, hhigh⟩ := hexDigit_spec (code / 16) (by omega)
  obtain ⟨hlowHex, hlow⟩ := hexDigit_spec (code % 16) (by omega)
  have hzeroHex : Text.isHexDigit '0' = true := by decide
  have hzero : Text.digitValue '0' = 0 := by decide
  have hsum : code / 16 * 16 + code % 16 = code := by omega
  simp [readHex, hhighHex, hlowHex, hzeroHex, Text.numeral, hzero, hhigh, hlow, hsum]

theorem readUnicodeEscape_control {c : Char} (hcontrol : c.toNat < 0x20) (rest : List Char) :
    readUnicodeEscape
        ('0' :: '0' :: hexDigit (c.toNat / 16) :: hexDigit (c.toNat % 16) :: rest) =
      .ok (c, rest) := by
  have htrailing : isTrailingSurrogate c.toNat = false := by
    simp [isTrailingSurrogate]
    omega
  have hleading : isLeadingSurrogate c.toNat = false := by
    simp [isLeadingSurrogate]
    omega
  simp [readUnicodeEscape, readHex_code hcontrol, htrailing, hleading, bind, Except.bind]

theorem readStringChar_plain
    {c : Char} (hquote : c ≠ '"') (hslash : c ≠ '\\') (hplain : ¬c.toNat < 0x20)
    (rest : List Char) : readStringChar (c :: rest) = .ok (some c, rest) := by
  unfold readStringChar
  split
  case h_6 heq =>
    obtain ⟨rfl, rfl⟩ := List.cons.inj heq
    exact if_neg hplain
  all_goals simp_all

/-- Each character is read back from what it is written as. -/
theorem readStringChar_escapeChar (c : Char) (rest : List Char) :
    readStringChar (escapeChar c ++ rest) = .ok (some c, rest) := by
  unfold escapeChar
  split
  case h_8 hquote hslash _ _ _ _ _ =>
    split
    next hcontrol =>
      have hread := readUnicodeEscape_control hcontrol rest
      simp [readStringChar, hread, bind, Except.bind]
    next hplain => exact readStringChar_plain hquote hslash hplain rest
  all_goals rfl

theorem escapeChar_ne_nil (c : Char) : escapeChar c ≠ [] := by
  unfold escapeChar
  split
  case h_8 => split <;> exact List.cons_ne_nil _ _
  all_goals exact List.cons_ne_nil _ _

theorem readStringBody_escaped
    {fuel : Nat} {text : List Char} (hfuel : text.length < fuel) (rest : List Char) :
    readStringBody fuel (text.flatMap escapeChar ++ '"' :: rest) = .ok (text, rest) := by
  induction text generalizing fuel with
  | nil =>
      obtain ⟨n, rfl⟩ := Nat.exists_eq_add_one.mpr hfuel
      rfl
  | cons c cs ih =>
      obtain ⟨n, rfl⟩ := Nat.exists_eq_add_one.mpr (Nat.zero_lt_of_lt hfuel)
      have hchar := readStringChar_escapeChar c (cs.flatMap escapeChar ++ '"' :: rest)
      have htail := @ih n (by simpa using hfuel)
      rw [List.flatMap_cons, List.append_assoc, readStringBody, hchar]
      simp [htail, bind, Except.bind]

theorem length_le_length_escaped (text : List Char) :
    text.length ≤ (text.flatMap escapeChar).length := by
  induction text with
  | nil => simp
  | cons c cs ih =>
      have hpos := List.length_pos_iff.mpr (escapeChar_ne_nil c)
      simp only [List.flatMap_cons, List.length_append, List.length_cons]
      omega

theorem readString_escaped (text : String) (rest : List Char) :
    readString (text.toList.flatMap escapeChar ++ '"' :: rest) = .ok (text, rest) := by
  have hlength := length_le_length_escaped text.toList
  have hfuel : text.toList.length <
      (text.toList.flatMap escapeChar ++ '"' :: rest).length + 1 := by
    rw [List.length_append]
    omega
  have hbody := readStringBody_escaped hfuel rest
  simp only [readString, hbody, bind, Except.bind, String.ofList_toList]

end FlowSurvey.Json
