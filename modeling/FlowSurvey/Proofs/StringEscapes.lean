import FlowSurvey.Text.StringToken
import Mathlib.Data.List.Basic

/-!
# Escapes in string literals

A text can be written in many ways: a character stands for itself or is escaped by a letter,
by its code point or by octal digits, and lines can be joined anywhere between characters.
How a text is written is stated here as a relation between bodies and texts, with one rule
for each form of escape, and every body is decoded to the text that it spells.
-/

namespace FlowSurvey.Text

/-! ## Numerals -/

/-- The digits of a number in a base, in either case, with zeros in front. -/
def IsNumeral (base : Nat) (digits : List Char) (n : Nat) : Prop :=
  digits.map Char.toLower = (Nat.toDigits base n).leftpad digits.length '0'

theorem numeral_concat (base : Nat) (digits : List Char) (d : Char) :
    numeral base (digits ++ [d]) = numeral base digits * base + digitValue d := by
  simp [numeral]

theorem digitValue_digitChar : ∀ k < 16, digitValue k.digitChar = k := by
  decide

theorem numeral_toDigits {base : Nat} (hbase : 1 < base) (hle : base ≤ 16) (n : Nat) :
    numeral base (Nat.toDigits base n) = n := by
  induction n using Nat.strongRecOn with
  | ind n ih =>
    by_cases hn : n < base
    · rw [Nat.toDigits_of_lt_base hn]
      simpa [numeral] using digitValue_digitChar n (by omega)
    · have hmod := Nat.mod_lt n (show 0 < base by omega)
      rw [Nat.toDigits_of_base_le hbase (by omega), numeral_concat,
        ih (n / base) (Nat.div_lt_self (by omega) hbase), digitValue_digitChar _ (by omega),
        Nat.mul_comm]
      exact Nat.div_add_mod n base

theorem exists_digitChar_of_mem_toDigits
    {base n : Nat} {d : Char} (hbase : 1 < base) (hd : d ∈ Nat.toDigits base n) :
    ∃ k < base, d = k.digitChar := by
  induction n using Nat.strongRecOn with
  | ind n ih =>
    by_cases hn : n < base
    · rw [Nat.toDigits_of_lt_base hn, List.mem_singleton] at hd
      exact ⟨n, hn, hd⟩
    · rw [Nat.toDigits_of_base_le hbase (by omega), List.mem_append, List.mem_singleton] at hd
      rcases hd with hd | hd
      · exact ih (n / base) (Nat.div_lt_self (by omega) hbase) hd
      · exact ⟨n % base, Nat.mod_lt n (by omega), hd⟩

theorem numeral_replicate_zero_append (base k : Nat) (digits : List Char) :
    numeral base (List.replicate k '0' ++ digits) = numeral base digits := by
  induction k with
  | zero => rfl
  | succ k ih =>
    rw [List.replicate_succ, List.cons_append]
    have hzero : digitValue '0' = 0 := by decide
    simp only [numeral, List.foldl_cons, Nat.zero_mul, hzero, Nat.zero_add] at ih ⊢
    exact ih

theorem toNat_digitChar : ∀ k < 16, k.digitChar.toNat = if k < 10 then k + 48 else k + 87 := by
  decide

/-- A letter among the digits is written in either case. -/
theorem eq_of_toLower_eq_digitChar
    {c : Char} {k : Nat} (hk : k < 16) (hc : c.toLower = k.digitChar) :
    c = k.digitChar ∨ 10 ≤ k ∧ c = Char.ofNat (k + 55) := by
  unfold Char.toLower at hc
  split at hc
  next hupper =>
    have hcode : c.toNat + 32 = k.digitChar.toNat := by
      have hle : c.val.toNat ≤ 90 := hupper.2
      rw [← hc]
      change c.val.toNat + 32 = (c.val + 32).toNat
      rw [UInt32.toNat_add]
      exact (Nat.mod_eq_of_lt (show c.val.toNat + 32 < 2 ^ 32 by omega)).symm
    rw [toNat_digitChar k hk] at hcode
    have hge : 65 ≤ c.toNat := hupper.1
    refine .inr ⟨by split at hcode <;> omega, ?_⟩
    rw [← Char.ofNat_toNat c]
    congr 1
    split at hcode <;> omega
  next => exact .inl hc

theorem hexDigit_of_toLower_eq
    {c : Char} {k : Nat} (hk : k < 16) (hc : c.toLower = k.digitChar) :
    isHexDigit c = true ∧ digitValue c = k := by
  have hlower : ∀ k < 16, isHexDigit k.digitChar = true := by decide
  have hupper : ∀ k < 16, 10 ≤ k →
      isHexDigit (Char.ofNat (k + 55)) = true ∧ digitValue (Char.ofNat (k + 55)) = k := by
    decide
  rcases eq_of_toLower_eq_digitChar hk hc with rfl | ⟨hge, rfl⟩
  · exact ⟨hlower k hk, digitValue_digitChar k hk⟩
  · exact hupper k hk hge

theorem octalDigit_of_toLower_eq
    {c : Char} {k : Nat} (hk : k < 8) (hc : c.toLower = k.digitChar) : isOctalDigit c = true := by
  have hoctal : ∀ k < 8, isOctalDigit k.digitChar = true := by decide
  rcases eq_of_toLower_eq_digitChar (by omega) hc with rfl | ⟨hge, -⟩
  · exact hoctal k hk
  · omega

theorem IsNumeral.exists_digitChar
    {base n : Nat} {digits : List Char} (hbase : 1 < base) (hdigits : IsNumeral base digits n)
    {d : Char} (hd : d ∈ digits) : ∃ k < base, d.toLower = k.digitChar := by
  have hmem : d.toLower ∈ (Nat.toDigits base n).leftpad digits.length '0' :=
    hdigits ▸ List.mem_map_of_mem hd
  rw [List.leftpad, List.mem_append] at hmem
  rcases hmem with hzero | hdigit
  · exact ⟨0, by omega, List.eq_of_mem_replicate hzero⟩
  · exact exists_digitChar_of_mem_toDigits hbase hdigit

/-- The digits spell the number for the reader too. -/
theorem IsNumeral.numeral_eq
    {base n : Nat} {digits : List Char} (hbase : 1 < base) (hle : base ≤ 16)
    (hdigits : IsNumeral base digits n) : numeral base digits = n := by
  have hlower : numeral base (digits.map Char.toLower) = numeral base digits := by
    rw [numeral, List.foldl_map]
    refine List.foldl_ext _ _ 0 fun value d hd => ?_
    obtain ⟨k, hk, hlower⟩ := hdigits.exists_digitChar hbase hd
    rw [hlower, digitValue_digitChar k (by omega), (hexDigit_of_toLower_eq (by omega) hlower).2]
  rw [← hlower, hdigits, List.leftpad, numeral_replicate_zero_append,
    numeral_toDigits hbase hle]

/-! ## Escapes -/

/-- The escapes of one character, with what they stand for. -/
def simpleEscapes : List (Char × Char) :=
  [('\\', '\\'), ('\'', '\''), ('"', '"'), ('a', '\x07'), ('b', '\x08'), ('f', '\x0c'),
    ('n', '\n'), ('r', '\r'), ('t', '\t'), ('v', '\x0b')]

/-- The letters before a code point, with the number of its digits. -/
def hexEscapes : List (Char × Nat) :=
  [('x', 2), ('u', 4), ('U', 8)]

def octalDigits : List Char :=
  ['0', '1', '2', '3', '4', '5', '6', '7']

/-- What means something else behind a backslash.  Characters are not looked up by name. -/
def escapeStarts : List Char :=
  '\n' :: simpleEscapes.map Prod.fst ++ hexEscapes.map Prod.fst ++ octalDigits

/-- The ways to write a text in a literal that is not raw. -/
inductive Spells : (body text : List Char) → Prop
  | nil : Spells [] []
  | plain {c : Char} {body text : List Char}
      (hbackslash : c ≠ '\\') (hreturn : c ≠ '\r') (hbody : Spells body text) :
      Spells (c :: body) (c :: text)
  | simple {letter c : Char} {body text : List Char}
      (hletter : (letter, c) ∈ simpleEscapes) (hbody : Spells body text) :
      Spells ('\\' :: letter :: body) (c :: text)
  | hex {letter c : Char} {digits body text : List Char}
      (hletter : (letter, digits.length) ∈ hexEscapes)
      (hdigits : IsNumeral 16 digits c.toNat) (hbody : Spells body text) :
      Spells ('\\' :: letter :: (digits ++ body)) (c :: text)
  /-- Fewer than three digits are followed by something else. -/
  | octal {c : Char} {digits body text : List Char}
      (hne : digits ≠ []) (hle : digits.length ≤ 3) (hdigits : IsNumeral 8 digits c.toNat)
      (hend : digits.length < 3 → ∀ d ∈ body.head?, d ∉ octalDigits) (hbody : Spells body text) :
      Spells ('\\' :: (digits ++ body)) (c :: text)
  | joined {body text : List Char} (hbody : Spells body text) :
      Spells ('\\' :: '\n' :: body) text
  /-- A backslash that starts no escape stands for itself. -/
  | other {c : Char} {body text : List Char}
      (hc : c ∉ escapeStarts) (hbody : Spells body text) :
      Spells ('\\' :: c :: body) ('\\' :: c :: text)

theorem spanUpTo_append_of_ends
    {p : Char → Bool} {n : Nat} {digits rest : List Char}
    (hdigits : ∀ d ∈ digits, p d = true) (hle : digits.length ≤ n)
    (hend : digits.length < n → ∀ d ∈ rest.head?, p d = false) :
    spanUpTo p n (digits ++ rest) = (digits, rest) := by
  induction digits generalizing n with
  | nil =>
    cases n with
    | zero => rfl
    | succ n =>
      cases rest with
      | nil => rfl
      | cons d more => simp [spanUpTo, hend (by simp) d rfl]
  | cons d more ih =>
    obtain ⟨n, rfl⟩ : ∃ m, n = m + 1 := ⟨n - 1, by simp at hle; omega⟩
    have hmore := ih (fun e he => hdigits e (List.mem_cons_of_mem d he))
      (by simpa using hle) (fun hlt => hend (by simpa using hlt))
    simp [spanUpTo, hdigits d List.mem_cons_self, hmore]

theorem unescape_nil : unescape [] = [] := by
  rw [unescape]

theorem unescape_plain {c : Char} (hc : c ≠ '\\') (rest : List Char) :
    unescape (c :: rest) = c :: unescape rest := by
  rw [unescape]
  simp [hc]

theorem unescape_joined (rest : List Char) : unescape ('\\' :: '\n' :: rest) = unescape rest := by
  rw [unescape, if_pos rfl]

theorem unescape_simple
    {letter c : Char} (hletter : (letter, c) ∈ simpleEscapes) (rest : List Char) :
    unescape ('\\' :: letter :: rest) = c :: unescape rest := by
  have htable : ∀ e ∈ simpleEscapes, e.1 ≠ '\n' ∧ simpleEscape e.1 = some e.2 := by decide
  obtain ⟨hnewline, hsimple⟩ := htable _ hletter
  rw [unescape, if_neg hnewline]
  simp only [hsimple]

theorem unescape_hex
    {letter : Char} {width : Nat} (hletter : (letter, width) ∈ hexEscapes) (rest : List Char) :
    unescape ('\\' :: letter :: rest) =
      hexEscape letter width (spanUpTo isHexDigit width rest).1 ++
        unescape (spanUpTo isHexDigit width rest).2 := by
  have htable : ∀ e ∈ hexEscapes,
      e.1 ≠ '\n' ∧ simpleEscape e.1 = none ∧ hexEscapeWidth e.1 = some e.2 := by decide
  obtain ⟨hnewline, hsimple, hwidth⟩ := htable _ hletter
  rw [unescape, if_neg hnewline]
  simp only [hsimple, hwidth]

theorem isOctalDigit_iff {c : Char} : isOctalDigit c = true ↔ c ∈ octalDigits := by
  constructor
  · intro hc
    have hcodes : ∀ n < 56, 48 ≤ n → Char.ofNat n ∈ octalDigits := by decide
    simp only [isOctalDigit, Bool.and_eq_true, decide_eq_true_eq] at hc
    have hge : 48 ≤ c.toNat := hc.1
    have hle : c.toNat ≤ 55 := hc.2
    rw [← Char.ofNat_toNat c]
    exact hcodes c.toNat (by omega) hge
  · have htable : octalDigits.all isOctalDigit = true := by decide
    exact List.all_eq_true.mp htable c

theorem unescape_octal {d : Char} (hd : d ∈ octalDigits) (rest : List Char) :
    unescape ('\\' :: d :: rest) =
      Char.ofNat (numeral 8 (d :: (spanUpTo isOctalDigit 2 rest).1)) ::
        unescape (spanUpTo isOctalDigit 2 rest).2 := by
  have htable : octalDigits.all fun d =>
      d ≠ '\n' ∧ simpleEscape d = none ∧ hexEscapeWidth d = none := by decide
  obtain ⟨hnewline, hsimple, hwidth⟩ := of_decide_eq_true (List.all_eq_true.mp htable d hd)
  rw [unescape, if_neg hnewline]
  simp only [hsimple, hwidth, isOctalDigit_iff.mpr hd, if_true]

theorem unescape_other {c : Char} (hc : c ∉ escapeStarts) (rest : List Char) :
    unescape ('\\' :: c :: rest) = '\\' :: c :: unescape rest := by
  simp only [escapeStarts, List.mem_append, List.mem_cons, not_or] at hc
  obtain ⟨⟨⟨hnewline, hsimple⟩, hhex⟩, hoctal⟩ := hc
  have hsimple : simpleEscape c = none := by
    unfold simpleEscape
    split <;> simp_all [simpleEscapes]
  have hwidth : hexEscapeWidth c = none := by
    unfold hexEscapeWidth
    split <;> simp_all [hexEscapes]
  rw [unescape, if_neg hnewline]
  simp only [hsimple, hwidth, isOctalDigit_iff, hoctal, if_false]

theorem hexEscape_of_isNumeral
    (letter : Char) {c : Char} {digits : List Char} (hdigits : IsNumeral 16 digits c.toNat) :
    hexEscape letter digits.length digits = [c] := by
  have hvalid : c.toNat.isValidChar := c.valid
  have hvalue := hdigits.numeral_eq (by omega) (by omega)
  simp [hexEscape, hvalue, hvalid]

theorem unescape_octal_append
    {c : Char} {digits rest : List Char} (hne : digits ≠ []) (hle : digits.length ≤ 3)
    (hdigits : IsNumeral 8 digits c.toNat)
    (hend : digits.length < 3 → ∀ d ∈ rest.head?, d ∉ octalDigits) :
    unescape ('\\' :: (digits ++ rest)) = c :: unescape rest := by
  have hoctal (d : Char) (hd : d ∈ digits) : isOctalDigit d = true := by
    obtain ⟨k, hk, hlower⟩ := hdigits.exists_digitChar (by omega) hd
    exact octalDigit_of_toLower_eq hk hlower
  have hvalue := hdigits.numeral_eq (by omega) (by omega)
  obtain ⟨d, more, rfl⟩ := List.exists_cons_of_ne_nil hne
  have hspan : spanUpTo isOctalDigit 2 (more ++ rest) = (more, rest) := by
    refine spanUpTo_append_of_ends (fun e he => hoctal e (List.mem_cons_of_mem d he))
      (Nat.le_of_succ_le_succ hle) fun hlt e he => ?_
    rw [Bool.eq_false_iff, ne_eq, isOctalDigit_iff]
    exact hend (by rw [List.length_cons]; omega) e he
  rw [List.cons_append, unescape_octal (isOctalDigit_iff.mp (hoctal d List.mem_cons_self)), hspan,
    hvalue, Char.ofNat_toNat]

/-- Whatever spells a text is read as that text. -/
theorem Spells.unescape_eq {body text : List Char} (hbody : Spells body text) :
    unescape body = text := by
  induction hbody with
  | nil => exact unescape_nil
  | plain hbackslash _ _ ih => rw [unescape_plain hbackslash, ih]
  | simple hletter _ ih => rw [unescape_simple hletter, ih]
  | @hex letter c digits body text hletter hdigits _ ih =>
    have hhex (d : Char) (hd : d ∈ digits) : isHexDigit d = true := by
      obtain ⟨k, hk, hlower⟩ := hdigits.exists_digitChar (by omega) hd
      exact (hexDigit_of_toLower_eq hk hlower).1
    have hspan : spanUpTo isHexDigit digits.length (digits ++ body) = (digits, body) :=
      spanUpTo_append_of_ends hhex (Nat.le_refl _) fun hlt => absurd hlt (Nat.lt_irrefl _)
    rw [unescape_hex hletter, hspan, hexEscape_of_isNumeral letter hdigits, ih]
    rfl
  | octal hne hle hdigits hend _ ih => rw [unescape_octal_append hne hle hdigits hend, ih]
  | joined _ ih => rw [unescape_joined, ih]
  | other hc _ ih => rw [unescape_other hc, ih]

end FlowSurvey.Text
