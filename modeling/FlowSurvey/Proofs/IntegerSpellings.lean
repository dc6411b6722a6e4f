import FlowSurvey.Proofs.ConstantMeanings
import FlowSurvey.Proofs.JsonText

/-!
# Spellings of integers

A number is spelled by its decimal digits, or in another base by a zero, the letter of the base
and the digits in either case, with any number of zeros in front.  Single underscores may stand
between the digits and behind the letter.  All spellings of a number are read alike, as that
number if it fits into a signed word of 64 bits and as nothing otherwise.  A letter for the width
of an integer or for an imaginary one is no digit in any base, so a text that has one is read as
nothing, too.
-/

namespace FlowSurvey

open Syntax Text

/-! ## Spellings -/

theorem grouped_self {digits : List Char} (hne : digits ≠ []) : Grouped digits digits := by
  induction digits with
  | nil => exact absurd rfl hne
  | cons d rest ih =>
    cases rest with
    | nil => exact .single d
    | cons e more => exact .digit d (ih (List.cons_ne_nil e more))

theorem isNumeral_of_map_toLower (zeros : Nat) {base k : Nat} {digits : List Char}
    (hdigits : digits.map Char.toLower = List.replicate zeros '0' ++ Nat.toDigits base k) :
    IsNumeral base digits k := by
  have hlength : digits.length = zeros + (Nat.toDigits base k).length := by
    simpa using congrArg List.length hdigits
  rw [IsNumeral, hdigits, List.leftpad, hlength, Nat.add_sub_cancel]

theorem isIntegerLiteral_decimal {k : Nat} {written : List Char}
    (hwritten : Grouped (Nat.toDigits 10 k) written) : IsIntegerLiteral written k := by
  have hdigit : ∀ i < 10, i.digitChar.toLower = i.digitChar := by decide
  have hsame : ∀ d ∈ Nat.toDigits 10 k, d.toLower = id d := by
    intro d hd
    obtain ⟨i, hi, rfl⟩ := exists_digitChar_of_mem_toDigits (by decide) hd
    exact hdigit i hi
  have hlower : (Nat.toDigits 10 k).map Char.toLower = Nat.toDigits 10 k := by
    rw [List.map_congr_left hsame, List.map_id]
  refine .decimal hwritten (isNumeral_of_map_toLower 0 hlower) fun hzero => ?_
  by_contra hne
  exact Json.head?_toDigits_ne_zero (Nat.pos_of_ne_zero hne) hzero

/-! ## Letters behind the digits -/

/-- What announces no base is left among the digits. -/
theorem mem_splitBase {cs : List Char} {c : Char} (hc : c ∈ cs) (hzero : c ≠ '0')
    (hletter : c ∉ baseLetters.map Prod.fst) : c ∈ (splitBase cs).2 := by
  unfold splitBase
  split <;> simp_all [baseLetters]

theorem integerValue?_eq_none_of_suffixLetter {text : String} {c : Char} (hc : c ∈ text.toList)
    (hsuffix : c ∈ suffixLetters) : integerValue? text = none := by
  obtain ⟨hunderscore, hhex, hletter⟩ := not_mem_of_mem_suffixLetters hsuffix
  have hzero : c ≠ '0' := by
    rintro rfl
    contradiction
  have hungrouped : c ∈ ungrouped text :=
    List.mem_filter.mpr ⟨hc, by simpa using hunderscore⟩
  have hmem := mem_splitBase hungrouped hzero hletter
  have hall : ¬ (splitBase (ungrouped text)).2.all
      (isDigitOf (splitBase (ungrouped text)).1) = true := by
    intro hall
    have hdigit := List.all_eq_true.mp hall c hmem
    simp [isDigitOf, hhex] at hdigit
  rw [integerValue?]
  simp [hall]

/--
The literals of a number are all its spellings.  Whichever of them is read, the value is the
number itself up to the largest signed word of 64 bits and nothing beyond, and the same holds of
an integer in a tree.  With one of the letters behind it that say how wide an integer is or that
it is imaginary, it has no value.
-/
theorem integer_kept_or_skipped (k : Nat) :
    (∀ written, Grouped (Nat.toDigits 10 k) written → IsIntegerLiteral written k) ∧
    (∀ letter base front zeros digits written, (letter, base) ∈ baseLetters →
      (front = [] ∨ front = ['_']) →
      digits.map Char.toLower = List.replicate zeros '0' ++ Nat.toDigits base k →
      Grouped digits written → IsIntegerLiteral ('0' :: letter :: (front ++ written)) k) ∧
    ∀ text : String, IsIntegerLiteral text.toList k →
      (integerValue? text = if k ≤ 2 ^ 63 - 1 then some k else none) ∧
      (∀ c ∈ ['j', 'J', 'l', 'L'], integerValue? (text.push c) = none) ∧
      ∀ n : Node, n.kind = .integer →
        (n.text = text → constant? n = if k ≤ 2 ^ 63 - 1 then some (.ofNat k) else none) ∧
        ∀ c ∈ ['j', 'J', 'l', 'L'], n.text = text.push c → constant? n = none := by
  refine ⟨fun written => isIntegerLiteral_decimal, ?_, fun text htext => ?_⟩
  · intro letter base front zeros digits written hletter hfront hdigits hwritten
    exact .inBase hletter hfront hwritten (isNumeral_of_map_toLower zeros hdigits)
  have hvalue : integerValue? text = if k ≤ 2 ^ 63 - 1 then some k else none :=
    integerValue?_of_isIntegerLiteral htext
  have hsuffix (c : Char) (hc : c ∈ ['j', 'J', 'l', 'L']) : integerValue? (text.push c) = none := by
    have hletters : ['j', 'J', 'l', 'L'] ⊆ suffixLetters := by decide
    exact integerValue?_eq_none_of_suffixLetter (by simp) (hletters hc)
  refine ⟨hvalue, hsuffix, fun n hkind => ⟨?_, ?_⟩⟩
  · rintro rfl
    rw [constant?_of_integer hkind, hvalue]
    split <;> rfl
  · intro c hc hn
    rw [constant?_of_integer hkind, hn, hsuffix c hc, Option.map_none]

/-- The digits of the largest signed word, with a zero in front. -/
theorem integer_kept_or_skipped_largest :
    IsIntegerLiteral "0X_0_7fffFFFFffffFFFF".toList (2 ^ 63 - 1) ∧
      integerValue? "0X_0_7fffFFFFffffFFFF" = some (2 ^ 63 - 1) ∧
      integerValue? ("0X_0_7fffFFFFffffFFFF".push 'L') = none ∧
      IsIntegerLiteral "0x8000000000000000".toList (2 ^ 63) ∧
      integerValue? "0x8000000000000000" = none := by
  obtain ⟨-, hbases, hread⟩ := integer_kept_or_skipped (2 ^ 63 - 1)
  obtain ⟨-, hbases', hread'⟩ := integer_kept_or_skipped (2 ^ 63)
  have hlargest : IsIntegerLiteral "0X_0_7fffFFFFffffFFFF".toList (2 ^ 63 - 1) :=
    hbases 'X' 16 ['_'] 1 ('0' :: "7fffFFFFffffFFFF".toList) _ (by decide) (.inr rfl)
      (by decide +kernel) (.underscore '0' (grouped_self (by decide +kernel)))
  have hbeyond : IsIntegerLiteral "0x8000000000000000".toList (2 ^ 63) :=
    hbases' 'x' 16 [] 0 "8000000000000000".toList _ (by decide) (.inl rfl)
      (by decide +kernel) (grouped_self (by decide +kernel))
  obtain ⟨hvalue, hsuffix, -⟩ := hread _ hlargest
  exact ⟨hlargest, hvalue, hsuffix 'L' (by decide), hbeyond, (hread' _ hbeyond).1⟩

end FlowSurvey
