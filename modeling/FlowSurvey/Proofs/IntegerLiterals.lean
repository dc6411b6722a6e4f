import FlowSurvey.Constant
import FlowSurvey.Proofs.StringEscapes
import FlowSurvey.Syntax.Lexeme
import Mathlib.Data.List.Induction

/-!
# Integer literals and the tokens that are taken for them

An integer literal spells its value in a base that its first characters announce, with single
underscores between the digits.  The tokens of integers are more than that: decimal digits may
start with zeros or end with an underscore, and a letter may follow them.  Such a letter leaves a
token without a value.  The zeros and the underscore do not, and the main result says exactly
which tokens have a value although they are no literals.
-/

namespace FlowSurvey

open Text

/-! ## Literals -/

/-- Digits as they are written, with at most one underscore between each two. -/
inductive Grouped : (digits written : List Char) → Prop
  | single (d : Char) : Grouped [d] [d]
  | digit (d : Char) {digits written : List Char} (hrest : Grouped digits written) :
      Grouped (d :: digits) (d :: written)
  | underscore (d : Char) {digits written : List Char} (hrest : Grouped digits written) :
      Grouped (d :: digits) (d :: '_' :: written)

/-- The letters that announce a base behind a zero. -/
def baseLetters : List (Char × Nat) :=
  [('x', 16), ('X', 16), ('o', 8), ('O', 8), ('b', 2), ('B', 2)]

inductive IsIntegerLiteral : (written : List Char) → (value : Nat) → Prop
  /-- In front of decimal digits there is no zero, unless they are all zeros. -/
  | decimal {digits written : List Char} {k : Nat} (hwritten : Grouped digits written)
      (hdigits : IsNumeral 10 digits k) (hzero : digits.head? = some '0' → k = 0) :
      IsIntegerLiteral written k
  | inBase {letter : Char} {base : Nat} {front digits written : List Char} {k : Nat}
      (hletter : (letter, base) ∈ baseLetters) (hfront : front = [] ∨ front = ['_'])
      (hwritten : Grouped digits written) (hdigits : IsNumeral base digits k) :
      IsIntegerLiteral ('0' :: letter :: (front ++ written)) k

/-- Decimal digits that are no literal: they end with an underscore or start with a zero. -/
def IsLooseInteger (written : List Char) (k : Nat) : Prop :=
  ∃ digits grouped, Grouped digits grouped ∧ IsNumeral 10 digits k ∧
    (written = grouped ++ ['_'] ∨ written = grouped ∧ digits.head? = some '0' ∧ k ≠ 0)

/-- What is taken for an integer off a text that starts with it. -/
def IsIntegerToken (written : List Char) : Prop :=
  ∃ cs, 0 < Syntax.integerLength cs ∧ written = cs.take (Syntax.integerLength cs)

/-! ## Digits -/

theorem toNat_lt_of_isHexDigit {c : Char} (hc : isHexDigit c = true) : c.toNat < 103 := by
  simp only [isHexDigit, Char.isDigit, Bool.or_eq_true, Bool.and_eq_true,
    decide_eq_true_eq] at hc
  rcases hc with (hdigit | hlower) | hupper
  · exact Nat.lt_of_le_of_lt hdigit.2 (by decide)
  · exact Nat.lt_of_le_of_lt hlower.2 (by decide)
  · exact Nat.lt_of_le_of_lt hupper.2 (by decide)

/-- In lower case a digit is the character of its value, which is below sixteen. -/
theorem toLower_eq_digitChar_of_isHexDigit {c : Char} (hc : isHexDigit c = true) :
    digitValue c < 16 ∧ c.toLower = (digitValue c).digitChar := by
  have hcodes : ∀ n < 103, isHexDigit (Char.ofNat n) = true →
      digitValue (Char.ofNat n) < 16 ∧
        (Char.ofNat n).toLower = (digitValue (Char.ofNat n)).digitChar := by decide
  have hcode := hcodes c.toNat (toNat_lt_of_isHexDigit hc)
  rw [Char.ofNat_toNat] at hcode
  exact hcode hc

theorem isDigitOf_iff {base : Nat} (hbase : base ≤ 16) {c : Char} :
    isDigitOf base c = true ↔ ∃ k < base, c.toLower = k.digitChar := by
  constructor
  · intro hc
    rw [isDigitOf, Bool.and_eq_true, decide_eq_true_eq] at hc
    exact ⟨digitValue c, hc.2, (toLower_eq_digitChar_of_isHexDigit hc.1).2⟩
  · rintro ⟨k, hk, hc⟩
    obtain ⟨hhex, hvalue⟩ := hexDigit_of_toLower_eq (by omega) hc
    simp [isDigitOf, hhex, hvalue, hk]

theorem not_isDigitOf_underscore (base : Nat) : isDigitOf base '_' = false := by
  have hhex : isHexDigit '_' = false := by decide
  simp [isDigitOf, hhex]

theorem ne_underscore_of_isDigitOf {base : Nat} {c : Char} (hc : isDigitOf base c = true) :
    c ≠ '_' := by
  rintro rfl
  simp [not_isDigitOf_underscore] at hc

theorem isNumeral_singleton {base k : Nat} (hk : k < base) {d : Char}
    (hd : d.toLower = k.digitChar) : IsNumeral base [d] k := by
  rw [IsNumeral, List.map_singleton, hd, Nat.toDigits_of_lt_base hk]
  rfl

theorem Text.IsNumeral.concat {base n k : Nat} (hbase : 1 < base) {digits : List Char}
    (hne : digits ≠ []) (hdigits : IsNumeral base digits n) (hk : k < base) {d : Char}
    (hd : d.toLower = k.digitChar) : IsNumeral base (digits ++ [d]) (n * base + k) := by
  rw [IsNumeral] at hdigits
  rw [IsNumeral, List.map_append, List.map_singleton, hd, hdigits, List.length_append,
    List.length_singleton]
  -- Behind zeros the last digit is the whole number, and behind another number its remainder.
  rcases Nat.eq_zero_or_pos n with rfl | hpos
  · obtain ⟨m, hm⟩ := Nat.exists_eq_succ_of_ne_zero (mt List.eq_nil_of_length_eq_zero hne)
    rw [Nat.zero_mul, Nat.zero_add, Nat.toDigits_of_lt_base hk, Nat.toDigits_of_lt_base (by omega),
      hm]
    simp [List.leftpad, List.replicate_succ', Nat.digitChar]
  · have hge : base ≤ n * base + k :=
      Nat.le_trans (Nat.le_mul_of_pos_left base hpos) (Nat.le_add_right _ _)
    have hdiv : (n * base + k) / base = n := by
      rw [Nat.mul_comm, Nat.mul_add_div (by omega), Nat.div_eq_of_lt hk, Nat.add_zero]
    have hmod : (n * base + k) % base = k := by
      rw [Nat.mul_comm, Nat.mul_add_mod, Nat.mod_eq_of_lt hk]
    rw [Nat.toDigits_of_base_le hbase hge, hdiv, hmod]
    simp [List.leftpad]

/-- All digits of a base spell a number in it, and it is the one that they are read as. -/
theorem isNumeral_numeral {base : Nat} (hbase : 1 < base) (hle : base ≤ 16) {digits : List Char}
    (hne : digits ≠ []) (hdigits : ∀ d ∈ digits, isDigitOf base d = true) :
    IsNumeral base digits (numeral base digits) := by
  induction digits using List.reverseRecOn with
  | nil => exact absurd rfl hne
  | append_singleton digits d ih =>
    obtain ⟨k, hk, hlower⟩ := (isDigitOf_iff hle).mp (hdigits d (by simp))
    have hvalue : digitValue d = k := (hexDigit_of_toLower_eq (by omega) hlower).2
    rw [numeral_concat, hvalue]
    by_cases hfirst : digits = []
    · subst hfirst
      rw [show numeral base [] = 0 from rfl, Nat.zero_mul, Nat.zero_add]
      exact isNumeral_singleton hk hlower
    · have hinit : IsNumeral base digits (numeral base digits) :=
        ih hfirst fun e he => hdigits e (by simp [he])
      exact hinit.concat hbase hfirst hk hlower

/-! ## Grouped digits -/

namespace Grouped

variable {digits written : List Char}

theorem ne_nil (hwritten : Grouped digits written) : digits ≠ [] := by
  cases hwritten <;> exact List.cons_ne_nil _ _

theorem exists_eq_cons (hwritten : Grouped digits written) :
    ∃ d ds ws, digits = d :: ds ∧ written = d :: ws := by
  cases hwritten <;> exact ⟨_, _, _, rfl, rfl⟩

theorem getLast?_eq (hwritten : Grouped digits written) : written.getLast? = digits.getLast? := by
  induction hwritten with
  | single d => rfl
  | digit d hrest ih =>
    obtain ⟨e, es, ws, rfl, rfl⟩ := hrest.exists_eq_cons
    simpa [List.getLast?_cons_cons] using ih
  | underscore d hrest ih =>
    obtain ⟨e, es, ws, rfl, rfl⟩ := hrest.exists_eq_cons
    simpa [List.getLast?_cons_cons] using ih

theorem filter_eq (hwritten : Grouped digits written) (hdigits : ∀ d ∈ digits, d ≠ '_') :
    written.filter (· ≠ '_') = digits := by
  induction hwritten with
  | single d => simpa using hdigits
  | digit d _ ih =>
    rw [List.forall_mem_cons] at hdigits
    rw [List.filter_cons_of_pos (by simpa using hdigits.1), ih hdigits.2]
  | underscore d _ ih =>
    rw [List.forall_mem_cons] at hdigits
    rw [List.filter_cons_of_pos (by simpa using hdigits.1), List.filter_cons_of_neg (by simp),
      ih hdigits.2]

end Grouped

/-! ## Tokens -/

/-- The tokens of integers in a tree are taken off its source. -/
theorem isIntegerToken_of_number {s s' : Syntax.State} {n : Syntax.Node}
    (hn : Syntax.number s = some (n, s')) (hkind : n.kind = .integer) :
    IsIntegerToken n.text.toList := by
  change (Syntax.guardThat (0 < Syntax.integerLength s.cursor.rest ∨
    0 < Syntax.floatLength s.cursor.rest) s).bind (fun taken =>
      some (Syntax.Node.leaf
        (if Syntax.integerLength s.cursor.rest < Syntax.floatLength s.cursor.rest then .float
          else .integer) taken.2.cursor.place
        (String.ofList (s.cursor.rest.take
          (max (Syntax.integerLength s.cursor.rest) (Syntax.floatLength s.cursor.rest)))), _)) =
    some (n, s') at hn
  obtain ⟨taken, hguard, hn⟩ := Option.bind_eq_some_iff.mp hn
  rw [Syntax.guardThat, Option.ite_none_right_eq_some, decide_eq_true_eq] at hguard
  rw [Option.some.injEq, Prod.mk.injEq] at hn
  obtain ⟨rfl, -⟩ := hn
  have hlonger : ¬ Syntax.integerLength s.cursor.rest < Syntax.floatLength s.cursor.rest := by
    intro hlt
    simp [Syntax.Node.leaf, hlt] at hkind
  refine ⟨s.cursor.rest, by omega, ?_⟩
  rw [Syntax.Node.leaf, String.toList_ofList, Nat.max_eq_left (Nat.not_lt.mp hlonger)]

theorem isDigitOf_of_isDigit {c : Char} (hc : c.isDigit = true) : isDigitOf 10 c = true := by
  have hle : c.toNat ≤ 57 := by
    simp only [Char.isDigit, Bool.and_eq_true, decide_eq_true_eq] at hc
    exact hc.2
  have hlt : c.toNat - 48 < 10 := by omega
  simp [isDigitOf, isHexDigit, digitValue, hc, hlt]

/-- Decimal digits as a token has them: grouped, and perhaps with an underscore at the end. -/
theorem exists_grouped_of_groupedDigits {cs : List Char} (hpos : 0 < Syntax.groupedDigits cs) :
    ∃ digits written, Grouped digits written ∧ (∀ d ∈ digits, isDigitOf 10 d = true) ∧
      (cs.take (Syntax.groupedDigits cs) = written ∨
        cs.take (Syntax.groupedDigits cs) = written ++ ['_']) := by
  fun_induction Syntax.groupedDigits cs with
  | case1 c rest hc ih =>
    have hdigit := isDigitOf_of_isDigit hc
    rw [Nat.add_comm 2, List.take_succ_cons, List.take_succ_cons]
    rcases Nat.eq_zero_or_pos (Syntax.groupedDigits rest) with hzero | hrest
    · exact ⟨[c], [c], .single c, by simpa using hdigit, .inr (by simp [hzero])⟩
    · obtain ⟨digits, written, hwritten, hdigits, htake⟩ := ih hrest
      refine ⟨c :: digits, c :: '_' :: written, .underscore c hwritten,
        List.forall_mem_cons.mpr ⟨hdigit, hdigits⟩, ?_⟩
      exact htake.imp (fun h => by rw [h]) fun h => by rw [h]; rfl
  | case2 => exact absurd hpos (Nat.lt_irrefl 0)
  | case3 c rest _ hc ih =>
    have hdigit := isDigitOf_of_isDigit hc
    rw [Nat.add_comm 1, List.take_succ_cons]
    rcases Nat.eq_zero_or_pos (Syntax.groupedDigits rest) with hzero | hrest
    · exact ⟨[c], [c], .single c, by simpa using hdigit, .inl (by simp [hzero])⟩
    · obtain ⟨digits, written, hwritten, hdigits, htake⟩ := ih hrest
      refine ⟨c :: digits, c :: written, .digit c hwritten,
        List.forall_mem_cons.mpr ⟨hdigit, hdigits⟩, ?_⟩
      exact htake.imp (fun h => by rw [h]) fun h => by rw [h]; rfl
  | case4 => exact absurd hpos (Nat.lt_irrefl 0)
  | case5 => exact absurd hpos (Nat.lt_irrefl 0)

/-- Grouped digits, with an underscore in front of them or without. -/
def GroupedBehind (isDigit : Char → Bool) (cs : List Char) : Prop :=
  ∃ front digits written, (front = [] ∨ front = ['_']) ∧ Grouped digits written ∧
    (∀ d ∈ digits, isDigit d = true) ∧ cs = front ++ written

theorem exists_grouped_cons {isDigit : Char → Bool} {c : Char} (hc : isDigit c = true)
    {cs : List Char} (hcs : cs = [] ∨ GroupedBehind isDigit cs) :
    ∃ digits, Grouped digits (c :: cs) ∧ ∀ d ∈ digits, isDigit d = true := by
  have hall {digits : List Char} (hdigits : ∀ d ∈ digits, isDigit d = true) :
      ∀ d ∈ c :: digits, isDigit d = true := List.forall_mem_cons.mpr ⟨hc, hdigits⟩
  rcases hcs with rfl | ⟨front, digits, written, rfl | rfl, hwritten, hdigits, rfl⟩
  · exact ⟨[c], .single c, hall (List.forall_mem_nil _)⟩
  · exact ⟨c :: digits, .digit c hwritten, hall hdigits⟩
  · exact ⟨c :: digits, .underscore c hwritten, hall hdigits⟩

theorem groupedBehind_of_prefixedDigits {isDigit : Char → Bool} {cs : List Char}
    (hpos : 0 < Syntax.prefixedDigits isDigit cs) :
    GroupedBehind isDigit (cs.take (Syntax.prefixedDigits isDigit cs)) := by
  have hrest {rest : List Char} (ih : 0 < Syntax.prefixedDigits isDigit rest →
      GroupedBehind isDigit (rest.take (Syntax.prefixedDigits isDigit rest))) :
      rest.take (Syntax.prefixedDigits isDigit rest) = [] ∨
        GroupedBehind isDigit (rest.take (Syntax.prefixedDigits isDigit rest)) := by
    rcases Nat.eq_zero_or_pos (Syntax.prefixedDigits isDigit rest) with hzero | hsome
    · exact .inl (by simp [hzero])
    · exact .inr (ih hsome)
  fun_induction Syntax.prefixedDigits isDigit cs with
  | case1 c rest hc ih =>
    obtain ⟨digits, hwritten, hdigits⟩ := exists_grouped_cons hc (hrest ih)
    refine ⟨['_'], digits, _, .inr rfl, hwritten, hdigits, ?_⟩
    rw [Nat.add_comm 2, List.take_succ_cons, List.take_succ_cons]
    rfl
  | case2 => exact absurd hpos (Nat.lt_irrefl 0)
  | case3 c rest _ hc ih =>
    obtain ⟨digits, hwritten, hdigits⟩ := exists_grouped_cons hc (hrest ih)
    refine ⟨[], digits, _, .inl rfl, hwritten, hdigits, ?_⟩
    rw [Nat.add_comm 1, List.take_succ_cons]
    rfl
  | case4 => exact absurd hpos (Nat.lt_irrefl 0)
  | case5 => exact absurd hpos (Nat.lt_irrefl 0)

theorem exists_base_of_radixDigits {letter : Char} {isDigit : Char → Bool}
    (hletter : Syntax.radixDigits letter = some isDigit) :
    ∃ base, (letter, base) ∈ baseLetters ∧ ∀ d, isDigit d = true → isDigitOf base d = true := by
  have hhex (d : Char) (hd : isHexDigit d = true) : isDigitOf 16 d = true := by
    simp [isDigitOf, hd, (toLower_eq_digitChar_of_isHexDigit hd).1]
  have hoctal (d : Char) (hd : isOctalDigit d = true) : isDigitOf 8 d = true :=
    List.all_eq_true.mp (by decide : octalDigits.all (isDigitOf 8) = true) d
      (isOctalDigit_iff.mp hd)
  have hbinary (d : Char) (hd : (d = '0' || d = '1') = true) : isDigitOf 2 d = true := by
    rw [Bool.or_eq_true, decide_eq_true_eq, decide_eq_true_eq] at hd
    rcases hd with rfl | rfl <;> decide
  unfold Syntax.radixDigits at hletter
  split at hletter <;> cases hletter
  · exact ⟨16, by decide, hhex⟩
  · exact ⟨16, by decide, hhex⟩
  · exact ⟨8, by decide, hoctal⟩
  · exact ⟨8, by decide, hoctal⟩
  · exact ⟨2, by decide, hbinary⟩
  · exact ⟨2, by decide, hbinary⟩

/-- The letters that say how wide an integer is or that it is imaginary. -/
def suffixLetters : List Char :=
  ['l', 'L', 'j', 'J']

def IsIntegerSuffix (behind : List Char) : Prop :=
  behind = [] ∨ ∃ c ∈ suffixLetters, behind = [c]

/-- A token is decimal digits or digits of an announced base, with a letter behind them or not. -/
inductive IntegerShape : List Char → Prop
  | decimal {digits written ending behind : List Char} (hwritten : Grouped digits written)
      (hdigits : ∀ d ∈ digits, isDigitOf 10 d = true) (hending : ending = [] ∨ ending = ['_'])
      (hbehind : IsIntegerSuffix behind) : IntegerShape (written ++ ending ++ behind)
  | inBase {letter : Char} {base : Nat} {front digits written behind : List Char}
      (hletter : (letter, base) ∈ baseLetters) (hfront : front = [] ∨ front = ['_'])
      (hwritten : Grouped digits written) (hdigits : ∀ d ∈ digits, isDigitOf base d = true)
      (hbehind : IsIntegerSuffix behind) :
      IntegerShape ('0' :: letter :: (front ++ written ++ behind))

theorem isIntegerSuffix_take_startsWithAny {letters : List Char}
    (hletters : letters ⊆ suffixLetters) (cs : List Char) :
    IsIntegerSuffix (cs.take (Syntax.startsWithAny cs letters)) := by
  cases cs with
  | nil => exact .inl (List.take_nil)
  | cons c rest =>
    rw [Syntax.startsWithAny, List.head?_cons, Option.map_some, Option.getD_some]
    split
    next hc => exact .inr ⟨c, hletters (List.contains_iff_mem.mp hc), rfl⟩
    next => exact .inl rfl

theorem IsIntegerToken.shape {written : List Char} (hwritten : IsIntegerToken written) :
    IntegerShape written := by
  obtain ⟨cs, hpos, rfl⟩ := hwritten
  generalize hn : Syntax.integerLength cs = n at hpos ⊢
  -- Digits that no base is announced for are decimal, also behind a letter that no digit follows.
  have hdecimal (hplain : (if Syntax.groupedDigits cs = 0 then 0 else Syntax.groupedDigits cs +
      Syntax.startsWithAny (cs.drop (Syntax.groupedDigits cs)) suffixLetters) = n) :
      IntegerShape (cs.take n) := by
    split at hplain
    next => omega
    next hsome =>
      obtain ⟨digits, written, hwritten, hdigits, htake⟩ :=
        exists_grouped_of_groupedDigits (Nat.pos_of_ne_zero hsome)
      have hsuffix := isIntegerSuffix_take_startsWithAny (List.Subset.refl suffixLetters)
        (cs.drop (Syntax.groupedDigits cs))
      rw [← hplain, List.take_add]
      rcases htake with htake | htake <;> rw [htake]
      · have hshape := IntegerShape.decimal hwritten hdigits (.inl rfl) hsuffix
        rwa [List.append_nil] at hshape
      · exact .decimal hwritten hdigits (.inr rfl) hsuffix
  unfold Syntax.integerLength at hn
  split at hn
  next letter rest =>
    split at hn
    next isDigit hletter =>
      dsimp only at hn
      split at hn
      next => exact hdecimal hn
      next hsome =>
        obtain ⟨front, digits, written, hfront, hwritten, hdigits, htake⟩ :=
          groupedBehind_of_prefixedDigits (Nat.pos_of_ne_zero hsome)
        obtain ⟨base, hbase, hdigit⟩ := exists_base_of_radixDigits hletter
        have hsuffix := isIntegerSuffix_take_startsWithAny
          (by decide : ['l', 'L'] ⊆ suffixLetters)
          (rest.drop (Syntax.prefixedDigits isDigit rest))
        rw [← hn, Nat.add_assoc, Nat.add_comm 2, List.take_succ_cons, List.take_succ_cons,
          List.take_add, htake]
        exact .inBase hbase hfront hwritten (fun d hd => hdigit d (hdigits d hd)) hsuffix
    next => exact hdecimal hn
  next => exact hdecimal hn

/-! ## Values -/

theorem not_isDigitOf_of_mem_baseLetters {c : Char} (hc : c ∈ baseLetters.map Prod.fst) :
    isDigitOf 10 c = false := by
  have hnone : (baseLetters.map Prod.fst).all (fun c => !isDigitOf 10 c) = true := by decide
  simpa using List.all_eq_true.mp hnone c hc

theorem ne_underscore_of_mem_baseLetters {letter : Char} {base : Nat}
    (hletter : (letter, base) ∈ baseLetters) : letter ≠ '_' :=
  (by decide : ∀ entry ∈ baseLetters, entry.1 ≠ '_') _ hletter

theorem one_lt_of_mem_baseLetters {letter : Char} {base : Nat}
    (hletter : (letter, base) ∈ baseLetters) : 1 < base ∧ base ≤ 16 :=
  (by decide : ∀ entry ∈ baseLetters, 1 < entry.2 ∧ entry.2 ≤ 16) _ hletter

theorem IsIntegerSuffix.mem_suffixLetters {behind : List Char} (hbehind : IsIntegerSuffix behind)
    {c : Char} (hc : c ∈ behind) : c ∈ suffixLetters := by
  rcases hbehind with rfl | ⟨letter, hletter, rfl⟩
  · exact absurd hc List.not_mem_nil
  · exact List.mem_singleton.mp hc ▸ hletter

/-- A letter behind an integer is taken for nothing else. -/
theorem not_mem_of_mem_suffixLetters {c : Char} (hc : c ∈ suffixLetters) :
    c ≠ '_' ∧ isHexDigit c = false ∧ c ∉ baseLetters.map Prod.fst := by
  simp only [suffixLetters, List.mem_cons, List.not_mem_nil, or_false] at hc
  rcases hc with rfl | rfl | rfl | rfl <;> decide

/-- Only digits have a value, so a letter behind them leaves none. -/
theorem integerValue?_of_splitBase {text : String} {base : Nat} {digits behind : List Char}
    (hsplit : splitBase (ungrouped text) = (base, digits ++ behind)) (hne : digits ≠ [])
    (hdigits : ∀ d ∈ digits, isDigitOf base d = true) (hbehind : IsIntegerSuffix behind) :
    integerValue? text =
      if behind = [] ∧ numeral base digits ≤ largestInteger then some (numeral base digits)
      else none := by
  rw [integerValue?, hsplit]
  rcases hbehind with rfl | ⟨c, hc, rfl⟩
  · simp [hne, List.all_eq_true.mpr hdigits]
  · simp [isDigitOf, (not_mem_of_mem_suffixLetters hc).2.1]

theorem splitBase_of_forall_not_mem {cs : List Char}
    (hcs : ∀ c ∈ cs, c ∉ baseLetters.map Prod.fst) : splitBase cs = (10, cs) := by
  unfold splitBase
  split <;> first | rfl | exact absurd (by decide) (hcs _ (.tail _ (.head _)))

theorem splitBase_of_mem {letter : Char} {base : Nat} (hletter : (letter, base) ∈ baseLetters)
    (rest : List Char) : splitBase ('0' :: letter :: rest) = (base, rest) := by
  simp only [baseLetters, List.mem_cons, Prod.mk.injEq, List.not_mem_nil, or_false] at hletter
  rcases hletter with h | h | h | h | h | h
  all_goals
    obtain ⟨rfl, rfl⟩ := h
    rfl

section

variable {text : String} {base : Nat} {digits written behind : List Char}

/-- Without its underscores a spelling is its digits. -/
theorem filter_grouped_append (hwritten : Grouped digits written)
    (hdigits : ∀ d ∈ digits, isDigitOf base d = true) (hbehind : IsIntegerSuffix behind) :
    (written ++ behind).filter (· ≠ '_') = digits ++ behind := by
  have hsuffix : ∀ c ∈ behind, c ≠ '_' := fun c hc =>
    (not_mem_of_mem_suffixLetters (hbehind.mem_suffixLetters hc)).1
  rw [List.filter_append, hwritten.filter_eq fun d hd => ne_underscore_of_isDigitOf (hdigits d hd),
    List.filter_eq_self.mpr (by simpa using hsuffix)]

theorem integerValue?_decimal {ending : List Char} (hwritten : Grouped digits written)
    (hdigits : ∀ d ∈ digits, isDigitOf 10 d = true) (hending : ending = [] ∨ ending = ['_'])
    (hbehind : IsIntegerSuffix behind) (htext : text.toList = written ++ ending ++ behind) :
    integerValue? text =
      if behind = [] ∧ numeral 10 digits ≤ largestInteger then some (numeral 10 digits)
      else none := by
  have hungrouped : ungrouped text = digits ++ behind := by
    have hdropped : ending.filter (· ≠ '_') = [] := by
      rcases hending with rfl | rfl <;> rfl
    rw [← filter_grouped_append hwritten hdigits hbehind, ungrouped, htext, List.filter_append,
      List.filter_append, List.filter_append, hdropped, List.append_nil]
  have hnoLetter : ∀ c ∈ digits ++ behind, c ∉ baseLetters.map Prod.fst := by
    intro c hc hletter
    rcases List.mem_append.mp hc with hdigit | hsuffix
    · exact absurd (hdigits c hdigit) (by simp [not_isDigitOf_of_mem_baseLetters hletter])
    · exact (not_mem_of_mem_suffixLetters (hbehind.mem_suffixLetters hsuffix)).2.2 hletter
  have hsplit : splitBase (ungrouped text) = (10, digits ++ behind) := by
    rw [hungrouped, splitBase_of_forall_not_mem hnoLetter]
  exact integerValue?_of_splitBase hsplit hwritten.ne_nil hdigits hbehind

theorem integerValue?_inBase {letter : Char} {front : List Char}
    (hletter : (letter, base) ∈ baseLetters) (hfront : front = [] ∨ front = ['_'])
    (hwritten : Grouped digits written) (hdigits : ∀ d ∈ digits, isDigitOf base d = true)
    (hbehind : IsIntegerSuffix behind)
    (htext : text.toList = '0' :: letter :: (front ++ written ++ behind)) :
    integerValue? text =
      if behind = [] ∧ numeral base digits ≤ largestInteger then some (numeral base digits)
      else none := by
  have hnoUnderscore := ne_underscore_of_mem_baseLetters hletter
  have hungrouped : ungrouped text = '0' :: letter :: (digits ++ behind) := by
    have hdropped : front.filter (· ≠ '_') = [] := by
      rcases hfront with rfl | rfl <;> rfl
    rw [← filter_grouped_append hwritten hdigits hbehind, ungrouped, htext,
      List.filter_cons_of_pos (by decide), List.filter_cons_of_pos (by simpa using hnoUnderscore),
      List.append_assoc, List.filter_append, hdropped, List.nil_append]
  have hsplit : splitBase (ungrouped text) = (base, digits ++ behind) := by
    rw [hungrouped, splitBase_of_mem hletter]
  exact integerValue?_of_splitBase hsplit hwritten.ne_nil hdigits hbehind

end

theorem isDigitOf_of_isNumeral {base k : Nat} (hbase : 1 < base) (hle : base ≤ 16)
    {digits : List Char} (hdigits : IsNumeral base digits k) :
    ∀ d ∈ digits, isDigitOf base d = true := fun _ hd =>
  (isDigitOf_iff hle).mpr (hdigits.exists_digitChar hbase hd)

/-- A literal has its value as long as that is not too large. -/
theorem integerValue?_of_isIntegerLiteral {text : String} {k : Nat}
    (htext : IsIntegerLiteral text.toList k) :
    integerValue? text = if k ≤ largestInteger then some k else none := by
  generalize hcs : text.toList = cs at htext
  cases htext with
  | @decimal digits written _ hwritten hdigits =>
    have hall := isDigitOf_of_isNumeral (by decide) (by decide) hdigits
    rw [integerValue?_decimal hwritten hall (.inl rfl) (.inl rfl) (by simpa using hcs),
      hdigits.numeral_eq (by decide) (by decide)]
    simp
  | @inBase letter base front digits written _ hletter hfront hwritten hdigits =>
    obtain ⟨hbase, hle⟩ := one_lt_of_mem_baseLetters hletter
    have hall := isDigitOf_of_isNumeral hbase hle hdigits
    rw [integerValue?_inBase hletter hfront hwritten hall (.inl rfl) (by simpa using hcs),
      hdigits.numeral_eq hbase hle]
    simp

theorem integerValue?_of_isLooseInteger {text : String} {k : Nat}
    (htext : IsLooseInteger text.toList k) :
    integerValue? text = if k ≤ largestInteger then some k else none := by
  obtain ⟨digits, written, hwritten, hdigits, hcs⟩ := htext
  obtain ⟨ending, hending, hcs⟩ :
      ∃ ending, (ending = [] ∨ ending = ['_']) ∧ text.toList = written ++ ending := by
    rcases hcs with hcs | ⟨hcs, -⟩
    · exact ⟨['_'], .inr rfl, hcs⟩
    · exact ⟨[], .inl rfl, by simpa using hcs⟩
  have hall := isDigitOf_of_isNumeral (by decide) (by decide) hdigits
  rw [integerValue?_decimal hwritten hall hending (.inl rfl) (by simpa using hcs),
    hdigits.numeral_eq (by decide) (by decide)]
  simp

/-- A token has a value that is not too large exactly if it is a literal or taken for one. -/
theorem integerValue?_eq_some_iff {text : String} (htoken : IsIntegerToken text.toList) {k : Nat} :
    integerValue? text = some k ↔
      k ≤ largestInteger ∧
        (IsIntegerLiteral text.toList k ∨ IsLooseInteger text.toList k) := by
  constructor
  · intro hvalue
    have hshape := htoken.shape
    generalize hcs : text.toList = cs at hshape
    cases hshape with
    | @decimal digits written ending behind hwritten hdigits hending hbehind =>
      rw [integerValue?_decimal hwritten hdigits hending hbehind hcs, Option.ite_none_right_eq_some,
        Option.some.injEq] at hvalue
      obtain ⟨⟨rfl, hle⟩, rfl⟩ := hvalue
      have hnumeral := isNumeral_numeral (by decide) (by decide) hwritten.ne_nil hdigits
      refine ⟨hle, ?_⟩
      rw [List.append_nil]
      rcases hending with rfl | rfl
      · by_cases hzero : digits.head? = some '0' ∧ numeral 10 digits ≠ 0
        · exact .inr ⟨digits, written, hwritten, hnumeral, .inr ⟨by simp, hzero⟩⟩
        · rw [not_and, not_not] at hzero
          rw [List.append_nil]
          exact .inl (.decimal hwritten hnumeral hzero)
      · exact .inr ⟨digits, written, hwritten, hnumeral, .inl rfl⟩
    | @inBase letter base front digits written behind hletter hfront hwritten hdigits hbehind =>
      rw [integerValue?_inBase hletter hfront hwritten hdigits hbehind hcs,
        Option.ite_none_right_eq_some, Option.some.injEq] at hvalue
      obtain ⟨⟨rfl, hle⟩, rfl⟩ := hvalue
      obtain ⟨hbase, hle16⟩ := one_lt_of_mem_baseLetters hletter
      have hnumeral := isNumeral_numeral hbase hle16 hwritten.ne_nil hdigits
      rw [List.append_nil]
      exact ⟨hle, .inl (.inBase hletter hfront hwritten hnumeral)⟩
  · rintro ⟨hle, hliteral | hloose⟩
    · rw [integerValue?_of_isIntegerLiteral hliteral, if_pos hle]
    · rw [integerValue?_of_isLooseInteger hloose, if_pos hle]

/-- What is taken for a literal is none, whatever its value would be. -/
theorem IsIntegerLiteral.not_isLooseInteger {cs : List Char} {k k' : Nat}
    (hliteral : IsIntegerLiteral cs k) : ¬ IsLooseInteger cs k' := by
  rintro ⟨digits', written', hwritten', hdigits', hcs⟩
  have hall' := isDigitOf_of_isNumeral (by decide) (by decide) hdigits'
  have hfilter' : cs.filter (· ≠ '_') = digits' := by
    have hgrouped := hwritten'.filter_eq fun d hd => ne_underscore_of_isDigitOf (hall' d hd)
    rcases hcs with rfl | ⟨rfl, -⟩
    · rw [List.filter_append, hgrouped]
      simp
    · exact hgrouped
  cases hliteral with
  | @decimal digits _ _ hwritten hdigits hzero =>
    have hall := isDigitOf_of_isNumeral (by decide) (by decide) hdigits
    have hsame : digits = digits' := by
      rw [← hfilter', hwritten.filter_eq fun d hd => ne_underscore_of_isDigitOf (hall d hd)]
    rcases hcs with rfl | ⟨-, hhead, hne⟩
    · -- The last character of grouped digits is a digit.
      have hlast : digits.getLast? = some '_' := by
        rw [← hwritten.getLast?_eq, List.getLast?_concat]
      exact ne_underscore_of_isDigitOf (hall '_' (List.mem_of_getLast? hlast)) rfl
    · subst hsame
      have hvalue := hdigits.numeral_eq (by decide) (by decide)
      rw [hdigits'.numeral_eq (by decide) (by decide), hzero hhead] at hvalue
      exact hne hvalue
  | @inBase letter base front _ _ _ hletter =>
    have hmem : letter ∈ digits' := by
      rw [← hfilter', List.mem_filter]
      exact ⟨.tail _ (.head _), by simpa using ne_underscore_of_mem_baseLetters hletter⟩
    have hnoDigit := not_isDigitOf_of_mem_baseLetters (List.mem_map_of_mem hletter)
    exact absurd (hall' letter hmem) (by simp [hnoDigit])

end FlowSurvey
