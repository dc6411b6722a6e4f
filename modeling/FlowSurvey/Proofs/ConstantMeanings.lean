import FlowSurvey.Proofs.IntegerLiterals
import FlowSurvey.Proofs.RespacedConstants
import FlowSurvey.Proofs.StringLiterals
import Mathlib.Algebra.Group.Nat.Defs

/-!
# What constants stand for

In a tree without comments and joined lines an expression is a constant if something that is
written out stands in its parentheses: a plain string, plain strings that follow one another, an
integer of at most 63 bits, a float, a truth value or nothing at all.  The constant that is read
is the one that stands there, with one exception: decimal digits that are no literal have a
value too.
-/

namespace FlowSurvey

open Syntax

/-! ## String tokens -/

/-- The letters of strings that stand for no plain text. -/
def formatLetters : List Char :=
  ['f', 'F', 'b', 'B', 't', 'T']

/-- A string between quotes that are all it starts with, and letters in front of them. -/
def IsQuoted (letters token : List Char) : Prop :=
  ∃ (q : Text.Quotes) (body : List Char), (∀ c ∈ letters, isStringLetter c = true) ∧
    (q.triple = false → body.head? ≠ some q.mark) ∧ token = q.enclose letters body

/-- A string between backticks, which is no literal. -/
def IsBackquoted (token : List Char) : Prop :=
  ∃ letters body, (∀ c ∈ letters, isStringLetter c = true) ∧
    token = letters ++ '`' :: (body ++ ['`'])

def IsStringToken (token : List Char) : Prop :=
  (∃ letters, IsQuoted letters token) ∨ IsBackquoted token

def stringLetters : List Char :=
  ['f', 'F', 'r', 'R', 'b', 'B', 'u', 'U', 't', 'T']

theorem isStringLetter_iff {c : Char} : isStringLetter c = true ↔ c ∈ stringLetters := by
  have hletters : "fFrRbBuUtT".toList = stringLetters := by rfl
  rw [isStringLetter, hletters, List.contains_iff_mem]

theorem isAlpha_of_isStringLetter {c : Char} (hc : isStringLetter c = true) : c.isAlpha = true :=
  List.all_eq_true.mp (by decide : stringLetters.all Char.isAlpha = true) c
    (isStringLetter_iff.mp hc)

theorem isFormatLetter_iff {c : Char} (hc : isStringLetter c = true) :
    Text.isFormatLetter c = true ↔ c ∈ formatLetters := by
  have htable : (stringLetters.all fun c =>
      Text.isFormatLetter c == formatLetters.contains c) = true := by decide
  rw [eq_of_beq (List.all_eq_true.mp htable c (isStringLetter_iff.mp hc)), List.contains_iff_mem]

/-- Quotes enclose a text unless one of the letters in front of them says otherwise. -/
theorem IsQuoted.isSome_decodeToken_iff {letters token : List Char}
    (htoken : IsQuoted letters token) :
    (Text.decodeToken token).isSome ↔ ∀ c ∈ letters, c ∉ formatLetters := by
  obtain ⟨q, body, hletters, hbody, rfl⟩ := htoken
  have halpha (c : Char) (hc : c ∈ letters) := isAlpha_of_isStringLetter (hletters c hc)
  have hformat : letters.any Text.isFormatLetter = true ↔ ∃ c ∈ letters, c ∈ formatLetters := by
    rw [List.any_eq_true]
    exact exists_congr fun c => and_congr_right fun hc => isFormatLetter_iff (hletters c hc)
  by_cases hany : letters.any Text.isFormatLetter = true
  · obtain ⟨c, hc, hmem⟩ := hformat.mp hany
    rw [Text.decodeToken_enclose q halpha, if_pos hany]
    exact iff_of_false (by simp) fun hall => hall c hc hmem
  · rw [Text.decodeToken_enclose_of_closes halpha (by simpa using hany) hbody]
    exact iff_of_true rfl fun c hc hmem => hany (hformat.mpr ⟨c, hc, hmem⟩)

/-- Closing quotes are looked for at the end. -/
theorem unquote_concat_of_not_isQuote {c : Char} (hc : Text.isQuote c = false) (cs : List Char) :
    Text.unquote (cs ++ [c]) = none := by
  have hquotes : (Text.delimiters.all fun d => !d.isEmpty && d.all Text.isQuote) = true := by
    decide
  rw [Text.unquote, List.findSome?_eq_none_iff]
  intro delimiter hdelimiter
  have hdelimiter := List.all_eq_true.mp hquotes delimiter hdelimiter
  refine if_neg ?_
  rintro ⟨-, -, hsuffix⟩
  rcases List.suffix_concat_iff.mp (List.isSuffixOf_iff_suffix.mp hsuffix) with
    rfl | ⟨front, rfl, -⟩
  · contradiction
  · simp [hc] at hdelimiter

theorem IsBackquoted.decodeToken_eq_none {token : List Char} (htoken : IsBackquoted token) :
    Text.decodeToken token = none := by
  obtain ⟨letters, body, hletters, rfl⟩ := htoken
  have halpha (c : Char) (hc : c ∈ letters) := isAlpha_of_isStringLetter (hletters c hc)
  have hblank : Text.isBlank '`' = false := by decide
  have htrim : Text.trim (letters ++ '`' :: (body ++ ['`'])) = letters ++ '`' :: (body ++ ['`']) :=
    Text.trim_letters_append halpha ⟨'`', _, rfl, hblank⟩ ⟨'`' :: body, '`', rfl, hblank⟩
  have hconcat : letters ++ '`' :: (body ++ ['`']) = (letters ++ '`' :: body) ++ ['`'] := by simp
  have hnone : Text.unquote (((letters ++ '`' :: body) ++ ['`']).dropWhile (!Text.isQuote ·)) =
      none := by
    have hsuffix := List.dropWhile_suffix (!Text.isQuote ·) (l := (letters ++ '`' :: body) ++ ['`'])
    rcases List.suffix_concat_iff.mp hsuffix with hnil | ⟨front, hlast, -⟩
    · rw [hnil]
      rfl
    · rw [hlast]
      exact unquote_concat_of_not_isQuote (by decide) front
  rw [Text.decodeToken, htrim, hconcat, hnone, Option.map_none, ite_self]

namespace Syntax.Node

/-! ## Trees -/

/-- No comments and no joined lines, and the tokens of strings and integers are real ones. -/
structure IsBare (n : Node) : Prop where
  no_trivia : ∀ m ∈ n.preorder, m.kind.isTrivia = false
  strings : ∀ m ∈ n.preorder, m.kind = .string → IsStringToken m.text.toList
  integers : ∀ m ∈ n.preorder, m.kind = .integer → IsIntegerToken m.text.toList

variable {n core : Node}

theorem isBare_iff :
    n.IsBare ↔
      (n.kind.isTrivia = false ∧ (n.kind = .string → IsStringToken n.text.toList) ∧
        (n.kind = .integer → IsIntegerToken n.text.toList)) ∧
      ∀ child ∈ n.children, child.IsBare := by
  have hpreorder {P : Node → Prop} :
      (∀ m ∈ n.preorder, P m) ↔ P n ∧ ∀ child ∈ n.children, ∀ m ∈ child.preorder, P m := by
    rw [preorder_eq_cons, List.forall_mem_cons, List.forall_mem_flatMap]
  constructor
  · rintro ⟨htrivia, hstrings, hintegers⟩
    rw [hpreorder] at htrivia hstrings hintegers
    exact ⟨⟨htrivia.1, hstrings.1, hintegers.1⟩, fun child hchild =>
      ⟨htrivia.2 child hchild, hstrings.2 child hchild, hintegers.2 child hchild⟩⟩
  · rintro ⟨⟨htrivia, hstring, hinteger⟩, hchildren⟩
    exact ⟨hpreorder.mpr ⟨htrivia, fun child hchild => (hchildren child hchild).no_trivia⟩,
      hpreorder.mpr ⟨hstring, fun child hchild => (hchildren child hchild).strings⟩,
      hpreorder.mpr ⟨hinteger, fun child hchild => (hchildren child hchild).integers⟩⟩

theorem IsBare.child (hn : n.IsBare) {child : Node} (hchild : child ∈ n.children) :
    child.IsBare :=
  (isBare_iff.mp hn).2 child hchild

/-! ## Meanings -/

/-- An expression with any number of parentheses around it. -/
inductive Parenthesizes : Node → Node → Prop
  | refl (n : Node) : Parenthesizes n n
  | parenthesized {n inner core : Node} (hkind : n.kind = .parenthesized)
      (honly : n.namedChildren = [inner]) (hinner : Parenthesizes inner core) :
      Parenthesizes n core

/-- A string that is neither formatted nor of bytes nor a template. -/
def IsPlainString (n : Node) : Prop :=
  n.kind = .string ∧ (∀ child ∈ n.children, child.kind ≠ .interpolation) ∧
    ∃ letters, IsQuoted letters n.text.toList ∧ ∀ c ∈ letters, c ∉ formatLetters

/-- A string that is formatted, of bytes or a template, whatever stands in it. -/
def IsFormatted (n : Node) : Prop :=
  n.kind = .string ∧ ∃ letters, IsQuoted letters n.text.toList ∧ ∃ c ∈ letters, c ∈ formatLetters

/-- The text that the token of a plain string decodes to. -/
def plainText (n : Node) : String :=
  (Text.decodeStringToken n.text).getD ""

/-- An expression that is written out, and its value. -/
inductive Denotes : Node → Json → Prop
  | string {n : Node} (hplain : n.IsPlainString) : Denotes n (.str n.plainText)
  | concatenated {n : Node} (hkind : n.kind = .concatenatedString)
      (hparts : ∀ part ∈ n.namedChildren, part.IsPlainString) :
      Denotes n (.str (String.join (n.namedChildren.map plainText)))
  | integer {n : Node} {k : Nat} (hkind : n.kind = .integer)
      (hliteral : IsIntegerLiteral n.text.toList k) (hk : k < 2 ^ 63) : Denotes n (.ofNat k)
  | float {n : Node} {x : Float} (hkind : n.kind = .float) (hvalue : floatValue? n.text = some x) :
      Denotes n (.float x)
  | true {n : Node} (hkind : n.kind = .true) : Denotes n (.bool Bool.true)
  | false {n : Node} (hkind : n.kind = .false) : Denotes n (.bool Bool.false)
  | none {n : Node} (hkind : n.kind = .none) : Denotes n .null

/-- The value of what stands in the parentheses of an expression. -/
def StandsFor (n : Node) (value : Json) : Prop :=
  ∃ core, Parenthesizes n core ∧ Denotes core value

/-- What stands in the parentheses are decimal digits that are no literal, and their value. -/
def MisreadAs (n : Node) (value : Json) : Prop :=
  ∃ core k, Parenthesizes n core ∧ core.kind = .integer ∧ IsLooseInteger core.text.toList k ∧
    k < 2 ^ 63 ∧ value = .ofNat k

/-! ## Parentheses -/

theorem Parenthesizes.core_unique {other : Node} (hcore : Parenthesizes n core)
    (hother : Parenthesizes n other) (hc : core.kind ≠ .parenthesized)
    (ho : other.kind ≠ .parenthesized) : core = other := by
  induction hcore with
  | refl n =>
    cases hother with
    | refl => rfl
    | parenthesized hkind => exact absurd hkind hc
  | parenthesized hkind honly _ ih =>
    cases hother with
    | refl => exact absurd hkind ho
    | parenthesized _ honly' hinner' =>
      rw [honly, List.cons.injEq] at honly'
      rw [← honly'.1] at hinner'
      exact ih hinner' hc

theorem Parenthesizes.isBare (hcore : Parenthesizes n core) (hn : n.IsBare) : core.IsBare := by
  induction hcore with
  | refl => exact hn
  | @parenthesized n inner _ _ honly _ ih =>
    have hmem : inner ∈ n.namedChildren := by simp [honly]
    exact ih (hn.child (List.mem_of_mem_filter hmem))

theorem Parenthesizes.constant?_eq (hcore : Parenthesizes n core) :
    constant? n = constant? core := by
  induction hcore with
  | refl => rfl
  | parenthesized hkind honly _ ih =>
    rw [constant?_of_parenthesized hkind, onlyNamed?_eq_some_iff.mpr honly, Option.bind_some, ih]

theorem exists_core_of_constant? (n : Node) : ∀ value, constant? n = some value →
    ∃ core, Parenthesizes n core ∧ core.kind ≠ .parenthesized := by
  induction n using induction_children with
  | hstep n ih =>
    intro value hvalue
    by_cases hkind : n.kind = .parenthesized
    · rw [constant?_of_parenthesized hkind] at hvalue
      obtain ⟨inner, hinner, hvalue⟩ := Option.bind_eq_some_iff.mp hvalue
      obtain ⟨core, hcore, hc⟩ := ih inner (mem_children_of_onlyNamed? hinner) value hvalue
      exact ⟨core, .parenthesized hkind (onlyNamed?_eq_some_iff.mp hinner) hcore, hc⟩
    · exact ⟨n, .refl n, hkind⟩

end Syntax.Node

/-! ## Plain strings -/

section

variable {n core : Node}

theorem plainString?_of_isPlainString (hplain : n.IsPlainString) :
    plainString? n = some n.plainText := by
  obtain ⟨hkind, hinside, letters, hquoted, hletters⟩ := hplain
  obtain ⟨text, htext⟩ := Option.isSome_iff_exists.mp (hquoted.isSome_decodeToken_iff.mpr hletters)
  have hdecoded : Text.decodeStringToken n.text = some (.ofList text) := by
    rw [Text.decodeStringToken, htext, Option.map_some]
  have hall : (n.children.all fun child => child.kind != .interpolation) = true := by
    simpa using hinside
  rw [plainString?, Node.plainText, hall, hdecoded]
  simp [hkind]

theorem isPlainString_of_plainString? (hn : n.IsBare) {text : String}
    (htext : plainString? n = some text) : n.IsPlainString := by
  rw [plainString?, Option.ite_none_right_eq_some, Bool.and_eq_true, decide_eq_true_eq,
    List.all_eq_true] at htext
  obtain ⟨⟨hkind, hinside⟩, hdecoded⟩ := htext
  rw [Text.decodeStringToken, Option.map_eq_some_iff] at hdecoded
  obtain ⟨decoded, hdecoded, -⟩ := hdecoded
  refine ⟨hkind, by simpa using hinside, ?_⟩
  rcases (Node.isBare_iff.mp hn).1.2.1 hkind with ⟨letters, hquoted⟩ | hback
  · exact ⟨letters, hquoted, hquoted.isSome_decodeToken_iff.mp (by simp [hdecoded])⟩
  · rw [hback.decodeToken_eq_none] at hdecoded
    contradiction

theorem plainString?_eq_some_iff (hn : n.IsBare) {text : String} :
    plainString? n = some text ↔ n.IsPlainString ∧ text = n.plainText := by
  constructor
  · intro htext
    have hplain := isPlainString_of_plainString? hn htext
    rw [plainString?_of_isPlainString hplain, Option.some.injEq] at htext
    exact ⟨hplain, htext.symm⟩
  · rintro ⟨hplain, rfl⟩
    exact plainString?_of_isPlainString hplain

theorem mapM_eq_some_iff {α β : Type} {f : α → Option β} {g : α → β} {P : α → Prop} {xs : List α}
    (hf : ∀ x ∈ xs, ∀ y, f x = some y ↔ P x ∧ y = g x) {ys : List β} :
    xs.mapM f = some ys ↔ (∀ x ∈ xs, P x) ∧ ys = xs.map g := by
  induction xs generalizing ys with
  | nil => simp [eq_comm]
  | cons x rest ih =>
    rw [List.forall_mem_cons] at hf
    rw [List.mapM_cons, List.forall_mem_cons, List.map_cons]
    constructor
    · intro hys
      obtain ⟨y, hy, hys⟩ := Option.bind_eq_some_iff.mp hys
      obtain ⟨more, hmore, hys⟩ := Option.bind_eq_some_iff.mp hys
      obtain ⟨hx, rfl⟩ := (hf.1 y).mp hy
      obtain ⟨hrest, rfl⟩ := (ih hf.2).mp hmore
      exact ⟨⟨hx, hrest⟩, (Option.some.inj hys).symm⟩
    · rintro ⟨⟨hx, hrest⟩, rfl⟩
      rw [(hf.1 _).mpr ⟨hx, rfl⟩, (ih hf.2).mpr ⟨hrest, rfl⟩]
      rfl

theorem filter_isSubstantial_of_isBare (hn : n.IsBare) :
    (n.children.filter fun child => child.isNamed && child.kind != .comment) =
      n.namedChildren := by
  refine List.filter_congr fun child hchild => ?_
  have htrivia := (Node.isBare_iff.mp (hn.child hchild)).1.1
  have hcomment : child.kind ≠ .comment := by
    intro hcomment
    rw [hcomment] at htrivia
    contradiction
  simp [hcomment]

theorem joinedStrings?_eq_some_iff (hn : n.IsBare) {text : String} :
    joinedStrings? n.children = some text ↔
      (∀ part ∈ n.namedChildren, part.IsPlainString) ∧
        text = String.join (n.namedChildren.map Node.plainText) := by
  have hparts : ∀ part ∈ n.namedChildren, ∀ text, plainString? part = some text ↔
      part.IsPlainString ∧ text = part.plainText := fun part hpart text =>
    plainString?_eq_some_iff (hn.child (List.mem_of_mem_filter hpart))
  rw [joinedStrings?, filter_isSubstantial_of_isBare hn, Option.map_eq_some_iff]
  simp only [mapM_eq_some_iff hparts]
  constructor
  · rintro ⟨texts, ⟨hplain, rfl⟩, rfl⟩
    exact ⟨hplain, rfl⟩
  · rintro ⟨hplain, rfl⟩
    exact ⟨_, ⟨hplain, rfl⟩, rfl⟩

/-! ## Constants -/

theorem le_largestInteger_iff {k : Nat} : k ≤ largestInteger ↔ k < 2 ^ 63 := by
  rw [largestInteger]
  omega

theorem constant?_of_integer (hkind : n.kind = .integer) :
    constant? n = (integerValue? n.text).map .ofNat := by
  obtain ⟨kind, role, start, text, children⟩ := n
  subst hkind
  rw [constant?]

theorem constant?_of_float (hkind : n.kind = .float) :
    constant? n = (floatValue? n.text).map .float := by
  obtain ⟨kind, role, start, text, children⟩ := n
  subst hkind
  rw [constant?]

theorem kind_mem_constantKinds {value : Json} (hvalue : constant? n = some value) :
    n.kind ∈ constantKinds := by
  obtain ⟨kind, role, start, text, children⟩ := n
  unfold constant? at hvalue
  split at hvalue <;> first | contradiction | simp [constantKinds]

theorem constant?_of_denotes (hn : n.IsBare) {value : Json} (hvalue : n.Denotes value) :
    constant? n = some value := by
  cases hvalue with
  | string hplain =>
    rw [constant?_of_string hplain.1, plainString?_of_isPlainString hplain, Option.map_some]
  | concatenated hkind hparts =>
    rw [constant?_of_concatenated hkind, (joinedStrings?_eq_some_iff hn).mpr ⟨hparts, rfl⟩,
      Option.map_some]
  | integer hkind hliteral hk =>
    rw [constant?_of_integer hkind, integerValue?_of_isIntegerLiteral hliteral,
      if_pos (le_largestInteger_iff.mpr hk), Option.map_some]
  | float hkind hvalue => rw [constant?_of_float hkind, hvalue, Option.map_some]
  | true hkind | false hkind | none hkind =>
    obtain ⟨kind, role, start, text, children⟩ := n
    subst hkind
    rw [constant?]

theorem constant?_of_isLooseInteger (hkind : n.kind = .integer) {k : Nat}
    (hloose : IsLooseInteger n.text.toList k) (hk : k < 2 ^ 63) :
    constant? n = some (.ofNat k) := by
  rw [constant?_of_integer hkind, integerValue?_of_isLooseInteger hloose,
    if_pos (le_largestInteger_iff.mpr hk), Option.map_some]

/-- A constant outside of parentheses is written out, or it is taken for an integer. -/
theorem denotes_of_constant? (hn : n.IsBare) (hcore : n.kind ≠ .parenthesized) {value : Json}
    (hvalue : constant? n = some value) :
    n.Denotes value ∨ n.kind = .integer ∧
      ∃ k, IsLooseInteger n.text.toList k ∧ k < 2 ^ 63 ∧ value = .ofNat k := by
  have hmem := kind_mem_constantKinds hvalue
  simp only [constantKinds, List.mem_cons, List.not_mem_nil, or_false] at hmem
  rcases hmem with hkind | hkind | hkind | hkind | hkind | hkind | hkind | hkind
  · rw [constant?_of_string hkind, Option.map_eq_some_iff] at hvalue
    obtain ⟨text, htext, rfl⟩ := hvalue
    obtain ⟨hplain, rfl⟩ := (plainString?_eq_some_iff hn).mp htext
    exact .inl (.string hplain)
  · rw [constant?_of_concatenated hkind, Option.map_eq_some_iff] at hvalue
    obtain ⟨text, htext, rfl⟩ := hvalue
    obtain ⟨hparts, rfl⟩ := (joinedStrings?_eq_some_iff hn).mp htext
    exact .inl (.concatenated hkind hparts)
  · rw [constant?_of_integer hkind, Option.map_eq_some_iff] at hvalue
    obtain ⟨k, hk, rfl⟩ := hvalue
    have htoken := (Node.isBare_iff.mp hn).1.2.2 hkind
    obtain ⟨hle, hliteral | hloose⟩ := (integerValue?_eq_some_iff htoken).mp hk
    · exact .inl (.integer hkind hliteral (le_largestInteger_iff.mp hle))
    · exact .inr ⟨hkind, k, hloose, le_largestInteger_iff.mp hle, rfl⟩
  · rw [constant?_of_float hkind, Option.map_eq_some_iff] at hvalue
    obtain ⟨x, hx, rfl⟩ := hvalue
    exact .inl (.float hkind hx)
  · rw [constant?_of_denotes hn (.true hkind), Option.some.injEq] at hvalue
    exact .inl (hvalue ▸ .true hkind)
  · rw [constant?_of_denotes hn (.false hkind), Option.some.injEq] at hvalue
    exact .inl (hvalue ▸ .false hkind)
  · rw [constant?_of_denotes hn (.none hkind), Option.some.injEq] at hvalue
    exact .inl (hvalue ▸ .none hkind)
  · exact absurd hkind hcore

theorem Syntax.Node.Denotes.kind_ne_parenthesized {value : Json} (hvalue : n.Denotes value) :
    n.kind ≠ .parenthesized := by
  cases hvalue with
  | string hplain => simp [hplain.1]
  | concatenated hkind | integer hkind | float hkind | true hkind | false hkind | none hkind =>
    simp [hkind]

theorem Syntax.Node.Denotes.exists_isIntegerLiteral {value : Json} (hvalue : n.Denotes value)
    (hinteger : n.kind = .integer) : ∃ k, IsIntegerLiteral n.text.toList k := by
  cases hvalue with
  | integer _ hliteral => exact ⟨_, hliteral⟩
  | string hplain => exact absurd (hinteger.symm.trans hplain.1) (by decide)
  | concatenated hkind | float hkind | true hkind | false hkind | none hkind =>
    exact absurd (hinteger.symm.trans hkind) (by decide)

/-- What is read is the value of the constant, or decimal digits that are no literal. -/
theorem Syntax.Node.IsBare.constant?_eq_some_iff (hn : n.IsBare) {value : Json} :
    constant? n = some value ↔ n.StandsFor value ∨ n.MisreadAs value := by
  constructor
  · intro hvalue
    obtain ⟨core, hcore, hkind⟩ := Node.exists_core_of_constant? n value hvalue
    rw [hcore.constant?_eq] at hvalue
    rcases denotes_of_constant? (hcore.isBare hn) hkind hvalue with hdenotes | ⟨hinteger, k, hk⟩
    · exact .inl ⟨core, hcore, hdenotes⟩
    · exact .inr ⟨core, k, hcore, hinteger, hk⟩
  · rintro (⟨core, hcore, hdenotes⟩ | ⟨core, k, hcore, hinteger, hloose, hk, rfl⟩)
    · rw [hcore.constant?_eq, constant?_of_denotes (hcore.isBare hn) hdenotes]
    · rw [hcore.constant?_eq, constant?_of_isLooseInteger hinteger hloose hk]

theorem Syntax.Node.MisreadAs.not_standsFor {value other : Json} (hmisread : n.MisreadAs value) :
    ¬ n.StandsFor other := by
  rintro ⟨core, hcore, hdenotes⟩
  obtain ⟨core', k, hcore', hinteger, hloose, -, -⟩ := hmisread
  obtain rfl := hcore.core_unique hcore' hdenotes.kind_ne_parenthesized (by simp [hinteger])
  obtain ⟨k', hliteral⟩ := hdenotes.exists_isIntegerLiteral hinteger
  exact hliteral.not_isLooseInteger hloose

theorem plainString?_of_isFormatted (hn : n.IsFormatted) : plainString? n = none := by
  obtain ⟨-, letters, hquoted, c, hc, hformat⟩ := hn
  have hnone : Text.decodeToken n.text.toList = none := by
    rw [← Option.not_isSome_iff_eq_none, hquoted.isSome_decodeToken_iff]
    exact fun hall => hall c hc hformat
  rw [plainString?, Text.decodeStringToken, hnone, Option.map_none, ite_self]

/-- One part that is no plain string leaves nothing of a concatenation. -/
theorem constant?_of_isFormatted (hcore : n.Parenthesizes core)
    (hkind : core.kind = .concatenatedString) {part : Node} (hpart : part ∈ core.namedChildren)
    (hformatted : part.IsFormatted) : constant? n = none := by
  rw [hcore.constant?_eq, constant?_of_concatenated hkind, joinedStrings?, Option.map_map,
    Option.map_eq_none_iff]
  have hmem : part ∈ core.children.filter fun child => child.isNamed && child.kind != .comment := by
    obtain ⟨hchild, hnamed⟩ := List.mem_filter.mp hpart
    exact List.mem_filter.mpr ⟨hchild, by simp [hnamed, hformatted.1]⟩
  by_contra hsome
  obtain ⟨texts, htexts⟩ := Option.ne_none_iff_exists'.mp hsome
  have hplain := isSome_of_mapM_eq_some htexts hmem
  rw [plainString?_of_isFormatted hformatted] at hplain
  contradiction

end

end FlowSurvey
