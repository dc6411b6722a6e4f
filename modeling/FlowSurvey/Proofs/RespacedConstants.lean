import FlowSurvey.Constant
import FlowSurvey.Proofs.NodePositions
import FlowSurvey.Proofs.Respacing

/-!
# Constants in respaced trees

A constant between parentheses is looked for as the only thing there that is no token, and a
comment or a joined line there hides it.  Among strings that follow one another comments are
passed over, and joined lines are not.  A respaced tree therefore never has another constant
than the tree that it was made from, and the main result says exactly when it has none any
more.  The keywords of a call and the documentation of a function go the way of the constants
that they are made of.
-/

namespace FlowSurvey

open Syntax

namespace Syntax.Node

/-- Nothing that would hide a constant stands around it. -/
inductive Tidy : Node → Prop
  | concatenated {n : Node} (hkind : n.kind = .concatenatedString)
      (hparts : ∀ part ∈ n.children, part.kind ≠ .lineContinuation) : Tidy n
  | parenthesized {n : Node} (hkind : n.kind = .parenthesized)
      (hnone : ∀ part ∈ n.children, part.kind.isTrivia = false)
      (hparts : ∀ part ∈ n.children, Tidy part) : Tidy n
  | other {n : Node} (hkind : n.kind ∉ [Kind.concatenatedString, .parenthesized]) : Tidy n

theorem Tidy.of_parenthesized {n : Node} (hn : n.Tidy) (hkind : n.kind = .parenthesized) :
    ∀ part ∈ n.children, part.kind.isTrivia = false ∧ part.Tidy := by
  cases hn with
  | concatenated hother => rw [hkind] at hother; contradiction
  | parenthesized _ hnone hparts => exact fun part hpart => ⟨hnone part hpart, hparts part hpart⟩
  | other hother => rw [hkind] at hother; exact absurd (by decide) hother

theorem Tidy.of_concatenated {n : Node} (hn : n.Tidy) (hkind : n.kind = .concatenatedString) :
    ∀ part ∈ n.children, part.kind ≠ .lineContinuation := by
  cases hn with
  | concatenated _ hparts => exact hparts
  | parenthesized hother => rw [hkind] at hother; contradiction
  | other hother => rw [hkind] at hother; exact absurd (by decide) hother

/-- The only child that is no token. -/
def onlyNamed? (n : Node) : Option Node :=
  match n.namedChildren with
  | [inner] => some inner
  | _ => none

theorem onlyNamed?_eq_some_iff {n inner : Node} :
    n.onlyNamed? = some inner ↔ n.namedChildren = [inner] := by
  unfold onlyNamed?
  split
  next hnamed => simp [hnamed]
  next hother =>
    constructor
    · intro hnone
      contradiction
    · intro hnamed
      exact absurd hnamed (hother inner)

theorem mem_children_of_onlyNamed? {n inner : Node} (hinner : n.onlyNamed? = some inner) :
    inner ∈ n.children := by
  have hmem : inner ∈ n.namedChildren := by simp [onlyNamed?_eq_some_iff.mp hinner]
  exact List.mem_of_mem_filter hmem

theorem eq_or_token_of_onlyNamed? {n inner part : Node} (hinner : n.onlyNamed? = some inner)
    (hpart : part ∈ n.children) : part = inner ∨ part.kind = .token := by
  by_cases htoken : part.kind = .token
  · exact .inr htoken
  · have hmem : part ∈ n.namedChildren :=
      List.mem_filter.mpr ⟨hpart, by simpa [isNamed] using htoken⟩
    rw [onlyNamed?_eq_some_iff.mp hinner] at hmem
    exact .inl (List.mem_singleton.mp hmem)

/-- Neither a token nor a comment. -/
def isSubstantial (n : Node) : Bool :=
  n.isNamed && n.kind != .comment

end Syntax.Node

theorem Syntax.Respaced.isSubstantial_eq {m n : Node} (hmn : Respaced m n) :
    n.isSubstantial = m.isSubstantial := by
  have hcomment : n.kind = .comment ↔ m.kind = .comment := hmn.kind_eq_iff (by decide)
  simp [Node.isSubstantial, hmn.isNamed_eq, bne, Bool.beq_eq_decide_eq, hcomment]

/-! ## Constants by their kind -/

theorem constant?_of_string {n : Node} (hkind : n.kind = .string) :
    constant? n = (plainString? n).map .str := by
  obtain ⟨kind, role, start, text, children⟩ := n
  subst hkind
  rw [constant?]

theorem constant?_of_concatenated {n : Node} (hkind : n.kind = .concatenatedString) :
    constant? n = (joinedStrings? n.children).map .str := by
  obtain ⟨kind, role, start, text, children⟩ := n
  subst hkind
  rw [constant?]

theorem onlyConstant?_eq_match (ns : List Node) :
    onlyConstant? ns =
      match ns.filter Node.isNamed with
      | [n] => constant? n
      | _ => none := by
  induction ns with
  | nil => rw [onlyConstant?]; rfl
  | cons n rest ih =>
    rw [onlyConstant?, List.filter_cons]
    split
    next =>
      cases hrest : rest.filter Node.isNamed with
      | nil =>
        have hany : rest.any Node.isNamed = false := by
          rw [List.any_eq_false]
          exact List.filter_eq_nil_iff.mp hrest
        simp [hany]
      | cons other more =>
        have hother : other ∈ rest.filter Node.isNamed := by simp [hrest]
        have hany : rest.any Node.isNamed = true := by
          rw [List.any_eq_true]
          exact ⟨other, List.mem_filter.mp hother⟩
        simp [hany]
    next => exact ih

theorem constant?_of_parenthesized {n : Node} (hkind : n.kind = .parenthesized) :
    constant? n = n.onlyNamed?.bind constant? := by
  obtain ⟨kind, role, start, text, children⟩ := n
  subst hkind
  rw [constant?, onlyConstant?_eq_match, Node.onlyNamed?, Node.namedChildren]
  split <;> simp_all

/-- A constant of any other kind is known by its source, wherever it stands. -/
theorem constant?_congr {m n : Node} (hkind : n.kind = m.kind) (htext : n.text = m.text)
    (hother : m.kind ∉ [Kind.string, .concatenatedString, .parenthesized]) :
    constant? n = constant? m := by
  obtain ⟨kind, role, start, text, children⟩ := m
  obtain ⟨kind', role', start', text', children'⟩ := n
  simp only at hkind htext hother
  subst hkind htext
  unfold constant?
  split <;> simp_all

theorem constant?_of_isTrivia {n : Node} (hn : n.kind.isTrivia = true) : constant? n = none := by
  obtain ⟨kind, role, start, text, children⟩ := n
  unfold constant?
  split <;> simp_all [Kind.isTrivia]

theorem constant?_withoutRole (n : Node) : constant? { n with role := none } = constant? n := by
  obtain ⟨kind, role, start, text, children⟩ := n
  unfold constant?
  rfl

/-! ## Strings that follow one another -/

section

variable {α β : Type} {f : α → Option β}

theorem isSome_of_mapM_eq_some
    {xs : List α} {ys : List β} (hxs : xs.mapM f = some ys) {x : α} (hx : x ∈ xs) :
    (f x).isSome := by
  induction xs generalizing ys with
  | nil => exact absurd hx List.not_mem_nil
  | cons first rest ih =>
    rw [List.mapM_cons] at hxs
    obtain ⟨y, hfirst, hxs⟩ := Option.bind_eq_some_iff.mp hxs
    obtain ⟨more, hrest, _⟩ := Option.bind_eq_some_iff.mp hxs
    rcases List.mem_cons.mp hx with hx | hx
    · rw [hx, hfirst]
      rfl
    · exact ih hrest hx

theorem mapM_eq_mapM_of_forall₂
    {xs ys : List α} (hxs : List.Forall₂ (fun x y => f y = f x) xs ys) :
    ys.mapM f = xs.mapM f := by
  induction hxs with
  | nil => rfl
  | cons hfirst _ ih => rw [List.mapM_cons, List.mapM_cons, hfirst, ih]

end

theorem isString_of_isSome_plainString? {n : Node} (hn : (plainString? n).isSome) :
    n.kind = .string := by
  by_contra hkind
  simp [plainString?, hkind] at hn

theorem no_joinedLine_of_joinedStrings?
    {parts : List Node} {joined : String} (hjoined : joinedStrings? parts = some joined) :
    ∀ part ∈ parts, part.kind ≠ .lineContinuation := by
  intro part hpart hline
  rw [joinedStrings?, Option.map_eq_some_iff] at hjoined
  obtain ⟨texts, htexts, _⟩ := hjoined
  have hmem : part ∈ parts.filter fun n => n.isNamed && n.kind != .comment :=
    List.mem_filter.mpr ⟨hpart, by simp [Node.isNamed, hline]⟩
  have hstring := isString_of_isSome_plainString? (isSome_of_mapM_eq_some htexts hmem)
  rw [hline] at hstring
  contradiction

theorem plainString?_of_respaced {m n : Node} (hmn : Respaced m n)
    (hn : n.kind ≠ .parenthesized) : plainString? n = plainString? m := by
  cases hmn with
  | rebuilt hkind _ htext _ hchildren =>
    have hplain : (n.children.all fun child => child.kind != .interpolation) =
        m.children.all fun child => child.kind != .interpolation := by
      refine hchildren.all_eq (fun {m n} hmn => ?_) fun {n} htrivia => ?_
      · have hinside : n.kind = .interpolation ↔ m.kind = .interpolation :=
          hmn.kind_eq_iff (by decide)
        simp [bne, Bool.beq_eq_decide_eq, hinside]
      · rw [bne_iff_ne]
        intro hinside
        have hkind := htrivia.1
        rw [hinside] at hkind
        contradiction
    rw [plainString?, plainString?, hkind, htext, hplain]
  | enclosed _ _ hkind => exact absurd hkind hn

theorem joinedStrings?_of_respaced {ms ns : List Node} (hall : RespacedAll ms ns)
    (hline : ∀ n ∈ ns, n.kind ≠ .lineContinuation) (hns : ∀ n ∈ ns, n.kind ≠ .parenthesized) :
    joinedStrings? ns = joinedStrings? ms := by
  have htrivia : ∀ n ∈ ns.filter Node.isSubstantial, n.kind.isTrivia = false := by
    intro n hn
    obtain ⟨hmem, hsubstantial⟩ := List.mem_filter.mp hn
    have hcomment : n.kind ≠ .comment := by simp_all [Node.isSubstantial]
    rw [← Bool.not_eq_true, Kind.isTrivia_iff]
    exact not_or.mpr ⟨hcomment, hline n hmem⟩
  have hparts := (hall.filter Respaced.isSubstantial_eq).forall₂ htrivia
  have hsame : List.Forall₂ (fun m n => plainString? n = plainString? m)
      (ms.filter Node.isSubstantial) (ns.filter Node.isSubstantial) := by
    rw [List.forall₂_iff_zip] at hparts ⊢
    refine ⟨hparts.1, fun {m n} hpair => ?_⟩
    have hn := (List.mem_filter.mp (List.of_mem_zip hpair).2).1
    exact plainString?_of_respaced (hparts.2 hpair) (hns n hn)
  exact congrArg (Option.map String.join) (mapM_eq_mapM_of_forall₂ hsame)

/-! ## Tidy constants -/

/-- Where there is a constant, nothing hides it. -/
theorem tidy_of_constant? {n : Node} {value : Json} (hvalue : constant? n = some value) :
    n.Tidy := by
  induction n using Node.induction_children generalizing value with
  | hstep n ih =>
    by_cases hparenthesized : n.kind = .parenthesized
    · rw [constant?_of_parenthesized hparenthesized] at hvalue
      obtain ⟨inner, hinner, hvalue⟩ := Option.bind_eq_some_iff.mp hvalue
      refine .parenthesized hparenthesized (fun part hpart => ?_) fun part hpart => ?_
      · rcases Node.eq_or_token_of_onlyNamed? hinner hpart with rfl | htoken
        · by_contra htrivia
          rw [constant?_of_isTrivia (by simpa using htrivia)] at hvalue
          contradiction
        · rw [htoken]
          rfl
      · rcases Node.eq_or_token_of_onlyNamed? hinner hpart with rfl | htoken
        · exact ih part hpart hvalue
        · exact .other (by simp [htoken])
    by_cases hconcatenated : n.kind = .concatenatedString
    · rw [constant?_of_concatenated hconcatenated] at hvalue
      obtain ⟨joined, hjoined, _⟩ := Option.map_eq_some_iff.mp hvalue
      exact .concatenated hconcatenated (no_joinedLine_of_joinedStrings? hjoined)
    · exact .other (by simp [hparenthesized, hconcatenated])

/-! ## Constants in respaced trees -/

section

variable {m n : Node}

/-- What was put between the others is the only one left if nothing else was there. -/
theorem onlyNamed?_of_respaced (hchildren : RespacedAll m.children n.children)
    {inner : Node} (hinner : n.onlyNamed? = some inner) :
    m.onlyNamed? = none ∧ inner.IsTrivia ∨
      ∃ original, m.onlyNamed? = some original ∧ Respaced original inner := by
  have hnamed := hchildren.namedChildren
  rw [Node.onlyNamed?_eq_some_iff.mp hinner] at hnamed
  cases hm : m.namedChildren with
  | nil =>
    rw [hm] at hnamed
    cases hnamed with
    | trivia htrivia => exact .inl ⟨by rw [Node.onlyNamed?, hm], htrivia⟩
  | cons first rest =>
    rw [hm] at hnamed
    cases hnamed with
    | trivia _ hrest => cases hrest
    | node hnode hrest =>
      cases hrest
      exact .inr ⟨first, Node.onlyNamed?_eq_some_iff.mpr hm, hnode⟩

theorem onlyNamed?_eq_none_of_respaced (hchildren : RespacedAll m.children n.children)
    (hn : ∀ part ∈ n.children, part.kind.isTrivia = false) (hnone : n.onlyNamed? = none) :
    m.onlyNamed? = none := by
  rw [Option.eq_none_iff_forall_not_mem]
  intro original horiginal
  have hnamed : List.Forall₂ Respaced m.namedChildren n.namedChildren :=
    hchildren.namedChildren.forall₂ fun part hpart => hn part (List.mem_filter.mp hpart).1
  rw [Node.onlyNamed?_eq_some_iff.mp horiginal, List.forall₂_cons_left_iff] at hnamed
  obtain ⟨inner, rest, _, hrest, hall⟩ := hnamed
  rw [List.forall₂_nil_left_iff.mp hrest] at hall
  rw [Node.onlyNamed?_eq_some_iff.mpr hall] at hnone
  contradiction

/-- What was put in parentheses is the only thing there, if nothing hides it. -/
theorem onlyNamed?_of_enclosed {before after : List Node} {inner : Node}
    (hchildren : n.children = before ++ inner :: after) (hinner : inner.isNamed = true)
    (hothers : ∀ other ∈ before ++ after, other.kind = .token ∨ other.kind.isTrivia = true)
    (hn : ∀ part ∈ n.children, part.kind.isTrivia = false) : n.onlyNamed? = some inner := by
  have htoken {other : Node} (hother : other ∈ before ++ after) : ¬ other.isNamed = true := by
    have hmem : other ∈ n.children := by
      rw [hchildren]
      exact List.mem_append.mpr
        ((List.mem_append.mp hother).imp_right (List.mem_cons_of_mem _))
    have hkind := (hothers other hother).resolve_right (by simp [hn other hmem])
    simp [Node.isNamed, hkind]
  have hbefore : before.filter Node.isNamed = [] :=
    List.filter_eq_nil_iff.mpr fun _ hother => htoken (List.mem_append_left _ hother)
  have hafter : after.filter Node.isNamed = [] :=
    List.filter_eq_nil_iff.mpr fun _ hother => htoken (List.mem_append_right _ hother)
  rw [Node.onlyNamed?_eq_some_iff, Node.namedChildren, hchildren, List.filter_append,
    List.filter_cons_of_pos hinner, hbefore, hafter, List.nil_append]

theorem bind_onlyNamed?_of_respaced (hchildren : RespacedAll m.children n.children)
    (hn : ∀ part ∈ n.children, part.kind.isTrivia = false)
    (hparts : ∀ part ∈ n.children, ∀ original, Respaced original part →
      constant? part = constant? original) :
    n.onlyNamed?.bind constant? = m.onlyNamed?.bind constant? := by
  cases hinner : n.onlyNamed? with
  | none => rw [onlyNamed?_eq_none_of_respaced hchildren hn hinner]
  | some inner =>
    have hmem := Node.mem_children_of_onlyNamed? hinner
    rcases onlyNamed?_of_respaced hchildren hinner with ⟨_, htrivia, _⟩ | ⟨original, hm, hsame⟩
    · rw [hn inner hmem] at htrivia
      contradiction
    · rw [hm, Option.bind_some, Option.bind_some, hparts inner hmem original hsame]

/-- A tree in which nothing hides a constant has the constant of the tree it was made from. -/
theorem constant?_of_respaced (hn : n.Tidy) (hmn : Respaced m n) :
    constant? n = constant? m := by
  -- The induction is on the respaced tree, which is the deeper one where parentheses were put in.
  induction n using Node.induction_children generalizing m with
  | hstep n ih =>
    have hrespaced := hmn
    cases hmn with
    | rebuilt hkind _ htext hunparenthesized hchildren =>
      by_cases hstring : m.kind = .string
      · have hn : n.kind ≠ .parenthesized := by
          rw [hkind, hstring]
          decide
        rw [constant?_of_string (hkind.trans hstring), constant?_of_string hstring,
          plainString?_of_respaced hrespaced hn]
      by_cases hconcatenated : m.kind = .concatenatedString
      · have hline := hn.of_concatenated (hkind.trans hconcatenated)
        rw [constant?_of_concatenated (hkind.trans hconcatenated),
          constant?_of_concatenated hconcatenated,
          joinedStrings?_of_respaced hchildren hline (hunparenthesized hconcatenated)]
      by_cases hparenthesized : m.kind = .parenthesized
      · have hparts := hn.of_parenthesized (hkind.trans hparenthesized)
        rw [constant?_of_parenthesized (hkind.trans hparenthesized),
          constant?_of_parenthesized hparenthesized]
        exact bind_onlyNamed?_of_respaced hchildren (fun part hpart => (hparts part hpart).1)
          fun part hpart _ hsame => ih part hpart (hparts part hpart).2 hsame
      · exact constant?_congr hkind htext (by simp [hstring, hconcatenated, hparenthesized])
    | @enclosed _ _ inner _ _ hconstant _ hkind _ hchildren hothers hinner =>
      -- What is between the new parentheses is the whole tree, but for the part that it plays.
      have hparts := hn.of_parenthesized hkind
      have hmem : inner ∈ n.children := by simp [hchildren]
      have hnamed : inner.isNamed = true := by
        rw [hinner.isNamed_eq, Node.isNamed, bne_iff_ne]
        intro htoken
        rw [htoken] at hconstant
        exact absurd hconstant (by decide)
      have honly := onlyNamed?_of_enclosed hchildren hnamed hothers
        fun part hpart => (hparts part hpart).1
      rw [constant?_of_parenthesized hkind, honly, Option.bind_some,
        ih inner hmem (hparts inner hmem).2 hinner, constant?_withoutRole]

/-- A constant is kept exactly if it was none, or nothing hides it. -/
theorem constant?_eq_iff_of_respaced (hmn : Respaced m n) :
    constant? n = constant? m ↔ constant? m = none ∨ n.Tidy := by
  constructor
  · intro hsame
    cases hm : constant? m with
    | none => exact .inl rfl
    | some value => exact .inr (tidy_of_constant? (hsame.trans hm))
  · rintro (hnone | htidy)
    · rw [hnone, Option.eq_none_iff_forall_not_mem]
      intro value hvalue
      have hsame := constant?_of_respaced (tidy_of_constant? hvalue) hmn
      rw [hnone] at hsame
      rw [hsame] at hvalue
      contradiction
    · exact constant?_of_respaced htidy hmn

end

end FlowSurvey
