import FlowSurvey.Syntax.Target
import Mathlib.Data.List.Forall2

/-!
# Respaced trees

Comments and joined lines may be put between the tokens of a construct, and a constant may be
put in parentheses.  A tree is respaced from another one if it has been made from it in this
way: what the other one has is all there, in its order and with its parts, and what is new
stands between tokens or is a pair of parentheses.
-/

namespace FlowSurvey.Syntax

/-- The kinds of the expressions that can be constants. -/
def constantKinds : List Kind :=
  [.string, .concatenatedString, .integer, .float, .true, .false, .none, .parenthesized]

/-- What plays no part, or one of these, may stand in parentheses where it stands. -/
def groupableRoles : List (Option Role) :=
  [none, some .left, some .right, some .typeHint, some .value, some .function, some .object]

theorem Kind.isTrivia_iff {kind : Kind} :
    kind.isTrivia ↔ kind = .comment ∨ kind = .lineContinuation := by
  unfold Kind.isTrivia
  split <;> simp_all

namespace Node

/-- A comment or a joined line, which plays no part in what it stands in. -/
def IsTrivia (n : Node) : Prop :=
  n.kind.isTrivia = true ∧ n.role = none

instance (n : Node) : Decidable n.IsTrivia :=
  inferInstanceAs (Decidable (_ ∧ _))

end Node

mutual

/-- The second tree is the first one, with comments, joined lines and parentheses put in. -/
inductive Respaced : Node → Node → Prop
  | rebuilt {m n : Node} (hkind : n.kind = m.kind) (hrole : n.role = m.role)
      (htext : n.text = m.text)
      -- What follows a string in parentheses is an argument list and not a further string.
      (hparts : m.kind = .concatenatedString → ∀ part ∈ n.children, part.kind ≠ .parenthesized)
      (hchildren : RespacedAll m.children n.children) : Respaced m n
  | enclosed {m n inner : Node} {before after : List Node}
      (hconstant : m.kind ∈ constantKinds) (hgroupable : m.role ∈ groupableRoles)
      (hkind : n.kind = .parenthesized) (hrole : n.role = m.role)
      (hchildren : n.children = before ++ inner :: after)
      (hothers : ∀ other ∈ before ++ after, other.kind = .token ∨ other.kind.isTrivia = true)
      (hinner : Respaced { m with role := none } inner) : Respaced m n

/-- The nodes of the first list, each respaced, with comments and joined lines between them. -/
inductive RespacedAll : List Node → List Node → Prop
  | nil : RespacedAll [] []
  | trivia {n : Node} {ms ns : List Node} (hn : n.IsTrivia) (hrest : RespacedAll ms ns) :
      RespacedAll ms (n :: ns)
  | node {m n : Node} {ms ns : List Node} (hnode : Respaced m n) (hrest : RespacedAll ms ns) :
      RespacedAll (m :: ms) (n :: ns)

end

/-- The same construct, whose parts have been respaced. -/
structure Rebuilt (m n : Node) : Prop where
  kind_eq : n.kind = m.kind
  text_eq : n.text = m.text
  children : RespacedAll m.children n.children

namespace Respaced

variable {m n : Node}

theorem role_eq (hmn : Respaced m n) : n.role = m.role := by
  cases hmn with
  | rebuilt _ hrole => exact hrole
  | enclosed _ _ _ hrole => exact hrole

/-- Only a constant can get a kind of its own, by being put in parentheses. -/
theorem kind_eq_iff (hmn : Respaced m n) {kind : Kind} (hkind : kind ∉ constantKinds) :
    n.kind = kind ↔ m.kind = kind := by
  cases hmn with
  | rebuilt hsame => rw [hsame]
  | enclosed hconstant _ hparenthesized =>
    constructor
    · intro hn
      subst hn
      rw [hparenthesized] at hkind
      exact absurd (by decide) hkind
    · intro hm
      subst hm
      exact absurd hconstant hkind

theorem isNamed_eq (hmn : Respaced m n) : n.isNamed = m.isNamed := by
  have htoken : n.kind = .token ↔ m.kind = .token := hmn.kind_eq_iff (by decide)
  simp [Node.isNamed, bne, Bool.beq_eq_decide_eq, htoken]

/-- What is no constant, or cannot stand in parentheses, has been rebuilt. -/
theorem rebuilt_of_not_mem
    (hmn : Respaced m n) (hm : m.kind ∉ constantKinds ∨ m.role ∉ groupableRoles) :
    Rebuilt m n := by
  cases hmn with
  | rebuilt hkind _ htext _ hchildren => exact ⟨hkind, htext, hchildren⟩
  | enclosed hconstant hgroupable =>
    rcases hm with hm | hm
    · exact absurd hconstant hm
    · exact absurd hgroupable hm

end Respaced

namespace RespacedAll

theorem filter {p : Node → Bool} (hp : ∀ {m n}, Respaced m n → p n = p m) :
    ∀ {ms ns}, RespacedAll ms ns → RespacedAll (ms.filter p) (ns.filter p)
  | _, _, .nil => .nil
  | _, _, .trivia (n := n) hn hrest => by
    rw [List.filter_cons]
    split
    · exact .trivia hn (filter hp hrest)
    · exact filter hp hrest
  | _, _, .node (m := m) (n := n) hnode hrest => by
    rw [List.filter_cons, List.filter_cons, hp hnode]
    split
    · exact .node hnode (filter hp hrest)
    · exact filter hp hrest

theorem all_eq {p : Node → Bool} (hp : ∀ {m n}, Respaced m n → p n = p m)
    (htrivia : ∀ {n : Node}, n.IsTrivia → p n = true) :
    ∀ {ms ns}, RespacedAll ms ns → ns.all p = ms.all p
  | _, _, .nil => rfl
  | _, _, .trivia hn hrest => by
    rw [List.all_cons, htrivia hn, Bool.true_and, all_eq hp htrivia hrest]
  | _, _, .node hnode hrest => by
    rw [List.all_cons, List.all_cons, hp hnode, all_eq hp htrivia hrest]

theorem forall₂ : ∀ {ms ns}, RespacedAll ms ns → (∀ n ∈ ns, n.kind.isTrivia = false) →
    List.Forall₂ Respaced ms ns
  | _, _, .nil, _ => .nil
  | _, _, .trivia (n := n) hn _, hns => by
    have hn' := hns n List.mem_cons_self
    rw [hn.1] at hn'
    contradiction
  | _, _, .node hnode hrest, hns =>
    .cons hnode (forall₂ hrest fun n hn => hns n (List.mem_cons_of_mem _ hn))

theorem namedChildren {m n : Node} (hchildren : RespacedAll m.children n.children) :
    RespacedAll m.namedChildren n.namedChildren :=
  hchildren.filter Respaced.isNamed_eq

end RespacedAll

/-! ## Parts -/

theorem RespacedAll.rel_find?_role (role : Role) : ∀ {ms ns}, RespacedAll ms ns →
    Option.Rel Respaced (ms.find? fun m => m.role == some role)
      (ns.find? fun n => n.role == some role)
  | _, _, .nil => .none
  | _, _, .trivia (n := n) hn hrest => by
    have hrole : (n.role == some role) = false := by
      rw [hn.2]
      rfl
    rw [List.find?_cons, hrole]
    exact rel_find?_role role hrest
  | _, _, .node (m := m) (n := n) hnode hrest => by
    rw [List.find?_cons, List.find?_cons, hnode.role_eq]
    cases m.role == some role with
    | true => exact .some hnode
    | false => exact rel_find?_role role hrest

namespace Rebuilt

variable {m n : Node}

theorem rel_child? (hmn : Rebuilt m n) (role : Role) :
    Option.Rel Respaced (m.child? role) (n.child? role) :=
  hmn.children.rel_find?_role role

/-- A part that cannot stand in parentheses has been rebuilt like the construct itself. -/
theorem rel_child?_of_not_mem
    (hmn : Rebuilt m n) {role : Role} (hrole : some role ∉ groupableRoles) :
    Option.Rel Rebuilt (m.child? role) (n.child? role) := by
  have hchild := hmn.rel_child? role
  cases hm : m.child? role with
  | none =>
    rw [hm] at hchild
    generalize n.child? role = found at hchild ⊢
    cases hchild
    exact .none
  | some child =>
    have hchildRole : child.role = some role := by simpa using List.find?_some hm
    rw [hm] at hchild
    generalize n.child? role = found at hchild ⊢
    cases hchild with
    | some hsame => exact .some (hsame.rebuilt_of_not_mem (.inr (by rwa [hchildRole])))

end Rebuilt

end FlowSurvey.Syntax
