import FlowSurvey.Syntax.Node
import Mathlib.Data.List.Basic

/-!
# Positions in a tree

A position says, from the root on, which child is gone to next.  In lexicographic order the
positions follow the source: a node comes before what is in it, and what is in one child comes
before what is in a later one.  The nodes of a tree in pre-order are those at its positions, and
a search through them ends at the least position where it can end.
-/

namespace FlowSurvey.Syntax.Node

/-- The node at a position, if the tree goes that far. -/
def at? (n : Node) : List Nat → Option Node
  | [] => some n
  | i :: position => n.children[i]?.bind fun child => child.at? position

theorem at?_nil (n : Node) : n.at? [] = some n := rfl

theorem at?_cons_eq_some_iff {n m : Node} {i : Nat} {position : List Nat} :
    n.at? (i :: position) = some m ↔
      ∃ child, n.children[i]? = some child ∧ child.at? position = some m := by
  rw [at?, Option.bind_eq_some_iff]

/-! ## Trees by their children -/

mutual

/-- What holds of a tree whenever it holds of the trees right below it holds of every tree. -/
theorem induction_children {P : Node → Prop}
    (hstep : ∀ n : Node, (∀ child ∈ n.children, P child) → P n) : (n : Node) → P n
  | ⟨kind, role, start, text, children⟩ =>
      hstep ⟨kind, role, start, text, children⟩ (induction_childrenAll hstep children)

theorem induction_childrenAll {P : Node → Prop}
    (hstep : ∀ n : Node, (∀ child ∈ n.children, P child) → P n) : (ns : List Node) →
    ∀ n ∈ ns, P n
  | [] => fun n hn => absurd hn List.not_mem_nil
  | first :: rest => by
      intro n hn
      rcases List.mem_cons.mp hn with hfirst | hrest
      · rw [hfirst]
        exact induction_children hstep first
      · exact induction_childrenAll hstep rest n hrest

end

theorem preorderAll_eq_flatMap (ns : List Node) : preorderAll ns = ns.flatMap preorder := by
  induction ns with
  | nil => rw [preorderAll]; rfl
  | cons n rest ih => rw [preorderAll, ih, List.flatMap_cons]

theorem preorder_eq_cons (n : Node) : n.preorder = n :: n.children.flatMap preorder := by
  obtain ⟨kind, role, start, text, children⟩ := n
  rw [preorder, preorderAll_eq_flatMap]

theorem mem_preorder_iff {n m : Node} :
    m ∈ n.preorder ↔ ∃ position, n.at? position = some m := by
  induction n using induction_children with
  | hstep n ih =>
    rw [preorder_eq_cons, List.mem_cons, List.mem_flatMap]
    constructor
    · rintro (rfl | ⟨child, hchild, hm⟩)
      · exact ⟨[], at?_nil m⟩
      · obtain ⟨position, hposition⟩ := (ih child hchild).mp hm
        obtain ⟨i, hi⟩ := List.getElem?_of_mem hchild
        exact ⟨i :: position, at?_cons_eq_some_iff.mpr ⟨child, hi, hposition⟩⟩
    · rintro ⟨position, hposition⟩
      cases position with
      | nil => exact .inl (Option.some.inj hposition).symm
      | cons i position =>
        obtain ⟨child, hi, hposition⟩ := at?_cons_eq_some_iff.mp hposition
        have hchild := List.mem_of_getElem? hi
        exact .inr ⟨child, hchild, (ih child hchild).mpr ⟨position, hposition⟩⟩

/-! ## The first node -/

/-- A node that satisfies `p`, at the least of the positions of such nodes. -/
def IsFirst (tree : Node) (p : Node → Prop) (n : Node) : Prop :=
  ∃ position, tree.at? position = some n ∧ p n ∧
    ∀ earlier < position, ∀ m, tree.at? earlier = some m → ¬ p m

section

variable {p : Node → Prop} {tree n : Node}

theorem isFirst_iff_eq_of_root (hroot : p tree) : tree.IsFirst p n ↔ n = tree := by
  constructor
  · rintro ⟨position, hn, -, hearlier⟩
    cases position with
    | nil => exact (Option.some.inj hn).symm
    | cons i position =>
      exact absurd hroot (hearlier [] (List.nil_lt_cons i position) tree (at?_nil tree))
  · rintro rfl
    exact ⟨[], at?_nil n, hroot, fun earlier h => absurd h (List.not_lt_nil earlier)⟩

/-- Below a root that does not count, the first node is that of the first child which has one. -/
theorem IsFirst.exists_child (hn : tree.IsFirst p n) (hroot : ¬ p tree) :
    ∃ before child after, tree.children = before ++ child :: after ∧ child.IsFirst p n ∧
      ∀ other ∈ before, ∀ m ∈ other.preorder, ¬ p m := by
  obtain ⟨position, hposition, hp, hearlier⟩ := hn
  cases position with
  | nil => exact absurd (Option.some.inj hposition ▸ hp) hroot
  | cons i position =>
    obtain ⟨child, hi, hposition⟩ := at?_cons_eq_some_iff.mp hposition
    -- Both what comes first in the same child and all of an earlier child have lesser positions.
    have hbelow {j : Nat} {rest : List Nat} (hlt : j :: rest < i :: position) {other m : Node}
        (hj : tree.children[j]? = some other) (hm : other.at? rest = some m) : ¬ p m :=
      hearlier (j :: rest) hlt m (at?_cons_eq_some_iff.mpr ⟨other, hj, hm⟩)
    refine ⟨tree.children.take i, child, tree.children.drop (i + 1), ?_, ?_, ?_⟩
    · obtain ⟨hlength, hget⟩ := List.getElem?_eq_some_iff.mp hi
      rw [← hget, List.getElem_cons_drop, List.take_append_drop]
    · refine ⟨position, hposition, hp, fun earlier hlt m hm => ?_⟩
      exact hbelow (List.cons_lt_cons_iff.mpr (.inr ⟨rfl, hlt⟩)) hi hm
    · intro other hother m hm
      obtain ⟨j, hj⟩ := List.getElem?_of_mem hother
      obtain ⟨rest, hrest⟩ := mem_preorder_iff.mp hm
      rw [List.getElem?_take, Option.ite_none_right_eq_some] at hj
      exact hbelow (List.cons_lt_cons_iff.mpr (.inl hj.1)) hj.2 hrest

theorem IsFirst.of_child {before after : List Node} {child : Node} (hn : child.IsFirst p n)
    (hchildren : tree.children = before ++ child :: after) (hroot : ¬ p tree)
    (hbefore : ∀ other ∈ before, ∀ m ∈ other.preorder, ¬ p m) : tree.IsFirst p n := by
  obtain ⟨position, hposition, hp, hearlier⟩ := hn
  have hchild : tree.children[before.length]? = some child := by simp [hchildren]
  refine ⟨before.length :: position, at?_cons_eq_some_iff.mpr ⟨child, hchild, hposition⟩, hp, ?_⟩
  intro earlier hlt m hm
  cases earlier with
  | nil => exact Option.some.inj hm ▸ hroot
  | cons j rest =>
    obtain ⟨other, hj, hm⟩ := at?_cons_eq_some_iff.mp hm
    rcases List.cons_lt_cons_iff.mp hlt with hindex | ⟨rfl, hrest⟩
    · rw [hchildren, List.getElem?_append_left hindex] at hj
      exact hbefore other (List.mem_of_getElem? hj) m (mem_preorder_iff.mpr ⟨rest, hm⟩)
    · obtain rfl : child = other := Option.some.inj (hchild.symm.trans hj)
      exact hearlier rest hrest m hm

/-- A search through the nodes in pre-order ends at the first one. -/
theorem find?_preorder_eq_some_iff [DecidablePred p] :
    tree.preorder.find? p = some n ↔ tree.IsFirst p n := by
  induction tree using induction_children with
  | hstep tree ih =>
    rw [preorder_eq_cons]
    by_cases hroot : p tree
    · rw [List.find?_cons_of_pos (by simpa using hroot), Option.some.injEq,
        isFirst_iff_eq_of_root hroot, eq_comm]
    rw [List.find?_cons_of_neg (by simpa using hroot), List.find?_flatMap,
      List.findSome?_eq_some_iff]
    have hnone (before : List Node) : (∀ other ∈ before, other.preorder.find? p = none) ↔
        ∀ other ∈ before, ∀ m ∈ other.preorder, ¬ p m := by
      simp only [List.find?_eq_none, decide_eq_true_eq]
    constructor
    · rintro ⟨before, child, after, hchildren, hfound, hbefore⟩
      have hfirst := (ih child (by simp [hchildren])).mp hfound
      exact hfirst.of_child hchildren hroot ((hnone before).mp hbefore)
    · intro hfirst
      obtain ⟨before, child, after, hchildren, hchild, hbefore⟩ := hfirst.exists_child hroot
      have hfound := (ih child (by simp [hchildren])).mpr hchild
      exact ⟨before, child, after, hchildren, hfound, (hnone before).mpr hbefore⟩

end

end FlowSurvey.Syntax.Node
