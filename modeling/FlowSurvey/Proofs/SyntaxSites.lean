import FlowSurvey.Syntax.Target
import Mathlib.Data.List.Basic

/-!
# Sites in a tree

A site is a node of a tree together with the nodes around it.  What a statement
belongs to is read off these nodes from the inside out: the nearest class, the
nearest function, and which of the two is nearer.

Definitions and assignments stand in bodies only.  A tree in which that is so has
nothing to look for in the decorators, the parameters or the bases of a
definition, nor in what is assigned, where only further targets can stand.
-/

namespace FlowSurvey.Syntax

/-- A node with the nodes around it, the innermost first. -/
structure Site where
  node : Node
  around : List Node

namespace Node

mutual

/-- All sites of a tree, in the order of the source. -/
def sites (around : List Node) : Node → List Site
  | ⟨kind, role, start, text, children⟩ =>
      ⟨⟨kind, role, start, text, children⟩, around⟩ ::
        sitesAmong (⟨kind, role, start, text, children⟩ :: around) children

def sitesAmong (around : List Node) : List Node → List Site
  | [] => []
  | n :: rest => sites around n ++ sitesAmong around rest

end

theorem sitesAmong_eq_flatMap (around ns : List Node) :
    sitesAmong around ns = ns.flatMap (sites around) := by
  induction ns with
  | nil => rfl
  | cons n rest ih => rw [sitesAmong, ih, List.flatMap_cons]

theorem sites_eq (around : List Node) (n : Node) :
    n.sites around = ⟨n, around⟩ :: n.children.flatMap (sites (n :: around)) := by
  obtain ⟨kind, role, start, text, children⟩ := n
  rw [sites, sitesAmong_eq_flatMap]

mutual

/-- Every node of a tree has exactly one site. -/
theorem map_node_sites (around : List Node) : (n : Node) →
    (n.sites around).map Site.node = n.preorder
  | ⟨kind, role, start, text, children⟩ => by
      simp only [sites, preorder, List.map_cons, map_node_sitesAmong]

theorem map_node_sitesAmong (around : List Node) : (ns : List Node) →
    (sitesAmong around ns).map Site.node = preorderAll ns
  | [] => rfl
  | n :: rest => by
      simp only [sitesAmong, preorderAll, List.map_append, map_node_sites,
        map_node_sitesAmong]

end

mutual

/-- The nodes around a site end with those around the whole tree. -/
theorem around_suffix_of_mem_sites (around : List Node) {s : Site} : (n : Node) →
    s ∈ n.sites around → around <:+ s.around
  | ⟨kind, role, start, text, children⟩, hs => by
      rw [sites] at hs
      rcases List.mem_cons.mp hs with rfl | hbelow
      · exact List.suffix_rfl
      · exact (List.suffix_cons _ around).trans
          (around_suffix_of_mem_sitesAmong _ children hbelow)

theorem around_suffix_of_mem_sitesAmong (around : List Node) {s : Site} :
    (ns : List Node) → s ∈ sitesAmong around ns → around <:+ s.around
  | [], hs => by simp [sitesAmong] at hs
  | n :: rest, hs => by
      rw [sitesAmong] at hs
      rcases List.mem_append.mp hs with hfirst | hrest
      · exact around_suffix_of_mem_sites around n hfirst
      · exact around_suffix_of_mem_sitesAmong around rest hrest

end

/-! ## Contexts -/

def definedName (n : Node) : String :=
  ((n.child? .name).map (·.text)).getD ""

end Node

/-- The innermost node of a kind. -/
def nearest? (around : List Node) (kind : Kind) : Option Node :=
  around.find? fun n => n.kind = kind

theorem nearest?_cons_of_ne
    {n : Node} {kind : Kind} (hkind : n.kind ≠ kind) (around : List Node) :
    nearest? (n :: around) kind = nearest? around kind := by
  simp [nearest?, hkind]

def innermostKind? (around : List Node) : Option Kind :=
  (around.find? fun n =>
    n.kind = .classDefinition ∨ n.kind = .functionDefinition).map (·.kind)

/-! ## Statements in bodies -/

/-- The kinds of the statements that can declare something, or stand around one. -/
def statementKinds : List Kind :=
  [.functionDefinition, .classDefinition, .decoratedDefinition, .assignment]

namespace Node

/-- No definition and no assignment is in a tree. -/
def Plain (n : Node) : Prop :=
  ∀ m ∈ n.preorder, m.kind ∉ statementKinds

instance (n : Node) : Decidable n.Plain :=
  inferInstanceAs (Decidable (∀ m ∈ n.preorder, m.kind ∉ statementKinds))

/-- One child plays a part, and nothing is to be looked for in the others. -/
def Encloses (n : Node) (role : Role) (inner : Node) : Prop :=
  inner.role = some role ∧
    ∃ before after, n.children = before ++ inner :: after ∧
      ∀ other ∈ before ++ after, other.role ≠ some role ∧ other.Plain

/-- Definitions and assignments stand where statements can stand, and nowhere else. -/
inductive StatementsInBodies : Node → Prop
  | token {n : Node} (hkind : n.kind = .token) (hleaf : n.children = []) :
      StatementsInBodies n
  | function {n body : Node} (hkind : n.kind = .functionDefinition)
      (hname : (n.child? .name).isSome) (hbody : n.Encloses .body body)
      (hinner : StatementsInBodies body) : StatementsInBodies n
  | class {n body : Node} (hkind : n.kind = .classDefinition)
      (hname : (n.child? .name).isSome) (hbody : n.Encloses .body body)
      (hinner : StatementsInBodies body) : StatementsInBodies n
  | decorated {n definition : Node} (hkind : n.kind = .decoratedDefinition)
      (hdefinition : n.Encloses .definition definition)
      (hinner : StatementsInBodies definition) : StatementsInBodies n
  | assignment {n : Node} (hkind : n.kind = .assignment)
      (htargets : ∀ child ∈ n.children, ∀ m ∈ child.preorder,
        m.kind ∈ statementKinds → m.kind = .assignment) : StatementsInBodies n
  | other {n : Node} (hkind : n.kind ≠ .token) (hplain : n.kind ∉ statementKinds)
      (hinner : ∀ child ∈ n.children, StatementsInBodies child) :
      StatementsInBodies n

theorem StatementsInBodies.name_of_function
    {n : Node} (hn : n.StatementsInBodies) (hkind : n.kind = .functionDefinition) :
    ∃ name, n.child? .name = some name := by
  cases hn with
  | function _ hname => exact Option.isSome_iff_exists.mp hname
  | other _ hplain => simp [hkind, statementKinds] at hplain
  | _ hother => simp [hkind] at hother

variable {α : Type} {f : Site → Option α} {n inner : Node} {role : Role}

theorem filterMap_sites (around : List Node) :
    (n.sites around).filterMap f =
      (f ⟨n, around⟩).toList ++ (n.children.flatMap (sites (n :: around))).filterMap f := by
  rw [sites_eq, List.filterMap_cons]
  cases f ⟨n, around⟩ <;> rfl

theorem Plain.filterMap_sites
    (hn : n.Plain) (hf : ∀ s, s.node.kind ∉ statementKinds → f s = none)
    (around : List Node) : (n.sites around).filterMap f = [] := by
  rw [List.filterMap_eq_nil_iff]
  intro s hs
  apply hf
  apply hn
  rw [← n.map_node_sites around]
  exact List.mem_map_of_mem hs

/-- Only the enclosed child can have anything to find. -/
theorem Encloses.filterMap_sites
    (hn : n.Encloses role inner)
    (hf : ∀ s, s.node.kind ∉ statementKinds → f s = none) (around : List Node) :
    (n.children.flatMap (sites around)).filterMap f =
      (inner.sites around).filterMap f := by
  obtain ⟨_, before, after, hchildren, hothers⟩ := hn
  have hplain : ∀ others : List Node, (∀ other ∈ others, other ∈ before ++ after) →
      (others.flatMap (sites around)).filterMap f = [] := by
    intro others hsub
    rw [List.filterMap_flatMap, List.flatMap_eq_nil_iff]
    intro other hother
    exact (hothers other (hsub other hother)).2.filterMap_sites hf around
  have hbefore := hplain before fun other hother => List.mem_append_left _ hother
  have hafter := hplain after fun other hother => List.mem_append_right _ hother
  simp only [hchildren, List.flatMap_append, List.flatMap_cons, List.filterMap_append,
    hbefore, hafter, List.nil_append, List.append_nil]

end Node
end FlowSurvey.Syntax
