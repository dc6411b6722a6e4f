import FlowSurvey.Proofs.DeclarationSites

/-!
# The search for declarations

The scope that the search hands down is always the one that the nodes around give.
With that as the invariant, the search of a tree with its statements in bodies is
an enumeration of its sites.
-/

namespace FlowSurvey

open Syntax

/-! ## Scopes -/

def Scope.around (around : List Node) : Scope where
  kind :=
    match innermostKind? around with
    | some .classDefinition => .classBody
    | some .functionDefinition => .function
    | _ => .module
  nearestClass := (nearest? around .classDefinition).map (·.definedName)
  nearestFunction := (nearest? around .functionDefinition).map (·.definedName)

namespace Scope

variable {n name : Node} (nodes : List Node)

theorem around_cons_of_ne
    (hclass : n.kind ≠ .classDefinition) (hfunction : n.kind ≠ .functionDefinition) :
    Scope.around (n :: nodes) = Scope.around nodes := by
  simp [Scope.around, innermostKind?, nearest?, hclass, hfunction]

theorem around_cons_class
    (hkind : n.kind = .classDefinition) (hname : n.child? .name = some name) :
    Scope.around (n :: nodes) = (Scope.around nodes).enterClass name.text := by
  simp [Scope.around, innermostKind?, nearest?, hkind, enterClass, Node.definedName, hname]

theorem around_cons_function
    (hkind : n.kind = .functionDefinition) (hname : n.child? .name = some name) :
    Scope.around (n :: nodes) = (Scope.around nodes).enterFunction name.text := by
  simp [Scope.around, innermostKind?, nearest?, hkind, enterFunction, Node.definedName,
    hname]

theorem inFunction_around :
    (Scope.around nodes).inFunction ↔
      innermostKind? nodes = some .functionDefinition := by
  unfold inFunction Scope.around
  split <;> simp_all

theorem inClassBody_around :
    (Scope.around nodes).inClassBody ↔ innermostKind? nodes = some .classDefinition := by
  unfold inClassBody Scope.around
  split <;> simp_all

end Scope

/-! ## One step of the search -/

section

variable (marking : Marking) (module : String) (scope : Scope)

theorem declarationsAmong_eq_flatMap (ns : List Node) :
    declarationsAmong marking module scope ns =
      ns.flatMap (declarations marking module scope) := by
  induction ns with
  | nil => rw [declarationsAmong, List.flatMap_nil]
  | cons n rest ih => rw [declarationsAmong, ih, List.flatMap_cons]

variable {n inner name : Node} {role : Role}

theorem declarationsIn_of_encloses (hn : n.Encloses role inner) :
    declarationsIn marking module scope role n.children =
      declarations marking module scope inner := by
  obtain ⟨hrole, before, after, hchildren, hothers⟩ := hn
  rw [hchildren]
  clear hchildren
  induction before with
  | nil => simp [declarationsIn, hrole]
  | cons other rest ih =>
      have hother : other.role ≠ some role := (hothers other (by simp)).1
      rw [List.cons_append, declarationsIn, if_neg (by simpa using hother)]
      exact ih fun m hm => hothers m (List.mem_cons_of_mem other hm)

theorem child?_of_encloses (hn : n.Encloses role inner) : n.child? role = some inner := by
  obtain ⟨hrole, before, after, hchildren, hothers⟩ := hn
  have hbefore : before.find? (fun child => child.role == some role) = none := by
    rw [List.find?_eq_none]
    intro other hother
    simpa using (hothers other (List.mem_append_left _ hother)).1
  simp [Node.child?, hchildren, List.find?_append, hbefore, hrole]

theorem declarations_token (hkind : n.kind = .token) :
    declarations marking module scope n = [] := by
  obtain ⟨kind, role, start, text, children⟩ := n
  obtain rfl : kind = .token := hkind
  rw [declarations]

theorem declarations_function
    (hkind : n.kind = .functionDefinition) (hname : n.child? .name = some name)
    (hbody : n.Encloses .body inner) :
    declarations marking module scope n =
      declarations marking module (scope.enterFunction name.text) inner := by
  rw [← declarationsIn_of_encloses _ _ _ hbody]
  obtain ⟨kind, role, start, text, children⟩ := n
  obtain rfl : kind = .functionDefinition := hkind
  rw [declarations]
  simp only [hname]

theorem declarations_class
    (hkind : n.kind = .classDefinition) (hname : n.child? .name = some name)
    (hbody : n.Encloses .body inner) :
    declarations marking module scope n =
      declarations marking module (scope.enterClass name.text) inner := by
  rw [← declarationsIn_of_encloses _ _ _ hbody]
  obtain ⟨kind, role, start, text, children⟩ := n
  obtain rfl : kind = .classDefinition := hkind
  rw [declarations]
  simp only [hname]

theorem declarations_decorated
    (hkind : n.kind = .decoratedDefinition) (hdefinition : n.Encloses .definition inner) :
    declarations marking module scope n =
      ((decorated? marking scope n).map (·.declare marking module scope)).toList ++
        declarations marking module scope inner := by
  rw [← declarationsIn_of_encloses _ _ _ hdefinition]
  obtain ⟨kind, role, start, text, children⟩ := n
  obtain rfl : kind = .decoratedDefinition := hkind
  rw [declarations]

theorem declarations_assignment (hkind : n.kind = .assignment) :
    declarations marking module scope n =
      if scope.inFunction then []
      else ((instantiated? marking n).map (·.declare marking module scope)).toList := by
  obtain ⟨kind, role, start, text, children⟩ := n
  obtain rfl : kind = .assignment := hkind
  rw [declarations]

theorem declarations_other (hkind : n.kind ≠ .token) (hplain : n.kind ∉ statementKinds) :
    declarations marking module scope n =
      n.children.flatMap (declarations marking module scope) := by
  rw [← declarationsAmong_eq_flatMap]
  obtain ⟨kind, role, start, text, children⟩ := n
  simp only [statementKinds, List.mem_cons, List.not_mem_nil, or_false, not_or] at hplain
  obtain ⟨hfunction, hclass, hdecorated, hassignment⟩ := hplain
  rw [declarations] <;> assumption

end

/-! ## One site -/

section

variable (reading : Node → Option Node) (marking : Marking) (module : String)
variable {n parent : Node} {nodes : List Node}

theorem declared?_of_not_statement {s : Site} (hkind : s.node.kind ∉ statementKinds) :
    s.declared? reading marking module = none := by
  simp only [statementKinds, List.mem_cons, List.not_mem_nil, or_false, not_or] at hkind
  obtain ⟨hfunction, _, _, hassignment⟩ := hkind
  unfold Site.declared?
  split
  next h => exact absurd h hfunction
  next h => exact absurd h hassignment
  next => rfl

theorem decorated?_of_ne (hparent : parent.kind ≠ .decoratedDefinition) :
    Site.decorated? ⟨n, parent :: nodes⟩ = none := by
  simp [Site.decorated?, hparent]

theorem declared?_of_undecorated
    {s : Site} (hkind : s.node.kind = .functionDefinition) (hnone : s.decorated? = none) :
    s.declared? reading marking module = none := by
  simp [Site.declared?, hkind, hnone]

theorem declared?_of_assignment_around {s : Site}
    (hkind : s.node.kind ∈ statementKinds → s.node.kind = .assignment)
    (haround : (nearest? s.around .assignment).isSome) :
    s.declared? reading marking module = none := by
  by_cases hstatement : s.node.kind ∈ statementKinds
  · simp [Site.declared?, hkind hstatement, haround]
  · exact declared?_of_not_statement reading marking module hstatement

theorem marker?_eq_find? (decorated : Node) :
    marker? marking decorated =
      (((decorated.children.filter fun n => n.kind = .decorator).filterMap
        behindSign?).find? fun n => Applies marking.decorator n) := by
  have hdecorators : (decorated.namedChildren.filter fun n => n.kind = .decorator) =
      decorated.children.filter fun n => n.kind = .decorator := by
    rw [Node.namedChildren, List.filter_filter]
    apply List.filter_congr
    intro child _
    by_cases hkind : child.kind = .decorator <;> simp [Node.isNamed, hkind]
  rw [marker?, hdecorators]
  congr 1
  funext n
  rw [Bool.eq_iff_iff, beq_iff_eq, appliedName?_eq_some_iff, decide_eq_true_iff]

theorem instantiated?_eq_map (s : Site) :
    instantiated? marking s.node =
      (s.instantiation? marking).map fun (name, call) =>
        { form := .object, symbol := name.text, keywords := constantKeywords call,
          docstring := none, line := s.node.start.row + 1 } := by
  unfold instantiated? Site.instantiation? guard
  simp only [calleeName?_eq_some_iff, Option.map_bind, Option.bind_eq_bind,
    Function.comp_def, Option.pure_def, Option.map_some]

theorem Finding.declare_around
    (s : Site) (f : Finding) (hline : f.line = s.node.start.row + 1) :
    f.declare marking module (Scope.around s.around) =
      s.declare marking module f.form f.symbol f.keywords f.docstring := by
  simp only [Finding.declare, Site.declare, hline, Scope.around, Option.isSome_map]
  cases (stringKeyword? marking.descriptionKeyword f.keywords).filter (!·.isEmpty) <;> rfl

theorem decorated?_eq_map
    {definition name : Node} (scope : Scope)
    (hchild : parent.child? .definition = some definition)
    (hkind : definition.kind = .functionDefinition)
    (hname : definition.child? .name = some name) :
    decorated? marking scope parent =
      (marker? marking parent).map fun marker =>
        { form := if scope.inClassBody then .method else .function
          symbol := name.text
          keywords := constantKeywords marker
          docstring := docstring? definition
          line := definition.start.row + 1 } := by
  unfold decorated? guard
  simp only [hchild, hname, hkind, if_true, Option.bind_eq_bind, Option.bind_some]
  cases marker? marking parent <;> rfl

theorem decorated?_of_ne_function
    {definition : Node} (scope : Scope)
    (hchild : parent.child? .definition = some definition)
    (hkind : definition.kind ≠ .functionDefinition) :
    decorated? marking scope parent = none := by
  unfold decorated? guard
  simp only [hchild, if_neg hkind, Option.bind_eq_bind, Option.bind_some]
  rfl

/-- A decorated definition is met before its function, but it declares that function. -/
theorem declared?_of_decorated
    {definition name : Node}
    (hparent : parent.kind = .decoratedDefinition)
    (hdefinition : parent.Encloses .definition definition)
    (hkind : definition.kind = .functionDefinition)
    (hname : definition.child? .name = some name) :
    Site.declared? behindSign? marking module ⟨definition, parent :: nodes⟩ =
      (decorated? marking (Scope.around nodes) parent).map
        (·.declare marking module (Scope.around nodes)) := by
  have hchild := child?_of_encloses hdefinition
  have hsame : Scope.around (parent :: nodes) = Scope.around nodes :=
    Scope.around_cons_of_ne nodes (by simp [hparent]) (by simp [hparent])
  have hmethod := Scope.inClassBody_around (parent :: nodes)
  rw [hsame] at hmethod
  have hdeclare := Finding.declare_around marking module ⟨definition, parent :: nodes⟩
  simp only [hsame] at hdeclare
  have hdecorated : Site.decorated? ⟨definition, parent :: nodes⟩ = some parent := by
    simp [Site.decorated?, hparent]
  have hkeywords : markerKeywords? behindSign? marking parent =
      (marker? marking parent).map constantKeywords := by
    rw [markerKeywords?, marker?_eq_find?]
  have hfinding := decorated?_eq_map marking (Scope.around nodes) hchild hkind hname
  simp only [Site.declared?, hkind, hdecorated, Option.bind_some, hkeywords, hfinding,
    Node.definedName, hname]
  cases marker? marking parent with
  | none => rfl
  | some marker => simp [hdeclare, hmethod]

theorem declared?_of_assignment
    (hkind : n.kind = .assignment) (hnearest : nearest? nodes .assignment = none) :
    (Site.declared? reading marking module ⟨n, nodes⟩).toList =
      if (Scope.around nodes).inFunction then []
      else ((instantiated? marking n).map
        (·.declare marking module (Scope.around nodes))).toList := by
  have hinFunction := Scope.inFunction_around nodes
  have hinstantiated := instantiated?_eq_map marking ⟨n, nodes⟩
  have hdeclare := Finding.declare_around marking module ⟨n, nodes⟩
  by_cases hfunction : innermostKind? nodes = some .functionDefinition
  · simp [Site.declared?, hkind, hfunction, hinFunction]
  · simp only [Site.declared?, hkind, hfunction, hinFunction, hnearest, hinstantiated]
    cases Site.instantiation? marking ⟨n, nodes⟩ with
    | none => simp
    | some found => simp [hdeclare]

end

/-! ## The whole search -/

section

variable (marking : Marking) (module : String)

/-- What a decorated function declares; the search finds it with the decorators. -/
def Syntax.Site.functionDeclared (s : Site) : List Declaration :=
  if s.node.kind = .functionDefinition then
    (s.declared? behindSign? marking module).toList
  else []

theorem functionDeclared_of_undecorated {s : Site} (hnone : s.decorated? = none) :
    s.functionDeclared marking module = [] := by
  unfold Site.functionDeclared
  split
  next hkind => rw [declared?_of_undecorated _ _ _ hkind hnone, Option.toList_none]
  next => rfl

variable {n parent definition : Node} (nodes : List Node)

theorem functionDeclared_of_decorated
    (hparent : parent.kind = .decoratedDefinition)
    (hdefinition : parent.Encloses .definition definition)
    (hinner : definition.StatementsInBodies) :
    Site.functionDeclared marking module ⟨definition, parent :: nodes⟩ =
      ((decorated? marking (Scope.around nodes) parent).map
        (·.declare marking module (Scope.around nodes))).toList := by
  by_cases hkind : definition.kind = .functionDefinition
  · obtain ⟨name, hname⟩ := hinner.name_of_function hkind
    simp only [Site.functionDeclared, if_pos hkind]
    rw [declared?_of_decorated _ _ hparent hdefinition hkind hname]
  · have hchild := child?_of_encloses hdefinition
    rw [decorated?_of_ne_function _ _ hchild hkind]
    simp [Site.functionDeclared, hkind]

/-- What is assigned may be assigned to further targets, but declares nothing more. -/
theorem filterMap_declared?_below_assignment
    (hkind : n.kind = .assignment)
    (htargets : ∀ child ∈ n.children, ∀ m ∈ child.preorder,
      m.kind ∈ statementKinds → m.kind = .assignment) :
    (n.children.flatMap (Node.sites (n :: nodes))).filterMap
      (Site.declared? behindSign? marking module) = [] := by
  rw [List.filterMap_eq_nil_iff]
  intro s hs
  obtain ⟨child, hchild, hs⟩ := List.mem_flatMap.mp hs
  have hmem : s.node ∈ child.preorder := by
    rw [← child.map_node_sites (n :: nodes)]
    exact List.mem_map_of_mem hs
  obtain ⟨between, hbetween⟩ := Node.around_suffix_of_mem_sites _ child hs
  apply declared?_of_assignment_around _ _ _ (htargets child hchild _ hmem)
  rw [← hbetween]
  simp [nearest?, hkind]

/-- A site and all below it declare what the search finds below it. -/
theorem filterMap_declared?_sites
    (hn : n.StatementsInBodies) (hnearest : nearest? nodes .assignment = none) :
    (n.sites nodes).filterMap (Site.declared? behindSign? marking module) =
      Site.functionDeclared marking module ⟨n, nodes⟩ ++
        declarations marking module (Scope.around nodes) n := by
  have hplain (s : Site) (hs : s.node.kind ∉ statementKinds) :
      s.declared? behindSign? marking module = none :=
    declared?_of_not_statement behindSign? marking module hs
  -- No assignment is around: the search does not go into one.
  induction hn generalizing nodes with
  | @token n hkind hleaf =>
      have hnot : n.kind ∉ statementKinds := by simp [hkind, statementKinds]
      rw [Node.filterMap_sites, hleaf, hplain ⟨n, nodes⟩ hnot,
        declarations_token _ _ _ hkind]
      simp [Site.functionDeclared, hkind]
  | @function n body hkind hname hbody hinner ih =>
      obtain ⟨name, hname⟩ := Option.isSome_iff_exists.mp hname
      have hassignment : n.kind ≠ .assignment := by simp [hkind]
      have hnone := (nearest?_cons_of_ne hassignment nodes).trans hnearest
      have hparent : n.kind ≠ .decoratedDefinition := by simp [hkind]
      rw [Node.filterMap_sites, hbody.filterMap_sites hplain, ih _ hnone,
        functionDeclared_of_undecorated _ _ (decorated?_of_ne hparent),
        Scope.around_cons_function nodes hkind hname,
        declarations_function _ _ _ hkind hname hbody]
      simp [Site.functionDeclared, hkind]
  | @«class» n body hkind hname hbody hinner ih =>
      obtain ⟨name, hname⟩ := Option.isSome_iff_exists.mp hname
      have hassignment : n.kind ≠ .assignment := by simp [hkind]
      have hnone := (nearest?_cons_of_ne hassignment nodes).trans hnearest
      have hparent : n.kind ≠ .decoratedDefinition := by simp [hkind]
      rw [Node.filterMap_sites, hbody.filterMap_sites hplain, ih _ hnone,
        functionDeclared_of_undecorated _ _ (decorated?_of_ne hparent),
        Scope.around_cons_class nodes hkind hname,
        declarations_class _ _ _ hkind hname hbody]
      simp [Site.functionDeclared, Site.declared?, hkind]
  | @decorated n definition hkind hdefinition hinner ih =>
      have hassignment : n.kind ≠ .assignment := by simp [hkind]
      have hnone := (nearest?_cons_of_ne hassignment nodes).trans hnearest
      have hscope : Scope.around (n :: nodes) = Scope.around nodes :=
        Scope.around_cons_of_ne nodes (by simp [hkind]) (by simp [hkind])
      rw [Node.filterMap_sites, hdefinition.filterMap_sites hplain, ih _ hnone,
        functionDeclared_of_decorated _ _ _ hkind hdefinition hinner, hscope,
        declarations_decorated _ _ _ hkind hdefinition]
      simp [Site.functionDeclared, Site.declared?, hkind]
  | @assignment n hkind htargets =>
      have hbelow := filterMap_declared?_below_assignment marking module nodes hkind htargets
      rw [Node.filterMap_sites, hbelow, declared?_of_assignment _ _ _ hkind hnearest,
        declarations_assignment _ _ _ hkind]
      simp [Site.functionDeclared, hkind]
  | @other n hkind hstatement hinner ih =>
      -- A function right below has no decorators of its own here.
      have hnot := hstatement
      simp only [statementKinds, List.mem_cons, List.not_mem_nil, or_false, not_or] at hnot
      obtain ⟨hfunction, hclass, hdecorated, hassignment⟩ := hnot
      have hnone := (nearest?_cons_of_ne hassignment nodes).trans hnearest
      have hchildren : (n.children.flatMap (Node.sites (n :: nodes))).filterMap
          (Site.declared? behindSign? marking module) =
            n.children.flatMap (declarations marking module (Scope.around nodes)) := by
        rw [List.filterMap_flatMap]
        apply List.flatMap_congr
        intro child hchild
        rw [ih child hchild _ hnone,
          functionDeclared_of_undecorated _ _ (decorated?_of_ne hdecorated),
          Scope.around_cons_of_ne nodes hclass hfunction, List.nil_append]
      rw [Node.filterMap_sites, hchildren, hplain ⟨n, nodes⟩ hstatement,
        declarations_other _ _ _ hkind hstatement]
      simp [Site.functionDeclared, hfunction]

theorem declarationsOf_eq_filterMap_sites
    (platform : Platform) {tree : Node} (htree : tree.StatementsInBodies) :
    declarationsOf platform module tree =
      (tree.sites []).filterMap
        (Site.declared? behindSign? platform.marking module) := by
  have hundecorated : Site.functionDeclared platform.marking module ⟨tree, []⟩ = [] :=
    functionDeclared_of_undecorated _ _ rfl
  rw [filterMap_declared?_sites _ _ [] htree rfl, hundecorated]
  rfl

end

end FlowSurvey
