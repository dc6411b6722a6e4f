import FlowSurvey.Declaration
import FlowSurvey.Proofs.SyntaxSites

/-!
# Declarations by their sites

Whether a site declares a flow, and what it belongs to, depends on the node and on
the nodes around it alone.  Nothing is handed down from definition to body here:
owner, enclosing function and form are looked up among the nodes around.

How a decorator is read is left open.  What it applies may be sought behind its
sign at once, or in its expression, with joined lines passed over.
-/

namespace FlowSurvey

open Syntax

/-! ## References -/

/-- A name, or an attribute that ends in it. -/
inductive RefersTo (name : String) : Node → Prop
  | bare {n : Node} (hkind : n.kind = .identifier) (htext : n.text = name) :
      RefersTo name n
  | last {n part : Node} (hkind : n.kind = .attribute)
      (hpart : n.child? .attribute = some part) (htext : part.text = name) :
      RefersTo name n

inductive Calls (name : String) : Node → Prop
  | intro {n callee : Node} (hkind : n.kind = .call)
      (hcallee : n.child? .function = some callee) (hname : RefersTo name callee) :
      Calls name n

/-- What a decorator that applies a name has behind its sign. -/
def Applies (name : String) (n : Node) : Prop :=
  RefersTo name n ∨ Calls name n

theorem referenceName?_eq_some_iff {name : String} {n : Node} :
    referenceName? n = some name ↔ RefersTo name n := by
  constructor
  · intro hname
    unfold referenceName? at hname
    split at hname
    next hkind => exact .bare hkind (Option.some.inj hname)
    next hkind =>
      obtain ⟨part, hpart, htext⟩ := Option.map_eq_some_iff.mp hname
      exact .last hkind hpart htext
    next => exact absurd hname (by simp)
  · intro hrefers
    cases hrefers with
    | bare hkind htext => simp [referenceName?, hkind, htext]
    | last hkind hpart htext => simp [referenceName?, hkind, hpart, htext]

theorem calleeName?_eq_some_iff {name : String} {n : Node} :
    calleeName? n = some name ↔ Calls name n := by
  constructor
  · intro hname
    unfold calleeName? at hname
    split at hname
    next hkind =>
      obtain ⟨callee, hcallee, hreference⟩ := Option.bind_eq_some_iff.mp hname
      exact ⟨hkind, hcallee, referenceName?_eq_some_iff.mp hreference⟩
    next => exact absurd hname (by simp)
  · rintro ⟨hkind, hcallee, hrefers⟩
    simp [calleeName?, hkind, hcallee, referenceName?_eq_some_iff.mpr hrefers]

theorem appliedName?_eq_some_iff {name : String} {n : Node} :
    appliedName? n = some name ↔ Applies name n := by
  unfold appliedName? Applies
  rw [← referenceName?_eq_some_iff, ← calleeName?_eq_some_iff]
  by_cases hkind : n.kind = .call
  · simp [hkind, referenceName?]
  · simp [hkind, calleeName?]

instance (name : String) (n : Node) : Decidable (RefersTo name n) :=
  decidable_of_iff _ referenceName?_eq_some_iff

instance (name : String) (n : Node) : Decidable (Calls name n) :=
  decidable_of_iff _ calleeName?_eq_some_iff

instance (name : String) (n : Node) : Decidable (Applies name n) :=
  decidable_of_iff _ appliedName?_eq_some_iff

/-! ## What a site declares -/

/-- What comes first behind the sign of a decorator. -/
def behindSign? (decorator : Node) : Option Node :=
  decorator.namedChildren.head?

/-- The expression of a decorator, behind joined lines if there are any. -/
def expression? (decorator : Node) : Option Node :=
  decorator.namedChildren.find? fun n => !n.kind.isTrivia

/-- The keywords of the first decorator that applies the marker. -/
def markerKeywords? (reading : Node → Option Node) (marking : Marking) (decorated : Node) :
    Option (List (String × Json)) :=
  let decorators := decorated.children.filter fun n => n.kind = .decorator
  let marker? := (decorators.filterMap reading).find? fun n => Applies marking.decorator n
  marker?.map constantKeywords

namespace Syntax.Site

variable (reading : Node → Option Node) (marking : Marking) (module : String)

/-- The owner is the nearest class, or else the module. -/
def declare (s : Site) (form : Form) (symbol : String) (keywords : List (String × Json))
    (docstring : Option String) : Declaration where
  declaredName := (stringKeyword? marking.idKeyword keywords).getD symbol
  description :=
    ((stringKeyword? marking.descriptionKeyword keywords).filter (!·.isEmpty)).getD
      (docstring.getD "")
  form
  symbol
  ownerKind :=
    if (nearest? s.around .classDefinition).isSome then .classBody else .module
  owner := ((nearest? s.around .classDefinition).map (·.definedName)).getD module
  line := s.node.start.row + 1
  keywords
  enclosingFunction :=
    (nearest? s.around .functionDefinition).map (·.definedName)

def decorated? (s : Site) : Option Node :=
  s.around.head?.filter fun n => n.kind = .decoratedDefinition

def instantiation? (s : Site) : Option (Node × Node) := do
  let constructor ← marking.constructor?
  guard (s.node.child? .typeHint).isNone
  let name ← s.node.child? .left
  guard (name.kind = .identifier)
  let call ← s.node.child? .right
  guard (Calls constructor call)
  return (name, call)

/-- The declaration at a site, by the nodes around it. -/
def declared? (s : Site) : Option Declaration :=
  match s.node.kind with
  | .functionDefinition =>
      let form := if innermostKind? s.around = some .classDefinition then
        Form.method else Form.function
      (s.decorated?.bind (markerKeywords? reading marking)).map fun keywords =>
        s.declare marking module form s.node.definedName keywords (docstring? s.node)
  | .assignment =>
      if (nearest? s.around .assignment).isSome ∨
          innermostKind? s.around = some .functionDefinition then none
      else
        (s.instantiation? marking).map fun (name, call) =>
          s.declare marking module .object name.text (constantKeywords call) none
  | _ => none

end Syntax.Site
end FlowSurvey
