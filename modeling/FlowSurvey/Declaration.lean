import FlowSurvey.Constant
import FlowSurvey.Platform
import FlowSurvey.Scope

/-!
# Declarations

A declaration is a place in source that makes something a flow: a function under
the decorator of the platform, or a name that a call of its constructor is
assigned to.  Nothing is run; what a name refers to is judged by its last part
alone.

A declaration itself has no number.  The declarations of a file are numbered in
their order from a given start, so that what is found does not depend on how many
were found before.
-/

namespace FlowSurvey

open Syntax

inductive Form where
  | object
  | function
  | method
  deriving DecidableEq, Repr

def Form.label : Form → String
  | .object => "object"
  | .function => "function"
  | .method => "method"

inductive OwnerKind where
  | module
  | classBody
  deriving DecidableEq, Repr

def OwnerKind.label : OwnerKind → String
  | .module => "module"
  | .classBody => "class"

structure Declaration where
  /-- The name that the keywords give, or else the name of the symbol. -/
  declaredName : String
  description : String
  form : Form
  symbol : String
  ownerKind : OwnerKind
  owner : String
  /-- The line of the definition or of the assignment, from one. -/
  line : Nat
  /-- The keywords whose values are constants, sorted by name. -/
  keywords : List (String × Json)
  enclosingFunction : Option String

def Declaration.key (d : Declaration) (number : Nat) : String :=
  d.declaredName ++ "_" ++ toString number

/-! ## References -/

/-- The last part of a name or of an attribute. -/
def referenceName? (n : Node) : Option String :=
  match n.kind with
  | .identifier => some n.text
  | .attribute => (n.child? .attribute).map (·.text)
  | _ => none

/-- The last part of what a call calls. -/
def calleeName? (n : Node) : Option String :=
  if n.kind = .call then (n.child? .function).bind referenceName? else none

def appliedName? (n : Node) : Option String :=
  if n.kind = .call then calleeName? n else referenceName? n

/-! ## Markers -/

/-- The first decorator of a definition that is the marker, as it is applied. -/
def marker? (marking : Marking) (decorated : Node) : Option Node :=
  ((decorated.namedChildren.filter fun n => n.kind = .decorator).filterMap
    (·.namedChildren.head?)).find? fun n => appliedName? n == some marking.decorator

def stringKeyword? (key : String) (keywords : List (String × Json)) : Option String :=
  (Json.lookup key keywords).bind Json.asString?

/-- What has been recognised as a flow, without what is around it. -/
structure Finding where
  form : Form
  symbol : String
  keywords : List (String × Json)
  docstring : Option String
  line : Nat

/-- A function whose decorators include the marker. -/
def decorated? (marking : Marking) (scope : Scope) (n : Node) : Option Finding := do
  let function ← n.child? .definition
  guard (function.kind = .functionDefinition)
  let name ← function.child? .name
  let marker ← marker? marking n
  return {
    form := if scope.inClassBody then .method else .function
    symbol := name.text
    keywords := constantKeywords marker
    docstring := docstring? function
    line := function.start.row + 1 }

/-- A plain assignment of a call of the constructor to a name. -/
def instantiated? (marking : Marking) (n : Node) : Option Finding := do
  let constructor ← marking.constructor?
  guard (n.child? .typeHint).isNone
  let left ← n.child? .left
  guard (left.kind = .identifier)
  let call ← n.child? .right
  guard (calleeName? call = some constructor)
  return {
    form := .object
    symbol := left.text
    keywords := constantKeywords call
    docstring := none
    line := n.start.row + 1 }

/-- The keywords come before the source, and the nearest class before the module. -/
def Finding.declare (marking : Marking) (module : String) (scope : Scope) (f : Finding) :
    Declaration where
  declaredName := (stringKeyword? marking.idKeyword f.keywords).getD f.symbol
  description :=
    match (stringKeyword? marking.descriptionKeyword f.keywords).filter (!·.isEmpty) with
    | some description => description
    | none => f.docstring.getD ""
  form := f.form
  symbol := f.symbol
  ownerKind := if scope.nearestClass.isSome then .classBody else .module
  owner := scope.nearestClass.getD module
  line := f.line
  keywords := f.keywords
  enclosingFunction := scope.nearestFunction

/-! ## Search -/

mutual

def declarations (marking : Marking) (module : String) (scope : Scope) :
    Node → List Declaration
  | ⟨kind, role, start, text, children⟩ =>
      let n : Node := ⟨kind, role, start, text, children⟩
      match kind with
      | .token => []
      | .decoratedDefinition =>
          ((decorated? marking scope n).map (·.declare marking module scope)).toList ++
            declarationsIn marking module scope .definition children
      | .functionDefinition =>
          match n.child? .name with
          | some name =>
              declarationsIn marking module (scope.enterFunction name.text) .body children
          | none => []
      | .classDefinition =>
          match n.child? .name with
          | some name => declarationsIn marking module (scope.enterClass name.text) .body children
          | none => []
      | .assignment =>
          if scope.inFunction then []
          else ((instantiated? marking n).map (·.declare marking module scope)).toList
      | _ => declarationsAmong marking module scope children

/-- The declarations of the first child that plays a part. -/
def declarationsIn (marking : Marking) (module : String) (scope : Scope) (role : Role) :
    List Node → List Declaration
  | [] => []
  | n :: rest =>
      if n.role == some role then declarations marking module scope n
      else declarationsIn marking module scope role rest

def declarationsAmong (marking : Marking) (module : String) (scope : Scope) :
    List Node → List Declaration
  | [] => []
  | n :: rest =>
      declarations marking module scope n ++ declarationsAmong marking module scope rest

end

def declarationsOf (platform : Platform) (module : String) (tree : Node) : List Declaration :=
  declarations platform.marking module .top tree

def numbered (start : Nat) (ds : List Declaration) : List (Nat × Declaration) :=
  ds.zipIdx start |>.map fun (d, number) => (number, d)

end FlowSurvey
