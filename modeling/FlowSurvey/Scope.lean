/-!
# Lexical scopes

The scope of a statement is the innermost class or function around it, together
with the nearest class and the nearest function.  It is handed down from a
definition to its body, so leaving a body takes no step of its own.
-/

namespace FlowSurvey

inductive ScopeKind where
  | module
  | classBody
  | function
  deriving DecidableEq, Repr

structure Scope where
  kind : ScopeKind
  nearestClass : Option String
  nearestFunction : Option String
  deriving DecidableEq, Repr

namespace Scope

/-- The scope of a statement that is in no class and no function. -/
def top : Scope :=
  ⟨.module, none, none⟩

def enterClass (scope : Scope) (name : String) : Scope :=
  { scope with kind := .classBody, nearestClass := some name }

def enterFunction (scope : Scope) (name : String) : Scope :=
  { scope with kind := .function, nearestFunction := some name }

def inFunction (scope : Scope) : Bool :=
  scope.kind == .function

def inClassBody (scope : Scope) : Bool :=
  scope.kind == .classBody

end Scope

end FlowSurvey
