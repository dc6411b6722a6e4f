/-!
# Deployment names

The name of a deployment joins a project, a branch, a flow and an environment by
double hyphens.  Only the flow may itself contain a double hyphen: it is what is
left between the first two parts and the last.
-/

namespace FlowSurvey

structure DeploymentName where
  project : String
  branch : String
  flow : String
  environment : String
  deriving DecidableEq, Repr

namespace DeploymentName

def separator : String := "--"

/-- The pieces of a text between double hyphens, read from the left. -/
def pieces : List Char → List (List Char)
  | '-' :: '-' :: rest => [] :: pieces rest
  | c :: rest =>
      match pieces rest with
      | [] => [[c]]
      | piece :: more => (c :: piece) :: more
  | [] => [[]]

def render (name : DeploymentName) : String :=
  separator.intercalate [name.project, name.branch, name.flow, name.environment]

/-- The parts of a name; no piece of it may be empty. -/
def parse? (text : String) : Option DeploymentName :=
  let parts := (pieces text.toList).map String.ofList
  if parts.any String.isEmpty then none
  else
    match parts with
    | project :: branch :: first :: second :: more =>
        let rest := first :: second :: more
        some ⟨project, branch, separator.intercalate rest.dropLast, rest.getLastD ""⟩
    | _ => none

end DeploymentName

end FlowSurvey
