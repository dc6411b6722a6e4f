import FlowSurvey.Json.Printer
import FlowSurvey.Record.Deployment

/-!
# Reports

A report lists records as a JSON document, which can be read back, or as a table
with a line for each record and a line with their number.
-/

namespace FlowSurvey

inductive ReportFormat where
  | json
  | text
  deriving DecidableEq, Repr

def ReportFormat.name : ReportFormat → String
  | .json => "json"
  | .text => "text"

def ReportFormat.ofName? (name : String) : Option ReportFormat :=
  [ReportFormat.json, .text].find? fun format => format.name == name

/-- The place of a flow below the root, with its line if that is known. -/
def Flow.place (flow : Flow) : String :=
  match flow.line with
  | some line => flow.sourceRelative ++ ":" ++ toString line.toNat
  | none => flow.sourceRelative

def Flow.row (flow : Flow) : String :=
  "  ".intercalate
    [flow.id, flow.name, flow.form.label, flow.owner ++ "." ++ flow.symbol, flow.place]

def Deployment.row (d : Deployment) : String :=
  "  ".intercalate
    [d.id, d.name,
      "project=" ++ d.project ++ " branch=" ++ d.branch ++ " flow=" ++ d.flowName ++
        " env=" ++ d.environment]

def renderLines (lines : List String) : String :=
  String.join (lines.map (· ++ "\n"))

def renderFlows (format : ReportFormat) (flows : List Flow) : String :=
  match format with
  | .json => Json.pretty (.arr (flows.map Flow.toJson))
  | .text => renderLines (flows.map Flow.row ++ [toString flows.length ++ " flow(s)"])

def renderDeployments (format : ReportFormat) (deployments : List Deployment) : String :=
  match format with
  | .json => Json.pretty (.arr (deployments.map Deployment.toJson))
  | .text =>
      renderLines
        (deployments.map Deployment.row ++ [toString deployments.length ++ " deployment(s)"])

end FlowSurvey
