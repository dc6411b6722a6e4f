import FlowSurvey.Failure
import FlowSurvey.Record.Deployment

/-!
# Documents

A document is a list of records as JSON text.  Reading one stops at the first
record that is not of the form it should have.
-/

namespace FlowSurvey

def Flow.ofJson : Json → Except RecordFailure Flow
  | .obj fields => (Flow.ofFields fields).mapError (.mismatched .flow)
  | value => .error (.notAnObject .flow value.kindLabel)

def Deployment.ofJson : Json → Except RecordFailure Deployment
  | .obj fields => (Deployment.ofFields fields).mapError (.mismatched .deployment)
  | value => .error (.notAnObject .deployment value.kindLabel)

def recordsOf (entity : Entity) (decode : Json → Except RecordFailure α) (text : String) :
    Except RecordFailure (List α) :=
  match Json.parse text with
  | .error error => .error (.malformed entity error)
  | .ok (.arr items) => items.mapM decode
  | .ok value => .error (.notAList entity value.kindLabel)

def flowsOfText (text : String) : Except RecordFailure (List Flow) :=
  recordsOf .flow Flow.ofJson text

def deploymentsOfText (text : String) : Except RecordFailure (List Deployment) :=
  recordsOf .deployment Deployment.ofJson text

end FlowSurvey
