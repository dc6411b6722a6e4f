import FlowSurvey.Record.Deployment

/-!
# Selections

A selection has criteria, each of which may be left out.  Without any criterion
everything is selected; otherwise a record is selected if it meets one of them,
and only the first of the selected records with an id is kept.  A criterion with
nothing in it selects nothing.
-/

namespace FlowSurvey

/-- Keeps the first record of each id, leaving out the ids in `seen`. -/
def firstOfEach (id : α → String) (seen : List String) : List α → List α
  | [] => []
  | a :: rest =>
      if seen.contains (id a) then firstOfEach id seen rest
      else a :: firstOfEach id (id a :: seen) rest

structure FlowSelection where
  flows : Option (List Flow) := none
  groups : Option (List String) := none

namespace FlowSelection

def isUnfiltered (s : FlowSelection) : Bool :=
  s.flows.isNone && s.groups.isNone

def meets (s : FlowSelection) (flow : Flow) : Bool :=
  (s.flows.any fun references => references.any fun r => r.refetchKey == flow.refetchKey) ||
    (s.groups.any fun groups => flow.group?.any groups.contains)

def selects (s : FlowSelection) (flow : Flow) : Bool :=
  s.isUnfiltered || s.meets flow

def apply (s : FlowSelection) (flows : List Flow) : List Flow :=
  if s.isUnfiltered then flows else firstOfEach Flow.id [] (flows.filter s.meets)

end FlowSelection

structure DeploymentSelection where
  deployments : Option (List Deployment) := none
  flows : Option (List Flow) := none
  groups : Option (List String) := none

namespace DeploymentSelection

def isUnfiltered (s : DeploymentSelection) : Bool :=
  s.deployments.isNone && s.flows.isNone && s.groups.isNone

def meets (s : DeploymentSelection) (d : Deployment) : Bool :=
  (s.deployments.any fun references => references.any fun r => r.id == d.id) ||
    (s.flows.any fun flows => flows.any fun f => f.name == canonicalName d.flowName) ||
    (s.groups.any fun groups => groups.contains d.project)

def selects (s : DeploymentSelection) (d : Deployment) : Bool :=
  s.isUnfiltered || s.meets d

def apply (s : DeploymentSelection) (deployments : List Deployment) : List Deployment :=
  if s.isUnfiltered then deployments
  else firstOfEach Deployment.id [] (deployments.filter s.meets)

end DeploymentSelection

end FlowSurvey
