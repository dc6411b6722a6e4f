import FlowSurvey.Location
import FlowSurvey.Selection
import Mathlib.Data.List.Forall2

/-!
# Flows and their deployments

A deployment is linked to the flow that it was made from by a name alone, and the two names
come about apart: one is declared in source, the other is a part of the deployment's name.
Each is put into the canonical spelling, and the selection does so once more, which changes
nothing.  So a flow selects a deployment exactly if the name that it was declared under and
the one that was deployed differ in hyphens and underscores at most.
-/

namespace FlowSurvey

/-! ## Spellings -/

/-- The same name, but for hyphens in the place of underscores and the other way round. -/
def SpelledAlike (first second : String) : Prop :=
  List.Forall₂ (fun c d => c = d ∨ c ∈ ['-', '_'] ∧ d ∈ ['-', '_']) first.toList second.toList

theorem toList_canonicalName (name : String) :
    (canonicalName name).toList = name.toList.map fun c => if c = '-' then '_' else c := by
  simp [canonicalName]

theorem canonicalName_canonicalName (name : String) :
    canonicalName (canonicalName name) = canonicalName name := by
  apply String.toList_injective
  rw [toList_canonicalName, toList_canonicalName, List.map_map]
  apply List.map_congr_left
  intro c _
  by_cases hhyphen : c = '-' <;> simp [hhyphen]

theorem canonicalName_eq_iff {first second : String} :
    canonicalName first = canonicalName second ↔ SpelledAlike first second := by
  have hchar (c d : Char) :
      (if c = '-' then '_' else c) = (if d = '-' then '_' else d) ↔
        c = d ∨ c ∈ ['-', '_'] ∧ d ∈ ['-', '_'] := by
    by_cases hc : c = '-' <;> by_cases hd : d = '-' <;> simp [hc, hd] <;> grind
  rw [← String.toList_inj, toList_canonicalName, toList_canonicalName, SpelledAlike,
    ← List.forall₂_eq_eq_eq, List.forall₂_map_left_iff, List.forall₂_map_right_iff]
  simp only [hchar]

/-! ## Links -/

/-- The name of the flow that a deployment of some name was made from, as it was deployed. -/
def deployedFlow (deployment : String) : String :=
  ((DeploymentName.parse? deployment).map (·.flow)).getD deployment

theorem Deployment.flowName_ofTags (name : String) (tags : List String) (remote : RemoteMetadata) :
    (ofTags name tags remote).flowName = canonicalName (deployedFlow name) := by
  unfold ofTags deployedFlow
  cases DeploymentName.parse? name <;> rfl

theorem DeploymentSelection.selects_flows_iff (references : List Flow) (d : Deployment) :
    selects { flows := some references } d = true ↔
      ∃ r ∈ references, r.name = canonicalName d.flowName := by
  simp [selects, isUnfiltered, meets]

/-- A flow that has its name from a declared one. -/
inductive Flow.DeclaredAs : String → Flow → Prop
  | named (declaredName id sourcePath sourceRelative : String) :
      DeclaredAs declaredName (.named declaredName id sourcePath sourceRelative)
  | found (platform : Platform) (location : Location) (number : Nat) (d : Declaration) :
      DeclaredAs d.declaredName (.ofDeclaration platform location number d)

theorem Flow.DeclaredAs.name_eq {declaredName : String} {flow : Flow}
    (hflow : flow.DeclaredAs declaredName) : flow.name = canonicalName declaredName := by
  cases hflow <;> rfl

/--
Reference flows select a deployment if one of them has the canonical spelling of the deployed
name.  Of the flows that have their names from declared ones, whether they are found in source
or only named, these are the ones that were declared under the deployed name in any spelling.
-/
theorem selects_deployment_iff_declared
    (name : String) (tags : List String) (remote : RemoteMetadata) :
    (∀ references : List Flow,
      DeploymentSelection.selects { flows := some references } (.ofTags name tags remote) = true ↔
        ∃ r ∈ references,
          r.name.toList =
            (deployedFlow name).toList.map fun c => if c = '-' then '_' else c) ∧
      ∀ (declaredName : String) (flow : Flow), flow.DeclaredAs declaredName →
        (DeploymentSelection.selects { flows := some [flow] } (.ofTags name tags remote) = true ↔
          SpelledAlike declaredName (deployedFlow name)) := by
  have hselects (references : List Flow) :
      DeploymentSelection.selects { flows := some references } (.ofTags name tags remote) = true ↔
        ∃ r ∈ references, r.name = canonicalName (deployedFlow name) := by
    rw [DeploymentSelection.selects_flows_iff, Deployment.flowName_ofTags,
      canonicalName_canonicalName]
  constructor
  · intro references
    simp only [hselects, ← toList_canonicalName, String.toList_inj]
  · intro declaredName flow hflow
    rw [hselects, ← canonicalName_eq_iff, ← hflow.name_eq]
    simp

/-- A flow name with a double hyphen inside is deployed, and declared in another spelling. -/
theorem selects_deployment_iff_declared_separated :
    (Flow.named "daily__etl-job" "etl_0" "/flows/etl.py" "etl.py").DeclaredAs "daily__etl-job" ∧
      deployedFlow "acme--main--daily--etl-job--dev" = "daily--etl-job" ∧
      DeploymentSelection.selects
        { flows := some [.named "daily__etl-job" "etl_0" "/flows/etl.py" "etl.py"] }
        (.ofTags "acme--main--daily--etl-job--dev" ["ENV=prod"] {}) = true := by
  have hdeclared := Flow.DeclaredAs.named "daily__etl-job" "etl_0" "/flows/etl.py" "etl.py"
  have hflow : deployedFlow "acme--main--daily--etl-job--dev" = "daily--etl-job" := by rfl
  have halike : SpelledAlike "daily__etl-job" "daily--etl-job" :=
    canonicalName_eq_iff.mp (by decide)
  refine ⟨hdeclared, hflow, ?_⟩
  rw [(selects_deployment_iff_declared "acme--main--daily--etl-job--dev" ["ENV=prod"] {}).2 _ _
    hdeclared, hflow]
  exact halike

end FlowSurvey
