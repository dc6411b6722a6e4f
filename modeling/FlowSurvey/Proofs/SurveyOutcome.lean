import FlowSurvey.Proofs.SurveyRun

/-!
# Outcomes of scans

The declarations of a scan are numbered without a gap from its start, so no id
is handed out twice and nothing collides, whatever the declared names are.  A
scan of parts that go on with each other's numbers has the outcome of a single
scan.
-/

namespace FlowSurvey
namespace Survey

def declarationCount (s : Survey) (root : String) (files : List String) : Nat :=
  (files.flatMap (declarationsAt s.fs s.platform root)).length

/-- A survey of a flow, a file that is not text and a file that does not parse. -/
def mixedSurvey : Survey where
  fs.root := .directory
    [("broken.py", .file "def etl(:\n".toUTF8),
      ("flows.py", .file "@flow\ndef etl_0():\n    pass\n".toUTF8),
      ("latin.py", .file (ByteArray.mk #[0xe9]))]
  root := "/"
  platform := .prefect

theorem resolvedRoot_mixedSurvey : mixedSurvey.resolvedRoot = .ok "/" := by
  have hpieces : pathPieces "/" = ["", ""] := by rfl
  simp [mixedSurvey, resolvedRoot, FileSystem.resolve, FileSystem.start, hpieces,
    FileSystem.follow, FileSystem.entryAt, FileSystem.pathOf, FileSystem.position]
  rfl

/-- The ids of a scan carry the numbers from its start on, one for each declaration. -/
theorem scanFiles_numbers_flows
    (s : Survey) (files : List String) (start : Nat) {root : String}
    (hroot : s.resolvedRoot = .ok root) :
    ∃ outcome, s.scanFiles files start = .ok outcome ∧
      outcome.catalog.size = s.declarationCount root files ∧
      outcome.catalog.collisions = [] ∧
      (∀ i flow, outcome.catalog.flows[i]? = some flow →
        flow.id = flow.declaredName ++ "_" ++ toString (start + i)) ∧
      (outcome.catalog.flows.toList.map (·.id)).Nodup ∧
      outcome.next = start + s.declarationCount root files := by
  have hnumbered := numberedFrom_flowsFrom s.fs s.platform root start files
  have hlength := length_flowsFrom s.fs s.platform root start files
  have hnodup := hnumbered.ids_nodup
  have hscan := s.scanFiles_eq files start
  rw [hroot, Except.map] at hscan
  refine ⟨_, hscan, ?_, ?_, ?_, ?_, ?_⟩
  · rw [Catalog.size, ← Array.length_toList, Outcome.flows_extend_new start hnodup]
    exact hlength
  · exact Outcome.collisions_extend_new start hnodup _ _
  · intro i flow hflow
    rw [← Array.getElem?_toList, Outcome.flows_extend_new start hnodup] at hflow
    exact hnumbered i flow hflow
  · rw [Outcome.flows_extend_new start hnodup]
    exact hnodup
  · exact congrArg (start + ·) hlength

theorem scanFiles_numbers_flows_mixedSurvey :
    mixedSurvey.resolvedRoot = .ok "/" ∧
      ∃ outcome,
        mixedSurvey.scanFiles ["/latin.py", "/flows.py", "/flows.py", "/broken.py"] 7 =
          .ok outcome ∧
        outcome.catalog.collisions = [] ∧
        (outcome.catalog.flows.toList.map (·.id)).Nodup := by
  obtain ⟨outcome, hscan, _, hcollisions, _, hnodup, _⟩ :=
    scanFiles_numbers_flows mixedSurvey
      ["/latin.py", "/flows.py", "/flows.py", "/broken.py"] 7 resolvedRoot_mixedSurvey
  exact ⟨resolvedRoot_mixedSurvey, outcome, hscan, hcollisions, hnodup⟩

/-! ## Scans of parts -/

/--
Scans parts of a list of files, each with the numbers that are free after the
parts before it, and merges the outcomes.
-/
def scanShards (s : Survey) : List (List String) → Outcome → Except FileFailure Outcome
  | [], merged => .ok merged
  | shard :: rest, merged => do
      let outcome ← s.scanFiles shard merged.next
      scanShards s rest (merged.merge outcome)

theorem scanShards_eq_extend
    (s : Survey) {root : String} (hroot : s.resolvedRoot = .ok root)
    (shards : List (List String)) (merged : Outcome) :
    s.scanShards shards merged =
      .ok (merged.extend (flowsFrom s.fs s.platform root merged.next shards.flatten)
        shards.flatten.length (shards.flatten.filterMap (diagnosticAt? s.fs))) := by
  induction shards generalizing merged with
  | nil => exact congrArg Except.ok merged.extend_nil.symm
  | cons shard rest ih =>
      have hnodup :=
        (numberedFrom_flowsFrom s.fs s.platform root merged.next shard).ids_nodup
      have hscan := s.scanFiles_eq shard merged.next
      rw [hroot, Except.map] at hscan
      rw [scanShards, hscan]
      change s.scanShards rest (merged.merge _) = _
      rw [merged.merge_extend hnodup, ih, Outcome.extend_extend, List.flatten_cons,
        flowsFrom_append, List.length_append, List.filterMap_append]
      rfl

/--
Cutting a list of files into parts changes nothing about the outcome of its
scan.  Only if there are no parts at all, a root that fails goes unnoticed.
-/
theorem scanShards_eq_scanFiles
    (s : Survey) (shards : List (List String)) :
    (∀ root, s.resolvedRoot = .ok root →
      ∃ outcome, s.scanFiles shards.flatten 0 = .ok outcome ∧
        s.scanShards shards .empty = .ok outcome ∧
        outcome.catalog.collisions = []) ∧
      (∀ failure, s.resolvedRoot = .error failure →
        s.scanFiles shards.flatten 0 = .error failure ∧
          (shards ≠ [] → s.scanShards shards .empty = .error failure)) := by
  constructor
  · intro root hroot
    have hnodup :=
      (numberedFrom_flowsFrom s.fs s.platform root 0 shards.flatten).ids_nodup
    have hscan := s.scanFiles_eq shards.flatten 0
    rw [hroot, Except.map] at hscan
    exact ⟨_, hscan, s.scanShards_eq_extend hroot shards .empty,
      Outcome.collisions_extend_new 0 hnodup _ _⟩
  · intro failure hroot
    refine ⟨by rw [scanFiles_eq, hroot, Except.map], ?_⟩
    intro hshards
    cases shards with
    | nil => exact absurd rfl hshards
    | cons shard rest =>
        rw [scanShards, scanFiles_eq, hroot]
        rfl

theorem scanShards_eq_scanFiles_mixedSurvey :
    (mixedSurvey.resolvedRoot = .ok "/" ∧
      ∃ outcome,
        mixedSurvey.scanFiles ["/flows.py", "/broken.py", "/latin.py", "/flows.py"] 0 =
          .ok outcome ∧
        mixedSurvey.scanShards
          [["/flows.py", "/broken.py"], [], ["/latin.py"], ["/flows.py"]] .empty =
          .ok outcome ∧
        outcome.catalog.collisions = []) ∧
      (({ mixedSurvey with root := "" } : Survey).resolvedRoot =
          .error (.directoryNotFound "") ∧
        ({ mixedSurvey with root := "" } : Survey).scanShards [["/flows.py"], []] .empty =
          .error (.directoryNotFound "")) := by
  refine ⟨⟨resolvedRoot_mixedSurvey, ?_⟩, rfl, ?_⟩
  · exact (scanShards_eq_scanFiles mixedSurvey
      [["/flows.py", "/broken.py"], [], ["/latin.py"], ["/flows.py"]]).1 "/"
      resolvedRoot_mixedSurvey
  · exact ((scanShards_eq_scanFiles { mixedSurvey with root := "" }
      [["/flows.py"], []]).2 (.directoryNotFound "") rfl).2 (by simp)

end Survey
end FlowSurvey
