import FlowSurvey.Proofs.SurveyOutcome
import Mathlib.Algebra.Ring.Nat
import Mathlib.Data.Set.BooleanAlgebra
import Mathlib.Order.CompletePartialOrder
import Mathlib.Order.Interval.Set.Defs

/-!
# Shards in any order

Parts of a survey may be scanned apart, each from a number of its own.  A shard
hands out the numbers from its start up to the one that it leaves free, so as long
as no number is handed out twice the ids of all shards are different and none is
turned away.  Then the order in which the shards are merged shows only in the
order of what they contribute.  The number that is left free in the end lies above
those of all shards, so a survey can go on from there.
-/

namespace FlowSurvey
namespace Survey

/-- Files of a survey that have been scanned, numbered from a start, with the outcome. -/
structure Shard (s : Survey) where
  files : List String
  start : Nat
  outcome : Outcome
  scanned : s.scanFiles files start = .ok outcome

namespace Shard

variable {s : Survey}

/-- The numbers that a shard has handed out. -/
def numbers (shard : Shard s) : Set Nat :=
  Set.Ico shard.start shard.outcome.next

def flows (shard : Shard s) : List Flow :=
  shard.outcome.catalog.flows.toList

/-- Merges shards one after another, beginning with nothing. -/
def mergeAll (shards : List (Shard s)) : Outcome :=
  shards.foldl (fun merged shard => merged.merge shard.outcome) .empty

/-- Any files can be scanned from any number, as long as the root is found. -/
def ofFiles {root : String} (hroot : s.resolvedRoot = .ok root) (files : List String)
    (start : Nat) : Shard s where
  files
  start
  outcome := ({ next := start } : Outcome).extend (flowsFrom s.fs s.platform root start files)
    files.length (files.filterMap (diagnosticAt? s.fs))
  scanned := by
    rw [scanFiles_eq, hroot]
    rfl

theorem exists_extend (shard : Shard s) :
    ∃ flows diagnostics, NumberedFrom shard.start flows ∧
      shard.outcome =
        ({ next := shard.start } : Outcome).extend flows shard.files.length diagnostics := by
  have hscan := shard.scanned
  rw [scanFiles_eq] at hscan
  cases hroot : s.resolvedRoot with
  | error failure => simp [hroot, Except.map] at hscan
  | ok root =>
      rw [hroot, Except.map] at hscan
      exact ⟨_, _, numberedFrom_flowsFrom s.fs s.platform root shard.start shard.files,
        (Except.ok.inj hscan).symm⟩

theorem numberedFrom_flows (shard : Shard s) : NumberedFrom shard.start shard.flows := by
  obtain ⟨flows, diagnostics, hnumbered, houtcome⟩ := shard.exists_extend
  rw [Shard.flows, houtcome, Outcome.flows_extend_new shard.start hnumbered.ids_nodup]
  exact hnumbered

theorem collisions_eq_nil (shard : Shard s) : shard.outcome.catalog.collisions = [] := by
  obtain ⟨flows, diagnostics, hnumbered, houtcome⟩ := shard.exists_extend
  rw [houtcome]
  exact Outcome.collisions_extend_new shard.start hnumbered.ids_nodup _ _

theorem next_eq (shard : Shard s) : shard.outcome.next = shard.start + shard.flows.length := by
  obtain ⟨flows, diagnostics, hnumbered, houtcome⟩ := shard.exists_extend
  rw [Shard.flows, houtcome, Outcome.flows_extend_new shard.start hnumbered.ids_nodup]
  rfl

/-- Every flow of a shard carries one of the numbers of the shard. -/
theorem exists_number_of_mem_flows (shard : Shard s) {flow : Flow} (hflow : flow ∈ shard.flows) :
    ∃ number ∈ shard.numbers, flow.id = flow.declaredName ++ "_" ++ toString number := by
  obtain ⟨i, hi, hget⟩ := List.getElem_of_mem hflow
  have hid := shard.numberedFrom_flows i flow (by rw [List.getElem?_eq_getElem hi, hget])
  have hnext := shard.next_eq
  exact ⟨shard.start + i, ⟨by omega, by omega⟩, hid⟩

theorem id_ne_of_disjoint
    {first second : Shard s} (hdisjoint : Disjoint first.numbers second.numbers)
    {left right : Flow} (hleft : left ∈ first.flows) (hright : right ∈ second.flows) :
    left.id ≠ right.id := by
  intro heq
  obtain ⟨m, hm, hleftId⟩ := first.exists_number_of_mem_flows hleft
  obtain ⟨n, hn, hrightId⟩ := second.exists_number_of_mem_flows hright
  rw [hleftId, hrightId] at heq
  obtain rfl := number_eq_of_id_eq heq
  exact Set.disjoint_left.mp hdisjoint hm hn

/-! ## Merging -/

/-- An outcome holds what shards contribute, in their order and without a collision. -/
structure MergedIn (shards : List (Shard s)) (o : Outcome) : Prop where
  indexed : o.catalog.Indexed
  flows_eq : o.catalog.flows.toList = shards.flatMap Shard.flows
  collisions_eq : o.catalog.collisions = []
  filesScanned_eq : o.filesScanned = (shards.map (·.outcome.filesScanned)).sum
  diagnostics_eq : o.diagnostics = shards.flatMap (·.outcome.diagnostics)
  next_le_iff : ∀ n, o.next ≤ n ↔ ∀ shard ∈ shards, shard.outcome.next ≤ n

theorem mergedIn_empty : MergedIn ([] : List (Shard s)) .empty where
  indexed := Catalog.indexed_empty
  flows_eq := rfl
  collisions_eq := rfl
  filesScanned_eq := rfl
  diagnostics_eq := rfl
  next_le_iff n := by simp [Outcome.empty]

section Merge

variable {shards : List (Shard s)} {o : Outcome} {shard : Shard s}

/-- A shard with numbers of its own finds all its ids free. -/
theorem MergedIn.get?_eq_none
    (ho : MergedIn shards o) (hdisjoint : ∀ other ∈ shards, Disjoint other.numbers shard.numbers)
    {flow : Flow} (hflow : flow ∈ shard.flows) : o.catalog.get? flow.id = none := by
  cases hget : o.catalog.get? flow.id with
  | none => rfl
  | some found =>
      obtain ⟨hfound, hid⟩ := ho.indexed.get?_eq_some_iff.mp hget
      rw [← Array.mem_toList_iff, ho.flows_eq, List.mem_flatMap] at hfound
      obtain ⟨other, hother, hmem⟩ := hfound
      exact absurd hid (id_ne_of_disjoint (hdisjoint other hother) hmem hflow)

theorem MergedIn.merge
    (ho : MergedIn shards o)
    (hdisjoint : ∀ other ∈ shards, Disjoint other.numbers shard.numbers) :
    MergedIn (shards ++ [shard]) (o.merge shard.outcome) := by
  have hfree : ∀ flow ∈ shard.flows, o.catalog.get? flow.id = none :=
    fun _ hflow => ho.get?_eq_none hdisjoint hflow
  have hnodup := shard.numberedFrom_flows.ids_nodup
  -- The collisions of the shard are taken over first, and there are none.
  have hcollected := ho.indexed.withCollisions (o.catalog.collisions ++ [])
  constructor
  · exact ho.indexed.merge _
  · have hall : shard.flows.filter (fun flow => (o.catalog.get? flow.id).isNone) = shard.flows :=
      List.filter_eq_self.mpr fun flow hflow => by simp [hfree flow hflow]
    rw [Outcome.merge, Catalog.merge, shard.collisions_eq_nil]
    change (Catalog.insertAll _ shard.flows).flows.toList = _
    rw [hcollected.flows_insertAll hnodup]
    simp only [Catalog.get?_withCollisions, hall, ho.flows_eq, List.flatMap_append,
      List.flatMap_singleton]
  · have hnone : shard.flows.flatMap o.catalog.refusals = [] :=
      List.flatMap_eq_nil_iff.mpr fun flow hflow => by simp [Catalog.refusals, hfree flow hflow]
    rw [Outcome.merge, Catalog.merge, shard.collisions_eq_nil]
    change (Catalog.insertAll _ shard.flows).collisions = _
    rw [hcollected.collisions_insertAll hnodup, List.append_nil, ho.collisions_eq,
      List.nil_append]
    exact hnone
  · simp [Outcome.merge, ho.filesScanned_eq]
  · simp [Outcome.merge, ho.diagnostics_eq]
  · intro n
    simp only [Outcome.merge, Nat.max_le, ho.next_le_iff, List.forall_mem_append,
      List.forall_mem_singleton]

/-- Merging goes on from any outcome that holds shards, by induction on what is left to merge. -/
theorem MergedIn.foldl_merge
    (ho : MergedIn shards o) {rest : List (Shard s)}
    (hdisjoint : (shards ++ rest).Pairwise fun a b => Disjoint a.numbers b.numbers) :
    MergedIn (shards ++ rest) (rest.foldl (fun merged shard => merged.merge shard.outcome) o) := by
  induction rest generalizing shards o with
  | nil => simpa using ho
  | cons shard rest ih =>
      have hshard : ∀ other ∈ shards, Disjoint other.numbers shard.numbers := fun other hother =>
        (List.pairwise_append.mp hdisjoint).2.2 other hother shard List.mem_cons_self
      rw [← List.singleton_append, ← List.append_assoc] at hdisjoint ⊢
      exact ih (ho.merge hshard) hdisjoint

end Merge

theorem mergedIn_mergeAll
    {shards : List (Shard s)}
    (hdisjoint : shards.Pairwise fun a b => Disjoint a.numbers b.numbers) :
    MergedIn shards (mergeAll shards) :=
  mergedIn_empty.foldl_merge hdisjoint

/-- Two outcomes that hold the same, in any order. -/
structure Rearranged (o other : Outcome) : Prop where
  flows_perm : o.catalog.flows.toList.Perm other.catalog.flows.toList
  get?_eq : ∀ id, o.catalog.get? id = other.catalog.get? id
  filesScanned_eq : o.filesScanned = other.filesScanned
  diagnostics_perm : o.diagnostics.Perm other.diagnostics
  next_eq : o.next = other.next

theorem MergedIn.rearranged
    {order shards : List (Shard s)} {o other : Outcome} (ho : MergedIn order o)
    (hother : MergedIn shards other) (hperm : order.Perm shards) : Rearranged o other := by
  have hflows : o.catalog.flows.toList.Perm other.catalog.flows.toList := by
    rw [ho.flows_eq, hother.flows_eq]
    exact hperm.flatMap_right _
  constructor
  · exact hflows
  · intro id
    ext flow
    rw [ho.indexed.get?_eq_some_iff, hother.indexed.get?_eq_some_iff, ← Array.mem_toList_iff,
      ← Array.mem_toList_iff, hflows.mem_iff]
  · rw [ho.filesScanned_eq, hother.filesScanned_eq]
    exact (hperm.map _).sum_nat
  · rw [ho.diagnostics_eq, hother.diagnostics_eq]
    exact hperm.flatMap_right _
  · have hnext : ∀ n, o.next ≤ n ↔ other.next ≤ n := by
      intro n
      rw [ho.next_le_iff, hother.next_le_iff]
      exact forall_congr' fun shard => by rw [hperm.mem_iff]
    exact Nat.le_antisymm ((hnext _).mpr Nat.le.refl) ((hnext _).mp Nat.le.refl)

/-- A shard that begins where all others have ended shares no number with them. -/
theorem MergedIn.disjoint_of_next_le
    {shards : List (Shard s)} {o : Outcome} (ho : MergedIn shards o) {further : Shard s}
    (hstart : o.next ≤ further.start) :
    ∀ shard ∈ shards, Disjoint shard.numbers further.numbers := by
  intro shard hshard
  have hend := (ho.next_le_iff further.start).mp hstart shard hshard
  rw [Set.disjoint_left]
  intro number hnumber hfurther
  have hbelow : number < shard.outcome.next := hnumber.2
  have habove : further.start ≤ number := hfurther.1
  omega

end Shard

open Shard in
/--
Shards that hand out different numbers are merged without a collision, with every
flow of theirs, and up to the order of what they contribute in the same way in any
order.  What is scanned with the numbers that are left free then collides with
nothing.
-/
theorem mergeAll_of_disjoint_numbers
    (s : Survey) (shards : List (Shard s))
    (hdisjoint : shards.Pairwise fun a b => Disjoint a.numbers b.numbers) :
    (mergeAll shards).catalog.collisions = [] ∧
      (∀ shard ∈ shards, ∀ flow ∈ shard.outcome.catalog.flows,
        (mergeAll shards).catalog.get? flow.id = some flow) ∧
      (∀ order, order.Perm shards →
        (mergeAll order).catalog.collisions = [] ∧
          Rearranged (mergeAll order) (mergeAll shards)) ∧
      (∀ root files, s.resolvedRoot = .ok root →
        ∃ further, s.scanFiles files (mergeAll shards).next = .ok further ∧
          ((mergeAll shards).merge further).catalog.collisions = [] ∧
          ((mergeAll shards).merge further).catalog.flows =
            (mergeAll shards).catalog.flows ++ further.catalog.flows) := by
  have hmerged := mergedIn_mergeAll hdisjoint
  refine ⟨hmerged.collisions_eq, ?_, ?_, ?_⟩
  · intro shard hshard flow hflow
    rw [hmerged.indexed.get?_eq_some_iff, ← Array.mem_toList_iff, hmerged.flows_eq]
    exact ⟨List.mem_flatMap.mpr ⟨shard, hshard, Array.mem_toList_iff.mpr hflow⟩, rfl⟩
  · intro order hperm
    have horder := mergedIn_mergeAll (hperm.symm.pairwise hdisjoint fun h => h.symm)
    exact ⟨horder.collisions_eq, horder.rearranged hmerged hperm⟩
  · intro root files hroot
    let next := Shard.ofFiles hroot files (mergeAll shards).next
    have hapart : ∀ shard ∈ shards, Disjoint shard.numbers next.numbers :=
      hmerged.disjoint_of_next_le Nat.le.refl
    have hfurther := hmerged.merge hapart
    refine ⟨next.outcome, next.scanned, hfurther.collisions_eq, ?_⟩
    apply Array.toList_inj.mp
    rw [hfurther.flows_eq, Array.toList_append, hmerged.flows_eq, List.flatMap_append,
      List.flatMap_singleton]
    rfl

open Shard in
/-- Two shards of the same file, of which the one with the greater numbers is merged first. -/
theorem mergeAll_of_disjoint_numbers_mixedSurvey :
    mixedSurvey.resolvedRoot = .ok "/" ∧
      ∃ first second : Shard mixedSurvey,
        first.files = ["/flows.py", "/latin.py"] ∧ first.start = 4 ∧
        second.files = ["/broken.py", "/flows.py"] ∧ second.start = first.outcome.next ∧
        [second, first].Pairwise (fun a b => Disjoint a.numbers b.numbers) ∧
        (mergeAll [second, first]).catalog.collisions = [] ∧
        Rearranged (mergeAll [first, second]) (mergeAll [second, first]) := by
  let first := Shard.ofFiles resolvedRoot_mixedSurvey ["/flows.py", "/latin.py"] 4
  let second := Shard.ofFiles resolvedRoot_mixedSurvey ["/broken.py", "/flows.py"]
    first.outcome.next
  have hdisjoint : [second, first].Pairwise fun a b => Disjoint a.numbers b.numbers := by
    rw [List.pairwise_pair, Set.disjoint_left]
    rintro number ⟨hstart, -⟩ ⟨-, hend⟩
    exact absurd hend (Nat.not_lt.mpr hstart)
  obtain ⟨hcollisions, -, horder, -⟩ := mergeAll_of_disjoint_numbers mixedSurvey _ hdisjoint
  exact ⟨resolvedRoot_mixedSurvey, first, second, rfl, rfl, rfl, rfl, hdisjoint, hcollisions,
    (horder [first, second] (List.Perm.swap second first [])).2⟩

end Survey
end FlowSurvey
