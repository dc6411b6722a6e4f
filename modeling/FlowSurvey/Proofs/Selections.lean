import FlowSurvey.Proofs.DeployedFlows
import Mathlib.Data.List.Nodup

/-!
# What a selection returns

A selection with criteria returns the union of what each of its criteria asks for alone, and of
the records that share an id the first one that is asked for.  Only the records that are asked
for count when repeated ids are left out, so a record that meets no criterion never hides a
later one that does.  Flows and deployments are selected in the same way, and the laws of both
selections come from the laws of keeping the first record of each id.

Each criterion compares a few fields and no others.  Flows are asked for by their names together
with their places, or by the first of the directories that they lie in; deployments by their ids,
by the canonical names of their flows, or by their projects.
-/

namespace FlowSurvey

/-! ## The first record of each id -/

section

variable {α : Type} {id : α → String} {seen : List String} {items : List α}

theorem firstOfEach_cons_of_mem {a : α} (ha : id a ∈ seen) (rest : List α) :
    firstOfEach id seen (a :: rest) = firstOfEach id seen rest := by
  rw [firstOfEach, if_pos (by simpa using ha)]

theorem firstOfEach_cons_of_not_mem {a : α} (ha : id a ∉ seen) (rest : List α) :
    firstOfEach id seen (a :: rest) = a :: firstOfEach id (id a :: seen) rest := by
  rw [firstOfEach, if_neg (by simpa using ha)]

theorem firstOfEach_eq_self
    (hnodup : (items.map id).Nodup)
    (hseen : ∀ item ∈ items, id item ∉ seen) : firstOfEach id seen items = items := by
  induction items generalizing seen with
  | nil => rfl
  | cons item rest ih =>
      rw [List.map_cons, List.nodup_cons] at hnodup
      have hrest : ∀ other ∈ rest, id other ∉ id item :: seen := by
        intro other hother
        rw [List.mem_cons, not_or]
        refine ⟨fun heq => hnodup.1 ?_, hseen other (List.mem_cons_of_mem _ hother)⟩
        exact heq ▸ List.mem_map_of_mem hother
      rw [firstOfEach_cons_of_not_mem (hseen item List.mem_cons_self), ih hnodup.2 hrest]

theorem firstOfEach_sublist (id : α → String) (seen : List String) (items : List α) :
    (firstOfEach id seen items).Sublist items := by
  induction items generalizing seen with
  | nil => exact List.Sublist.slnil
  | cons a rest ih =>
    by_cases ha : id a ∈ seen
    · rw [firstOfEach_cons_of_mem ha]
      exact (ih seen).cons a
    · rw [firstOfEach_cons_of_not_mem ha]
      exact (ih _).cons_cons a

theorem mem_ids_firstOfEach_iff {i : String} :
    i ∈ (firstOfEach id seen items).map id ↔ i ∈ items.map id ∧ i ∉ seen := by
  induction items generalizing seen with
  | nil => simp [firstOfEach]
  | cons a rest ih =>
    by_cases ha : id a ∈ seen
    · rw [firstOfEach_cons_of_mem ha, ih, List.map_cons, List.mem_cons]
      constructor
      · exact fun ⟨hrest, hnew⟩ => ⟨.inr hrest, hnew⟩
      · rintro ⟨rfl | hrest, hnew⟩
        · exact absurd ha hnew
        · exact ⟨hrest, hnew⟩
    · rw [firstOfEach_cons_of_not_mem ha, List.map_cons, List.mem_cons, ih, List.map_cons,
        List.mem_cons, List.mem_cons, not_or]
      by_cases hsame : i = id a
      · subst hsame
        simp [ha]
      · simp [hsame]

theorem nodup_ids_firstOfEach (id : α → String) (seen : List String) (items : List α) :
    ((firstOfEach id seen items).map id).Nodup := by
  induction items generalizing seen with
  | nil => exact List.nodup_nil
  | cons a rest ih =>
    by_cases ha : id a ∈ seen
    · rw [firstOfEach_cons_of_mem ha]
      exact ih seen
    · rw [firstOfEach_cons_of_not_mem ha, List.map_cons, List.nodup_cons, mem_ids_firstOfEach_iff]
      exact ⟨fun h => h.2 List.mem_cons_self, ih _⟩

theorem find?_eq_of_mem_firstOfEach {a : α} (ha : a ∈ firstOfEach id seen items) :
    items.find? (fun b => id b == id a) = some a := by
  induction items generalizing seen with
  | nil => simp [firstOfEach] at ha
  | cons b rest ih =>
    have hnew : id a ∉ seen := (mem_ids_firstOfEach_iff.mp (List.mem_map_of_mem ha)).2
    by_cases hb : id b ∈ seen
    · rw [firstOfEach_cons_of_mem hb] at ha
      have hne : id b ≠ id a := fun heq => hnew (heq ▸ hb)
      rw [List.find?_cons_of_neg (by simpa using hne), ih ha]
    · rw [firstOfEach_cons_of_not_mem hb] at ha
      rcases List.mem_cons.mp ha with rfl | hrest
      · exact List.find?_cons_of_pos (by simp)
      · have hlater := (mem_ids_firstOfEach_iff.mp (List.mem_map_of_mem hrest)).2
        rw [List.mem_cons, not_or] at hlater
        rw [List.find?_cons_of_neg (by simpa using Ne.symm hlater.1), ih hrest]

end

/-! ## Laws of selections -/

/-- Of the records that are chosen, the first of each id, in their order. -/
structure SelectsFirst {α : Type} (id : α → String) (chosen : α → Bool) (items found : List α) :
    Prop where
  sublist : found.Sublist items
  ids_nodup : (found.map id).Nodup
  mem_ids_iff : ∀ i, i ∈ found.map id ↔ ∃ a ∈ items, id a = i ∧ chosen a = true
  find?_eq : ∀ a ∈ found, items.find? (fun b => id b == id a && chosen b) = some a

theorem selectsFirst_firstOfEach {α : Type} (id : α → String) (chosen : α → Bool)
    (items : List α) :
    SelectsFirst id chosen items (firstOfEach id [] (items.filter chosen)) where
  sublist := (firstOfEach_sublist id [] _).trans List.filter_sublist
  ids_nodup := nodup_ids_firstOfEach id [] _
  mem_ids_iff i := by
    rw [mem_ids_firstOfEach_iff]
    simp only [List.mem_map, List.mem_filter, List.not_mem_nil, not_false_eq_true, and_true,
      and_assoc, and_comm (a := chosen _ = true)]
  find?_eq a ha := by
    have hfirst := find?_eq_of_mem_firstOfEach ha
    rw [List.find?_filter] at hfirst
    simpa only [Bool.and_comm, Bool.decide_and, Bool.decide_eq_true] using hfirst

/--
How selections of a kind return records: `criteria` are the criteria that a selection has, each
on its own, and `within` says of two selections that they have the same criteria, of which the
second has all the entries of the first.
-/
structure SelectsUnion {σ α : Type} (id : α → String) (criteria : σ → List σ)
    (selects : σ → α → Bool) (within : σ → σ → Prop) (apply : σ → List α → List α) : Prop where
  untouched : ∀ s items, criteria s = [] → apply s items = items
  first : ∀ s items, criteria s ≠ [] →
    SelectsFirst id (fun a => (criteria s).any (selects · a)) items (apply s items)
  again : ∀ s items, apply s (apply s items) = apply s items
  /-- The order of entries, and how often they are there, makes no difference. -/
  same : ∀ s t items, within s t → within t s → apply t items = apply s items
  more : ∀ s t items, within s t → (apply s items).map id ⊆ (apply t items).map id

theorem SelectsUnion.of_apply {σ α : Type} {id : α → String} {criteria : σ → List σ}
    {selects : σ → α → Bool} {within : σ → σ → Prop} {apply : σ → List α → List α}
    (happly : ∀ s items, apply s items =
      if criteria s = [] then items
      else firstOfEach id [] (items.filter fun a => (criteria s).any (selects · a)))
    (hsupplied : ∀ s t, within s t → (criteria s = [] ↔ criteria t = []))
    (hwithin : ∀ s t, within s t → ∀ a, (criteria s).any (selects · a) = true →
      (criteria t).any (selects · a) = true) :
    SelectsUnion id criteria selects within apply where
  untouched s items hs := by rw [happly, if_pos hs]
  first s items hs := by
    rw [happly, if_neg hs]
    exact selectsFirst_firstOfEach id _ items
  again s items := by
    by_cases hs : criteria s = []
    · rw [happly s (apply s items), if_pos hs]
    · have hfound := selectsFirst_firstOfEach id (fun a => (criteria s).any (selects · a)) items
      rw [happly s (apply s items), if_neg hs, happly s items, if_neg hs]
      -- What was found is chosen again, and its ids are distinct already.
      have hchosen : ∀ a ∈ firstOfEach id [] (items.filter fun a => (criteria s).any (selects · a)),
          (criteria s).any (selects · a) = true := by
        intro a ha
        exact (List.mem_filter.mp ((firstOfEach_sublist id [] _).subset ha)).2
      rw [List.filter_eq_self.mpr hchosen]
      exact firstOfEach_eq_self hfound.ids_nodup fun _ _ => List.not_mem_nil
  same s t items hst hts := by
    have hsame : (fun a => (criteria t).any (selects · a)) =
        fun a => (criteria s).any (selects · a) := by
      funext a
      exact Bool.eq_iff_iff.mpr ⟨hwithin t s hts a, hwithin s t hst a⟩
    rw [happly, happly, hsame]
    simp only [hsupplied s t hst]
  more s t items hst := by
    by_cases hs : criteria s = []
    · rw [happly, happly, if_pos hs, if_pos ((hsupplied s t hst).mp hs)]
      exact List.Subset.refl _
    · intro i hi
      rw [happly, if_neg hs] at hi
      rw [happly, if_neg (mt (hsupplied s t hst).mpr hs)]
      rw [(selectsFirst_firstOfEach id _ items).mem_ids_iff] at hi ⊢
      obtain ⟨a, ha, hid, hchosen⟩ := hi
      exact ⟨a, ha, hid, hwithin s t hst a hchosen⟩

/-! ## Flows -/

section Criteria

variable {β : Type} {first second : Option (List β)}

theorem eq_none_iff_of_rel (hsubset : Option.Rel (· ⊆ ·) first second) :
    first = none ↔ second = none := by
  cases hsubset <;> simp

/-- What a criterion asks for it asks for with more entries too. -/
theorem any_of_rel {asks : List β → Bool} (hsubset : Option.Rel (· ⊆ ·) first second)
    (hmono : ∀ {xs ys : List β}, xs ⊆ ys → asks xs = true → asks ys = true)
    (hfirst : first.any asks = true) : second.any asks = true := by
  cases hsubset with
  | none => exact hfirst
  | some hentries => exact hmono hentries hfirst

theorem any_of_subset {p : β → Bool} {xs ys : List β} (hsubset : xs ⊆ ys)
    (hxs : xs.any p = true) : ys.any p = true := by
  rw [List.any_eq_true] at hxs ⊢
  exact hxs.imp fun x hx => ⟨hsubset hx.1, hx.2⟩

theorem contains_of_subset {xs ys : List String} {x : String} (hsubset : xs ⊆ ys)
    (hx : xs.contains x = true) : ys.contains x = true := by
  rw [List.contains_iff_mem] at hx ⊢
  exact hsubset hx

end Criteria

namespace FlowSelection

theorem selects_references_iff {references : List Flow} {flow : Flow} :
    selects { flows := some references } flow = true ↔
      ∃ r ∈ references, r.name = flow.name ∧ r.sourceRelative = flow.sourceRelative := by
  simp [selects, isUnfiltered, meets, Flow.refetchKey]

theorem selects_groups_iff {groups : List String} {flow : Flow} :
    selects { groups := some groups } flow = true ↔
      ∃ group ∈ groups, flow.grouping.head? = some group := by
  cases hgroup : flow.grouping.head? <;> simp [selects, isUnfiltered, meets, Flow.group?, hgroup]

/-- Of flows without a repeated id all those are kept that are asked for. -/
theorem apply_eq_filter_selects {flows : List Flow} (hnodup : (flows.map (·.id)).Nodup)
    (s : FlowSelection) : s.apply flows = flows.filter s.selects := by
  by_cases hunfiltered : s.isUnfiltered = true
  · have hall : ∀ flow ∈ flows, s.selects flow = true := by simp [selects, hunfiltered]
    rw [apply, if_pos hunfiltered, List.filter_eq_self.mpr hall]
  · have hselects : s.selects = s.meets := by
      funext flow
      rw [selects, Bool.eq_false_iff.mpr hunfiltered, Bool.false_or]
    rw [apply, if_neg hunfiltered, hselects]
    exact firstOfEach_eq_self (hnodup.sublist (List.filter_sublist.map _)) (by simp)

/-- The criteria that a selection has, each on its own. -/
def criteria (s : FlowSelection) : List FlowSelection :=
  (s.flows.map fun references => { flows := some references }).toList ++
    (s.groups.map fun groups => { groups := some groups }).toList

/-- The same criteria, of which the second selection has all the entries of the first. -/
structure Within (s t : FlowSelection) : Prop where
  flows : Option.Rel (· ⊆ ·) s.flows t.flows
  groups : Option.Rel (· ⊆ ·) s.groups t.groups

theorem criteria_eq_nil_iff (s : FlowSelection) : s.criteria = [] ↔ s.isUnfiltered = true := by
  obtain ⟨flows, groups⟩ := s
  cases flows <;> cases groups <;> simp [criteria, isUnfiltered]

theorem meets_eq_any_criteria (s : FlowSelection) (flow : Flow) :
    s.meets flow = s.criteria.any (·.selects flow) := by
  obtain ⟨flows, groups⟩ := s
  cases flows <;> cases groups <;> simp [criteria, selects, isUnfiltered, meets]

theorem Within.isUnfiltered_iff {s t : FlowSelection} (hst : s.Within t) :
    s.isUnfiltered = true ↔ t.isUnfiltered = true := by
  simp [isUnfiltered, eq_none_iff_of_rel hst.flows, eq_none_iff_of_rel hst.groups]

theorem Within.meets {s t : FlowSelection} (hst : s.Within t) {flow : Flow}
    (hs : s.meets flow = true) : t.meets flow = true := by
  simp only [FlowSelection.meets, Bool.or_eq_true] at hs ⊢
  refine hs.imp (any_of_rel hst.flows any_of_subset) (any_of_rel hst.groups fun hsubset => ?_)
  cases flow.group? with
  | none => exact id
  | some group => exact contains_of_subset hsubset

theorem selectsUnion : SelectsUnion Flow.id criteria selects Within apply := by
  refine .of_apply (fun s items => ?_) (fun s t hst => ?_) fun s t hst flow => ?_
  · simp only [← meets_eq_any_criteria, criteria_eq_nil_iff]
    rfl
  · rw [criteria_eq_nil_iff, criteria_eq_nil_iff, hst.isUnfiltered_iff]
  · rw [← meets_eq_any_criteria, ← meets_eq_any_criteria]
    exact hst.meets

end FlowSelection

/-! ## Deployments -/

namespace DeploymentSelection

theorem selects_deployments_iff {references : List Deployment} {d : Deployment} :
    selects { deployments := some references } d = true ↔ ∃ r ∈ references, r.id = d.id := by
  simp [selects, isUnfiltered, meets]

theorem selects_groups_iff {groups : List String} {d : Deployment} :
    selects { groups := some groups } d = true ↔ d.project ∈ groups := by
  simp [selects, isUnfiltered, meets]

def criteria (s : DeploymentSelection) : List DeploymentSelection :=
  (s.deployments.map fun references => { deployments := some references }).toList ++
    (s.flows.map fun references => { flows := some references }).toList ++
    (s.groups.map fun groups => { groups := some groups }).toList

/-- The same criteria, of which the second selection has all the entries of the first. -/
structure Within (s t : DeploymentSelection) : Prop where
  deployments : Option.Rel (· ⊆ ·) s.deployments t.deployments
  flows : Option.Rel (· ⊆ ·) s.flows t.flows
  groups : Option.Rel (· ⊆ ·) s.groups t.groups

theorem criteria_eq_nil_iff (s : DeploymentSelection) :
    s.criteria = [] ↔ s.isUnfiltered = true := by
  obtain ⟨deployments, flows, groups⟩ := s
  cases deployments <;> cases flows <;> cases groups <;> simp [criteria, isUnfiltered]

theorem meets_eq_any_criteria (s : DeploymentSelection) (d : Deployment) :
    s.meets d = s.criteria.any (·.selects d) := by
  obtain ⟨deployments, flows, groups⟩ := s
  cases deployments <;> cases flows <;> cases groups <;>
    simp [criteria, selects, isUnfiltered, meets, Bool.or_assoc]

theorem Within.isUnfiltered_iff {s t : DeploymentSelection} (hst : s.Within t) :
    s.isUnfiltered = true ↔ t.isUnfiltered = true := by
  simp [isUnfiltered, eq_none_iff_of_rel hst.deployments, eq_none_iff_of_rel hst.flows,
    eq_none_iff_of_rel hst.groups]

theorem Within.meets {s t : DeploymentSelection} (hst : s.Within t) {d : Deployment}
    (hs : s.meets d = true) : t.meets d = true := by
  simp only [DeploymentSelection.meets, Bool.or_eq_true] at hs ⊢
  exact hs.imp
    (Or.imp (any_of_rel hst.deployments any_of_subset) (any_of_rel hst.flows any_of_subset))
    (any_of_rel hst.groups contains_of_subset)

theorem selectsUnion : SelectsUnion Deployment.id criteria selects Within apply := by
  refine .of_apply (fun s items => ?_) (fun s t hst => ?_) fun s t hst d => ?_
  · simp only [← meets_eq_any_criteria, criteria_eq_nil_iff]
    rfl
  · rw [criteria_eq_nil_iff, criteria_eq_nil_iff, hst.isUnfiltered_iff]
  · rw [← meets_eq_any_criteria, ← meets_eq_any_criteria]
    exact hst.meets

end DeploymentSelection

/--
With a criterion supplied, a selection returns, each id once and in their order, the first flows
or deployments that one of its criteria asks for alone; selecting again changes nothing, nor do
the order and the repetition of entries, and more entries never take an id away.  Without a
criterion everything is returned as it is.  What a criterion alone asks for are the records that
agree with one of its entries in the fields that it compares.
-/
theorem selections_return_unions :
    SelectsUnion Flow.id FlowSelection.criteria FlowSelection.selects FlowSelection.Within
        FlowSelection.apply ∧
      SelectsUnion Deployment.id DeploymentSelection.criteria DeploymentSelection.selects
        DeploymentSelection.Within DeploymentSelection.apply ∧
      (∀ flow : Flow,
        (∀ references, FlowSelection.selects { flows := some references } flow = true ↔
          ∃ r ∈ references, r.name = flow.name ∧ r.sourceRelative = flow.sourceRelative) ∧
        ∀ groups, FlowSelection.selects { groups := some groups } flow = true ↔
          ∃ group ∈ groups, flow.grouping.head? = some group) ∧
      ∀ d : Deployment,
        (∀ references, DeploymentSelection.selects { deployments := some references } d = true ↔
          ∃ r ∈ references, r.id = d.id) ∧
        (∀ references, DeploymentSelection.selects { flows := some references } d = true ↔
          ∃ r ∈ references,
            r.name.toList = d.flowName.toList.map fun c => if c = '-' then '_' else c) ∧
        ∀ groups, DeploymentSelection.selects { groups := some groups } d = true ↔
          d.project ∈ groups := by
  refine ⟨FlowSelection.selectsUnion, DeploymentSelection.selectsUnion, fun flow => ?_, fun d => ?_⟩
  · exact ⟨fun _ => FlowSelection.selects_references_iff, fun _ => FlowSelection.selects_groups_iff⟩
  · refine ⟨fun _ => DeploymentSelection.selects_deployments_iff, fun references => ?_,
      fun _ => DeploymentSelection.selects_groups_iff⟩
    simp only [DeploymentSelection.selects_flows_iff, ← toList_canonicalName, String.toList_inj]

end FlowSurvey
