import FlowSurvey.Proofs.CatalogIndex
import FlowSurvey.Survey

/-!
# Catalogs and the offers behind them

Every catalog comes about by offers of single flows and by merges of catalogs
that came about in the same way.  A history records these steps.  The flow that
a catalog holds under an id is the first one that was ever offered under it.

A collision names the flow that held the id when and where another one was
turned away.  A later merge can put a different flow in its place, since the
collisions of the merged catalog are taken over as they stand; the main result
says exactly when no collision is made untrue in that way.
-/

namespace FlowSurvey

/-- How a catalog came about. -/
inductive CatalogHistory where
  | empty
  | insert (before : CatalogHistory) (flow : Flow)
  | merge (left right : CatalogHistory)

namespace CatalogHistory

def catalog : CatalogHistory → Catalog
  | empty => .empty
  | insert before flow => before.catalog.insert flow
  | merge left right => left.catalog.merge right.catalog

/-- All flows that were offered; those of a merged catalog come where it was merged. -/
def offers : CatalogHistory → List Flow
  | empty => []
  | insert before flow => before.offers ++ [flow]
  | merge left right => left.offers ++ right.offers

def first? (h : CatalogHistory) (id : String) : Option Flow :=
  h.offers.find? fun flow => flow.id == id

def stages : CatalogHistory → List CatalogHistory
  | empty => [empty]
  | insert before flow => insert before flow :: before.stages
  | merge left right => merge left right :: (left.stages ++ right.stages)

/-- The last step of a history turned away a flow with that id. -/
def TurnsAway : CatalogHistory → String → Prop
  | empty, _ => False
  | insert before flow, id => flow.id = id ∧ (before.first? id).isSome
  | merge left right, id => (left.first? id).isSome ∧ (right.first? id).isSome

@[simp] theorem first?_empty (id : String) : empty.first? id = none := rfl

@[simp] theorem first?_insert
    (before : CatalogHistory) (flow : Flow) (id : String) :
    (insert before flow).first? id =
      (before.first? id).or (if flow.id = id then some flow else none) := by
  by_cases hid : flow.id = id <;> simp [first?, offers, List.find?_append, hid]

@[simp] theorem first?_merge
    (left right : CatalogHistory) (id : String) :
    (merge left right).first? id = (left.first? id).or (right.first? id) := by
  simp [first?, offers, List.find?_append]

theorem indexed_catalog (h : CatalogHistory) : h.catalog.Indexed := by
  induction h with
  | empty => exact Catalog.indexed_empty
  | insert before flow ih => exact ih.insert flow
  | merge left right ihLeft _ => exact ihLeft.merge right.catalog

theorem get?_catalog (h : CatalogHistory) (id : String) :
    h.catalog.get? id = h.first? id := by
  induction h with
  | empty => simp [catalog, Catalog.get?, Catalog.empty]
  | insert before flow ih =>
      rw [catalog, before.indexed_catalog.get?_insert, ih, first?_insert]
  | merge left right ihLeft ihRight =>
      rw [catalog, left.indexed_catalog.get?_merge right.indexed_catalog, ihLeft,
        ihRight, first?_merge]

theorem first?_isSome_of_mem_stages
    {g h : CatalogHistory} (hstage : g ∈ h.stages) {id : String}
    (hfirst : (g.first? id).isSome) : (h.first? id).isSome := by
  induction h with
  | empty =>
      obtain rfl : g = empty := by simpa [stages] using hstage
      exact hfirst
  | insert before flow ih =>
      rcases List.mem_cons.mp hstage with rfl | hbefore
      · exact hfirst
      · simp [ih hbefore]
  | merge left right ihLeft ihRight =>
      rcases List.mem_cons.mp hstage with rfl | hpart
      · exact hfirst
      · rcases List.mem_append.mp hpart with hleft | hright
        · simp [ihLeft hleft]
        · simp [ihRight hright]

/-! ## Collisions -/

/-- A collision is one that the last step of a history puts on record. -/
def Records (h : CatalogHistory) (w : Collision) : Prop :=
  h.TurnsAway w.id ∧ ∃ kept, h.first? w.id = some kept ∧ kept.sourceRelative = w.kept

theorem mem_refusals_iff (h : CatalogHistory) (flow : Flow) (w : Collision) :
    w ∈ h.catalog.refusals flow ↔
      ∃ kept, h.first? flow.id = some kept ∧
        w = ⟨flow.id, kept.sourceRelative, flow.sourceRelative⟩ := by
  rw [Catalog.refusals, get?_catalog]
  cases h.first? flow.id <;> simp

theorem mem_collisions_insert_iff
    (before : CatalogHistory) (flow : Flow) (w : Collision) :
    w ∈ (insert before flow).catalog.collisions ↔
      w ∈ before.catalog.collisions ∨ w ∈ before.catalog.refusals flow := by
  rw [catalog, before.indexed_catalog.collisions_insert, List.mem_append]

theorem mem_collisions_merge_iff
    (left right : CatalogHistory) (w : Collision) :
    w ∈ (merge left right).catalog.collisions ↔
      (w ∈ left.catalog.collisions ∨ w ∈ right.catalog.collisions) ∨
        ∃ flow ∈ right.catalog.flows.toList, w ∈ left.catalog.refusals flow := by
  rw [catalog, left.indexed_catalog.collisions_merge right.indexed_catalog,
    List.mem_append, List.mem_append, List.mem_flatMap]

theorem exists_stage_of_mem_collisions
    {h : CatalogHistory} {w : Collision} (hw : w ∈ h.catalog.collisions) :
    ∃ g ∈ h.stages, g.Records w := by
  induction h with
  | empty => simp [catalog, Catalog.empty] at hw
  | insert before flow ih =>
      rcases (mem_collisions_insert_iff before flow w).mp hw with hold | hnew
      · obtain ⟨g, hstage, hrecords⟩ := ih hold
        exact ⟨g, List.mem_cons_of_mem _ hstage, hrecords⟩
      · obtain ⟨kept, hkept, rfl⟩ := (mem_refusals_iff before flow w).mp hnew
        refine ⟨insert before flow, List.mem_cons_self, ⟨rfl, ?_⟩, kept, ?_, rfl⟩
        · simp [hkept]
        · simp [hkept]
  | merge left right ihLeft ihRight =>
      rcases (mem_collisions_merge_iff left right w).mp hw with
        (hleft | hright) | ⟨flow, hflow, hnew⟩
      · obtain ⟨g, hstage, hrecords⟩ := ihLeft hleft
        exact ⟨g, List.mem_cons_of_mem _ (List.mem_append_left _ hstage), hrecords⟩
      · obtain ⟨g, hstage, hrecords⟩ := ihRight hright
        exact ⟨g, List.mem_cons_of_mem _ (List.mem_append_right _ hstage), hrecords⟩
      · obtain ⟨kept, hkept, rfl⟩ := (mem_refusals_iff left flow w).mp hnew
        have hright : right.first? flow.id = some flow := by
          rw [← get?_catalog, right.indexed_catalog.get?_eq_some_iff]
          exact ⟨by simpa using hflow, rfl⟩
        refine ⟨merge left right, List.mem_cons_self, ⟨?_, ?_⟩, kept, ?_, rfl⟩
        · simp [hkept]
        · simp [hright]
        · simp [hkept]

theorem exists_collision_of_turnsAway
    {h : CatalogHistory} {id : String} (haway : h.TurnsAway id) :
    ∃ w ∈ h.catalog.collisions, w.id = id ∧ h.Records w := by
  cases h with
  | empty => exact haway.elim
  | insert before flow =>
      obtain ⟨rfl, htaken⟩ := haway
      obtain ⟨kept, hkept⟩ := Option.isSome_iff_exists.mp htaken
      have hmem := (mem_refusals_iff before flow _).mpr ⟨kept, hkept, rfl⟩
      refine ⟨_, (mem_collisions_insert_iff before flow _).mpr (Or.inr hmem), rfl,
        ⟨rfl, htaken⟩, kept, ?_, rfl⟩
      simp [hkept]
  | merge left right =>
      obtain ⟨hleft, hright⟩ := haway
      obtain ⟨kept, hkept⟩ := Option.isSome_iff_exists.mp hleft
      obtain ⟨flow, hflow⟩ := Option.isSome_iff_exists.mp hright
      rw [← get?_catalog] at hflow
      obtain ⟨hstored, rfl⟩ := right.indexed_catalog.get?_eq_some_iff.mp hflow
      have hmem := (mem_refusals_iff left flow _).mpr ⟨kept, hkept, rfl⟩
      refine ⟨_, (mem_collisions_merge_iff left right _).mpr
          (Or.inr ⟨flow, by simpa using hstored, hmem⟩), rfl, ⟨hleft, hright⟩, kept,
        ?_, rfl⟩
      simp [hkept]

theorem collisions_subset_of_mem_stages
    {g h : CatalogHistory} (hstage : g ∈ h.stages) {w : Collision}
    (hw : w ∈ g.catalog.collisions) : w ∈ h.catalog.collisions := by
  induction h with
  | empty =>
      obtain rfl : g = empty := by simpa [stages] using hstage
      exact hw
  | insert before flow ih =>
      rcases List.mem_cons.mp hstage with rfl | hbefore
      · exact hw
      · exact (mem_collisions_insert_iff before flow w).mpr (Or.inl (ih hbefore))
  | merge left right ihLeft ihRight =>
      rcases List.mem_cons.mp hstage with rfl | hpart
      · exact hw
      · rw [mem_collisions_merge_iff]
        rcases List.mem_append.mp hpart with hleft | hright
        · exact Or.inl (Or.inl (ihLeft hleft))
        · exact Or.inl (Or.inr (ihRight hright))

end CatalogHistory

/-! ## True collisions -/

/-- The flow that a catalog holds under the id comes from where a collision says. -/
def Collision.TrueIn (w : Collision) (c : Catalog) : Prop :=
  ∃ flow, c.get? w.id = some flow ∧ flow.sourceRelative = w.kept

namespace CatalogHistory

/--
Wherever a flow was turned away, the flow that held its id there and the one that
holds it in the end come from the same file.
-/
def SourcesStay (h : CatalogHistory) : Prop :=
  ∀ g ∈ h.stages, ∀ id, g.TurnsAway id →
    (g.first? id).map (·.sourceRelative) = (h.first? id).map (·.sourceRelative)

theorem exists_flow_of_mem_collisions
    {h : CatalogHistory} {w : Collision} (hw : w ∈ h.catalog.collisions) :
    ∃ flow, h.catalog.get? w.id = some flow := by
  obtain ⟨g, hstage, _, kept, hkept, _⟩ := exists_stage_of_mem_collisions hw
  rw [get?_catalog]
  apply Option.isSome_iff_exists.mp
  exact first?_isSome_of_mem_stages hstage (by simp [hkept])

theorem sourcesStay_of_trueIn
    {h : CatalogHistory} (htrue : ∀ w ∈ h.catalog.collisions, w.TrueIn h.catalog) :
    h.SourcesStay := by
  intro g hstage id haway
  obtain ⟨w, hw, rfl, _, kept, hkept, hsource⟩ := exists_collision_of_turnsAway haway
  obtain ⟨flow, hflow, hflowSource⟩ := htrue w (collisions_subset_of_mem_stages hstage hw)
  rw [get?_catalog] at hflow
  simp [hkept, hflow, hsource, hflowSource]

theorem trueIn_of_sourcesStay
    {h : CatalogHistory} (hstay : h.SourcesStay) {w : Collision}
    (hw : w ∈ h.catalog.collisions) : w.TrueIn h.catalog := by
  obtain ⟨g, hstage, haway, kept, hkept, hsource⟩ := exists_stage_of_mem_collisions hw
  have hsame := hstay g hstage w.id haway
  rw [hkept, Option.map_some, eq_comm, Option.map_eq_some_iff] at hsame
  obtain ⟨flow, hflow, hflowSource⟩ := hsame
  exact ⟨flow, by rw [get?_catalog, hflow], hflowSource.trans hsource⟩

theorem diagnostic_of_trueIn
    {c : Catalog} {w : Collision} (htrue : w.TrueIn c) :
    ∃ flow, c.get? w.id = some flow ∧
      w.diagnostic = ⟨w.dropped, .collision,
        "duplicate flow id '" ++ w.id ++ "', kept the record from " ++
          flow.sourceRelative⟩ := by
  obtain ⟨flow, hflow, hsource⟩ := htrue
  exact ⟨flow, hflow, by rw [Collision.diagnostic, hsource]⟩

/--
Under every id on record a catalog holds a flow.  All of its collisions are true
exactly if no later merge put a flow from another file in the place of one that
had turned a flow away; the diagnostics then name the files of the flows held.
-/
theorem collisions_trueIn_iff_sourcesStay (h : CatalogHistory) :
    (∀ w ∈ h.catalog.collisions, ∃ flow, h.catalog.get? w.id = some flow) ∧
      ((∀ w ∈ h.catalog.collisions, w.TrueIn h.catalog) ↔ h.SourcesStay) ∧
      (h.SourcesStay → ∀ o : Outcome, o.catalog = h.catalog →
        ∀ d ∈ o.allDiagnostics, d ∈ o.diagnostics ∨
          ∃ w ∈ h.catalog.collisions, ∃ flow, h.catalog.get? w.id = some flow ∧
            d = ⟨w.dropped, .collision,
              "duplicate flow id '" ++ w.id ++ "', kept the record from " ++
                flow.sourceRelative⟩) := by
  refine ⟨fun w hw => exists_flow_of_mem_collisions hw, ⟨sourcesStay_of_trueIn, ?_⟩, ?_⟩
  · intro hstay w hw
    exact trueIn_of_sourcesStay hstay hw
  · intro hstay o ho d hd
    rcases List.mem_append.mp hd with hfile | hcollision
    · exact Or.inl hfile
    · obtain ⟨w, hw, rfl⟩ := List.mem_map.mp hcollision
      rw [ho] at hw
      obtain ⟨flow, hflow, hdiagnostic⟩ :=
        diagnostic_of_trueIn (trueIn_of_sourcesStay hstay hw)
      exact Or.inr ⟨w, hw, flow, hflow, hdiagnostic⟩

/--
A merged catalog that had turned one flow away for another keeps saying so, even
though the catalog that it is merged into holds a third flow under the id.
-/
theorem collision_not_trueIn_after_merge :
    let offer (source : String) := Flow.named "etl" "etl_0" ("/flows/" ++ source) source
    let h := merge (insert empty (offer "a.py"))
      (insert (insert empty (offer "b.py")) (offer "c.py"))
    ¬ ∀ w ∈ h.catalog.collisions, w.TrueIn h.catalog := by
  intro offer h htrue
  have hstay := sourcesStay_of_trueIn htrue
  have hstage : insert (insert empty (offer "b.py")) (offer "c.py") ∈ h.stages := by
    simp [h, stages]
  have haway :
      (insert (insert empty (offer "b.py")) (offer "c.py")).TurnsAway "etl_0" :=
    ⟨rfl, rfl⟩
  have hsame := hstay _ hstage "etl_0" haway
  simp [h, offer, Flow.named] at hsame

end CatalogHistory
end FlowSurvey
