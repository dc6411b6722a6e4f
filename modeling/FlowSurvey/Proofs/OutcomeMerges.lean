import FlowSurvey.Proofs.CatalogOffers
import FlowSurvey.Proofs.SurveyFaults

/-!
# Merging outcomes in groups

Outcomes of scans can be merged in groups, and the groups be merged again.  How they are
grouped shows only in what the collisions say was kept, and in the order of the collisions:
the flows held are in either case the first ones under their ids, so what was turned away is
the same.  The empty outcome changes nothing at all, on either side.

For that the index has to be the same too, not only what it leads to.  A catalog never takes
a flow out again, so its index is the one that its flows make when they are offered in order.
-/

namespace FlowSurvey
namespace Catalog

variable {c : Catalog}

/-! ## Catalogs made again -/

/-- Offering its flows to an empty catalog makes a catalog again, all but the collisions. -/
structure Rebuilt (c : Catalog) : Prop where
  flows_eq : (ofList c.flows.toList).flows = c.flows
  index_eq : (ofList c.flows.toList).index = c.index

theorem rebuilt_empty : Rebuilt empty := ⟨rfl, rfl⟩

theorem Rebuilt.withCollisions (hc : c.Rebuilt) (collisions : List Collision) :
    Rebuilt { c with collisions } :=
  ⟨hc.flows_eq, hc.index_eq⟩

theorem Rebuilt.insert (hc : c.Rebuilt) (hindexed : c.Indexed) (flow : Flow) :
    (c.insert flow).Rebuilt := by
  cases hget : c.get? flow.id with
  | some kept =>
      rw [insert_of_taken hget]
      exact hc.withCollisions _
  | none =>
      have hagain : (ofList c.flows.toList).get? flow.id = none := by
        rw [get?, hc.flows_eq, hc.index_eq]
        exact hget
      have hofList : ofList (c.flows.push flow).toList =
          (ofList c.flows.toList).insert flow := by
        rw [Array.toList_push, ofList, insertAll_append]
        rfl
      have hinsert := (indexed_empty.insertAll c.flows.toList).insert_of_free hagain
      rw [hindexed.insert_of_free hget]
      constructor
      · simp only [hofList]
        rw [ofList, hinsert, ← ofList]
        simp [hc.flows_eq]
      · simp only [hofList]
        rw [ofList, hinsert, ← ofList]
        simp [hc.flows_eq, hc.index_eq]

theorem Rebuilt.insertAll (hc : c.Rebuilt) (hindexed : c.Indexed) (flows : List Flow) :
    (c.insertAll flows).Rebuilt := by
  induction flows generalizing c with
  | nil => exact hc
  | cons flow rest ih => exact ih (hc.insert hindexed flow) (hindexed.insert flow)

theorem Rebuilt.merge (hc : c.Rebuilt) (hindexed : c.Indexed) (other : Catalog) :
    (c.merge other).Rebuilt :=
  (hc.withCollisions _).insertAll (hindexed.withCollisions _) _

/-! ## Merging with nothing -/

theorem insert_withCollisions (c : Catalog) (collisions : List Collision) (flow : Flow) :
    insert { c with collisions := collisions ++ c.collisions } flow =
      { c.insert flow with collisions := collisions ++ (c.insert flow).collisions } := by
  unfold insert
  cases c.index[flow.id]? <;> simp

theorem insertAll_withCollisions (c : Catalog) (collisions : List Collision) (flows : List Flow) :
    insertAll { c with collisions := collisions ++ c.collisions } flows =
      { c.insertAll flows with collisions := collisions ++ (c.insertAll flows).collisions } := by
  induction flows generalizing c with
  | nil => rfl
  | cons flow rest ih =>
      rw [insertAll_cons, insert_withCollisions, ih, insertAll_cons]

theorem merge_empty (c : Catalog) : c.merge empty = c := by
  simp [merge, empty]

theorem Rebuilt.empty_merge (hc : c.Rebuilt) (hindexed : c.Indexed) : empty.merge c = c := by
  have hnone := collisions_ofList hindexed.ids_nodup
  have hmerge : empty.merge c =
      { ofList c.flows.toList with
        collisions := c.collisions ++ (ofList c.flows.toList).collisions } := by
    rw [ofList, ← insertAll_withCollisions]
    simp [Catalog.merge, empty]
  rw [hmerge, hnone, List.append_nil]
  simp [hc.flows_eq, hc.index_eq]

end Catalog

/-! ## Outcomes and the catalogs in them -/

theorem CatalogHistory.rebuilt_catalog (h : CatalogHistory) : h.catalog.Rebuilt := by
  induction h with
  | empty => exact Catalog.rebuilt_empty
  | insert before flow ih => exact ih.insert before.indexed_catalog flow
  | merge left right ihLeft _ => exact ihLeft.merge left.indexed_catalog right.catalog

namespace Outcome

/-- The outcomes that scans and merges make, of the same survey or of different ones. -/
inductive Made : Outcome → Prop
  | empty : Made .empty
  | scan {s : Survey} {files : List String} {start : Nat} {o : Outcome}
      (hscan : s.Scanned files start o) : Made o
  | merge {o other : Outcome} (ho : Made o) (hother : Made other) : Made (o.merge other)

theorem Made.exists_history {o : Outcome} (ho : o.Made) :
    ∃ h : CatalogHistory, o.catalog = h.catalog := by
  induction ho with
  | empty => exact ⟨.empty, rfl⟩
  | scan hscan =>
      obtain ⟨_, _, hcatalog⟩ := hscan.exists_root
      rw [hcatalog]
      exact ⟨_, (CatalogHistory.catalog_foldl_insert .empty _).symm⟩
  | merge _ _ ih ihOther =>
      obtain ⟨h, hcatalog⟩ := ih
      obtain ⟨g, hother⟩ := ihOther
      exact ⟨.merge h g, by rw [Outcome.merge, hcatalog, hother]; rfl⟩

/-! ## Groups of merges -/

/-- The same outcome, but for what its collisions say was kept and for their order. -/
structure Agrees (o other : Outcome) : Prop where
  flows_eq : o.catalog.flows = other.catalog.flows
  get?_eq : ∀ id, o.catalog.get? id = other.catalog.get? id
  filesScanned_eq : o.filesScanned = other.filesScanned
  diagnostics_eq : o.diagnostics = other.diagnostics
  next_eq : o.next = other.next
  length_collisions_eq : o.catalog.collisions.length = other.catalog.collisions.length
  refused_perm : (o.catalog.collisions.map Collision.refused).Perm
    (other.catalog.collisions.map Collision.refused)

theorem merge_merge_agrees_of_accountsFor
    {a b c : Outcome} {first second third : List Flow} (ha : a.catalog.AccountsFor first)
    (hb : b.catalog.AccountsFor second) (hc : c.catalog.AccountsFor third) :
    Agrees ((a.merge b).merge c) (a.merge (b.merge c)) := by
  -- Both groupings are accounts of the same offers, in the same order.
  have hleft : ((a.merge b).merge c).catalog.AccountsFor (first ++ second ++ third) :=
    (ha.merge hb).merge hc
  have hright : (a.merge (b.merge c)).catalog.AccountsFor (first ++ second ++ third) := by
    rw [List.append_assoc]
    exact ha.merge (hb.merge hc)
  have hflows := hleft.flows_eq.trans hright.flows_eq.symm
  have hledger := hleft.ledger_perm.trans hright.ledger_perm.symm
  rw [Catalog.ledger, Catalog.ledger, hflows, List.perm_append_left_iff] at hledger
  constructor
  · exact Array.toList_inj.mp hflows
  · intro id
    rw [hleft.indexed.get?_eq_find?, hright.indexed.get?_eq_find?, hflows]
  · exact Nat.add_assoc _ _ _
  · exact List.append_assoc _ _ _
  · exact Nat.max_assoc _ _ _
  · simpa only [List.length_map] using hledger.length_eq
  · exact hledger

theorem merge_empty (o : Outcome) : o.merge empty = o := by
  have hcatalog := o.catalog.merge_empty
  rw [Catalog.empty] at hcatalog
  simp [merge, empty, hcatalog]

theorem Made.empty_merge {o : Outcome} (ho : o.Made) : Outcome.empty.merge o = o := by
  obtain ⟨h, hcatalog⟩ := ho.exists_history
  have hempty := h.rebuilt_catalog.empty_merge h.indexed_catalog
  rw [← hcatalog, Catalog.empty] at hempty
  simp [Outcome.merge, Outcome.empty, hempty]

/--
Grouping merges in another way gives the same flows, found under the same ids, and turns the
same flows away, although not always for the same ones.  The empty outcome leaves every
outcome as it is, its collisions and its index included.
-/
theorem merge_merge_agrees {a b c : Outcome} (ha : a.Made) (hb : b.Made) (hc : c.Made) :
    Agrees ((a.merge b).merge c) (a.merge (b.merge c)) ∧ empty.merge a = a ∧ a.merge empty = a := by
  refine ⟨?_, ha.empty_merge, a.merge_empty⟩
  obtain ⟨f, hf⟩ := ha.exists_history
  obtain ⟨g, hg⟩ := hb.exists_history
  obtain ⟨h, hh⟩ := hc.exists_history
  apply merge_merge_agrees_of_accountsFor
  · rw [hf]
    exact f.accountsFor_offers
  · rw [hg]
    exact g.accountsFor_offers
  · rw [hh]
    exact h.accountsFor_offers

/-- A scan merged with itself: each merge turns a flow away that the first scan has already. -/
theorem merge_merge_agrees_mixedSurvey :
    ∃ o : Outcome, o.Made ∧ o.catalog.flows ≠ #[] ∧ (o.merge o).catalog.collisions ≠ [] ∧
      Agrees ((o.merge o).merge o) (o.merge (o.merge o)) ∧ empty.merge o = o ∧
      o.merge empty = o := by
  obtain ⟨o, hscan, -⟩ :=
    Survey.exists_scanFiles Survey.resolvedRoot_mixedSurvey ["/latin.py", "/flows.py"] 3
  have ho : o.Made := .scan (.files hscan)
  obtain ⟨flow, hflow, -⟩ := Survey.exists_flow_mixedSurvey (.files hscan) (by simp)
  obtain ⟨h, hcatalog⟩ := ho.exists_history
  have hindexed : o.catalog.Indexed := hcatalog ▸ h.indexed_catalog
  have htaken := hindexed.get?_eq_some_iff.mpr ⟨by simpa using hflow, rfl⟩
  refine ⟨o, ho, ?_, ?_, merge_merge_agrees ho ho ho⟩
  · rintro hnone
    simp [hnone] at hflow
  · have hrefused : ⟨flow.id, flow.sourceRelative, flow.sourceRelative⟩ ∈
        o.catalog.refusals flow := by
      simp [Catalog.refusals, htaken]
    rw [merge, hindexed.collisions_merge hindexed]
    apply List.append_ne_nil_of_right_ne_nil
    exact List.ne_nil_of_mem (List.mem_flatMap.mpr ⟨flow, hflow, hrefused⟩)

end Outcome
end FlowSurvey
