import FlowSurvey.Proofs.CatalogHistory
import Mathlib.Data.List.Perm.Basic

/-!
# What becomes of the flows that are offered

A catalog holds, of all the flows that were ever offered to it, those that were
the first under their id, in the order of the offers; every other one is on
record as a collision.  An offer of a single flow keeps it so, and a merge puts
two such accounts together, although the merged catalog has turned flows away
before.
-/

namespace FlowSurvey

/-- The flows whose id is neither among the given ones nor that of a flow before them. -/
def firstAfter (ids : List String) : List Flow → List Flow
  | [] => []
  | flow :: rest =>
      if flow.id ∈ ids then firstAfter (ids ++ [flow.id]) rest
      else flow :: firstAfter (ids ++ [flow.id]) rest

theorem firstAfter_append (ids : List String) (first second : List Flow) :
    firstAfter ids (first ++ second) =
      firstAfter ids first ++ firstAfter (ids ++ first.map (·.id)) second := by
  induction first generalizing ids with
  | nil => simp [firstAfter]
  | cons flow rest ih =>
      simp only [List.cons_append, firstAfter, ih, List.map_cons, List.append_assoc,
        List.nil_append]
      split <;> rfl

/-- Ids that are given besides only take away from the flows. -/
theorem firstAfter_append_ids (earlier ids : List String) (flows : List Flow) :
    firstAfter (earlier ++ ids) flows =
      (firstAfter ids flows).filter fun flow => flow.id ∉ earlier := by
  induction flows generalizing ids with
  | nil => rfl
  | cons flow rest ih =>
      simp only [firstAfter, List.append_assoc, ih, List.mem_append]
      by_cases hearlier : flow.id ∈ earlier <;> by_cases hid : flow.id ∈ ids <;>
        simp [hearlier, hid]

theorem mem_ids_firstAfter_iff (ids : List String) (flows : List Flow) (id : String) :
    id ∈ (firstAfter ids flows).map (·.id) ↔ id ∈ flows.map (·.id) ∧ id ∉ ids := by
  induction flows generalizing ids with
  | nil => simp [firstAfter]
  | cons flow rest ih =>
      by_cases hsame : id = flow.id
      · subst hsame
        by_cases htaken : flow.id ∈ ids <;>
          simp only [firstAfter, htaken, ih, if_true, if_false, List.map_cons, List.mem_cons,
            List.mem_append] <;> simp
      · by_cases htaken : flow.id ∈ ids <;>
          simp only [firstAfter, htaken, ih, hsame, if_true, if_false, List.map_cons,
            List.mem_cons, List.mem_append, List.not_mem_nil, false_or, or_false]

/-- Under which id a flow is offered, and where it comes from. -/
def Flow.origin (flow : Flow) : String × String :=
  (flow.id, flow.sourceRelative)

def Collision.refused (w : Collision) : String × String :=
  (w.id, w.dropped)

namespace Catalog

/-- The flows held and the flows turned away. -/
def ledger (c : Catalog) : List (String × String) :=
  c.flows.toList.map Flow.origin ++ c.collisions.map Collision.refused

/-- A catalog gives an account of all the flows that were offered to it. -/
structure AccountsFor (c : Catalog) (offers : List Flow) : Prop where
  indexed : c.Indexed
  flows_eq : c.flows.toList = firstAfter [] offers
  ledger_perm : c.ledger.Perm (offers.map Flow.origin)

variable {c : Catalog}

theorem Indexed.isNone_get?_iff (hc : c.Indexed) (id : String) :
    (c.get? id).isNone = true ↔ id ∉ c.flows.toList.map (·.id) := by
  rw [Option.isNone_iff_eq_none, hc.get?_eq_find?, List.find?_eq_none]
  simp

theorem Indexed.isFree_eq_isNone_get? (hc : c.Indexed) (id : String) :
    c.isFree id = (c.get? id).isNone := by
  rw [Bool.eq_iff_iff, Option.isNone_iff_eq_none, hc.get?_eq_none_iff]
  simp [isFree]

theorem AccountsFor.isNone_get?_iff
    {offers : List Flow} (hc : c.AccountsFor offers) (id : String) :
    (c.get? id).isNone = true ↔ id ∉ offers.map (·.id) := by
  rw [hc.indexed.isNone_get?_iff, hc.flows_eq, mem_ids_firstAfter_iff]
  simp

theorem Indexed.flows_merge
    (hc : c.Indexed) {other : Catalog} (hother : other.Indexed) :
    (c.merge other).flows.toList =
      c.flows.toList ++ other.flows.toList.filter fun flow => (c.get? flow.id).isNone :=
  (hc.withCollisions _).flows_insertAll hother.ids_nodup

/-! ## Accounts of single offers -/

theorem ledger_withCollisions (collisions : List Collision) :
    ledger { c with collisions := c.collisions ++ collisions } =
      c.ledger ++ collisions.map Collision.refused := by
  simp [ledger]

theorem Indexed.ledger_insert_perm (hc : c.Indexed) (flow : Flow) :
    (c.insert flow).ledger.Perm (c.ledger ++ [flow.origin]) := by
  cases hget : c.get? flow.id with
  | some kept =>
      rw [insert_of_taken hget, ledger_withCollisions]
      exact List.Perm.refl _
  | none =>
      rw [hc.insert_of_free hget]
      simp only [ledger, Array.toList_push, List.map_append, List.append_assoc]
      exact List.Perm.append_left _ List.perm_append_comm

theorem Indexed.ledger_insertAll_perm (hc : c.Indexed) (flows : List Flow) :
    (c.insertAll flows).ledger.Perm (c.ledger ++ flows.map Flow.origin) := by
  induction flows generalizing c with
  | nil => simp
  | cons flow rest ih =>
      have hfirst := (hc.ledger_insert_perm flow).append_right (rest.map Flow.origin)
      rw [insertAll_cons]
      refine (ih (hc.insert flow)).trans ?_
      simpa using hfirst

theorem accountsFor_empty : empty.AccountsFor [] :=
  ⟨indexed_empty, rfl, List.Perm.nil⟩

theorem AccountsFor.insert
    {offers : List Flow} (hc : c.AccountsFor offers) (flow : Flow) :
    (c.insert flow).AccountsFor (offers ++ [flow]) where
  indexed := hc.indexed.insert flow
  flows_eq := by
    have hnew := hc.isNone_get?_iff flow.id
    rw [hc.indexed.flows_insert, hc.flows_eq, firstAfter_append]
    by_cases hid : flow.id ∈ offers.map (·.id)
    · have htaken : (c.get? flow.id).isNone = false :=
        Bool.eq_false_iff.mpr fun hfree => hnew.mp hfree hid
      simp only [List.nil_append, firstAfter, if_pos hid, List.filter_cons, htaken]
      rfl
    · have hfree : (c.get? flow.id).isNone = true := hnew.mpr hid
      simp only [List.nil_append, firstAfter, if_neg hid, List.filter_cons, hfree]
      rfl
  ledger_perm := by
    have hoffers := hc.ledger_perm.append_right [flow.origin]
    rw [List.map_append]
    exact (hc.indexed.ledger_insert_perm flow).trans hoffers

/-! ## Accounts put together -/

theorem AccountsFor.merge
    {other : Catalog} {offers more : List Flow}
    (hc : c.AccountsFor offers) (hother : other.AccountsFor more) :
    (c.merge other).AccountsFor (offers ++ more) where
  indexed := hc.indexed.merge other
  flows_eq := by
    have hold := firstAfter_append_ids (offers.map (·.id)) [] more
    rw [hc.indexed.flows_merge hother.indexed, hc.flows_eq, hother.flows_eq,
      firstAfter_append, List.nil_append]
    rw [List.append_nil] at hold
    rw [hold]
    congr 1
    apply List.filter_congr
    intro flow _
    rw [Bool.eq_iff_iff, hc.isNone_get?_iff, decide_eq_true_iff]
  ledger_perm := by
    -- The merged collisions stand between the flows of both catalogs.
    have hlogged := hc.indexed.withCollisions (c.collisions ++ other.collisions)
    have hboth := hlogged.ledger_insertAll_perm other.flows.toList
    rw [Catalog.merge]
    refine hboth.trans ?_
    rw [ledger_withCollisions, List.map_append, List.append_assoc]
    exact hc.ledger_perm.append (List.perm_append_comm.trans hother.ledger_perm)

end Catalog

namespace CatalogHistory

/-- Flows that are collected are offered one after another to an empty catalog. -/
def collect (flows : List Flow) : CatalogHistory :=
  flows.foldl insert empty

theorem catalog_foldl_insert (h : CatalogHistory) (flows : List Flow) :
    (flows.foldl insert h).catalog = h.catalog.insertAll flows := by
  induction flows generalizing h with
  | nil => rfl
  | cons flow rest ih => exact ih (insert h flow)

theorem offers_foldl_insert (h : CatalogHistory) (flows : List Flow) :
    (flows.foldl insert h).offers = h.offers ++ flows := by
  induction flows generalizing h with
  | nil => simp
  | cons flow rest ih => simp [ih, offers]

theorem accountsFor_offers (h : CatalogHistory) : h.catalog.AccountsFor h.offers := by
  induction h with
  | empty => exact Catalog.accountsFor_empty
  | insert before flow ih => exact ih.insert flow
  | merge left right ihLeft ihRight => exact ihLeft.merge ihRight

/--
However a catalog came about, also by collecting flows: its ids are all
different, and the index leads from exactly these to the positions of their
flows, which is what a look-up finds.  It holds the first flow that was offered
under each id, in the order of the offers; a flow is let in exactly if its id is
new.  The flows held and those turned away are all that were offered.
-/
theorem catalog_accounts_for_offers :
    (∀ flows, (collect flows).catalog = .ofList flows ∧ (collect flows).offers = flows) ∧
      ∀ h : CatalogHistory,
        (h.catalog.flows.toList.map (·.id)).Nodup ∧
        (∀ id position, h.catalog.index[id]? = some position ↔
          ∃ flow : Flow, h.catalog.flows[position]? = some flow ∧ flow.id = id) ∧
        (∀ id flow, h.catalog.get? id = some flow ↔ flow ∈ h.catalog.flows ∧ flow.id = id) ∧
        (∀ id, h.catalog.get? id = none ↔ ∀ flow ∈ h.catalog.flows, flow.id ≠ id) ∧
        h.catalog.flows.toList = firstAfter [] h.offers ∧
        (∀ flow : Flow,
          (h.catalog.isFree flow.id = true ↔ ∀ offered ∈ h.offers, offered.id ≠ flow.id) ∧
          (h.catalog.insert flow).flows.toList =
            h.catalog.flows.toList ++ if h.catalog.isFree flow.id then [flow] else []) ∧
        (h.catalog.flows.toList.map Flow.origin ++
          h.catalog.collisions.map Collision.refused).Perm (h.offers.map Flow.origin) := by
  refine ⟨fun flows => ⟨catalog_foldl_insert empty flows, offers_foldl_insert empty flows⟩,
    fun h => ?_⟩
  have haccount := h.accountsFor_offers
  have hindexed := haccount.indexed
  refine ⟨hindexed.ids_nodup, hindexed.index_iff, fun id flow => hindexed.get?_eq_some_iff, ?_,
    haccount.flows_eq, fun flow => ⟨?_, ?_⟩, haccount.ledger_perm⟩
  · intro id
    rw [← Option.isNone_iff_eq_none, hindexed.isNone_get?_iff]
    simp
  · rw [hindexed.isFree_eq_isNone_get?, haccount.isNone_get?_iff]
    simp
  · rw [hindexed.flows_insert, hindexed.isFree_eq_isNone_get?, List.filter_singleton,
      cond_eq_ite]

end CatalogHistory
end FlowSurvey
