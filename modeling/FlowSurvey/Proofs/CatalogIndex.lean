import FlowSurvey.Catalog
import Mathlib.Data.List.Basic

/-!
# The index of a catalog

The index is a cache over the flows of a catalog.  As long as it leads from
every id to the one position that holds it, a look-up is a search through the
flows, and an offer is decided by such a search alone.  Every operation keeps
the index in that state; with it the operations are described by what they do
to look-ups, to the flows and to the collisions.
-/

namespace FlowSurvey
namespace Catalog

/-- The index leads from an id to the position that holds it. -/
structure Indexed (c : Catalog) : Prop where
  index_iff : ∀ id position,
    c.index[id]? = some position ↔
      ∃ flow : Flow, c.flows[position]? = some flow ∧ flow.id = id

theorem indexed_empty : Indexed empty := by
  constructor
  intro id position
  simp [empty]

variable {c : Catalog}

theorem Indexed.get?_eq_some_iff
    (hc : c.Indexed) {id : String} {flow : Flow} :
    c.get? id = some flow ↔ flow ∈ c.flows ∧ flow.id = id := by
  constructor
  · intro hget
    obtain ⟨position, hindex, hflow⟩ := Option.bind_eq_some_iff.mp hget
    obtain ⟨other, hother, hid⟩ := (hc.index_iff id position).mp hindex
    obtain rfl : other = flow := by simpa [hother] using hflow
    exact ⟨Array.mem_of_getElem? hother, hid⟩
  · rintro ⟨hmem, hid⟩
    obtain ⟨position, hflow⟩ := Array.getElem?_of_mem hmem
    have hindex : c.index[id]? = some position :=
      (hc.index_iff id position).mpr ⟨flow, hflow, hid⟩
    exact Option.bind_eq_some_iff.mpr ⟨position, hindex, hflow⟩

theorem Indexed.get?_eq_none_iff
    (hc : c.Indexed) {id : String} :
    c.get? id = none ↔ c.index[id]? = none := by
  constructor
  · intro hget
    cases hindex : c.index[id]? with
    | none => rfl
    | some position =>
        obtain ⟨flow, hflow, _⟩ := (hc.index_iff id position).mp hindex
        simp [get?, hindex, hflow] at hget
  · intro hindex
    simp [get?, hindex]

theorem Indexed.position_unique
    (hc : c.Indexed) {first second : Nat} {left right : Flow}
    (hleft : c.flows[first]? = some left)
    (hright : c.flows[second]? = some right) (hid : left.id = right.id) :
    first = second := by
  have hfirst := (hc.index_iff left.id first).mpr ⟨left, hleft, rfl⟩
  have hsecond := (hc.index_iff left.id second).mpr ⟨right, hright, hid.symm⟩
  simpa [hfirst] using hsecond

theorem Indexed.ids_nodup (hc : c.Indexed) :
    (c.flows.toList.map (·.id)).Nodup := by
  rw [List.Nodup, List.pairwise_iff_getElem]
  intro first second hfirst hsecond hlt heq
  simp only [List.length_map, Array.length_toList] at hfirst hsecond
  simp only [List.getElem_map, Array.getElem_toList] at heq
  have := hc.position_unique (Array.getElem?_eq_getElem hfirst)
    (Array.getElem?_eq_getElem hsecond) heq
  omega

/-! ## Offers -/

/-- What is recorded about an offer, if its id is taken. -/
def refusals (c : Catalog) (flow : Flow) : List Collision :=
  ((c.get? flow.id).map fun kept =>
    ⟨flow.id, kept.sourceRelative, flow.sourceRelative⟩).toList

theorem Indexed.insert_of_free
    (hc : c.Indexed) {flow : Flow} (hfree : c.get? flow.id = none) :
    c.insert flow =
      { c with
        flows := c.flows.push flow
        index := c.index.insert flow.id c.flows.size } := by
  have hindex := hc.get?_eq_none_iff.mp hfree
  simp [insert, hindex]

theorem insert_of_taken
    {flow kept : Flow} (htaken : c.get? flow.id = some kept) :
    c.insert flow =
      { c with
        collisions := c.collisions ++
          [⟨flow.id, kept.sourceRelative, flow.sourceRelative⟩] } := by
  obtain ⟨position, hindex, hkept⟩ := Option.bind_eq_some_iff.mp htaken
  simp [insert, hindex, hkept]

/-- The index only depends on the flows, so collisions may be added freely. -/
theorem Indexed.withCollisions
    (hc : c.Indexed) (collisions : List Collision) :
    Indexed { c with collisions } :=
  ⟨hc.index_iff⟩

theorem Indexed.insert (hc : c.Indexed) (flow : Flow) :
    (c.insert flow).Indexed := by
  cases hget : c.get? flow.id with
  | some kept =>
      rw [insert_of_taken hget]
      exact hc.withCollisions _
  | none =>
      rw [hc.insert_of_free hget]
      have hindex := hc.get?_eq_none_iff.mp hget
      constructor
      intro id position
      simp only [Std.HashMap.getElem?_insert, Array.getElem?_push]
      by_cases hid : flow.id = id
      · subst hid
        -- The id was free, so the new position is the only one that holds it.
        have hold : ∀ other : Flow,
            c.flows[position]? = some other → other.id ≠ flow.id := by
          intro other hother heq
          have := (hc.index_iff flow.id position).mpr ⟨other, hother, heq⟩
          simp [hindex] at this
        by_cases hposition : position = c.flows.size
        · simp [hposition]
        · simp only [beq_self_eq_true, if_true, Option.some.injEq,
            if_neg hposition]
          constructor
          · intro heq
            exact absurd heq.symm hposition
          · rintro ⟨other, hother, heq⟩
            exact absurd heq (hold other hother)
      · by_cases hposition : position = c.flows.size
        · have hnone : c.index[id]? ≠ some c.flows.size := by
            intro hsome
            obtain ⟨other, hother, _⟩ := (hc.index_iff _ _).mp hsome
            simp at hother
          simp [hposition, hid, hnone]
        · simp [hposition, hid, hc.index_iff]

theorem get?_withCollisions (collisions : List Collision) (id : String) :
    get? { c with collisions } id = c.get? id := rfl

theorem Indexed.get?_insert
    (hc : c.Indexed) (flow : Flow) (id : String) :
    (c.insert flow).get? id =
      (c.get? id).or (if flow.id = id then some flow else none) := by
  cases hget : c.get? flow.id with
  | some kept =>
      rw [insert_of_taken hget, get?_withCollisions]
      by_cases hid : flow.id = id
      · subst hid
        simp [hget]
      · simp [hid]
  | none =>
      have hindexed := hc.insert flow
      rw [hc.insert_of_free hget] at hindexed ⊢
      ext found
      rw [hindexed.get?_eq_some_iff, Array.mem_push, Option.or_eq_some_iff,
        hc.get?_eq_some_iff]
      by_cases hid : flow.id = id
      · subst hid
        have habsent : ∀ other ∈ c.flows, other.id ≠ flow.id := by
          intro other hother heq
          rw [hc.get?_eq_some_iff.mpr ⟨hother, heq⟩] at hget
          simp at hget
        constructor
        · rintro ⟨hmem | rfl, heq⟩
          · exact absurd heq (habsent found hmem)
          · simp [hget]
        · rintro (⟨hmem, heq⟩ | ⟨_, heq⟩)
          · exact absurd heq (habsent found hmem)
          · obtain rfl : flow = found := by simpa using heq
            simp
      · constructor
        · rintro ⟨hmem | rfl, heq⟩
          · exact Or.inl ⟨hmem, heq⟩
          · exact absurd heq hid
        · rintro (⟨hmem, heq⟩ | ⟨_, heq⟩)
          · exact ⟨Or.inl hmem, heq⟩
          · simp [hid] at heq

theorem Indexed.collisions_insert (hc : c.Indexed) (flow : Flow) :
    (c.insert flow).collisions = c.collisions ++ c.refusals flow := by
  cases hget : c.get? flow.id with
  | some kept =>
      rw [insert_of_taken hget]
      simp [refusals, hget]
  | none =>
      rw [hc.insert_of_free hget]
      simp [refusals, hget]

theorem Indexed.flows_insert (hc : c.Indexed) (flow : Flow) :
    (c.insert flow).flows.toList =
      c.flows.toList ++ [flow].filter fun f => (c.get? f.id).isNone := by
  cases hget : c.get? flow.id with
  | some kept =>
      rw [insert_of_taken hget]
      simp [hget]
  | none =>
      rw [hc.insert_of_free hget]
      simp [hget]

/-! ## Several offers -/

@[simp] theorem insertAll_nil (c : Catalog) : c.insertAll [] = c := rfl

@[simp] theorem insertAll_cons (c : Catalog) (flow : Flow) (rest : List Flow) :
    c.insertAll (flow :: rest) = (c.insert flow).insertAll rest := rfl

theorem insertAll_append (c : Catalog) (first second : List Flow) :
    c.insertAll (first ++ second) = (c.insertAll first).insertAll second := by
  simp [insertAll, List.foldl_append]

theorem Indexed.insertAll (hc : c.Indexed) (flows : List Flow) :
    (c.insertAll flows).Indexed := by
  induction flows generalizing c with
  | nil => exact hc
  | cons flow rest ih => exact ih (hc.insert flow)

theorem Indexed.get?_insertAll
    (hc : c.Indexed) (flows : List Flow) (id : String) :
    (c.insertAll flows).get? id =
      (c.get? id).or (flows.find? fun flow => flow.id == id) := by
  induction flows generalizing c with
  | nil => simp
  | cons flow rest ih =>
      rw [insertAll_cons, ih (hc.insert flow), hc.get?_insert, Option.or_assoc]
      by_cases hid : flow.id = id <;> simp [hid]

theorem Indexed.get?_eq_find? (hc : c.Indexed) (id : String) :
    c.get? id = c.flows.toList.find? fun flow => flow.id == id := by
  cases hfind : c.flows.toList.find? fun flow => flow.id == id with
  | some found =>
      have hmem := List.mem_of_find?_eq_some hfind
      have hid := List.find?_some hfind
      exact hc.get?_eq_some_iff.mpr ⟨by simpa using hmem, by simpa using hid⟩
  | none =>
      cases hget : c.get? id with
      | none => rfl
      | some found =>
          obtain ⟨hmem, hid⟩ := hc.get?_eq_some_iff.mp hget
          have hne := List.find?_eq_none.mp hfind found (by simpa using hmem)
          exact absurd hid (by simpa using hne)

theorem Indexed.get?_insert_of_not_mem
    (hc : c.Indexed) {flow other : Flow} {rest : List Flow}
    (hnotMem : flow.id ∉ rest.map (·.id)) (hother : other ∈ rest) :
    (c.insert flow).get? other.id = c.get? other.id := by
  have hne : flow.id ≠ other.id := by
    intro heq
    exact hnotMem (heq ▸ List.mem_map_of_mem hother)
  rw [hc.get?_insert, if_neg hne, Option.or_none]

theorem Indexed.flows_insertAll
    (hc : c.Indexed) {flows : List Flow} (hnodup : (flows.map (·.id)).Nodup) :
    (c.insertAll flows).flows.toList =
      c.flows.toList ++ flows.filter fun flow => (c.get? flow.id).isNone := by
  induction flows generalizing c with
  | nil => simp
  | cons flow rest ih =>
      rw [List.map_cons, List.nodup_cons] at hnodup
      have hsame : (rest.filter fun other => ((c.insert flow).get? other.id).isNone) =
          rest.filter fun other => (c.get? other.id).isNone := by
        apply List.filter_congr
        intro other hother
        rw [hc.get?_insert_of_not_mem hnodup.1 hother]
      rw [insertAll_cons, ih (hc.insert flow) hnodup.2, hc.flows_insert, hsame,
        List.append_assoc, ← List.filter_append, List.singleton_append]

theorem Indexed.collisions_insertAll
    (hc : c.Indexed) {flows : List Flow} (hnodup : (flows.map (·.id)).Nodup) :
    (c.insertAll flows).collisions = c.collisions ++ flows.flatMap c.refusals := by
  induction flows generalizing c with
  | nil => simp
  | cons flow rest ih =>
      rw [List.map_cons, List.nodup_cons] at hnodup
      have hsame : rest.flatMap (c.insert flow).refusals = rest.flatMap c.refusals := by
        apply List.flatMap_congr
        intro other hother
        simp only [refusals, hc.get?_insert_of_not_mem hnodup.1 hother]
      rw [insertAll_cons, ih (hc.insert flow) hnodup.2, hc.collisions_insert, hsame,
        List.append_assoc, List.flatMap_cons]

/-! Flows with different ids are all let in where there were none before. -/

theorem flows_ofList {flows : List Flow} (hnodup : (flows.map (·.id)).Nodup) :
    (ofList flows).flows.toList = flows := by
  rw [ofList, indexed_empty.flows_insertAll hnodup]
  simp [empty, get?]

theorem collisions_ofList {flows : List Flow} (hnodup : (flows.map (·.id)).Nodup) :
    (ofList flows).collisions = [] := by
  rw [ofList, indexed_empty.collisions_insertAll hnodup]
  simp [empty, refusals, get?]

/-! ## Catalogs offered to one another -/

theorem Indexed.merge (hc : c.Indexed) (other : Catalog) :
    (c.merge other).Indexed :=
  (hc.withCollisions _).insertAll _

theorem Indexed.get?_merge
    (hc : c.Indexed) {other : Catalog} (hother : other.Indexed) (id : String) :
    (c.merge other).get? id = (c.get? id).or (other.get? id) := by
  rw [Catalog.merge, (hc.withCollisions _).get?_insertAll, get?_withCollisions,
    hother.get?_eq_find?]

theorem Indexed.collisions_merge
    (hc : c.Indexed) {other : Catalog} (hother : other.Indexed) :
    (c.merge other).collisions =
      c.collisions ++ other.collisions ++ other.flows.toList.flatMap c.refusals :=
  (hc.withCollisions _).collisions_insertAll hother.ids_nodup

end Catalog
end FlowSurvey
