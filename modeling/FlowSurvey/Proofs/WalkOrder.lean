import FlowSurvey.Proofs.PathOrder
import FlowSurvey.Proofs.WalkSteps

/-!
# The order of a walk

A walk goes through the entries of each directory in the order of the names, and all that it
visits below an entry has that name in the same place.  So it visits paths in their order, each
no more than once, whether it goes through links or not.
-/

namespace FlowSurvey

namespace Walk

open FileSystem FlowSurvey.Path

theorem mem_of_mem_inOrder {entries : List (String × Entry)} {a : String × Entry}
    (ha : a ∈ inOrder entries) : a ∈ entries :=
  List.mem_mergeSort.mp ha

theorem pairwise_inOrder
    {entries : List (String × Entry)} (hnodup : (entries.map Prod.fst).Nodup) :
    (inOrder entries).Pairwise fun a b => a.1 < b.1 := by
  have hcompare (a b : String × Entry) : (!decide (b.1 < a.1)) = true ↔ a.1 ≤ b.1 := by
    rw [Bool.not_eq_true', decide_eq_false_iff_not, String.not_lt]
  have hsorted : (inOrder entries).Pairwise fun a b => (!decide (b.1 < a.1)) = true := by
    refine List.pairwise_mergeSort (fun a b c hab hbc => ?_) (fun a b => ?_) entries
    · rw [hcompare] at hab hbc ⊢
      exact String.le_trans hab hbc
    · rw [Bool.or_eq_true, hcompare, hcompare]
      exact String.le_total a.1 b.1
  have hperm : (inOrder entries).Perm entries := List.mergeSort_perm _ _
  have hdistinct : (inOrder entries).Pairwise fun a b => a.1 ≠ b.1 :=
    List.pairwise_map.mp ((hperm.map Prod.fst).nodup_iff.mpr hnodup)
  refine hsorted.imp₂ ?_ hdistinct
  intro a b hle hne
  by_contra hnot
  exact hne (String.le_antisymm ((hcompare a b).mp hle) (String.not_lt.mp hnot))

/-- The paths are compared component by component, and these as bytes. -/
def Precedes (first second : String) : Prop :=
  componentBytes first < componentBytes second

theorem Precedes.ne {first second : String} (hprecedes : Precedes first second) :
    first ≠ second := by
  rintro rfl
  exact List.lt_irrefl _ hprecedes

/-! ## The visits below a directory -/

section Below

variable {fs : FileSystem} {config : Config} {here : Ancestor} {ancestors : List Ancestor}
  {entries : List (String × Entry)} {name : String} {entry : Entry}

/-- All that is visited at an entry has its name next to the path of the directory. -/
theorem exists_below_of_mem_visitEntry
    {descend : List Ancestor → List (String × Entry) → List Visit} (hname : IsName name)
    (hbelow : ∀ below inner, Enters fs config here ancestors name entry below inner →
      ∀ visit ∈ descend (below :: here :: ancestors) inner,
        ∃ names, (∀ other ∈ names, IsName other) ∧ visit.path = Path.below below.path names)
    {visit : Visit}
    (hvisit : visit ∈ visitEntry fs config descend (here :: ancestors) name entry) :
    ∃ names, (∀ other ∈ name :: names, IsName other) ∧
      visit.path = Path.below here.path (name :: names) := by
  rcases visitEntry_cases descend with ⟨below, inner, henters, hsame⟩ | hnone | ⟨_, hone, hpath⟩
  · rw [hsame] at hvisit
    obtain ⟨names, hnames, hpath⟩ := hbelow below inner henters visit hvisit
    rw [henters.path_eq] at hpath
    exact ⟨names, List.forall_mem_cons.mpr ⟨hname, hnames⟩, hpath⟩
  · rw [hnone] at hvisit
    exact absurd hvisit List.not_mem_nil
  · rw [hone, List.mem_singleton] at hvisit
    exact ⟨[], List.forall_mem_singleton.mpr hname, hvisit ▸ hpath⟩

theorem exists_below_of_mem_visitEntries (hroot : WellNamed fs.root) {fuel : Nat}
    (hnamed : WellNamedAmong entries) {visit : Visit}
    (hvisit : visit ∈ visitEntries fs config fuel (here :: ancestors) entries) :
    ∃ names, (∀ name ∈ names, IsName name) ∧ visit.path = Path.below here.path names := by
  induction fuel generalizing here ancestors entries visit with
  | zero => exact absurd hvisit List.not_mem_nil
  | succ n ih =>
      obtain ⟨-, name, entry, hmem, hentry⟩ := mem_visitEntries_succ_iff.mp hvisit
      obtain ⟨hname, hwell⟩ := hnamed.of_mem hmem
      obtain ⟨names, hnames, hpath⟩ := exists_below_of_mem_visitEntry hname
        (fun below inner henters visit => ih (henters.wellNamed hroot hwell).2) hentry
      exact ⟨name :: names, hnames, hpath⟩

/-- What is visited at one entry is in order if what is visited in its directory is. -/
theorem pairwise_visitEntry {descend : List Ancestor → List (String × Entry) → List Visit}
    (hbelow : ∀ below inner, Enters fs config here ancestors name entry below inner →
      (descend (below :: here :: ancestors) inner).Pairwise fun a b => Precedes a.path b.path) :
    (visitEntry fs config descend (here :: ancestors) name entry).Pairwise
      fun a b => Precedes a.path b.path := by
  rcases visitEntry_cases descend with ⟨below, inner, henters, hsame⟩ | hnone | ⟨visit, hone, -⟩
  · rw [hsame]
    exact hbelow below inner henters
  · rw [hnone]
    exact .nil
  · rw [hone]
    exact List.pairwise_singleton _ _

/--
The entries of a directory decide the order of what is visited below different ones;
what is below one of them is in order by induction on how deep the walk may go.
-/
theorem pairwise_visitEntries (hroot : WellNamed fs.root) {fuel : Nat} (hpath : here.path ≠ "")
    (hnodup : (entries.map Prod.fst).Nodup) (hnamed : WellNamedAmong entries) :
    (visitEntries fs config fuel (here :: ancestors) entries).Pairwise
      fun a b => Precedes a.path b.path := by
  induction fuel generalizing here ancestors entries with
  | zero => exact .nil
  | succ n ih =>
      have hinside {name : String} {entry : Entry} (hmem : (name, entry) ∈ inOrder entries)
          {visit : Visit} (hvisit : visit ∈
            visitEntry fs config (visitEntries fs config n) (here :: ancestors) name entry) := by
        obtain ⟨hname, hwell⟩ := hnamed.of_mem (mem_of_mem_inOrder hmem)
        exact exists_below_of_mem_visitEntry hname (fun below inner henters visit =>
          exists_below_of_mem_visitEntries hroot (henters.wellNamed hroot hwell).2) hvisit
      rw [visitEntries]
      split
      · rw [List.pairwise_flatMap]
        constructor
        · rintro ⟨name, entry⟩ ha
          obtain ⟨hname, hwell⟩ := hnamed.of_mem (mem_of_mem_inOrder ha)
          refine pairwise_visitEntry fun below inner henters => ?_
          obtain ⟨hinner, hinnerNamed⟩ := henters.wellNamed hroot hwell
          exact ih (henters.path_eq ▸ join_ne_empty hname) hinner hinnerNamed
        · refine (pairwise_inOrder hnodup).imp_of_mem ?_
          intro a b ha hb hlt first hfirst second hsecond
          obtain ⟨firstRest, hfirstNames, hfirstPath⟩ := hinside ha hfirst
          obtain ⟨secondRest, hsecondNames, hsecondPath⟩ := hinside hb hsecond
          rw [hfirstPath, hsecondPath]
          exact componentBytes_below_lt hpath hfirstNames hsecondNames hlt
      · exact .nil

theorem pairwise_of_visits (hroot : WellNamed fs.root) {root : String} {visits : List Visit}
    (hvisits : Walk.visits fs root config = .ok visits) :
    visits.Pairwise fun a b => Precedes a.path b.path := by
  obtain ⟨trail, entries, hresolve, hat, rfl⟩ := visits_eq_ok_iff.mp hvisits
  obtain ⟨hnodup, hnamed⟩ :=
    wellNamed_of_entry_eq_directory hroot (entry_eq_ok_iff.mpr ⟨trail, hresolve, hat⟩)
  exact pairwise_visitEntries hroot (ne_empty_of_resolve hresolve) hnodup hnamed

end Below

/-! ## What is said in order -/

section InOrder

variable {visits : List Visit}

theorem pairwise_filterMap {α : Type} {part : Visit → Option α} {path : α → String}
    (hpart : ∀ visit a, part visit = some a → visit.path = path a)
    (hvisits : visits.Pairwise fun a b => Precedes a.path b.path) :
    (visits.filterMap part).Pairwise fun a b => Precedes (path a) (path b) := by
  refine List.pairwise_filterMap.mpr (hvisits.imp ?_)
  intro first second hprecedes a ha b hb
  rwa [hpart first a ha, hpart second b hb] at hprecedes

theorem pairwise_filesOf (hvisits : visits.Pairwise fun a b => Precedes a.path b.path) :
    (filesOf visits).Pairwise Precedes :=
  pairwise_filterMap (fun _ _ => Visit.path_eq_of_file?) hvisits

theorem pairwise_sourcesOf (hvisits : visits.Pairwise fun a b => Precedes a.path b.path) :
    (sourcesOf visits).Pairwise Precedes :=
  pairwise_filterMap (fun _ _ => Visit.path_eq_of_source?) hvisits

theorem pairwise_diagnosticsOf (hvisits : visits.Pairwise fun a b => Precedes a.path b.path) :
    (diagnosticsOf visits).Pairwise fun a b => Precedes a.path b.path :=
  pairwise_filterMap (fun _ _ => Visit.path_eq_of_diagnostic?) hvisits

theorem filter_path_eq_singleton {diagnostics : List Diagnostic}
    (hpairwise : diagnostics.Pairwise fun a b => Precedes a.path b.path) {diagnostic : Diagnostic}
    (hmem : diagnostic ∈ diagnostics) :
    diagnostics.filter (·.path = diagnostic.path) = [diagnostic] := by
  obtain ⟨before, after, rfl⟩ := List.append_of_mem hmem
  obtain ⟨-, hafter, hcross⟩ := List.pairwise_append.mp hpairwise
  have hfirst : before.filter (fun d => d.path = diagnostic.path) = [] := by
    rw [List.filter_eq_nil_iff]
    intro d hd
    simpa using (hcross d hd diagnostic List.mem_cons_self).ne
  have hsecond : after.filter (fun d => d.path = diagnostic.path) = [] := by
    rw [List.filter_eq_nil_iff]
    intro d hd
    simpa using ((List.pairwise_cons.mp hafter).1 d hd).ne.symm
  rw [List.filter_append, List.filter_cons_of_pos (by simp), hfirst, hsecond, List.nil_append]

end InOrder

end Walk
end FlowSurvey
