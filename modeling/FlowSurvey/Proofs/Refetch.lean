import FlowSurvey.Command.Run
import FlowSurvey.Proofs.FoundAttributes
import FlowSurvey.Proofs.RecordDocuments
import FlowSurvey.Proofs.Selections
import FlowSurvey.Proofs.SurveyFaults

/-!
# Flows fetched again

Flows of a scan that have been printed can be given to the next scan as references.  They
are read back with the names and the places that they had, whatever has become of the
doubles in their attributes, and the scan gives the flows that have one of these names and
places.  The ids of a scan are all different, so keeping the first flow of each id leaves
none of them out.
-/

namespace FlowSurvey

/-! ## Selections -/

/-- References select the flows of the same name and place, if no id is there twice. -/
theorem FlowSelection.apply_references
    {flows : List Flow} (hnodup : (flows.map (·.id)).Nodup) (references : List Flow) :
    FlowSelection.apply { flows := some references } flows = flows.filter fun flow =>
      ∃ r ∈ references, r.name = flow.name ∧ r.sourceRelative = flow.sourceRelative := by
  rw [apply_eq_filter_selects hnodup]
  refine List.filter_congr fun flow _ => ?_
  rw [Bool.eq_iff_iff, selects_references_iff, decide_eq_true_eq]

theorem filter_eq_of_sublist
    {items all : List α} {p : α → Bool} (hsub : items.Sublist all) (hnodup : all.Nodup)
    (hp : ∀ a ∈ all, p a = true ↔ a ∈ items) : all.filter p = items := by
  have hkept : items.filter p = items :=
    List.filter_eq_self.mpr fun a ha => (hp a (hsub.subset ha)).mpr ha
  -- The two have the same members, each once; so neither is longer than the other.
  have hinside : items.Sublist (all.filter p) := hkept ▸ hsub.filter p
  have hperm : items.Perm (all.filter p) := by
    rw [List.perm_ext_iff_of_nodup (hnodup.sublist hsub) (hnodup.filter p)]
    intro a
    rw [List.mem_filter]
    exact ⟨fun ha => ⟨hsub.subset ha, (hp a (hsub.subset ha)).mpr ha⟩,
      fun ha => (hp a ha.1).mp ha.2⟩
  exact (hinside.eq_of_length hperm.length_eq).symm

/-! ## Documents of scanned flows -/

@[simp]
theorem Flow.reread_name (flow : Flow) : flow.reread.name = flow.name := rfl

@[simp]
theorem Flow.reread_sourceRelative (flow : Flow) :
    flow.reread.sourceRelative = flow.sourceRelative := rfl

/-- A report of flows with shallow attributes is read back, up to the doubles in these. -/
theorem flowsOfText_renderFlows
    {flows : List Flow} (hflows : ∀ flow ∈ flows, Shallow flow.attributes) :
    flowsOfText (renderFlows .json flows) = .ok (flows.map Flow.reread) := by
  have hdecode : ∀ flow ∈ flows, Flow.ofJson flow.toJson.reread = .ok flow.reread := by
    intro flow _
    rw [flow.reread_toJson]
    exact flow.reread.ofJson_toJson
  have hordered : ∀ flow ∈ flows, flow.toJson.Ordered :=
    fun flow hflow => Flow.ordered_toJson (hflows flow hflow).ordered
  have hnesting : (Json.arr (flows.map Flow.toJson)).nesting ≤ 1 + 3 := by
    refine Nat.add_le_add_left (Json.nestingItems_le fun item hitem => ?_) 1
    obtain ⟨flow, hflow, rfl⟩ := List.mem_map.mp hitem
    exact Flow.nesting_toJson_le (hflows flow hflow).nesting_le
  exact recordsOf_pretty_of_ordered .flow hdecode hordered (by omega)

namespace Survey

theorem exists_flows_eq_flowsFrom {s : Survey} {o : Outcome} (hscan : s.scan = .ok o) :
    ∃ root files, o.catalog.flows.toList = flowsFrom s.fs s.platform root 0 files := by
  obtain ⟨visits, -, hwhole⟩ := exists_scanned_of_scan hscan
  obtain ⟨root, hroot, -⟩ := hwhole.exists_root
  exact ⟨root, sourcesOf visits, hwhole.flows_eq hroot⟩

theorem ids_nodup_of_scan {s : Survey} {o : Outcome} (hscan : s.scan = .ok o) :
    (o.catalog.flows.toList.map (·.id)).Nodup := by
  obtain ⟨root, files, hflows⟩ := exists_flows_eq_flowsFrom hscan
  rw [hflows]
  exact (numberedFrom_flowsFrom s.fs s.platform root 0 files).ids_nodup

theorem shallow_of_scan
    {s : Survey} {o : Outcome} (hscan : s.scan = .ok o) {flow : Flow}
    (hflow : flow ∈ o.catalog.flows.toList) : Shallow flow.attributes := by
  obtain ⟨root, files, hflows⟩ := exists_flows_eq_flowsFrom hscan
  rw [hflows] at hflow
  exact shallow_of_mem_flowsFrom hflow

/--
Flows of a scan that are printed and read back lead the next scan to the flows of the same
name and place, each once and in their order.  So all that was printed is found again; the
whole scan gives the whole scan and nothing gives nothing; and nothing is added unless a
flow that was left out shares its name and its place with one that was printed.
-/
theorem findFlows_printed
    (s : Survey) {o : Outcome} (hscan : s.scan = .ok o) {chosen : List Flow}
    (hchosen : chosen.Sublist o.catalog.flows.toList) :
    ∃ references found,
      flowsOfText (renderFlows .json chosen) = .ok references ∧
      s.findFlows { flows := some references } = .ok found ∧
      (found = o.catalog.flows.toList.filter fun flow =>
        ∃ r ∈ chosen, r.name = flow.name ∧ r.sourceRelative = flow.sourceRelative) ∧
      (found.map (·.id)).Nodup ∧
      chosen ⊆ found ∧
      (chosen = o.catalog.flows.toList → found = o.catalog.flows.toList) ∧
      (chosen = [] → found = []) ∧
      ((∀ flow ∈ o.catalog.flows, flow ∉ chosen → ∀ r ∈ chosen,
        ¬ (r.name = flow.name ∧ r.sourceRelative = flow.sourceRelative)) → found = chosen) := by
  have hids := ids_nodup_of_scan hscan
  have hread := flowsOfText_renderFlows fun flow hflow =>
    shallow_of_scan hscan (hchosen.subset hflow)
  have hfound : s.findFlows { flows := some (chosen.map Flow.reread) } =
      .ok (o.catalog.flows.toList.filter fun flow =>
        ∃ r ∈ chosen, r.name = flow.name ∧ r.sourceRelative = flow.sourceRelative) := by
    rw [findFlows, hscan, Except.map, FlowSelection.apply_references hids]
    simp
  have hself (flow : Flow) (hflow : flow ∈ chosen) :
      ∃ r ∈ chosen, r.name = flow.name ∧ r.sourceRelative = flow.sourceRelative :=
    ⟨flow, hflow, rfl, rfl⟩
  refine ⟨_, _, hread, hfound, rfl, hids.sublist (List.filter_sublist.map _), ?_, ?_, ?_, ?_⟩
  · intro flow hflow
    exact List.mem_filter.mpr ⟨hchosen.subset hflow, decide_eq_true (hself flow hflow)⟩
  · rintro rfl
    exact List.filter_eq_self.mpr fun flow hflow => decide_eq_true (hself flow hflow)
  · rintro rfl
    simp
  · intro hapart
    refine filter_eq_of_sublist hchosen hids.of_map fun flow hflow => ?_
    rw [decide_eq_true_eq]
    refine ⟨fun ⟨r, hr, hsame⟩ => ?_, hself flow⟩
    by_contra hnot
    exact hapart flow (Array.mem_toList_iff.mp hflow) hnot r hr hsame

/-- Two flows in a file, and one in another file that is named like the first. -/
def namesakeSources : List (String × String) :=
  [("loads.py", "@flow\ndef load():\n    pass\n@flow\ndef store():\n    pass\n"),
    ("stores.py", "@flow\ndef load():\n    pass\n")]

/-- The names that they declare, each with its place. -/
def namesakes : List (String × String) :=
  [("load", "loads.py"), ("store", "loads.py"), ("load", "stores.py")]

def namesakeSurvey : Survey where
  fs.root := .directory (namesakeSources.map fun source => (source.1, .file source.2.toUTF8))
  root := "/"
  platform := .prefect

theorem resolvedRoot_namesakeSurvey : namesakeSurvey.resolvedRoot = .ok "/" :=
  resolvedRoot_slash rfl rfl

theorem exists_flow_namesakeSurvey {o : Outcome} (hscan : namesakeSurvey.scan = .ok o) :
    ∀ declared ∈ namesakes, ∃ flow ∈ o.catalog.flows.toList,
      flow.name = declared.1 ∧ flow.sourceRelative = declared.2 := by
  intro declared hdeclared
  have hnamed : FileSystem.WellNamed namesakeSurvey.fs.root := by decide
  have hsources : ∀ source ∈ namesakeSources, IsName source.1 ∧
      Walk.isSourcePath namesakeSurvey.config ("/" ++ source.1) = true ∧
      source.2.toUTF8.size ≤ namesakeSurvey.config.maxFileSize ∧
      (locate "/" ("/" ++ source.1)).sourceRelative = source.1 := by
    decide
  have hnames : ∀ declared ∈ namesakes, canonicalName declared.1 = declared.1 ∧
      ∃ source ∈ namesakeSources, source.1 = declared.2 ∧
        declared.1 ∈ declaredNames namesakeSurvey.platform "/" ("/" ++ source.1) source.2 := by
    decide +kernel
  obtain ⟨hcanonical, source, hsource, hfile, hname⟩ := hnames declared hdeclared
  obtain ⟨hvalid, hpath, hsize, hplace⟩ := hsources source hsource
  obtain ⟨number, d, hd, hflow⟩ :=
    exists_flow_of_scan_slash hnamed rfl resolvedRoot_namesakeSurvey rfl hscan
      (List.mem_map_of_mem hsource) hvalid hpath hsize hname
  refine ⟨_, hflow, ?_, hplace.trans hfile⟩
  exact (congrArg canonicalName hd).trans hcanonical

/-- One of the flows is found again, without the one beside it and without its namesake. -/
theorem findFlows_printed_namesakeSurvey :
    ∃ o load references found,
      namesakeSurvey.scan = .ok o ∧ [load].Sublist o.catalog.flows.toList ∧
      load.name = "load" ∧ load.sourceRelative = "loads.py" ∧
      flowsOfText (renderFlows .json [load]) = .ok references ∧
      namesakeSurvey.findFlows { flows := some references } = .ok found ∧
      load ∈ found ∧
      (∃ store ∈ o.catalog.flows.toList, store.name = "store" ∧
        store.sourceRelative = "loads.py" ∧ store ∉ found) ∧
      ∃ namesake ∈ o.catalog.flows.toList, namesake.name = "load" ∧
        namesake.sourceRelative = "stores.py" ∧ namesake ∉ found := by
  obtain ⟨o, hscan⟩ := exists_scan resolvedRoot_namesakeSurvey
  have hdeclared := exists_flow_namesakeSurvey hscan
  obtain ⟨load, hload, hname, hplace⟩ := hdeclared ("load", "loads.py") (by decide)
  obtain ⟨store, hstore, hstoreName, hstorePlace⟩ := hdeclared ("store", "loads.py") (by decide)
  obtain ⟨namesake, hnamesake, hsameName, hotherPlace⟩ := hdeclared ("load", "stores.py") (by decide)
  have hchosen : [load].Sublist o.catalog.flows.toList := List.singleton_sublist.mpr hload
  obtain ⟨references, found, hread, hfound, hfilter, -, hsubset, -⟩ :=
    findFlows_printed namesakeSurvey hscan hchosen
  have hapart {flow : Flow} (hne : ¬ (flow.name = "load" ∧ flow.sourceRelative = "loads.py")) :
      flow ∉ found := by
    rw [hfilter, List.mem_filter]
    rintro ⟨-, hsame⟩
    obtain ⟨r, hr, hsameName, hsamePlace⟩ := of_decide_eq_true hsame
    obtain rfl := List.mem_singleton.mp hr
    exact hne ⟨hsameName.symm.trans hname, hsamePlace.symm.trans hplace⟩
  refine ⟨o, load, references, found, hscan, hchosen, hname, hplace, hread, hfound,
    hsubset List.mem_cons_self, ?_, ?_⟩
  · exact ⟨store, hstore, hstoreName, hstorePlace, hapart (by simp [hstoreName])⟩
  · exact ⟨namesake, hnamesake, hsameName, hotherPlace, hapart (by simp [hotherPlace])⟩

end Survey

/-! ## The command -/

/-- The command reports the flows that the selection of its arguments finds. -/
theorem Command.runFlows_eq
    {fs : FileSystem} {a : FlowsArguments} {survey : Survey} {selection : FlowSelection}
    {flows : List Flow} (hprepared : prepareFlows fs a = .ok (survey, selection))
    (hflows : survey.findFlows selection = .ok flows) :
    ∃ log, runFlows fs a = ⟨log, deliver fs a.outputFile (renderFlows a.format flows)⟩ := by
  cases hscan : survey.scan with
  | error failure => simp [Survey.findFlows, hscan, Except.map] at hflows
  | ok outcome =>
      cases hvisits : survey.visits with
      | error failure => simp [Survey.scan, hvisits, bind, Except.bind] at hscan
      | ok visits =>
          simp [runFlows, hprepared, hscan, hvisits, hflows, bind, Except.bind, pure, Except.pure]

end FlowSurvey
