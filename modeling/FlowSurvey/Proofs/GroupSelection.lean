import FlowSurvey.Proofs.Refetch
import FlowSurvey.Proofs.ScannedFlows

/-!
# Flows of groups

A group is a directory just below the root of a survey, and a selection of groups finds what
lies in these directories, however deep.  The names are compared whole, each with the first
component of a path behind those of the root, so a file next to the directories is in none of
the groups even if it is named like one, and a directory is not taken for another one whose name
starts like its own.
-/

namespace FlowSurvey

open FlowSurvey.Path (Component components)

/-- A path leads below the directory of a group, and this one stands in the root. -/
def LiesIn (root group path : String) : Prop :=
  components root ++ [.normal group.toList] <+: components path ∧
    (components root).length + 1 < (components path).length

instance (root group path : String) : Decidable (LiesIn root group path) :=
  inferInstanceAs (Decidable (_ ∧ _))

/-- A path leads to something that stands in the root. -/
def LiesDirectlyIn (root path : String) : Prop :=
  ∃ name, components path = components root ++ [.normal name]

section LiesIn

variable {root group path : String}

theorem LiesIn.not_liesDirectlyIn (hpath : LiesIn root group path) :
    ¬LiesDirectlyIn root path := by
  rintro ⟨name, hcomponents⟩
  have hlength := hpath.2
  rw [hcomponents, List.length_append, List.length_singleton] at hlength
  omega

/-- The first of the directories on the way to a file decides which group the file lies in. -/
theorem liesIn_below_iff (hroot : root ≠ "") {dirs : List String} {file : String}
    (hnames : ∀ name ∈ dirs ++ [file], IsName name) :
    LiesIn root group (Path.below root (dirs ++ [file])) ↔ dirs.head? = some group := by
  rw [LiesIn, Path.components_below hroot hnames, List.prefix_append_right_inj]
  cases dirs with
  | nil => simp
  | cons first rest =>
      have hsame : Component.normal group.toList = .normal first.toList ↔ group = first := by
        rw [Component.normal.injEq, String.toList_inj]
      simp [List.cons_prefix_cons, hsame, eq_comm]

theorem Flow.LocatedBelow.liesIn_iff {flow : Flow} (hlocated : flow.LocatedBelow root)
    (hroot : root ≠ "") : LiesIn root group flow.sourcePath ↔ flow.group? = some group := by
  obtain ⟨file, _, hnames, hpath, -⟩ := hlocated.exists_file
  rw [hpath, liesIn_below_iff hroot hnames]
  rfl

end LiesIn

namespace FlowSelection

/-- Groups select the flows that belong to one of them, if no id is there twice. -/
theorem apply_groups {flows : List Flow} (hnodup : (flows.map (·.id)).Nodup)
    (groups : List String) :
    FlowSelection.apply { groups := some groups } flows =
      flows.filter fun flow => ∃ group ∈ groups, flow.group? = some group := by
  rw [apply_eq_filter_selects hnodup]
  refine List.filter_congr fun flow _ => ?_
  rw [Bool.eq_iff_iff, selects_groups_iff, decide_eq_true_eq]
  rfl

end FlowSelection

namespace Survey

section Scan

variable {s : Survey} {root : String}

theorem locatedBelow_of_scan (hnamed : FileSystem.WellNamed s.fs.root)
    (hroot : s.resolvedRoot = .ok root) {o : Outcome} (hscan : s.scan = .ok o) {flow : Flow}
    (hflow : flow ∈ o.catalog.flows.toList) : flow.LocatedBelow root := by
  obtain ⟨cs, habsolute⟩ := exists_toList_of_resolvedRoot hroot
  obtain ⟨visits, hvisits, hwhole⟩ := exists_scanned_of_scan hscan
  rw [hwhole.flows_eq hroot] at hflow
  obtain ⟨path, hpath, tree, number, d, -, -, rfl⟩ :=
    exists_declaration_of_mem_flowsFrom _ _ _ hflow
  obtain ⟨dirs, file, extension, hnames, hextension, rfl⟩ :=
    exists_names_of_mem_sourcesOf hnamed hroot hvisits hpath
  exact Flow.locatedBelow_ofDeclaration habsolute hnames hextension _ _ _

/--
A selection of groups finds, in the order of the scan and each once, the flows that lie in one
of the directories that the groups name.
-/
theorem findFlows_of_groups (hnamed : FileSystem.WellNamed s.fs.root)
    (hroot : s.resolvedRoot = .ok root) :
    ∃ o, s.scan = .ok o ∧ ∃ found : List String → List Flow,
      (∀ groups, s.findFlows { groups := some groups } = .ok (found groups)) ∧
      (∀ groups, found groups = o.catalog.flows.toList.filter fun flow =>
        ∃ group ∈ groups, LiesIn root group flow.sourcePath) ∧
      (∀ groups, ((found groups).map (·.id)).Nodup) ∧
      (∀ groups, ∀ flow ∈ found groups, ¬LiesDirectlyIn root flow.sourcePath) ∧
      ∀ first second flow,
        flow ∈ found (first ++ second) ↔ flow ∈ found first ∨ flow ∈ found second := by
  obtain ⟨cs, habsolute⟩ := exists_toList_of_resolvedRoot hroot
  obtain ⟨o, hscan⟩ := exists_scan hroot
  have hids := ids_nodup_of_scan hscan
  have hmember : ∀ flow ∈ o.catalog.flows.toList, ∀ group,
      LiesIn root group flow.sourcePath ↔ flow.group? = some group := by
    intro flow hflow group
    exact (locatedBelow_of_scan hnamed hroot hscan hflow).liesIn_iff
      (Path.ne_empty_of_absolute habsolute)
  refine ⟨o, hscan, fun groups => o.catalog.flows.toList.filter fun flow =>
    ∃ group ∈ groups, LiesIn root group flow.sourcePath, ?_, fun _ => rfl, ?_, ?_, ?_⟩
  · intro groups
    rw [findFlows, hscan, Except.map, FlowSelection.apply_groups hids]
    refine congrArg Except.ok (List.filter_congr fun flow hflow => ?_)
    simp only [hmember flow hflow]
  · exact fun groups => hids.sublist (List.filter_sublist.map _)
  · intro groups flow hflow
    obtain ⟨group, -, hlies⟩ := of_decide_eq_true (List.mem_filter.mp hflow).2
    exact hlies.not_liesDirectlyIn
  · intro first second flow
    simp only [List.mem_filter, decide_eq_true_eq, List.mem_append, or_and_right, exists_or,
      and_or_left]

end Scan

/-- A survey of a flow in a directory, and of one in a file that is named after the directory. -/
def groupedSurvey : Survey where
  fs.root := .directory
    [("etl", .directory [("flows.py", .file "@flow\ndef etl_0():\n    pass\n".toUTF8)]),
      ("etl.py", .file "@flow\ndef etl_1():\n    pass\n".toUTF8)]
  root := "/"
  platform := .prefect

theorem wellNamed_groupedSurvey : FileSystem.WellNamed groupedSurvey.fs.root := by decide

theorem entry_groupedSurvey_root : groupedSurvey.fs.entry "/" = .ok groupedSurvey.fs.root :=
  FileSystem.entry_eq_ok_iff.mpr ⟨[], FileSystem.resolve_slash rfl, rfl⟩

theorem resolvedRoot_groupedSurvey : groupedSurvey.resolvedRoot = .ok "/" :=
  resolvedRoot_slash rfl rfl

theorem readText_groupedSurvey :
    groupedSurvey.fs.readText (Path.below "/" ["etl", "flows.py"]) =
      .ok "@flow\ndef etl_0():\n    pass\n" := by
  have hinner := FileSystem.entry_join wellNamed_groupedSurvey entry_groupedSurvey_root
    List.mem_cons_self (by simp)
  exact FileSystem.readText_join wellNamed_groupedSurvey hinner (List.mem_singleton.mpr rfl)

theorem mem_sourcesOf_groupedSurvey {visits : List Visit}
    (hvisits : groupedSurvey.visits = .ok visits) :
    Path.below "/" ["etl", "flows.py"] ∈ sourcesOf visits := by
  have hresolve : groupedSurvey.fs.resolve "/" = .ok [] := FileSystem.resolve_slash rfl
  rw [visits_eq resolvedRoot_groupedSurvey, Walk.visits_eq_ok_iff] at hvisits
  obtain ⟨trail, entries, htrail, hentries, rfl⟩ := hvisits
  obtain rfl := Except.ok.inj (hresolve.symm.trans htrail)
  obtain rfl := Entry.directory.inj hentries
  refine List.mem_filterMap.mpr ⟨.source (Path.below "/" ["etl", "flows.py"]), ?_, rfl⟩
  have hsource : Walk.isSourcePath groupedSurvey.config (Path.below "/" ["etl", "flows.py"]) =
      true :=
    (Walk.isSourcePath_below_iff (by decide) (by simp) (by decide)).mpr
      ⟨"flows.py", "py", "py", rfl, ⟨"flows", by decide, by decide, rfl⟩, by decide, by decide⟩
  have hsize : ¬ groupedSurvey.config.maxFileSize <
      "@flow\ndef etl_0():\n    pass\n".toUTF8.size := by decide
  -- The walk goes into the directory and visits the file there.
  refine Walk.mem_visitEntries_succ_iff.mpr ⟨rfl, "etl", _, List.mem_cons_self, ?_⟩
  refine Walk.mem_visitDirectory_iff.mpr ⟨by decide, ?_⟩
  refine Walk.mem_visitEntries_succ_iff.mpr ⟨rfl, "flows.py", _, List.mem_cons_self, ?_⟩
  change _ ∈ Walk.visitFile _ (Path.below "/" ["etl", "flows.py"]) _
  rw [Walk.visitFile, if_pos hsource, if_neg hsize]
  exact List.mem_cons_self

/-- The group of the directory has the flow in the directory, and not the one in the file. -/
theorem findFlows_of_groups_groupedSurvey :
    FileSystem.WellNamed groupedSurvey.fs.root ∧ groupedSurvey.resolvedRoot = .ok "/" ∧
      ∃ found, groupedSurvey.findFlows { groups := some ["etl"] } = .ok found ∧
        (∃ flow ∈ found, flow.sourcePath = Path.below "/" ["etl", "flows.py"]) ∧
        ∀ flow ∈ found, flow.sourcePath ≠ Path.below "/" ["etl.py"] := by
  obtain ⟨o, hscan, found, hfound, hlies, -, hdirect, -⟩ :=
    findFlows_of_groups wellNamed_groupedSurvey resolvedRoot_groupedSurvey
  refine ⟨wellNamed_groupedSurvey, resolvedRoot_groupedSurvey, _, hfound ["etl"], ?_, ?_⟩
  · obtain ⟨visits, hvisits, hwhole⟩ := exists_scanned_of_scan hscan
    have hdeclared : "etl_0" ∈ declaredNames groupedSurvey.platform "/"
        (Path.below "/" ["etl", "flows.py"]) "@flow\ndef etl_0():\n    pass\n" := by
      decide +kernel
    obtain ⟨number, d, -, hflow⟩ := hwhole.exists_flow resolvedRoot_groupedSurvey
      (mem_sourcesOf_groupedSurvey hvisits) readText_groupedSurvey hdeclared
    have hgroup : LiesIn "/" "etl" (Path.below "/" (["etl"] ++ ["flows.py"])) :=
      (liesIn_below_iff (by decide) (by decide)).mpr rfl
    rw [hlies]
    exact ⟨_, List.mem_filter.mpr ⟨hflow, decide_eq_true ⟨"etl", List.mem_cons_self, hgroup⟩⟩, rfl⟩
  · rintro flow hflow heq
    have hdirectly : LiesDirectlyIn "/" (Path.below "/" ["etl.py"]) :=
      ⟨"etl.py".toList, Path.components_below (by decide) (by decide)⟩
    exact hdirect _ flow hflow (heq ▸ hdirectly)

end Survey
end FlowSurvey
