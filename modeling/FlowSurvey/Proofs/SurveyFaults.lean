import FlowSurvey.Proofs.SurveyOutcome
import FlowSurvey.Proofs.WalkVisits

/-!
# Files that fail

A file fails when it cannot be read as text or when the text does not parse.  It
leaves its diagnostic and takes no number, so the other files are catalogued as
if it were not there.  A scan of everything below a root puts what the walk has
to say before that; since the root is known without links by then, the walk finds
it again.  Whichever way files are scanned, the catalog holds the flows that they declare.
-/

namespace FlowSurvey
namespace Survey

/-- The stage at which a file fails, if it does. -/
def failedStage? (fs : FileSystem) (path : String) : Option Stage :=
  match fs.readText path with
  | .error _ => some .read
  | .ok text =>
      match parseSource path text with
      | .error _ => some .parse
      | .ok _ => none

def isSound (fs : FileSystem) (path : String) : Bool :=
  (failedStage? fs path).isNone

section Files

variable (fs : FileSystem) (platform : Platform) (root : String)

theorem map_diagnosticAt? (path : String) :
    (diagnosticAt? fs path).map (fun d => (d.path, d.stage)) =
      (failedStage? fs path).map fun stage => (path, stage) := by
  unfold diagnosticAt? readSource failedStage?
  cases fs.readText path with
  | error fault => rfl
  | ok text =>
      cases hparse : parseSource path text with
      | error failure => simp [hparse, Except.mapError, Failure.stage]
      | ok tree => simp [hparse, Except.mapError]

theorem diagnosticAt?_of_isSound {path : String} (hsound : isSound fs path = true) :
    diagnosticAt? fs path = none := by
  have hmap := map_diagnosticAt? fs path
  rw [Option.isNone_iff_eq_none.mp hsound] at hmap
  simpa using hmap

theorem flowsAt_of_not_isSound
    {path : String} (hfails : isSound fs path = false) (start : Nat) :
    flowsAt fs platform root start path = [] := by
  have hmap := map_diagnosticAt? fs path
  unfold flowsAt
  cases hread : readSource fs path with
  | error failure => rfl
  | ok tree =>
      rw [diagnosticAt?, hread, Option.map_none, eq_comm, Option.map_eq_none_iff] at hmap
      simp [isSound, hmap] at hfails

theorem flowsFrom_filter_isSound (start : Nat) (files : List String) :
    flowsFrom fs platform root start (files.filter (isSound fs)) =
      flowsFrom fs platform root start files := by
  induction files generalizing start with
  | nil => rfl
  | cons path rest ih =>
      cases hsound : isSound fs path with
      | true => rw [List.filter_cons_of_pos hsound, flowsFrom, flowsFrom, ih]
      | false =>
          rw [List.filter_cons_of_neg (by simp [hsound]), ih, flowsFrom,
            flowsAt_of_not_isSound fs platform root hsound]
          simp

theorem filterMap_diagnosticAt?_filter_isSound (files : List String) :
    (files.filter (isSound fs)).filterMap (diagnosticAt? fs) = [] := by
  rw [List.filterMap_eq_nil_iff]
  intro path hpath
  exact diagnosticAt?_of_isSound fs (List.mem_filter.mp hpath).2

theorem map_filterMap_diagnosticAt? (files : List String) :
    (files.filterMap (diagnosticAt? fs)).map (fun d => (d.path, d.stage)) =
      files.filterMap fun path => (failedStage? fs path).map fun stage => (path, stage) := by
  rw [List.map_filterMap]
  apply List.filterMap_congr
  intro path _
  exact map_diagnosticAt? fs path

end Files

/-! ## Roots -/

theorem exists_trail_of_resolvedRoot
    {s : Survey} {root : String} (hroot : s.resolvedRoot = .ok root) :
    ∃ trail entries, s.fs.resolve s.root = .ok trail ∧
      FileSystem.entryAt s.fs.root trail = .directory entries ∧
      root = FileSystem.pathOf trail := by
  unfold resolvedRoot at hroot
  split at hroot
  · simp at hroot
  next trail hresolve =>
    split at hroot
    next entries hdirectory =>
      exact ⟨trail, entries, hresolve, hdirectory, by simpa using hroot.symm⟩
    · simp at hroot

theorem visits_eq {s : Survey} {root : String} (hroot : s.resolvedRoot = .ok root) :
    s.visits = Walk.visits s.fs root s.config := by
  simp [visits, hroot, bind, Except.bind]

/-- The walk starts from the root without links, which leads to the same directory. -/
theorem exists_visits
    {s : Survey} {root : String} (hroot : s.resolvedRoot = .ok root) :
    ∃ visits, s.visits = .ok visits := by
  obtain ⟨trail, entries, hresolve, hdirectory, rfl⟩ := exists_trail_of_resolvedRoot hroot
  have hagain := FileSystem.resolve_pathOf (FileSystem.isTrail_resolve hresolve) hdirectory
  rw [visits_eq hroot]
  exact ⟨_, Walk.visits_eq_ok_iff.mpr ⟨trail, entries, hagain, hdirectory, rfl⟩⟩

theorem scan_eq
    {s : Survey} {visits : List Visit} {files : Outcome} (hvisits : s.visits = .ok visits)
    (hfiles : s.scanFiles (sourcesOf visits) 0 = .ok files) :
    s.scan = .ok { files with diagnostics := diagnosticsOf visits ++ files.diagnostics } := by
  simp only [scan, hvisits, hfiles, bind, Except.bind, pure, Except.pure]

/-! ## Scans -/

/-- A scan of a list of files, or of all files that the walk finds, with its outcome. -/
inductive Scanned (s : Survey) : List String → Nat → Outcome → Prop
  | files {files : List String} {start : Nat} {o : Outcome}
      (hscan : s.scanFiles files start = .ok o) : Scanned s files start o
  | whole {visits : List Visit} {o : Outcome} (hvisits : s.visits = .ok visits)
      (hscan : s.scan = .ok o) : Scanned s (sourcesOf visits) 0 o

section Scanned

variable {s : Survey} {files : List String} {start : Nat} {o : Outcome}

theorem exists_scanFiles {root : String} (hroot : s.resolvedRoot = .ok root)
    (files : List String) (start : Nat) :
    ∃ o, s.scanFiles files start = .ok o ∧
      o.catalog = .ofList (flowsFrom s.fs s.platform root start files) :=
  ⟨_, by rw [scanFiles_eq, hroot, Except.map], rfl⟩

/-- The catalog of a scan holds the flows of its files. -/
theorem Scanned.exists_root (hscan : s.Scanned files start o) :
    ∃ root, s.resolvedRoot = .ok root ∧
      o.catalog = .ofList (flowsFrom s.fs s.platform root start files) := by
  cases hroot : s.resolvedRoot with
  | error failure =>
      cases hscan with
      | files hscan => simp [scanFiles_eq, hroot, Except.map] at hscan
      | whole hvisits => simp [visits, hroot, bind, Except.bind] at hvisits
  | ok root =>
      refine ⟨root, rfl, ?_⟩
      obtain ⟨again, hagain, hcatalog⟩ := exists_scanFiles hroot files start
      cases hscan with
      | files hscan =>
          obtain rfl := Except.ok.inj (hscan.symm.trans hagain)
          exact hcatalog
      | whole hvisits hscan =>
          obtain rfl := Except.ok.inj (hscan.symm.trans (scan_eq hvisits hagain))
          exact hcatalog

theorem Scanned.flows_eq
    (hscan : s.Scanned files start o) {root : String} (hroot : s.resolvedRoot = .ok root) :
    o.catalog.flows.toList = flowsFrom s.fs s.platform root start files := by
  obtain ⟨other, hother, hcatalog⟩ := hscan.exists_root
  obtain rfl := Except.ok.inj (hroot.symm.trans hother)
  rw [hcatalog, Catalog.flows_ofList (numberedFrom_flowsFrom _ _ _ start files).ids_nodup]

end Scanned

theorem exists_scan {s : Survey} {root : String} (hroot : s.resolvedRoot = .ok root) :
    ∃ o, s.scan = .ok o := by
  obtain ⟨visits, hvisits⟩ := exists_visits hroot
  obtain ⟨files, hfiles, -⟩ := exists_scanFiles hroot (sourcesOf visits) 0
  exact ⟨_, scan_eq hvisits hfiles⟩

/-- What is scanned as a whole are the files that the walk finds. -/
theorem exists_scanned_of_scan {s : Survey} {o : Outcome} (hscan : s.scan = .ok o) :
    ∃ visits, s.visits = .ok visits ∧ s.Scanned (sourcesOf visits) 0 o := by
  cases hvisits : s.visits with
  | error failure => simp [scan, hvisits, bind, Except.bind] at hscan
  | ok visits => exact ⟨visits, rfl, .whole hvisits hscan⟩

/-! ## Flows of given source -/

/-- The names that a source text declares; one that is not valid declares none. -/
def declaredNames (platform : Platform) (root path text : String) : List String :=
  match parseSource path text with
  | .ok tree => (declarationsOf platform (locate root path).module tree).map (·.declaredName)
  | .error _ => []

section Sources

variable {s : Survey} {files : List String} {start : Nat} {o : Outcome} {root path text : String}

theorem Scanned.exists_flow
    (hscan : s.Scanned files start o) (hroot : s.resolvedRoot = .ok root) (hpath : path ∈ files)
    (htext : s.fs.readText path = .ok text) {name : String}
    (hname : name ∈ declaredNames s.platform root path text) :
    ∃ number d, d.declaredName = name ∧
      .ofDeclaration s.platform (locate root path) number d ∈ o.catalog.flows.toList := by
  unfold declaredNames at hname
  split at hname
  next tree hparse =>
    have hread : readSource s.fs path = .ok tree := by
      simp [readSource, htext, hparse, Except.mapError]
    obtain ⟨d, hd, hdeclared⟩ := List.mem_map.mp hname
    obtain ⟨number, hflow⟩ := exists_mem_flowsFrom _ _ _ hpath hread hd start
    rw [← hscan.flows_eq hroot] at hflow
    exact ⟨number, d, hdeclared, hflow⟩
  next => exact absurd hname List.not_mem_nil

theorem resolvedRoot_slash
    {entries : List (String × Entry)} (htop : s.fs.root = .directory entries)
    (hroot : s.root = "/") : s.resolvedRoot = .ok "/" := by
  have hslash : FileSystem.pathOf [] = "/" := by rfl
  simp only [resolvedRoot, hroot, FileSystem.resolve_slash htop, FileSystem.entryAt, htop, hslash]

/-- A source file at the top of a file system is found, unless it is too large. -/
theorem mem_sourcesOf_slash
    {entries : List (String × Entry)} (htop : s.fs.root = .directory entries)
    (hroot : s.resolvedRoot = .ok "/") (hdepth : s.config.maxDepth = none) {name : String}
    {content : ByteArray} (hfile : (name, .file content) ∈ entries) (hname : IsName name)
    (hsource : Walk.isSourcePath s.config ("/" ++ name) = true)
    (hsize : content.size ≤ s.config.maxFileSize) {visits : List Visit}
    (hvisits : s.visits = .ok visits) : "/" ++ name ∈ sourcesOf visits := by
  rw [visits_eq hroot, Walk.visits_eq_ok_iff] at hvisits
  obtain ⟨trail, listed, htrail, hlisted, rfl⟩ := hvisits
  obtain rfl := Except.ok.inj ((FileSystem.resolve_slash htop).symm.trans htrail)
  obtain rfl := Entry.directory.inj (htop.symm.trans hlisted)
  refine List.mem_filterMap.mpr ⟨.source ("/" ++ name), ?_, rfl⟩
  refine Walk.mem_visitEntries_succ_iff.mpr ⟨by simp [hdepth], name, .file content, hfile, ?_⟩
  simp only [Walk.visitEntry, List.headD_cons, FileSystem.join_slash hname, Walk.visitFile,
    if_pos hsource, if_neg (Nat.not_lt.mpr hsize), List.mem_singleton]

theorem exists_flow_of_scan_slash
    {entries : List (String × Entry)} (hnamed : FileSystem.WellNamed s.fs.root)
    (htop : s.fs.root = .directory entries) (hroot : s.resolvedRoot = .ok "/")
    (hdepth : s.config.maxDepth = none) (hscan : s.scan = .ok o) {file : String}
    (hfile : (file, .file text.toUTF8) ∈ entries) (hvalid : IsName file)
    (hsource : Walk.isSourcePath s.config ("/" ++ file) = true)
    (hsize : text.toUTF8.size ≤ s.config.maxFileSize) {name : String}
    (hname : name ∈ declaredNames s.platform "/" ("/" ++ file) text) :
    ∃ number d, d.declaredName = name ∧
      .ofDeclaration s.platform (locate "/" ("/" ++ file)) number d ∈ o.catalog.flows.toList := by
  obtain ⟨visits, hvisits, hwhole⟩ := exists_scanned_of_scan hscan
  have hpath := mem_sourcesOf_slash htop hroot hdepth hfile hvalid hsource hsize hvisits
  exact hwhole.exists_flow hroot hpath (FileSystem.readText_slash hnamed htop hfile) hname

end Sources

/-! However the survey of three files is scanned, it has a flow from the one that is sound. -/

theorem wellNamed_mixedSurvey : FileSystem.WellNamed mixedSurvey.fs.root := by decide

theorem readText_mixedSurvey :
    mixedSurvey.fs.readText "/flows.py" = .ok "@flow\ndef etl_0():\n    pass\n" := by
  have hpath : "/" ++ "flows.py" = "/flows.py" := by rfl
  rw [← hpath]
  exact FileSystem.readText_slash wellNamed_mixedSurvey rfl (by simp)

theorem exists_flow_mixedSurvey
    {files : List String} {start : Nat} {o : Outcome} (hscan : mixedSurvey.Scanned files start o)
    (hfile : "/flows.py" ∈ files) :
    ∃ flow ∈ o.catalog.flows.toList,
      flow.declaredName = "etl_0" ∧ flow.sourcePath = "/flows.py" := by
  have hdeclared : "etl_0" ∈ declaredNames mixedSurvey.platform "/" "/flows.py"
      "@flow\ndef etl_0():\n    pass\n" := by
    decide +kernel
  obtain ⟨number, d, hname, hflow⟩ :=
    hscan.exists_flow resolvedRoot_mixedSurvey hfile readText_mixedSurvey hdeclared
  exact ⟨_, hflow, hname, rfl⟩

/--
A scan of files gives what a scan of the sound ones among them gives; a file that
fails adds one diagnostic, for the stage at which it fails, in the order of the
files.  A scan of everything below the root is a scan of the files that the walk
finds, with the diagnostics of the walk put first.
-/
theorem scan_isolates_failing_files
    (s : Survey) {root : String} (hroot : s.resolvedRoot = .ok root) :
    (∀ files start, ∃ outcome sound,
      s.scanFiles files start = .ok outcome ∧
      s.scanFiles (files.filter (isSound s.fs)) start = .ok sound ∧
      outcome.catalog = sound.catalog ∧ outcome.next = sound.next ∧
      sound.diagnostics = [] ∧
      outcome.diagnostics.map (fun d => (d.path, d.stage)) =
        (files.filterMap fun path =>
          (failedStage? s.fs path).map fun stage => (path, stage)) ∧
      outcome.filesScanned = files.length) ∧
    ∃ visits whole files,
      s.visits = .ok visits ∧ s.scan = .ok whole ∧
      s.scanFiles (sourcesOf visits) 0 = .ok files ∧
      whole.catalog = files.catalog ∧ whole.next = files.next ∧
      whole.diagnostics = diagnosticsOf visits ++ files.diagnostics ∧
      whole.filesScanned = (sourcesOf visits).length := by
  constructor
  · intro files start
    have hscan := s.scanFiles_eq files start
    have hsound := s.scanFiles_eq (files.filter (isSound s.fs)) start
    rw [hroot, Except.map] at hscan hsound
    rw [flowsFrom_filter_isSound, filterMap_diagnosticAt?_filter_isSound] at hsound
    refine ⟨_, _, hscan, hsound, rfl, rfl, rfl, ?_, ?_⟩
    · simp only [Outcome.extend, List.nil_append]
      exact map_filterMap_diagnosticAt? s.fs files
    · simp [Outcome.extend]
  · obtain ⟨visits, hvisits⟩ := exists_visits hroot
    have hscan := s.scanFiles_eq (sourcesOf visits) 0
    rw [hroot, Except.map] at hscan
    refine ⟨visits, _, _, hvisits, scan_eq hvisits hscan, hscan, rfl, rfl, rfl, ?_⟩
    simp [Outcome.extend]

theorem scan_isolates_failing_files_mixedSurvey :
    mixedSurvey.resolvedRoot = .ok "/" ∧
      ∃ outcome sound,
        mixedSurvey.scanFiles ["/latin.py", "/flows.py", "/broken.py", "/gone.py"] 3 =
          .ok outcome ∧
        mixedSurvey.scanFiles
          (["/latin.py", "/flows.py", "/broken.py", "/gone.py"].filter
            (isSound mixedSurvey.fs)) 3 = .ok sound ∧
        outcome.catalog = sound.catalog ∧ sound.diagnostics = [] ∧
        outcome.filesScanned = 4 := by
  obtain ⟨outcome, sound, hscan, hsound, hcatalog, _, hdiagnostics, _, hfiles⟩ :=
    (scan_isolates_failing_files mixedSurvey resolvedRoot_mixedSurvey).1
      ["/latin.py", "/flows.py", "/broken.py", "/gone.py"] 3
  exact ⟨resolvedRoot_mixedSurvey, outcome, sound, hscan, hsound, hcatalog, hdiagnostics,
    hfiles⟩

end Survey
end FlowSurvey
