import FlowSurvey.Proofs.SurveyFaults

/-!
# What a file contributes to a scan

A scan goes through the files of a list, or through all those that the walk finds, and its
catalog holds what each of them contributes, one behind the other.  How many flows come
before those of a file decides which numbers these are given.  It decides nothing else about
them, and neither does anything else around the file: from the same content below the same
root every scan has the same flows, up to a shift of their numbers.
-/

namespace FlowSurvey
namespace Survey

/-! ## Contributions -/

/--
The flows that a scan has from the file behind the first ones of its list: those that are
added when the files up to this one are scanned and not only the ones before it.
-/
structure Contributes (s : Survey) (before : List String) (path : String) (after : List String)
    (start : Nat) (o : Outcome) (flows : List Flow) : Prop where
  added : ∃ sofar through : Outcome,
    s.scanFiles before start = .ok sofar ∧ s.scanFiles (before ++ [path]) start = .ok through ∧
      through.catalog.flows.toList = sofar.catalog.flows.toList ++ flows ∧
      through.catalog.flows.toList <+: o.catalog.flows.toList
  filter_eq : path ∉ before → path ∉ after →
    (o.catalog.flows.toList.filter fun flow => flow.sourcePath = path) = flows

/-- The same flows in the same order, with numbers that begin at different ones. -/
structure Renumbered (first second : Nat) (flows others : List Flow) : Prop where
  length_eq : flows.length = others.length
  same : ∀ (i : Nat) (flow other : Flow), flows[i]? = some flow → others[i]? = some other →
    other = { flow with id := other.id }
  ids : NumberedFrom first flows
  otherIds : NumberedFrom second others

section Contributions

variable (fs : FileSystem) (platform : Platform) (root : String)

theorem filter_sourcePath_flowsFrom
    {path : String} {files : List String} (hpath : path ∉ files) (start : Nat) :
    ((flowsFrom fs platform root start files).filter fun flow => flow.sourcePath = path) = [] := by
  rw [List.filter_eq_nil_iff]
  intro flow hflow
  obtain ⟨other, hother, _, _, _, _, _, rfl⟩ :=
    exists_declaration_of_mem_flowsFrom fs platform root hflow
  have hne : other ≠ path := by
    rintro rfl
    exact hpath hother
  simpa [Flow.ofDeclaration, locate] using hne

theorem filter_sourcePath_flowsAt (start : Nat) (path : String) :
    ((flowsAt fs platform root start path).filter fun flow => flow.sourcePath = path) =
      flowsAt fs platform root start path := by
  rw [List.filter_eq_self]
  intro flow hflow
  have hfrom : flow ∈ flowsFrom fs platform root start [path] := by simpa [flowsFrom] using hflow
  obtain ⟨other, hother, _, _, _, _, _, rfl⟩ :=
    exists_declaration_of_mem_flowsFrom fs platform root hfrom
  simpa [Flow.ofDeclaration, locate] using List.mem_singleton.mp hother

/-- What a file has does not depend on the number that its flows begin with. -/
theorem renumbered_flowsAt
    {other : FileSystem} {path : String} (hcontent : fs.readText path = other.readText path)
    (first second : Nat) :
    Renumbered first second (flowsAt fs platform root first path)
      (flowsAt other platform root second path) := by
  have hread : readSource other path = readSource fs path := by
    rw [readSource, readSource, hcontent]
  constructor
  · rw [length_flowsAt, length_flowsAt, declarationsAt, declarationsAt, hread]
  · intro i flow found hflow hfound
    cases hsource : readSource fs path with
    | error failure => simp [flowsAt, hsource] at hflow
    | ok tree =>
        simp only [flowsAt, hread, hsource, getElem?_flowsOfFile] at hflow hfound
        obtain ⟨d, hd, rfl⟩ := Option.map_eq_some_iff.mp hflow
        simp only [hd, Option.map_some, Option.some.injEq] at hfound
        rw [← hfound]
        rfl
  · exact numberedFrom_flowsAt fs platform root first path
  · exact numberedFrom_flowsAt other platform root second path

end Contributions

/-- A scan has from each of its files what this one holds, numbered on from those before it. -/
theorem Scanned.contributes
    {s : Survey} {before after : List String} {path : String} {start : Nat} {o : Outcome}
    (hscan : s.Scanned (before ++ path :: after) start o) {root : String}
    (hroot : s.resolvedRoot = .ok root) :
    s.Contributes before path after start o
      (flowsAt s.fs s.platform root
        (start + (flowsFrom s.fs s.platform root start before).length) path) := by
  obtain ⟨sofar, hsofar, -⟩ := exists_scanFiles hroot before start
  obtain ⟨through, hthrough, -⟩ := exists_scanFiles hroot (before ++ [path]) start
  have hall := hscan.flows_eq hroot
  have hone := (Scanned.files hthrough).flows_eq hroot
  rw [← List.singleton_append, ← List.append_assoc, flowsFrom_append] at hall
  constructor
  · refine ⟨sofar, through, hsofar, hthrough, ?_, ?_⟩
    · rw [hone, (Scanned.files hsofar).flows_eq hroot, flowsFrom_append]
      simp [flowsFrom]
    · rw [hall, hone]
      exact List.prefix_append _ _
  · intro hbefore hafter
    rw [hall, flowsFrom_append, List.filter_append, List.filter_append,
      filter_sourcePath_flowsFrom _ _ _ hbefore, filter_sourcePath_flowsFrom _ _ _ hafter]
    simp [flowsFrom, filter_sourcePath_flowsAt]

/--
Two scans with the same platform and root have the same flows, up to a shift of their
numbers, from a file with the same content, whatever else is around it.
-/
theorem contributions_of_same_content
    {s t : Survey} (hplatform : s.platform = t.platform)
    (hroots : s.resolvedRoot = t.resolvedRoot) {path : String}
    (hcontent : s.fs.readText path = t.fs.readText path)
    {before after others rest : List String} {start number : Nat} {o p : Outcome}
    (ho : s.Scanned (before ++ path :: after) start o)
    (hp : t.Scanned (others ++ path :: rest) number p) :
    ∃ (flows again : List Flow) (first second : Nat),
      s.Contributes before path after start o flows ∧
      t.Contributes others path rest number p again ∧
      Renumbered first second flows again := by
  obtain ⟨root, hroot, -⟩ := ho.exists_root
  have hflows := ho.contributes hroot
  have hagain := hp.contributes (hroots.symm.trans hroot)
  rw [← hplatform] at hagain
  exact ⟨_, _, _, _, hflows, hagain, renumbered_flowsAt s.fs s.platform root hcontent _ _⟩

/-- A survey of one of the three files, with another one beside it. -/
def siblingSurvey : Survey where
  fs.root := .directory
    [("flows.py", .file "@flow\ndef etl_0():\n    pass\n".toUTF8),
      ("loads.py", .file "@flow\ndef load():\n    pass\n".toUTF8)]
  root := "/"
  platform := .prefect

/-- The file that both have is scanned behind one that fails, and behind one that does not. -/
theorem contributions_of_same_content_siblingSurvey :
    ∃ (o p : Outcome) (flows again : List Flow) (first second : Nat),
      mixedSurvey.Scanned ["/broken.py", "/flows.py"] 0 o ∧
      siblingSurvey.Scanned ["/loads.py", "/flows.py"] 4 p ∧
      mixedSurvey.Contributes ["/broken.py"] "/flows.py" [] 0 o flows ∧
      siblingSurvey.Contributes ["/loads.py"] "/flows.py" [] 4 p again ∧
      flows ≠ [] ∧ Renumbered first second flows again := by
  have hroot : siblingSurvey.resolvedRoot = .ok "/" := resolvedRoot_slash rfl rfl
  have hnamed : FileSystem.WellNamed siblingSurvey.fs.root := by decide
  have hcontent : mixedSurvey.fs.readText "/flows.py" = siblingSurvey.fs.readText "/flows.py" := by
    have hpath : "/" ++ "flows.py" = "/flows.py" := by rfl
    rw [readText_mixedSurvey, ← hpath, eq_comm]
    exact FileSystem.readText_slash hnamed rfl (by simp)
  obtain ⟨o, ho, -⟩ := exists_scanFiles resolvedRoot_mixedSurvey ["/broken.py", "/flows.py"] 0
  obtain ⟨p, hp, -⟩ := exists_scanFiles hroot ["/loads.py", "/flows.py"] 4
  have hfirst : mixedSurvey.Scanned (["/broken.py"] ++ "/flows.py" :: []) 0 o := .files ho
  have hsecond : siblingSurvey.Scanned (["/loads.py"] ++ "/flows.py" :: []) 4 p := .files hp
  obtain ⟨flows, again, first, second, hflows, hagain, hsame⟩ :=
    contributions_of_same_content (by rfl) (resolvedRoot_mixedSurvey.trans hroot.symm) hcontent
      hfirst hsecond
  refine ⟨o, p, flows, again, first, second, hfirst, hsecond, hflows, hagain, ?_, hsame⟩
  obtain ⟨flow, hflow, -, hpath⟩ := exists_flow_mixedSurvey (.files ho) (by simp)
  rw [← hflows.filter_eq (by simp) (by simp)]
  exact List.ne_nil_of_mem (List.mem_filter.mpr ⟨hflow, by simpa using hpath⟩)

end Survey
end FlowSurvey
