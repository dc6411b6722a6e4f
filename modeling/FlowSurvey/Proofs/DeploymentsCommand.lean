import FlowSurvey.Command.Run
import FlowSurvey.Proofs.DeployedFlows
import FlowSurvey.Proofs.RecordDocuments
import FlowSurvey.Proofs.Selections
import FlowSurvey.Proofs.TaggedDeployments
import FlowSurvey.Proofs.WalkVisits
import Mathlib.Data.List.Induction

/-!
# The command that lists deployments

The options of the command become references, of which a selection compares one field only.  So
it makes no difference what stands in the other fields of a reference, and the command prints
the deployments that the values of its options name.  Of those that share an id the first is
printed, and a deployment before it that no option names does not count.
-/

namespace FlowSurvey

/-! ## The first of the chosen -/

section FirstChosen

variable {α : Type} (id : α → String) (chosen : α → Prop) [DecidablePred chosen]

/-- The chosen items, in their places, that have no chosen item with their id before them. -/
def firstChosen (items : List α) : List α :=
  (items.zipIdx.filter fun (item, place) =>
    chosen item ∧ ∀ earlier ∈ items.take place, chosen earlier → id earlier ≠ id item).map Prod.fst

theorem firstOfEach_concat (seen : List String) (items : List α) (last : α) :
    firstOfEach id seen (items ++ [last]) =
      firstOfEach id seen items ++
        if id last ∈ seen ∨ id last ∈ items.map id then [] else [last] := by
  induction items generalizing seen with
  | nil =>
      by_cases hlast : id last ∈ seen
      · simp [firstOfEach, hlast]
      · simp [firstOfEach, hlast]
  | cons item rest ih =>
      by_cases hitem : id item ∈ seen
      · have hsame : (id last ∈ seen ∨ id last ∈ (item :: rest).map id) ↔
            (id last ∈ seen ∨ id last ∈ rest.map id) := by
          rw [List.map_cons, List.mem_cons]
          constructor
          · rintro (hlast | heq | hrest)
            · exact .inl hlast
            · exact .inl (heq ▸ hitem)
            · exact .inr hrest
          · exact Or.imp_right .inr
        rw [List.cons_append, firstOfEach_cons_of_mem hitem, firstOfEach_cons_of_mem hitem, ih]
        simp only [hsame]
      · rw [List.cons_append, firstOfEach_cons_of_not_mem hitem,
          firstOfEach_cons_of_not_mem hitem, ih]
        simp only [List.mem_cons, List.map_cons, List.cons_append, or_left_comm, or_assoc]

theorem firstChosen_concat (items : List α) (last : α) :
    firstChosen id chosen (items ++ [last]) =
      firstChosen id chosen items ++
        if chosen last ∧ ∀ earlier ∈ items, chosen earlier → id earlier ≠ id last
        then [last] else [] := by
  have hbefore : ∀ entry ∈ items.zipIdx, (items ++ [last]).take entry.2 = items.take entry.2 := by
    intro entry hentry
    obtain ⟨-, hplace, -⟩ := List.mem_zipIdx hentry
    exact List.take_append_of_le_length (by omega)
  have hsame : (items.zipIdx.filter fun entry : α × Nat =>
        chosen entry.1 ∧
          ∀ earlier ∈ (items ++ [last]).take entry.2, chosen earlier → id earlier ≠ id entry.1) =
      items.zipIdx.filter fun entry : α × Nat =>
        chosen entry.1 ∧
          ∀ earlier ∈ items.take entry.2, chosen earlier → id earlier ≠ id entry.1 := by
    apply List.filter_congr
    intro entry hentry
    rw [hbefore entry hentry]
  simp only [firstChosen, List.zipIdx_append, List.filter_append, List.map_append, hsame,
    List.zipIdx_singleton, List.filter_singleton, Nat.zero_add, List.take_left', Bool.cond_decide]
  split <;> rfl

/-- Keeping the first of each id among the chosen items is to keep the first chosen ones. -/
theorem firstOfEach_filter (items : List α) :
    firstOfEach id [] (items.filter chosen) = firstChosen id chosen items := by
  induction items using List.reverseRecOn with
  | nil => rfl
  | append_singleton items last ih =>
      rw [firstChosen_concat, List.filter_append, ← ih]
      by_cases hlast : chosen last
      · have hfree : (id last ∈ [] ∨ id last ∈ (items.filter chosen).map id) ↔
            ¬∀ earlier ∈ items, chosen earlier → id earlier ≠ id last := by
          simp [and_assoc]
        rw [List.filter_singleton, Bool.cond_decide, if_pos hlast, firstOfEach_concat]
        simp only [hfree, hlast, true_and, ite_not]
      · simp [hlast]

end FirstChosen

namespace Command

/-! ## Criteria that are given -/

section Given

variable {values : List String} {references : Option (List β)} {field : β → String}

theorem given?_eq_none_iff {values : List α} : given? values = none ↔ values = [] := by
  unfold given?
  cases values <;> simp

theorem given?_eq_some_iff {values found : List α} :
    given? values = some found ↔ values ≠ [] ∧ values = found := by
  unfold given?
  cases values <;> simp

theorem mem_of_mem_getD_given? {values : List α} {value : α}
    (hvalue : value ∈ (given? values).getD []) : value ∈ values := by
  unfold given? at hvalue
  cases values with
  | nil => exact absurd hvalue List.not_mem_nil
  | cons _ _ => exact hvalue

theorem map_given?_map {γ : Type} (reference : α → γ) (field : γ → String) (values : List α) :
    (given? (values.map reference)).map (·.map field) =
      given? (values.map fun value => field (reference value)) := by
  unfold given?
  cases values <;> simp

/-- References of which one field is compared stand for the values of this field. -/
theorem any_iff_of_map_eq_given? (hvalues : references.map (·.map field) = given? values)
    (value : String) :
    references.any (fun rs => rs.any fun r => field r == value) = true ↔ value ∈ values := by
  cases references with
  | none => simp [given?_eq_none_iff.mp hvalues.symm]
  | some rs =>
      obtain ⟨-, rfl⟩ := given?_eq_some_iff.mp hvalues.symm
      simp

theorem isNone_iff_of_map_eq_given? (hvalues : references.map (·.map field) = given? values) :
    references.isNone = true ↔ values = [] := by
  rw [← given?_eq_none_iff, ← hvalues, Option.isNone_iff_eq_none, Option.map_eq_none_iff]

end Given

/-! ## What is listed -/

/-- A name with underscores in the place of its hyphens. -/
def withoutHyphens (name : String) : List Char :=
  name.toList.map fun c => if c = '-' then '_' else c

/-- The options of the command name the deployment, its flow or its project. -/
def DeploymentsArguments.AsksFor (a : DeploymentsArguments) (d : Deployment) : Prop :=
  d.id ∈ a.ids ∨ (∃ name ∈ a.flows, withoutHyphens name = withoutHyphens d.flowName) ∨
    d.project ∈ a.groups

instance (a : DeploymentsArguments) : DecidablePred a.AsksFor :=
  fun d => inferInstanceAs (Decidable (d.id ∈ a.ids ∨ _ ∨ d.project ∈ a.groups))

/-- All of a snapshot if no option is given, and else the first of each id that is asked for. -/
def DeploymentsArguments.listed (a : DeploymentsArguments) (deployments : List Deployment) :
    List Deployment :=
  if a.ids = [] ∧ a.flows = [] ∧ a.groups = [] then deployments
  else firstChosen Deployment.id a.AsksFor deployments

/-- The selection has the values of the options, whatever else its references carry. -/
structure Compares (a : DeploymentsArguments) (s : DeploymentSelection) : Prop where
  ids : s.deployments.map (·.map Deployment.id) = given? a.ids
  names : s.flows.map (·.map Flow.name) = given? (a.flows.map canonicalName)
  groups : s.groups = given? a.groups

section Compares

variable {a : DeploymentsArguments} {s : DeploymentSelection}

theorem Compares.meets_iff (hs : Compares a s) (d : Deployment) :
    s.meets d = true ↔ a.AsksFor d := by
  have hnames : canonicalName d.flowName ∈ a.flows.map canonicalName ↔
      ∃ name ∈ a.flows, withoutHyphens name = withoutHyphens d.flowName := by
    simp only [List.mem_map, ← String.toList_inj, toList_canonicalName, withoutHyphens]
  have hgroups : s.groups.any (fun groups => groups.contains d.project) = true ↔
      d.project ∈ a.groups := by
    rw [hs.groups, given?]
    cases a.groups <;> simp
  rw [DeploymentSelection.meets, Bool.or_eq_true, Bool.or_eq_true,
    any_iff_of_map_eq_given? hs.ids, any_iff_of_map_eq_given? hs.names, hgroups, hnames, or_assoc]
  rfl

theorem Compares.isUnfiltered_iff (hs : Compares a s) :
    s.isUnfiltered = true ↔ a.ids = [] ∧ a.flows = [] ∧ a.groups = [] := by
  have hgroups : s.groups.isNone = true ↔ a.groups = [] := by
    rw [hs.groups, Option.isNone_iff_eq_none, given?_eq_none_iff]
  rw [DeploymentSelection.isUnfiltered, Bool.and_eq_true, Bool.and_eq_true,
    isNone_iff_of_map_eq_given? hs.ids, isNone_iff_of_map_eq_given? hs.names, hgroups,
    List.map_eq_nil_iff, and_assoc]

theorem Compares.apply_eq (hs : Compares a s) (deployments : List Deployment) :
    s.apply deployments = a.listed deployments := by
  have hmeets : s.meets = fun d => decide (a.AsksFor d) := by
    funext d
    rw [Bool.eq_iff_iff, hs.meets_iff, decide_eq_true_eq]
  rw [DeploymentSelection.apply, DeploymentsArguments.listed, hmeets, firstOfEach_filter]
  simp only [hs.isUnfiltered_iff]

end Compares

theorem compares_deploymentSelection (a : DeploymentsArguments) :
    Compares a (deploymentSelection a) := by
  constructor
  · rw [deploymentSelection, map_given?_map, List.map_id']
  · exact map_given?_map _ _ a.flows
  · rfl

/-! ## Command lines -/

/-- An option for each value, with the value attached. -/
def attached (name : OptionName) (values : List String) : List String :=
  values.map fun value => "--" ++ name.long ++ "=" ++ value

/-- A command line that gives the options their values. -/
def DeploymentsArguments.commandLine (a : DeploymentsArguments) : List String :=
  "deployments" ::
    (attached .file [a.file] ++ attached .format [a.format.name] ++ attached .id a.ids ++
      attached .flow a.flows ++ attached .group a.groups)

/-- The options of the command that it takes values for, apart from each other. -/
theorem valued_options :
    ∀ name ∈ [OptionName.file, .format, .id, .flow, .group],
      Level.deployments.options.find? (fun option => option.long == name.long) = some name ∧
        name.takesValue = true ∧ name ≠ .help ∧ '=' ∉ name.long.toList ∧ name.long ≠ "" := by
  decide

section Options

variable {name : OptionName} {given : List (OptionName × String)}

theorem readOptions_attached_cons
    (hname : name ∈ [.file, .format, .id, .flow, .group]) {value : String}
    (hnew : name.repeats = true ∨ ∀ option ∈ given, option.1 ≠ name)
    (haccepts : name.accepts value = true) (rest : List String) :
    readOptions .deployments { options := given } false
        (("--" ++ name.long ++ "=" ++ value) :: rest) =
      readOptions .deployments { options := given ++ [(name, value)] } false rest := by
  obtain ⟨hfind, htakes, hhelp, hsign, hne⟩ := valued_options name hname
  have hhas : (({ options := given } : Given).has name && !name.repeats) = false := by
    rcases hnew with hrepeats | hnew
    · simp [hrepeats]
    · have hfree : ({ options := given } : Given).has name = false := by
        rw [Given.has, List.any_eq_false]
        exact fun option hoption => by simpa using hnew option hoption
      simp [hfree]
  have htext : (name.long ++ "=" ++ value).toList = name.long.toList ++ '=' :: value.toList := by
    simp
  obtain ⟨htake, hdrop⟩ := takeWhile_append_sign hsign value.toList
  have hread : readLong .deployments { options := given } (name.long ++ "=" ++ value).toList =
      .ok { options := given ++ [(name, value)] } := by
    rw [htext]
    simp only [readLong, htake, hdrop, String.ofList_toList, hfind, htakes, Given.take,
      Given.settle, bind, Except.bind, Given.accept, if_neg hhelp, hhas, haccepts]
    rfl
  obtain ⟨c, cs, hcs⟩ :=
    List.exists_cons_of_ne_nil (show name.long.toList ≠ [] by simpa using hne)
  have hdashes : ("--" ++ name.long ++ "=" ++ value).toList =
      '-' :: '-' :: (name.long ++ "=" ++ value).toList := by
    simp
  rw [htext, hcs, List.cons_append] at hread hdashes
  rw [readOptions]
  simp [hdashes, hread, bind, Except.bind]

theorem readOptions_attached
    (hname : name ∈ [.file, .format, .id, .flow, .group]) (hrepeats : name.repeats = true)
    (haccepts : ∀ value, name.accepts value = true) (values rest : List String) :
    readOptions .deployments { options := given } false (attached name values ++ rest) =
      readOptions .deployments
        { options := given ++ values.map fun value => (name, value) } false rest := by
  induction values generalizing given with
  | nil => simp [attached]
  | cons value values ih =>
      have hstep := @readOptions_attached_cons name given hname value (.inl hrepeats)
        (haccepts value) (attached name values ++ rest)
      rw [ih] at hstep
      simpa [attached] using hstep

end Options

/-- What the options of a command line are read as. -/
def DeploymentsArguments.options (a : DeploymentsArguments) : List (OptionName × String) :=
  [(OptionName.file, a.file), (OptionName.format, a.format.name)] ++
    a.ids.map (OptionName.id, ·) ++ a.flows.map (OptionName.flow, ·) ++
    a.groups.map (OptionName.group, ·)

theorem values_options (a : DeploymentsArguments) :
    let given : Given := { options := a.options }
    given.values .file = [a.file] ∧ given.values .format = [a.format.name] ∧
      given.values .id = a.ids ∧ given.values .flow = a.flows ∧ given.values .group = a.groups ∧
      given.values .verbose = [] ∧ given.has .quiet = false := by
  simp [Given.values, Given.has, DeploymentsArguments.options, List.filter_append, List.filter_map,
    Function.comp_def]

theorem readOptions_commandLine {a : DeploymentsArguments} (hfile : a.file ≠ "") :
    readOptions .deployments {} false a.commandLine.tail = .ok ({ options := a.options }, none) := by
  have hpath : OptionName.file.accepts a.file = true := by simpa [OptionName.accepts] using hfile
  have hformat : OptionName.format.accepts a.format.name = true := by
    cases a.format <;> rfl
  have hline : a.commandLine.tail =
      ("--" ++ OptionName.file.long ++ "=" ++ a.file) ::
        ("--" ++ OptionName.format.long ++ "=" ++ a.format.name) ::
          (attached .id a.ids ++ (attached .flow a.flows ++ (attached .group a.groups ++ []))) := by
    simp [DeploymentsArguments.commandLine, attached]
  have hend (options : List (OptionName × String)) :
      readOptions .deployments { options := options } false [] =
        .ok ({ options := options }, none) := by
    rfl
  rw [hline, readOptions_attached_cons (by simp) (.inr (by simp)) hpath,
    readOptions_attached_cons (by simp) (.inr (by simp)) hformat,
    readOptions_attached (by simp) rfl (fun _ => rfl),
    readOptions_attached (by simp) rfl (fun _ => rfl),
    readOptions_attached (by simp) rfl (fun _ => rfl), hend]
  rfl

/-- Every list of values can be given on a command line. -/
theorem parse_commandLine {a : DeploymentsArguments} (hfile : a.file ≠ "") :
    parse a.commandLine = .ok { verbose := 0, quiet := false, task := .deployments a } := by
  have hformat : ReportFormat.ofName? a.format.name = some a.format := by
    cases a.format <;> rfl
  have htop : readOptions .top {} false a.commandLine =
      .ok ({}, some (.deployments, a.commandLine.tail)) := by
    rfl
  obtain ⟨hpath, hname, hids, hflows, hgroups, hverbose, hquiet⟩ := values_options a
  simp only [parse, htop, readOptions_commandLine hfile, taskOf, Given.value?, formatOf, hpath,
    hname, hids, hflows, hgroups, verboseOf, hverbose, hquiet, bind, Except.bind]
  simp [hformat, Given.values, Given.has, pure, Except.pure]

/-! ## Runs -/

theorem deploymentsOfText_renderDeployments {deployments : List Deployment}
    (hattributes : ∀ d ∈ deployments, d.attributes = [])
    (hnesting : (Json.arr (deployments.map Deployment.toJson)).nesting < 128) :
    deploymentsOfText (renderDeployments .json deployments) = .ok deployments := by
  have hplain : ∀ d ∈ deployments, d.toJson.Plain := by
    intro d hd
    apply Deployment.plain_toJson
    rw [hattributes d hd]
    exact ⟨List.Pairwise.nil, trivial⟩
  exact recordsOf_pretty .deployment (fun d _ => d.ofJson_toJson) hplain hnesting

section Runs

variable {fs : FileSystem} {a : DeploymentsArguments} {deployments : List Deployment}

theorem loadDeployments_of_readText {path text : String}
    (htext : fs.readText path = .ok text)
    (hdecode : deploymentsOfText text = .ok deployments) :
    loadDeployments fs path = .ok deployments := by
  rw [loadDeployments, htext]
  exact congrArg (Except.mapError Failure.record) hdecode

/-- A snapshot is read from a file, so the file is there. -/
theorem isFile_of_loadDeployments (hload : loadDeployments fs a.file = .ok deployments) :
    fs.isFile a.file = true := by
  unfold loadDeployments FileSystem.readText at hload
  split at hload
  · cases hload
  next text htext =>
    split at htext
    · cases htext
    next content hentry => exact FileSystem.isFile_iff.mpr ⟨content, hentry⟩
    · cases htext

theorem file_ne_empty_of_loadDeployments (hload : loadDeployments fs a.file = .ok deployments) :
    a.file ≠ "" := by
  obtain ⟨content, hentry⟩ := FileSystem.isFile_iff.mp (isFile_of_loadDeployments hload)
  obtain ⟨trail, hresolve, -⟩ := FileSystem.entry_eq_ok_iff.mp hentry
  exact FileSystem.ne_empty_of_resolve hresolve

theorem runTask_deployments (hload : loadDeployments fs a.file = .ok deployments) :
    runTask fs (.deployments a) =
      ⟨[], .ok { printed := renderDeployments a.format (a.listed deployments) ++ "\n", fs }⟩ := by
  have hvalid : (Task.deployments a).validate fs = .ok () := by
    rw [Task.validate, requireFile, if_pos (isFile_of_loadDeployments hload)]
  simp only [runTask, hvalid, runDeployments, hload, deliver,
    (compares_deploymentSelection a).apply_eq]

theorem run_deployments (hload : loadDeployments fs a.file = .ok deployments) {argv : List String}
    {arguments : Arguments} (hparse : parse argv = .ok arguments)
    (htask : arguments.task = .deployments a) :
    (run fs argv).exitCode = 0 ∧
      (run fs argv).delivery =
        { printed := renderDeployments a.format (a.listed deployments) ++ "\n", fs } ∧
      (run fs argv).log = "" := by
  simp only [run, hparse, htask, runTask_deployments hload, true_and]
  rfl

/--
Whatever values the options have, there is a command line for them, and every one that is read
like this prints the deployments that they ask for, whatever else it says; up to the level
`verbose` it says nothing.  The references that are compared carry a value of an option and
nothing else, and other ones with these values select the same.
-/
theorem deployments_command_lists_asked (hload : loadDeployments fs a.file = .ok deployments) :
    parse a.commandLine = .ok { verbose := 0, quiet := false, task := .deployments a } ∧
      (∀ argv arguments, parse argv = .ok arguments → arguments.task = .deployments a →
        (run fs argv).exitCode = 0 ∧
          (run fs argv).delivery =
            { printed := renderDeployments a.format (a.listed deployments) ++ "\n", fs } ∧
          (Verbosity.verbose.shows (.ofFlags arguments.verbose arguments.quiet) = true →
            (run fs argv).log = "")) ∧
      (∀ r ∈ (deploymentSelection a).deployments.getD [], ∃ id ∈ a.ids, r = { id }) ∧
      (∀ r ∈ (deploymentSelection a).flows.getD [], ∃ name ∈ a.flows, r = .named name "" "" "") ∧
      ∀ s : DeploymentSelection, Compares a s → s.apply deployments = a.listed deployments := by
  refine ⟨parse_commandLine (file_ne_empty_of_loadDeployments hload), ?_, ?_, ?_,
    fun s hs => hs.apply_eq deployments⟩
  · intro argv arguments hparse htask
    obtain ⟨hexit, hdelivery, hlog⟩ := run_deployments hload hparse htask
    exact ⟨hexit, hdelivery, fun _ => hlog⟩
  · intro r hr
    obtain ⟨id, hid, rfl⟩ := List.mem_map.mp (mem_of_mem_getD_given? hr)
    exact ⟨id, hid, rfl⟩
  · intro r hr
    obtain ⟨name, hname, rfl⟩ := List.mem_map.mp (mem_of_mem_getD_given? hr)
    exact ⟨name, hname, rfl⟩

end Runs

/-- A snapshot with a blank record, and with an id that is there twice. -/
def listedDeployments : List Deployment :=
  [{}, { id := "d1", project := "acme", flowName := "etl_job" }, { id := "d1", project := "acme" },
    { id := "d2", flowName := "load" }]

def snapshotTree : FileSystem where
  root := .directory [("d.json", .file (renderDeployments .json listedDeployments).toUTF8)]

theorem deploymentsOfText_listedDeployments :
    deploymentsOfText (renderDeployments .json listedDeployments) = .ok listedDeployments :=
  deploymentsOfText_renderDeployments (by simp [listedDeployments]) (by decide)

theorem loadDeployments_snapshotTree :
    loadDeployments snapshotTree "/d.json" = .ok listedDeployments := by
  have hname : IsName "d.json" := by decide
  have hnamed : FileSystem.WellNamed snapshotTree.root :=
    ⟨List.nodup_singleton _, hname, trivial, trivial⟩
  have hpath : "/" ++ "d.json" = "/d.json" := by rfl
  have htext : snapshotTree.readText "/d.json" = .ok (renderDeployments .json listedDeployments) := by
    rw [← hpath]
    exact FileSystem.readText_slash hnamed rfl (List.mem_singleton.mpr rfl)
  exact loadDeployments_of_readText htext deploymentsOfText_listedDeployments

/-- The blank record and the flow of another name are not asked for. -/
def askedDeployments : DeploymentsArguments :=
  { file := "/d.json", flows := ["etl-job"], groups := ["acme"], format := .text }

theorem deployments_command_lists_asked_snapshotTree :
    loadDeployments snapshotTree askedDeployments.file = .ok listedDeployments ∧
      (run snapshotTree askedDeployments.commandLine).exitCode = 0 ∧
      (run snapshotTree askedDeployments.commandLine).delivery.printed =
        "d1    project=acme branch= flow=etl_job env=\n1 deployment(s)\n\n" ∧
      (run snapshotTree askedDeployments.commandLine).log = "" := by
  obtain ⟨hparse, hruns, -⟩ :=
    deployments_command_lists_asked (a := askedDeployments) loadDeployments_snapshotTree
  obtain ⟨hexit, hdelivery, hlog⟩ := hruns _ _ hparse rfl
  refine ⟨loadDeployments_snapshotTree, hexit, ?_, hlog rfl⟩
  rw [hdelivery]
  have hprinted : renderDeployments .text (askedDeployments.listed listedDeployments) ++ "\n" =
      "d1    project=acme branch= flow=etl_job env=\n1 deployment(s)\n\n" := by
    decide +kernel
  exact hprinted

end Command

end FlowSurvey
