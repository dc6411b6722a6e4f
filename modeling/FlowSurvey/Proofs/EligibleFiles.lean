import FlowSurvey.Proofs.WalkOrder
import Mathlib.Data.List.Nodup

/-!
# Which files a walk finds

A file below a root is eligible if its name has one of the extensions that are
looked for, if no directory on the way to it is excluded, and if it is not too deep.
A walk that follows no links finds the eligible files and no others, each of them
once: as a source file, or as one that is too large.  It finds them in the order of
their paths, because it goes through the entries of each directory in the order of
the names, and all that is below an entry has that name in the same place.
-/

namespace FlowSurvey

namespace FileSystem

/--
The names lead from the entries of a directory to an entry, one after the other.
All but the last of them are names of directories, and not of links to directories.
-/
inductive LeadsTo : List (String × Entry) → List String → Entry → Prop
  | here {entries : List (String × Entry)} {name : String} {entry : Entry}
      (hmem : (name, entry) ∈ entries) : LeadsTo entries [name] entry
  | through {entries inner : List (String × Entry)} {name : String} {names : List String}
      {entry : Entry} (hmem : (name, .directory inner) ∈ entries)
      (hbelow : LeadsTo inner names entry) : LeadsTo entries (name :: names) entry

/-- What stands at a path is a file, or a link that leads to one. -/
def IsFileOrLink (fs : FileSystem) (path : String) : Entry → Prop
  | .file _ => True
  | .link _ => fs.isFile path = true
  | .directory _ => False

theorem isDirectory_iff {fs : FileSystem} {path : String} :
    fs.isDirectory path = true ↔ ∃ entries, fs.entry path = .ok (.directory entries) := by
  unfold isDirectory
  split
  next entries hentry => simp [hentry]
  next hentry => simpa using hentry

theorem LeadsTo.ne_nil
    {entries : List (String × Entry)} {names : List String} {entry : Entry}
    (hleads : LeadsTo entries names entry) : names ≠ [] := by
  cases hleads <;> simp

theorem LeadsTo.isName
    {entries : List (String × Entry)} {names : List String} {entry : Entry}
    (hleads : LeadsTo entries names entry) (hentries : WellNamedAmong entries) :
    ∀ name ∈ names, IsName name := by
  induction hleads with
  | here hmem => simpa using (hentries.of_mem hmem).1
  | through hmem _ ih =>
      obtain ⟨hname, hinner⟩ := hentries.of_mem hmem
      rw [WellNamed] at hinner
      simpa using ⟨hname, ih hinner.2⟩

/-! ## How deep a tree can be -/

theorem directories_le_of_mem
    {entries : List (String × Entry)} {name : String} {entry : Entry}
    (hmem : (name, entry) ∈ entries) : directories entry ≤ directoriesAmong entries := by
  induction entries with
  | nil => exact absurd hmem List.not_mem_nil
  | cons first rest ih =>
      obtain ⟨firstName, firstEntry⟩ := first
      rw [directoriesAmong]
      rcases List.mem_cons.mp hmem with heq | hrest
      · obtain ⟨rfl, rfl⟩ := Prod.mk.inj heq
        omega
      · have hle := ih hrest
        omega

theorem LeadsTo.length_le
    {entries : List (String × Entry)} {names : List String} {entry : Entry}
    (hleads : LeadsTo entries names entry) : names.length ≤ directoriesAmong entries + 1 := by
  induction hleads with
  | here => simp
  | through hmem _ ih =>
      have hle := directories_le_of_mem hmem
      rw [directories] at hle
      simp only [List.length_cons]
      omega

theorem IsTrail.directories_le
    {root : Entry} {trail : Trail} (htrail : IsTrail root trail) :
    directories (entryAt root trail) ≤ directories root := by
  induction htrail with
  | nil => exact Nat.le_refl _
  | cons _ hdirectory _ hlookup _ ih =>
      have hle := directories_le_of_mem (mem_of_lookup_eq_some hlookup)
      rw [hdirectory, directories] at ih
      simp only [entryAt]
      omega

end FileSystem

namespace Walk

open FileSystem FlowSurvey.Path

variable {fs : FileSystem} {config : Config}

/-- The names lead from a root to a file that a walk is to find. -/
structure Eligible (fs : FileSystem) (config : Config) (root : String) (names : List String) :
    Prop where
  reached : ∃ entries entry, fs.entry root = .ok (.directory entries) ∧
    LeadsTo entries names entry ∧ IsFileOrLink fs (Path.below root names) entry
  extension : ∃ name extension wanted, names.getLast? = some name ∧
    HasExtension name extension ∧ wanted ∈ config.extensions ∧
      equalIgnoringCase wanted extension = true
  notExcluded : ∀ name ∈ names.dropLast, name ∉ config.excludedDirectories
  withinDepth : ∀ depth, config.maxDepth = some depth → names.length ≤ depth

/-! ## One entry -/

theorem mem_filesOf_ite_iff {p : Prop} [Decidable p] {visits : List Visit} {path : String} :
    path ∈ filesOf (if p then visits else []) ↔ p ∧ path ∈ filesOf visits := by
  split <;> simp_all [filesOf]

theorem filesOf_visitFile (path : String) (size : Nat) :
    filesOf (visitFile config path size) = if isSourcePath config path then [path] else [] := by
  unfold visitFile
  split
  · split <;> rfl
  · rfl

theorem mem_filesOf_visitFile_iff {file path : String} {size : Nat} :
    path ∈ filesOf (visitFile config file size) ↔
      path = file ∧ isSourcePath config path = true := by
  rw [filesOf_visitFile, List.mem_ite_nil_right, List.mem_singleton]
  constructor
  · rintro ⟨hsource, rfl⟩
    exact ⟨rfl, hsource⟩
  · rintro ⟨rfl, hsource⟩
    exact ⟨hsource, rfl⟩

section Entry

variable {descend : List Ancestor → List (String × Entry) → List Visit}
  {directory : Ancestor} {ancestors : List Ancestor} {name : String}

/-- What a walk that follows no links finds at one entry, all cases of it. -/
theorem mem_filesOf_visitEntry_iff
    (hfollow : config.followLinks = false) {entry : Entry} {path : String} :
    path ∈ filesOf (visitEntry fs config descend (directory :: ancestors) name entry) ↔
      (path = Path.join directory.path name ∧ isSourcePath config path = true ∧
          IsFileOrLink fs path entry) ∨
        ∃ inner, entry = .directory inner ∧ config.excludes name = false ∧
          path ∈ filesOf (descend
            (⟨Path.join directory.path name, directory.position ++ [name]⟩ ::
              directory :: ancestors) inner) := by
  cases entry with
  | file content =>
      simp [visitEntry, mem_filesOf_visitFile_iff, IsFileOrLink]
  | directory inner =>
      simp only [visitEntry, List.headD_cons, visitDirectory, IsFileOrLink]
      cases config.excludes name <;> simp [filesOf]
  | link target =>
      have hvisits : visitEntry fs config descend (directory :: ancestors) name (.link target) =
          if fs.isFile (Path.join directory.path name) then
            visitFile config (Path.join directory.path name) target.utf8ByteSize
          else [] := by
        simp [visitEntry, hfollow]
      rw [hvisits, mem_filesOf_ite_iff, mem_filesOf_visitFile_iff]
      simp only [IsFileOrLink, reduceCtorEq, false_and, exists_false, or_false]
      constructor
      · rintro ⟨hfile, rfl, hsource⟩
        exact ⟨rfl, hsource, hfile⟩
      · rintro ⟨rfl, hsource, hfile⟩
        exact ⟨hfile, rfl, hsource⟩

/-- A walk that follows no links passes over nothing that it cannot read. -/
theorem exists_visitFile_of_mem_visitEntry
    (hfollow : config.followLinks = false) {entry : Entry} {visit : Visit}
    (hdescend : ∀ ancestors entries, visit ∈ descend ancestors entries →
      ∃ path size, visit ∈ visitFile config path size)
    (hvisit : visit ∈ visitEntry fs config descend ancestors name entry) :
    ∃ path size, visit ∈ visitFile config path size := by
  cases entry with
  | file content => exact ⟨_, _, hvisit⟩
  | directory inner => exact hdescend _ _ (mem_visitDirectory_iff.mp hvisit).2
  | link target =>
      simp only [visitEntry, hfollow, Bool.false_eq_true, if_false] at hvisit
      exact ⟨_, _, (List.mem_ite_nil_right.mp hvisit).2⟩

end Entry

/-! ## All entries below a directory -/

/--
The names lead from the entries of a directory at some depth to a file that is
found there, with as many steps to go as there is fuel.
-/
structure FoundBelow (fs : FileSystem) (config : Config) (directory : String) (depth fuel : Nat)
    (entries : List (String × Entry)) (names : List String) : Prop where
  reached : ∃ entry, LeadsTo entries names entry ∧
    IsFileOrLink fs (Path.below directory names) entry
  source : isSourcePath config (Path.below directory names) = true
  entered : ∀ name ∈ names.dropLast, config.excludes name = false
  withinDepth : ∀ limit, config.maxDepth = some limit → depth + names.length ≤ limit
  withinFuel : names.length ≤ fuel

theorem maxDepth_all_iff {depth : Nat} :
    config.maxDepth.all (depth ≤ ·) = true ↔
      ∀ limit, config.maxDepth = some limit → depth ≤ limit := by
  cases config.maxDepth <;> simp

/-- The first step on the way to what is found below a directory. -/
theorem foundBelow_succ_iff
    {directory : String} {depth fuel : Nat} {entries : List (String × Entry)}
    {names : List String} :
    FoundBelow fs config directory depth (fuel + 1) entries names ↔
      (∀ limit, config.maxDepth = some limit → depth + 1 ≤ limit) ∧
        ∃ name entry, (name, entry) ∈ entries ∧
          ((names = [name] ∧ isSourcePath config (Path.join directory name) = true ∧
              IsFileOrLink fs (Path.join directory name) entry) ∨
            ∃ inner rest, entry = .directory inner ∧ config.excludes name = false ∧
              names = name :: rest ∧
              FoundBelow fs config (Path.join directory name) (depth + 1) fuel inner rest) := by
  constructor
  · rintro ⟨⟨entry, hleads, hfile⟩, hsource, hentered, hdepth, hfuel⟩
    have hlimit : ∀ limit, config.maxDepth = some limit → depth + 1 ≤ limit := by
      intro limit hmax
      have hle := hdepth limit hmax
      have hpos := List.length_pos_iff.mpr hleads.ne_nil
      omega
    cases hleads with
    | here hmem => exact ⟨hlimit, _, _, hmem, Or.inl ⟨rfl, hsource, hfile⟩⟩
    | @through _ inner name rest _ hmem hbelow =>
        have hdrop : (name :: rest).dropLast = name :: rest.dropLast :=
          List.dropLast_cons_of_ne_nil hbelow.ne_nil
        rw [hdrop] at hentered
        have hexcluded := hentered name List.mem_cons_self
        refine ⟨hlimit, _, _, hmem, Or.inr ⟨inner, rest, rfl, hexcluded, rfl, ?_⟩⟩
        refine ⟨⟨entry, hbelow, hfile⟩, hsource, ?_, ?_, by simpa using hfuel⟩
        · exact fun other hother => hentered other (List.mem_cons_of_mem _ hother)
        · intro limit hmax
          have hle := hdepth limit hmax
          rw [List.length_cons] at hle
          omega
  · rintro ⟨hlimit, name, entry, hmem, ⟨rfl, hsource, hfile⟩ |
      ⟨inner, rest, rfl, hexcluded, rfl, ⟨last, hbelow, hfile⟩, hsource, hentered, hdepth, hfuel⟩⟩
    · exact ⟨⟨entry, .here hmem, hfile⟩, hsource, by simp, hlimit, by simp⟩
    · refine ⟨⟨last, .through hmem hbelow, hfile⟩, hsource, ?_, ?_, by simpa using hfuel⟩
      · rw [List.dropLast_cons_of_ne_nil hbelow.ne_nil]
        simpa using ⟨hexcluded, hentered⟩
      · intro limit hmax
        have hle := hdepth limit hmax
        rw [List.length_cons]
        omega

theorem filesOf_visitEntries_succ
    {fuel : Nat} {ancestors : List Ancestor} {entries : List (String × Entry)} :
    filesOf (visitEntries fs config (fuel + 1) ancestors entries) =
      if config.maxDepth.all (ancestors.length ≤ ·) then
        (inOrder entries).flatMap fun (name, entry) =>
          filesOf (visitEntry fs config (visitEntries fs config fuel) ancestors name entry)
      else [] := by
  rw [visitEntries]
  split
  · rw [filesOf, List.filterMap_flatMap]
    rfl
  · rfl

/-- What is found below a directory, by induction on how deep the walk may still go. -/
theorem mem_filesOf_visitEntries_iff
    (hfollow : config.followLinks = false) {fuel : Nat} {directory : Ancestor}
    {ancestors : List Ancestor} {entries : List (String × Entry)} {path : String} :
    path ∈ filesOf (visitEntries fs config fuel (directory :: ancestors) entries) ↔
      ∃ names, FoundBelow fs config directory.path ancestors.length fuel entries names ∧
        path = Path.below directory.path names := by
  induction fuel generalizing directory ancestors entries path with
  | zero =>
      constructor
      · intro hpath
        exact absurd hpath List.not_mem_nil
      · rintro ⟨names, hfound, _⟩
        obtain ⟨entry, hleads, _⟩ := hfound.reached
        exact absurd (List.length_eq_zero_iff.mp (Nat.le_zero.mp hfound.withinFuel)) hleads.ne_nil
  | succ n ih =>
      rw [filesOf_visitEntries_succ, List.mem_ite_nil_right, maxDepth_all_iff]
      simp only [List.mem_flatMap, inOrder, List.mem_mergeSort, Prod.exists,
        mem_filesOf_visitEntry_iff hfollow, List.length_cons, ih, foundBelow_succ_iff]
      constructor
      · rintro ⟨hlimit, name, entry, hmem, ⟨rfl, hsource, hfile⟩ |
          ⟨inner, rfl, hexcluded, rest, hfound, rfl⟩⟩
        · exact ⟨[name], ⟨hlimit, name, entry, hmem, Or.inl ⟨rfl, hsource, hfile⟩⟩, rfl⟩
        · exact ⟨name :: rest, ⟨hlimit, name, _, hmem,
            Or.inr ⟨inner, rest, rfl, hexcluded, rfl, hfound⟩⟩, rfl⟩
      · rintro ⟨names, ⟨hlimit, name, entry, hmem, ⟨rfl, hsource, hfile⟩ |
          ⟨inner, rest, rfl, hexcluded, rfl, hfound⟩⟩, rfl⟩
        · exact ⟨hlimit, name, entry, hmem, Or.inl ⟨rfl, hsource, hfile⟩⟩
        · exact ⟨hlimit, name, _, hmem, Or.inr ⟨inner, rfl, hexcluded, rest, hfound, rfl⟩⟩

theorem exists_visitFile_of_mem_visitEntries
    (hfollow : config.followLinks = false) {fuel : Nat} {ancestors : List Ancestor}
    {entries : List (String × Entry)} {visit : Visit}
    (hvisit : visit ∈ visitEntries fs config fuel ancestors entries) :
    ∃ path size, visit ∈ visitFile config path size := by
  induction fuel generalizing ancestors entries with
  | zero => exact absurd hvisit List.not_mem_nil
  | succ n ih =>
      obtain ⟨_, name, entry, _, hentry⟩ := mem_visitEntries_succ_iff.mp hvisit
      exact exists_visitFile_of_mem_visitEntry hfollow (fun _ _ hbelow => ih hbelow) hentry

/-! ## The whole walk -/

theorem isSourcePath_iff {path : String} :
    isSourcePath config path = true ↔
      ∃ extension, extension? path = some extension ∧
        ∃ wanted ∈ config.extensions, equalIgnoringCase wanted extension = true := by
  rw [isSourcePath, Option.any_eq_true]
  simp only [Config.isSourceExtension, List.any_eq_true]

theorem isSourcePath_below_iff
    {root : String} (hroot : root ≠ "") {names : List String} (hne : names ≠ [])
    (hnames : ∀ name ∈ names, IsName name) :
    isSourcePath config (Path.below root names) = true ↔
      ∃ name extension wanted, names.getLast? = some name ∧ HasExtension name extension ∧
        wanted ∈ config.extensions ∧ equalIgnoringCase wanted extension = true := by
  obtain ⟨before, name, rfl⟩ := (List.eq_nil_or_concat' names).resolve_left hne
  have hbefore : Path.below root before ≠ "" :=
    below_ne_empty hroot fun other hother => hnames other (List.mem_append_left _ hother)
  have hname : IsName name := hnames name (by simp)
  simp only [below_concat, isSourcePath_iff, extension?_join_eq_some_iff hbefore hname,
    List.getLast?_concat, Option.some.injEq]
  constructor
  · rintro ⟨extension, hextension, wanted, hwanted, hequal⟩
    exact ⟨name, extension, wanted, rfl, hextension, hwanted, hequal⟩
  · rintro ⟨_, extension, wanted, rfl, hextension, hwanted, hequal⟩
    exact ⟨extension, hextension, wanted, hwanted, hequal⟩

/-- At the root of a walk there is fuel for all that the names can lead to. -/
theorem eligible_iff_foundBelow
    (hroot : WellNamed fs.root) {root : String} {trail : Trail} {entries : List (String × Entry)}
    (hresolve : fs.resolve root = .ok trail) (hat : entryAt fs.root trail = .directory entries)
    {names : List String} :
    Eligible fs config root names ↔
      FoundBelow fs config root 0 (deepest fs + 1) entries names := by
  have hne : root ≠ "" := ne_empty_of_resolve hresolve
  have hentries : fs.entry root = .ok (.directory entries) :=
    entry_eq_ok_iff.mpr ⟨trail, hresolve, hat⟩
  have hnamed := (wellNamed_of_entry_eq_directory hroot hentries).2
  constructor
  · rintro ⟨⟨other, entry, hother, hleads, hfile⟩, hextension, hexcluded, hdepth⟩
    obtain rfl : entries = other := by simpa [hentries] using hother
    have hfuel : names.length ≤ deepest fs + 1 := by
      have hlength := hleads.length_le
      have htrail := (isTrail_resolve hresolve).directories_le
      have hsquare : directories fs.root ≤ deepest fs := Nat.le_mul_self _
      rw [hat, directories] at htrail
      omega
    refine ⟨⟨entry, hleads, hfile⟩, ?_, ?_, ?_, hfuel⟩
    · exact (isSourcePath_below_iff hne hleads.ne_nil (hleads.isName hnamed)).mpr hextension
    · simpa [Config.excludes] using hexcluded
    · simpa using hdepth
  · rintro ⟨⟨entry, hleads, hfile⟩, hsource, hentered, hdepth, _⟩
    refine ⟨⟨entries, entry, hentries, hleads, hfile⟩, ?_, ?_, ?_⟩
    · exact (isSourcePath_below_iff hne hleads.ne_nil (hleads.isName hnamed)).mp hsource
    · simpa [Config.excludes] using hentered
    · simpa using hdepth

/-- What is said about a file that is too large. -/
def tooLargeDiagnostic (path : String) (size limit : Nat) : Diagnostic :=
  ⟨path, .walk, ": ".intercalate (FileFailure.tooLarge path size limit).chain⟩

section Visits

variable {visits : List Visit}

/-- Each file that is found is either a source file or the subject of one diagnostic. -/
theorem count_sourcesOf_add_countP_diagnosticsOf
    (hvisits : ∀ visit ∈ visits, ∃ path size, visit ∈ visitFile config path size) (path : String) :
    (sourcesOf visits).count path + (diagnosticsOf visits).countP (·.path = path) =
      (filesOf visits).count path := by
  induction visits with
  | nil => rfl
  | cons visit rest ih =>
      have hrest := ih fun other hother => hvisits other (List.mem_cons_of_mem _ hother)
      obtain ⟨file, size, hvisit⟩ := hvisits visit List.mem_cons_self
      rcases mem_visitFile_cases hvisit with ⟨rfl, _⟩ | ⟨rfl, _⟩
      · have hsources : sourcesOf (.source file :: rest) = file :: sourcesOf rest := rfl
        have hdiagnostics : diagnosticsOf (.source file :: rest) = diagnosticsOf rest := rfl
        have hfiles : filesOf (.source file :: rest) = file :: filesOf rest := rfl
        rw [hsources, hdiagnostics, hfiles, List.count_cons, List.count_cons]
        omega
      · have hsources : sourcesOf (.tooLarge file size config.maxFileSize :: rest) =
            sourcesOf rest := rfl
        have hdiagnostics : diagnosticsOf (.tooLarge file size config.maxFileSize :: rest) =
            tooLargeDiagnostic file size config.maxFileSize :: diagnosticsOf rest := rfl
        have hfiles : filesOf (.tooLarge file size config.maxFileSize :: rest) =
            file :: filesOf rest := rfl
        rw [hsources, hdiagnostics, hfiles, List.countP_cons, List.count_cons]
        by_cases hpath : file = path
        · simp [tooLargeDiagnostic, hpath]
          omega
        · simp [tooLargeDiagnostic, hpath]
          omega

theorem mem_filesOf_iff_source_or_diagnostic
    (hvisits : ∀ visit ∈ visits, ∃ path size, visit ∈ visitFile config path size) {path : String} :
    path ∈ filesOf visits ↔
      path ∈ sourcesOf visits ∨ path ∈ (diagnosticsOf visits).map Diagnostic.path := by
  have hcount := count_sourcesOf_add_countP_diagnosticsOf hvisits path
  have hdiagnostics : path ∈ (diagnosticsOf visits).map Diagnostic.path ↔
      0 < (diagnosticsOf visits).countP (·.path = path) := by
    simp [List.countP_pos_iff]
  rw [hdiagnostics, ← List.count_pos_iff, ← List.count_pos_iff, ← hcount]
  omega

theorem sourcesOf_sublist_filesOf (visits : List Visit) :
    (sourcesOf visits).Sublist (filesOf visits) := by
  induction visits with
  | nil => exact .slnil
  | cons visit rest ih =>
      cases visit with
      | source path => exact ih.cons_cons path
      | tooLarge path size limit => exact ih.cons path
      | skipped fault => exact ih

/-- The visits find the eligible files below a root, each of them once, and no others. -/
structure FindsEligible (fs : FileSystem) (config : Config) (root : String)
    (visits : List Visit) : Prop where
  sorted : (sourcesOf visits).Pairwise Precedes
  once : ∀ names, Eligible fs config root names →
    (sourcesOf visits).count (Path.below root names) +
      (diagnosticsOf visits).countP (·.path = Path.below root names) = 1
  only : ∀ path, path ∈ sourcesOf visits ∨ path ∈ (diagnosticsOf visits).map Diagnostic.path →
    ∃ names, Eligible fs config root names ∧ path = Path.below root names
  tooLarge : ∀ diagnostic ∈ diagnosticsOf visits, ∃ size, config.maxFileSize < size ∧
    diagnostic = tooLargeDiagnostic diagnostic.path size config.maxFileSize

end Visits

/--
A walk from a directory that follows no links finds the eligible files below it, in
the order of their paths.
-/
theorem exists_visits_findsEligible
    (hroot : WellNamed fs.root) {root : String} (hdirectory : fs.isDirectory root = true)
    (hfollow : config.followLinks = false) :
    ∃ visits, Walk.visits fs root config = .ok visits ∧ FindsEligible fs config root visits := by
  obtain ⟨entries, hentries⟩ := isDirectory_iff.mp hdirectory
  obtain ⟨trail, hresolve, hat⟩ := entry_eq_ok_iff.mp hentries
  obtain ⟨hnodup, hnamed⟩ := wellNamed_of_entry_eq_directory hroot hentries
  obtain ⟨visits, hvisits⟩ : ∃ visits, visits = visitEntries fs config (deepest fs + 1)
      [⟨root, position trail⟩] entries := ⟨_, rfl⟩
  have hfiles : ∀ visit ∈ visits, ∃ path size, visit ∈ visitFile config path size := by
    intro visit hvisit
    rw [hvisits] at hvisit
    exact exists_visitFile_of_mem_visitEntries hfollow hvisit
  have hfound (path : String) :
      path ∈ filesOf visits ↔
        ∃ names, Eligible fs config root names ∧ path = Path.below root names := by
    rw [hvisits, mem_filesOf_visitEntries_iff hfollow]
    simp only [eligible_iff_foundBelow hroot hresolve hat, List.length_nil]
  have hsorted : (filesOf visits).Pairwise Precedes := by
    rw [hvisits]
    exact pairwise_filesOf (pairwise_visitEntries hroot (ne_empty_of_resolve hresolve) hnodup hnamed)
  -- No path precedes itself, so what is in order is there once.
  have hdistinct : (filesOf visits).Nodup := by
    refine hsorted.imp ?_
    rintro path _ hprecedes rfl
    exact List.lt_irrefl _ hprecedes
  refine ⟨visits, visits_eq_ok_iff.mpr ⟨trail, entries, hresolve, hat, hvisits⟩, ?_⟩
  constructor
  · exact hsorted.sublist (sourcesOf_sublist_filesOf visits)
  · intro names heligible
    rw [count_sourcesOf_add_countP_diagnosticsOf hfiles]
    exact List.count_eq_one_of_mem hdistinct ((hfound _).mpr ⟨names, heligible, rfl⟩)
  · intro path hpath
    exact (hfound path).mp ((mem_filesOf_iff_source_or_diagnostic hfiles).mpr hpath)
  · intro diagnostic hdiagnostic
    obtain ⟨visit, hvisit, hsome⟩ := List.mem_filterMap.mp hdiagnostic
    obtain ⟨path, size, hfile⟩ := hfiles visit hvisit
    rcases mem_visitFile_cases hfile with ⟨rfl, _⟩ | ⟨rfl, hlarge⟩
    · simp [Visit.diagnostic?] at hsome
    · obtain rfl : tooLargeDiagnostic path size config.maxFileSize = diagnostic :=
        Option.some.inj hsome
      exact ⟨size, hlarge, rfl⟩

/--
A directory that comes before another one and before a file of the same name with
something behind it, a directory that is excluded, and a link to a file.
-/
def branchedTree : FileSystem where
  root := .directory
    [("a.py", .file "x = 1".toUTF8),
      ("a", .directory [("z.PY", .file "y = 2".toUTF8)]),
      ("a-b", .directory [("k.py", .file "z = 3".toUTF8), ("notes.txt", .file "".toUTF8)]),
      (".git", .directory [("h.py", .file "".toUTF8)]),
      ("l.py", .link "a/z.PY")]

/-- The file in the first directory is found, though its extension has other letters. -/
theorem exists_visits_findsEligible_branchedTree :
    WellNamed branchedTree.root ∧ branchedTree.isDirectory "/" = true ∧
      Eligible branchedTree { maxDepth := some 2 } "/" ["a", "z.PY"] ∧
      ∃ visits, Walk.visits branchedTree "/" { maxDepth := some 2 } = .ok visits ∧
        FindsEligible branchedTree { maxDepth := some 2 } "/" visits := by
  have hnamed : WellNamed branchedTree.root := by decide
  have hresolve : branchedTree.resolve "/" = .ok [] := resolve_slash rfl
  have hentries : branchedTree.entry "/" = .ok branchedTree.root :=
    entry_eq_ok_iff.mpr ⟨[], hresolve, rfl⟩
  have hdirectory : branchedTree.isDirectory "/" = true := isDirectory_iff.mpr ⟨_, hentries⟩
  have heligible : Eligible branchedTree { maxDepth := some 2 } "/" ["a", "z.PY"] := by
    constructor
    · have hinner : LeadsTo [("z.PY", .file "y = 2".toUTF8)] ["z.PY"] (.file "y = 2".toUTF8) :=
        .here (by simp)
      exact ⟨_, _, hentries, .through (by simp) hinner, trivial⟩
    · exact ⟨"z.PY", "PY", "py", rfl, ⟨"z", by decide, by decide, rfl⟩, by decide, by decide⟩
    · decide
    · simp
  exact ⟨hnamed, hdirectory, heligible, exists_visits_findsEligible hnamed hdirectory rfl⟩

end Walk
end FlowSurvey
