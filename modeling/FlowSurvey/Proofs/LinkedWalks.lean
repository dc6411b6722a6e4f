import FlowSurvey.Proofs.WalkPlaces

/-!
# Walks that follow links

A walk that follows links visits each path no more than once, and in the order of the paths,
because it goes through a directory behind a link as it goes through any other.  It comes by all
that names lead to without going through a link back, an excluded directory or too many
directories: a link back is reported and not entered, and a file is found.
-/

namespace FlowSurvey

namespace Walk

open FileSystem FlowSurvey.Path

/-- What is said about a link that leads back. -/
def loopDiagnostic (path ancestor : String) : Diagnostic :=
  ⟨path, .walk, (WalkFault.loop path ancestor).message⟩

/-! ## What a walk comes by -/

section Visits

variable {fs : FileSystem} {config : Config} {root : String} {names : List String}
  {here : Ancestor} {ancestors : List Ancestor} {entries inner : List (String × Entry)}
  {name : String} {entry : Entry} {visits : List Visit}

/-- The visits of every directory that a walk comes into are among its visits. -/
theorem WalkedFrom.exists_subset (hwalked : WalkedFrom fs config root visits)
    (hcomes : ComesTo fs config root names here ancestors inner) :
    ∃ inside, Walked fs config here ancestors inner inside ∧ inside ⊆ visits := by
  obtain ⟨trail, entries, hresolve, hat, hwalked⟩ := hwalked
  induction hcomes with
  | start hagain hagainAt =>
      obtain rfl := Except.ok.inj (hresolve.symm.trans hagain)
      obtain rfl := Entry.directory.inj (hat.symm.trans hagainAt)
      exact ⟨visits, hwalked, fun _ hvisit => hvisit⟩
  | enter _ hdepth hmem henters ih =>
      obtain ⟨inside, hinside, hsubset⟩ := ih
      cases hinside with
      | tooDeep hdeep => exact absurd hdepth hdeep
      | within descend _ hbelow =>
          refine ⟨_, hbelow _ _ _ _ hmem henters, fun visit hvisit => hsubset ?_⟩
          rw [← henters.visitEntry_eq descend] at hvisit
          exact List.mem_flatMap.mpr ⟨_, List.mem_mergeSort.mpr hmem, hvisit⟩

/-- So are those of an entry there, unless the directory is too deep. -/
theorem WalkedFrom.exists_visitEntry_subset
    (hwalked : WalkedFrom fs config root visits)
    (hcomes : ComesTo fs config root names here ancestors inner)
    (hdepth : config.maxDepth.all ((here :: ancestors).length ≤ ·) = true)
    (hmem : (name, entry) ∈ inner) :
    ∃ descend, visitEntry fs config descend (here :: ancestors) name entry ⊆ visits := by
  obtain ⟨inside, hinside, hsubset⟩ := hwalked.exists_subset hcomes
  cases hinside with
  | tooDeep hdeep => exact absurd hdepth hdeep
  | within descend =>
      refine ⟨descend, fun visit hvisit => hsubset ?_⟩
      exact List.mem_flatMap.mpr ⟨_, List.mem_mergeSort.mpr hmem, hvisit⟩

/-- A walk visits nothing but entries of directories that it comes into. -/
theorem Walked.exists_comesTo_of_mem (hwalked : Walked fs config here ancestors entries visits)
    (hcomes : ComesTo fs config root names here ancestors entries) {visit : Visit}
    (hvisit : visit ∈ visits) :
    ∃ names here ancestors entries name entry,
      ComesTo fs config root names here ancestors entries ∧ (name, entry) ∈ entries ∧
        visit.path = Path.join here.path name := by
  induction hwalked generalizing names with
  | tooDeep => exact absurd hvisit List.not_mem_nil
  | within descend hdepth _ ih =>
      obtain ⟨⟨name, entry⟩, hmem, hentry⟩ := List.mem_flatMap.mp hvisit
      have hmem := mem_of_mem_inOrder hmem
      change visit ∈ visitEntry fs config descend (_ :: _) name entry at hentry
      rcases visitEntry_cases descend with ⟨below, inner, henters, hsame⟩ | hnone | ⟨_, hone, hpath⟩
      · rw [hsame] at hentry
        exact ih _ _ _ _ hmem henters (hcomes.enter hdepth hmem henters) hentry
      · rw [hnone] at hentry
        exact absurd hentry List.not_mem_nil
      · rw [hone, List.mem_singleton] at hentry
        exact ⟨_, _, _, _, _, _, hcomes, hmem, hentry ▸ hpath⟩

/-- All that is visited at a link that leads back is what is said about it. -/
theorem visitEntry_of_leadsBack (hroot : WellNamed fs.root) (hfollow : config.followLinks = true)
    (hplaced : Placed fs root names here ancestors inner) (hmem : (name, entry) ∈ inner)
    (hback : LeadsBack fs root (names ++ [name]))
    (descend : List Ancestor → List (String × Entry) → List Visit) :
    ∃ before, before <+: names ∧
      fs.SamePlace (Path.below root before) (Path.below root (names ++ [name])) ∧
      visitEntry fs config descend (here :: ancestors) name entry =
        [.skipped (.loop (Path.below root (names ++ [name])) (Path.below root before))] := by
  have hlink := hback.link
  obtain ⟨found, hfound⟩ := isDirectory_iff.mp hback.directory
  obtain ⟨trail, hresolve, hat⟩ := entry_eq_ok_iff.mp hfound
  rw [below_concat, linkText?_join hroot hplaced.entry_eq hmem] at hlink
  cases entry with
  | file | directory => cases hlink
  | link target =>
      obtain ⟨a, ha, hsame⟩ := (hplaced.leadsBack_iff hroot hmem hresolve hat).mp hback
      obtain ⟨first, hfirst⟩ : ∃ first,
          (here :: ancestors).find? (fun a => a.position = position trail) = some first := by
        rw [← Option.isSome_iff_exists, List.find?_isSome]
        exact ⟨a, ha, decide_eq_true hsame⟩
      have hposition : first.position = position trail := by
        simpa using List.find?_some hfirst
      obtain ⟨before, other, hbegins, hother, rfl⟩ :=
        (hplaced.mem_iff first).mp (List.mem_of_find?_eq_some hfirst)
      refine ⟨before, hbegins, ⟨other, trail, hother, hresolve, hposition⟩, ?_⟩
      rw [below_concat, ← hplaced.path_eq] at hresolve ⊢
      simp only [visitEntry_link, hfollow, if_true, visitTarget, hresolve, hat, hfirst]

theorem visitEntry_of_file (hroot : WellNamed fs.root) (hfollow : config.followLinks = true)
    (hplaced : Placed fs root names here ancestors inner) (hmem : (name, entry) ∈ inner)
    {content : ByteArray}
    (hfile : fs.entry (Path.below root (names ++ [name])) = .ok (.file content))
    (descend : List Ancestor → List (String × Entry) → List Visit) :
    visitEntry fs config descend (here :: ancestors) name entry =
      visitFile config (Path.below root (names ++ [name])) content.size := by
  rw [below_concat, ← hplaced.path_eq] at hfile ⊢
  have hentry := hplaced.path_eq ▸ hplaced.entry_eq
  cases entry with
  | file other =>
      have hother := entry_join hroot hentry hmem (by simp)
      obtain rfl := Entry.file.inj (Except.ok.inj (hother.symm.trans hfile))
      rfl
  | directory other =>
      have hother := entry_join hroot hentry hmem (by simp)
      cases hother.symm.trans hfile
  | link target =>
      obtain ⟨trail, hresolve, hat⟩ := entry_eq_ok_iff.mp hfile
      simp only [visitEntry_link, hfollow, if_true, visitTarget, hresolve, hat]

/-- Whatever stands at the end of names that a walk can pass is visited in its directory. -/
theorem WalkedFrom.exists_visitEntry_of_passable (hroot : WellNamed fs.root)
    (hfollow : config.followLinks = true)
    (hwalked : WalkedFrom fs config root visits)
    (hpassable : Passable fs config root (names ++ [name]))
    (hentry : fs.entry (Path.below root (names ++ [name])) = .ok entry) :
    ∃ here ancestors inner found descend, Placed fs root names here ancestors inner ∧
      (name, found) ∈ inner ∧
        visitEntry fs config descend (here :: ancestors) name found ⊆ visits := by
  have hne := hwalked.root_ne_empty
  obtain ⟨hbefore, hback, hexcluded, hdepth⟩ := hpassable.directory
  rw [below_concat] at hentry
  obtain ⟨inner, found, hinner, hmem⟩ := exists_entry_of_entry_join
    (below_ne_empty hne hbefore.isName) (hpassable.isName name (by simp)) hentry
  obtain ⟨here, ancestors, others, hcomes⟩ := exists_comesTo hroot hfollow hbefore hback hexcluded
    (isDirectory_iff.mpr ⟨inner, hinner⟩) hne
  have hplaced := hcomes.placed hroot
  obtain rfl := Entry.directory.inj (Except.ok.inj (hinner.symm.trans hplaced.entry_eq))
  have hlength : config.maxDepth.all ((here :: ancestors).length ≤ ·) = true := by
    rwa [List.length_cons, hplaced.length_eq]
  obtain ⟨descend, hsubset⟩ := hwalked.exists_visitEntry_subset hcomes hlength hmem
  exact ⟨here, ancestors, inner, found, descend, hplaced, hmem, hsubset⟩

/-- Nothing is visited behind a link that leads back. -/
theorem WalkedFrom.path_ne_of_leadsBack (hroot : WellNamed fs.root)
    (hwalked : WalkedFrom fs config root visits)
    (hback : LeadsBack fs root names) {rest : List String} (hrest : rest ≠ [])
    (hnames : ∀ name ∈ names ++ rest, IsName name) :
    ∀ visit ∈ visits, visit.path ≠ Path.below root (names ++ rest) := by
  intro visit hvisit hpath
  have hne := hwalked.root_ne_empty
  obtain ⟨trail, entries, hresolve, hat, hwalked⟩ := hwalked
  obtain ⟨others, here, ancestors, inner, name, entry, hcomes, hmem, hhere⟩ :=
    hwalked.exists_comesTo_of_mem (.start hresolve hat) hvisit
  have hplaced := hcomes.placed hroot
  have hname := ((wellNamed_of_entry_eq_directory hroot hplaced.entry_eq).2.of_mem hmem).1
  rw [hpath, hplaced.path_eq, ← below_concat] at hhere
  have hsame : names ++ rest = others ++ [name] :=
    eq_of_below_eq hne hnames
      (List.forall_mem_append.mpr ⟨hplaced.isName, List.forall_mem_singleton.mpr hname⟩) hhere
  -- The names of the link come before the last name, so the walk came through the link.
  obtain ⟨init, last, rfl⟩ := (List.eq_nil_or_concat' rest).resolve_left hrest
  rw [← List.append_assoc] at hsame
  obtain ⟨rfl, -⟩ := List.append_singleton_inj.mp hsame
  exact hcomes.not_leadsBack hroot (List.prefix_append names init) hback

end Visits

/-! ## The whole walk -/

/-- The last of the names is that of a file which is looked for. -/
def IsSource (config : Config) (names : List String) : Prop :=
  ∃ name extension wanted, names.getLast? = some name ∧ HasExtension name extension ∧
    wanted ∈ config.extensions ∧ equalIgnoringCase wanted extension = true

/-- The visits of a walk that follows links are sorted, and nothing is lost but behind links back. -/
structure FollowsLinks (fs : FileSystem) (config : Config) (root : String) (visits : List Visit) :
    Prop where
  sorted : (sourcesOf visits).Pairwise Precedes
  nodup : (sourcesOf visits).Nodup
  reported : ∀ names, Passable fs config root names → LeadsBack fs root names →
    ∃ before, before <+: names ∧ before ≠ names ∧
      fs.SamePlace (Path.below root before) (Path.below root names) ∧
      (diagnosticsOf visits).filter (·.path = Path.below root names) =
        [loopDiagnostic (Path.below root names) (Path.below root before)]
  notEntered : ∀ names, LeadsBack fs root names → ∀ rest, rest ≠ [] →
    (∀ name ∈ names ++ rest, IsName name) →
      Path.below root (names ++ rest) ∉ sourcesOf visits ∧
        Path.below root (names ++ rest) ∉ (diagnosticsOf visits).map Diagnostic.path
  found : ∀ names content, Passable fs config root names → IsSource config names →
    fs.entry (Path.below root names) = .ok (.file content) →
      (Path.below root names ∈ sourcesOf visits ∧ content.size ≤ config.maxFileSize) ∨
        (tooLargeDiagnostic (Path.below root names) content.size config.maxFileSize ∈
          diagnosticsOf visits ∧ config.maxFileSize < content.size)

section Whole

variable {fs : FileSystem} {config : Config} {root : String} {visits : List Visit}

theorem WalkedFrom.reported (hroot : WellNamed fs.root) (hfollow : config.followLinks = true)
    (hwalked : WalkedFrom fs config root visits)
    (hpairwise : visits.Pairwise fun a b => Precedes a.path b.path) {names : List String}
    (hpassable : Passable fs config root names) (hback : LeadsBack fs root names) :
    ∃ before, before <+: names ∧ before ≠ names ∧
      fs.SamePlace (Path.below root before) (Path.below root names) ∧
      (diagnosticsOf visits).filter (·.path = Path.below root names) =
        [loopDiagnostic (Path.below root names) (Path.below root before)] := by
  rcases List.eq_nil_or_concat' names with rfl | ⟨names, name, rfl⟩
  · obtain ⟨before, hbegins, hne, -⟩ := hback.onTheWay
    exact absurd (List.prefix_nil.mp hbegins) hne
  · obtain ⟨found, hfound⟩ := isDirectory_iff.mp hback.directory
    obtain ⟨here, ancestors, inner, entry, descend, hplaced, hmem, hsubset⟩ :=
      hwalked.exists_visitEntry_of_passable hroot hfollow hpassable hfound
    obtain ⟨before, hbegins, hplace, hvisits⟩ :=
      visitEntry_of_leadsBack hroot hfollow hplaced hmem hback descend
    obtain ⟨hlonger, hne⟩ := prefix_concat_and_ne hbegins name
    refine ⟨before, hlonger, hne, hplace, ?_⟩
    have hvisit := hsubset (hvisits ▸ List.mem_singleton_self _)
    exact filter_path_eq_singleton (pairwise_diagnosticsOf hpairwise)
      (List.mem_filterMap.mpr ⟨_, hvisit, rfl⟩)

theorem WalkedFrom.found (hroot : WellNamed fs.root) (hfollow : config.followLinks = true)
    (hwalked : WalkedFrom fs config root visits)
    {names : List String} {content : ByteArray} (hpassable : Passable fs config root names)
    (hsource : IsSource config names)
    (hfile : fs.entry (Path.below root names) = .ok (.file content)) :
    (Path.below root names ∈ sourcesOf visits ∧ content.size ≤ config.maxFileSize) ∨
      (tooLargeDiagnostic (Path.below root names) content.size config.maxFileSize ∈
        diagnosticsOf visits ∧ config.maxFileSize < content.size) := by
  rcases List.eq_nil_or_concat' names with rfl | ⟨names, name, rfl⟩
  · obtain ⟨_, _, _, hlast, -⟩ := hsource
    cases hlast
  · obtain ⟨here, ancestors, inner, entry, descend, hplaced, hmem, hsubset⟩ :=
      hwalked.exists_visitEntry_of_passable hroot hfollow hpassable hfile
    rw [visitEntry_of_file hroot hfollow hplaced hmem hfile descend] at hsubset
    have hpath : isSourcePath config (Path.below root (names ++ [name])) = true :=
      (isSourcePath_below_iff hwalked.root_ne_empty (by simp) hpassable.isName).mpr hsource
    rw [visitFile, if_pos hpath] at hsubset
    by_cases hlarge : config.maxFileSize < content.size
    · rw [if_pos hlarge] at hsubset
      exact .inr ⟨List.mem_filterMap.mpr ⟨_, hsubset List.mem_cons_self, rfl⟩, hlarge⟩
    · rw [if_neg hlarge] at hsubset
      exact .inl ⟨List.mem_filterMap.mpr ⟨_, hsubset List.mem_cons_self, rfl⟩,
        Nat.not_lt.mp hlarge⟩

theorem WalkedFrom.followsLinks (hroot : WellNamed fs.root) (hfollow : config.followLinks = true)
    (hwalked : WalkedFrom fs config root visits)
    (hpairwise : visits.Pairwise fun a b => Precedes a.path b.path) :
    FollowsLinks fs config root visits := by
  have hsorted := pairwise_sourcesOf hpairwise
  constructor
  · exact hsorted
  · exact hsorted.imp Precedes.ne
  · exact fun names hpassable hback =>
      hwalked.reported hroot hfollow hpairwise hpassable hback
  · intro names hback rest hrest hnames
    have hpath := hwalked.path_ne_of_leadsBack hroot hback hrest hnames
    constructor
    · intro hsource
      obtain ⟨visit, hvisit, hsome⟩ := List.mem_filterMap.mp hsource
      exact hpath visit hvisit (Visit.path_eq_of_source? hsome)
    · intro hdiagnostic
      obtain ⟨diagnostic, hmem, heq⟩ := List.mem_map.mp hdiagnostic
      obtain ⟨visit, hvisit, hsome⟩ := List.mem_filterMap.mp hmem
      exact hpath visit hvisit ((Visit.path_eq_of_diagnostic? hsome).trans heq)
  · exact fun names content hpassable hsource hfile =>
      hwalked.found hroot hfollow hpassable hsource hfile

theorem exists_visits_of_isDirectory (config : Config) (hdirectory : fs.isDirectory root = true) :
    ∃ visits, Walk.visits fs root config = .ok visits := by
  obtain ⟨entries, hentry⟩ := isDirectory_iff.mp hdirectory
  obtain ⟨trail, hresolve, hat⟩ := entry_eq_ok_iff.mp hentry
  exact ⟨_, visits_eq_ok_iff.mpr ⟨trail, entries, hresolve, hat, rfl⟩⟩

/--
A walk that follows links ends, at a root that is no directory with a failure, and otherwise with
the visits of the only walk there is; and these follow the links.
-/
theorem visits_follow_links (hroot : WellNamed fs.root) (hfollow : config.followLinks = true)
    (root : String) :
    (fs.isDirectory root = false → ∃ failure, Walk.visits fs root config = .error failure) ∧
      (fs.isDirectory root = true → ∃ visits, Walk.visits fs root config = .ok visits ∧
        (∀ other, WalkedFrom fs config root other ↔ other = visits) ∧
        FollowsLinks fs config root visits) := by
  constructor
  · intro hnone
    cases hvisits : Walk.visits fs root config with
    | error failure => exact ⟨failure, rfl⟩
    | ok visits =>
        obtain ⟨trail, entries, hresolve, hat, -⟩ := visits_eq_ok_iff.mp hvisits
        have hdirectory : fs.isDirectory root = true :=
          isDirectory_iff.mpr ⟨entries, entry_eq_ok_iff.mpr ⟨trail, hresolve, hat⟩⟩
        cases hnone.symm.trans hdirectory
  · intro hdirectory
    obtain ⟨visits, hvisits⟩ := exists_visits_of_isDirectory config hdirectory
    have hwalked := walkedFrom_of_visits hvisits
    refine ⟨visits, hvisits, fun other => ⟨?_, ?_⟩,
      hwalked.followsLinks hroot hfollow (pairwise_of_visits hroot hvisits)⟩
    · exact fun hother => hother.unique hwalked
    · rintro rfl
      exact hwalked

end Whole

/-! ## A link in a directory to this directory -/

def loopedDirectory : List (String × Entry) :=
  [("flow.py", .file "x = 1\n".toUTF8), ("loop", .link "/pkg")]

def loopedTop : List (String × Entry) :=
  [("gone", .link "nowhere"), ("pkg", .directory loopedDirectory)]

def loopedTree : FileSystem where
  root := .directory loopedTop

theorem wellNamed_loopedTree : WellNamed loopedTree.root := by decide

theorem entry_loopedTree_root : loopedTree.entry "/" = .ok loopedTree.root :=
  entry_eq_ok_iff.mpr ⟨[], resolve_slash rfl, rfl⟩

theorem mem_loopedTop : ("pkg", .directory loopedDirectory) ∈ loopedTop :=
  List.mem_cons_of_mem _ List.mem_cons_self

theorem entry_loopedTree_pkg :
    loopedTree.entry (Path.below "/" ["pkg"]) = .ok (.directory loopedDirectory) :=
  entry_join wellNamed_loopedTree entry_loopedTree_root mem_loopedTop (by simp)

theorem linkText?_loopedTree_pkg : loopedTree.linkText? (Path.below "/" ["pkg"]) = none :=
  linkText?_join wellNamed_loopedTree entry_loopedTree_root mem_loopedTop

theorem linkText?_loopedTree_loop :
    loopedTree.linkText? (Path.below "/" ["pkg", "loop"]) = some "/pkg" :=
  linkText?_join wellNamed_loopedTree entry_loopedTree_pkg
    (List.mem_cons_of_mem _ List.mem_cons_self)

theorem below_slash_pkg : Path.below "/" ["pkg"] = "/pkg" :=
  join_slash (by decide)

theorem below_slash_loop : Path.below "/" ["pkg", "loop"] = "/pkg/loop" := by
  have hend : "/pkg".endsWith "/" = false := by
    rw [← Bool.not_eq_true, endsWith_slash_iff]
    decide
  have hjoin : Path.join "/pkg" "loop" = "/pkg/loop" := by
    simp [Path.join, hend]
  rw [← hjoin, ← below_slash_pkg]
  rfl

/-- The path of the link and the path of the directory lead to the same place. -/
theorem resolve_loopedTree :
    loopedTree.resolve (Path.below "/" ["pkg"]) = .ok [("pkg", .directory loopedDirectory)] ∧
      loopedTree.resolve (Path.below "/" ["pkg", "loop"]) =
        .ok [("pkg", .directory loopedDirectory)] := by
  have hpkg : pathPieces "/pkg" = ["", "pkg"] := by rfl
  have hloop : pathPieces "/pkg/loop" = ["", "pkg", "loop"] := by rfl
  have hgone : ("pkg" == "gone") = false := by decide
  have hflow : ("loop" == "flow.py") = false := by decide
  rw [below_slash_pkg, below_slash_loop]
  constructor
  · simp [resolve, start, hpkg, follow, entryAt, loopedTree, loopedTop, bind, Except.bind, List.lookup_cons,
      hgone]
  · simp [resolve, start, hpkg, hloop, follow, entryAt, loopedTree, loopedTop, loopedDirectory, bind,
      Except.bind, List.lookup_cons, hgone, hflow, maxLinks]

theorem passable_loopedTree {name : String} (hname : IsName name) :
    Passable loopedTree { followLinks := true } "/" ["pkg", name] := by
  have hentered : "pkg" ∉ ({ followLinks := true } : Config).excludedDirectories := by decide
  refine ⟨?_, List.forall_mem_singleton.mpr hentered, fun before hbegins hne hback => ?_,
    fun depth hmax => by cases hmax⟩
  · exact List.forall_mem_cons.mpr ⟨by decide, List.forall_mem_singleton.mpr hname⟩
  obtain ⟨earlier, hearlier, hearlierNe, -⟩ := hback.onTheWay
  have hshort : before <+: ["pkg"] := prefix_of_prefix_concat hbegins hne
  rcases List.prefix_concat_iff.mp (show before <+: [] ++ ["pkg"] from hshort) with rfl | hnone
  · have hlink := hback.link
    rw [List.nil_append, linkText?_loopedTree_pkg] at hlink
    cases hlink
  · obtain rfl := List.prefix_nil.mp hnone
    exact hearlierNe (List.prefix_nil.mp hearlier)

theorem leadsBack_loopedTree : LeadsBack loopedTree "/" ["pkg", "loop"] where
  link := by
    rw [linkText?_loopedTree_loop]
    rfl
  directory := isDirectory_iff.mpr
    ⟨loopedDirectory, entry_eq_ok_iff.mpr ⟨_, resolve_loopedTree.2, rfl⟩⟩
  onTheWay := ⟨["pkg"], by decide, by decide, _, _, resolve_loopedTree.1, resolve_loopedTree.2, rfl⟩

/-- The link is reported once, and the file beside it is found. -/
theorem visits_follow_links_loopedTree :
    WellNamed loopedTree.root ∧ LeadsBack loopedTree "/" ["pkg", "loop"] ∧
      ∃ visits, Walk.visits loopedTree "/" { followLinks := true } = .ok visits ∧
        ((diagnosticsOf visits).filter (·.path = Path.below "/" ["pkg", "loop"])).length = 1 ∧
        Path.below "/" ["pkg", "flow.py"] ∈ sourcesOf visits := by
  have hdirectory : loopedTree.isDirectory "/" = true :=
    isDirectory_iff.mpr ⟨_, entry_loopedTree_root⟩
  have hfile : loopedTree.entry (Path.below "/" ["pkg", "flow.py"]) =
      .ok (.file "x = 1\n".toUTF8) :=
    entry_join wellNamed_loopedTree entry_loopedTree_pkg List.mem_cons_self (by simp)
  have hsource : IsSource { followLinks := true } ["pkg", "flow.py"] :=
    ⟨"flow.py", "py", "py", rfl, ⟨"flow", by decide, by decide, rfl⟩, by decide, by decide⟩
  have hsmall : ¬ ({ followLinks := true } : Config).maxFileSize < "x = 1\n".toUTF8.size := by
    decide
  obtain ⟨-, hends⟩ :=
    @visits_follow_links loopedTree { followLinks := true } wellNamed_loopedTree rfl "/"
  obtain ⟨visits, hvisits, -, hfollows⟩ := hends hdirectory
  obtain ⟨before, -, -, -, hreported⟩ :=
    hfollows.reported _ (passable_loopedTree (by decide)) leadsBack_loopedTree
  refine ⟨wellNamed_loopedTree, leadsBack_loopedTree, visits, hvisits, ?_, ?_⟩
  · rw [hreported]
    rfl
  · rcases hfollows.found _ _ (passable_loopedTree (by decide)) hsource hfile with
      ⟨hmem, -⟩ | ⟨-, hlarge⟩
    · exact hmem
    · exact absurd hlarge hsmall

end Walk
end FlowSurvey
