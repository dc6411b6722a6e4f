import FlowSurvey.Proofs.WalkEnds

/-!
# Where a walk comes

A walk comes from its root into other directories, one name at a time, and on the way it keeps
the directories that it is in.  These are the ones that the beginnings of its path lead to.  So it
can be told from the path alone where a walk comes: into every directory that is neither excluded
nor too deep, unless a link on the way leads back to a directory that is already on the way.
-/

namespace FlowSurvey

namespace FileSystem

/-- Two paths lead to the same place. -/
def SamePlace (fs : FileSystem) (first second : String) : Prop :=
  ∃ trail other, fs.resolve first = .ok trail ∧ fs.resolve second = .ok other ∧
    position trail = position other

/-- What stands at the end of a path is found in the directory that the path goes through. -/
theorem exists_entry_of_entry_join {fs : FileSystem} {directory name : String}
    (hdirectory : directory ≠ "") (hname : IsName name) {entry : Entry}
    (hentry : fs.entry (Path.join directory name) = .ok entry) :
    ∃ entries found, fs.entry directory = .ok (.directory entries) ∧ (name, found) ∈ entries := by
  obtain ⟨found, hresolve, -⟩ := entry_eq_ok_iff.mp hentry
  obtain ⟨trail, entries, entry, hfirst, hat, hlookup⟩ :=
    exists_directory_of_resolve_join hdirectory hname hresolve
  exact ⟨entries, entry, entry_eq_ok_iff.mpr ⟨trail, hfirst, hat⟩, mem_of_lookup_eq_some hlookup⟩

end FileSystem

namespace Walk

open FileSystem FlowSurvey.Path

/-- At the end of the names stands a link to a directory that is already on the way there. -/
structure LeadsBack (fs : FileSystem) (root : String) (names : List String) : Prop where
  link : (fs.linkText? (Path.below root names)).isSome = true
  directory : fs.isDirectory (Path.below root names) = true
  onTheWay : ∃ before, before <+: names ∧ before ≠ names ∧
    fs.SamePlace (Path.below root before) (Path.below root names)

/--
The directories on the way that the names go are entered: none of them is excluded, and no link
among them leads back.  And the names are not too many.
-/
structure Passable (fs : FileSystem) (config : Config) (root : String) (names : List String) :
    Prop where
  isName : ∀ name ∈ names, IsName name
  notExcluded : ∀ name ∈ names.dropLast, name ∉ config.excludedDirectories
  noReturn : ∀ before, before <+: names → before ≠ names → ¬LeadsBack fs root before
  withinDepth : ∀ depth, config.maxDepth = some depth → names.length ≤ depth

section Passable

variable {fs : FileSystem} {config : Config} {root : String} {names : List String} {name : String}

theorem prefix_concat_and_ne {before : List String} (hbegins : before <+: names) (name : String) :
    before <+: names ++ [name] ∧ before ≠ names ++ [name] := by
  refine ⟨hbegins.trans (List.prefix_append _ _), fun heq => ?_⟩
  have hlength := hbegins.length_le
  rw [heq, List.length_append, List.length_singleton] at hlength
  omega

theorem prefix_of_prefix_concat {before : List String} (hbegins : before <+: names ++ [name])
    (hne : before ≠ names ++ [name]) : before <+: names :=
  (List.prefix_concat_iff.mp hbegins).resolve_left hne

/-- The directory before the last name is on the way, so the walk enters it. -/
theorem Passable.directory (hpassable : Passable fs config root (names ++ [name])) :
    Passable fs config root names ∧ ¬LeadsBack fs root names ∧
      (∀ other ∈ names, config.excludes other = false) ∧
      config.maxDepth.all (names.length + 1 ≤ ·) = true := by
  obtain ⟨hnames, hexcluded, hreturn, hdepth⟩ := hpassable
  rw [List.dropLast_concat] at hexcluded
  have hself := prefix_concat_and_ne (List.prefix_refl names) name
  refine ⟨⟨?_, ?_, ?_, ?_⟩, hreturn _ hself.1 hself.2, ?_, ?_⟩
  · exact fun other hother => hnames other (List.mem_append_left _ hother)
  · exact fun other hother => hexcluded other (List.dropLast_subset _ hother)
  · intro before hbegins _
    have hbefore := prefix_concat_and_ne hbegins name
    exact hreturn before hbefore.1 hbefore.2
  · intro depth hmax
    have hle := hdepth depth hmax
    rw [List.length_append, List.length_singleton] at hle
    omega
  · simpa [Config.excludes] using hexcluded
  · rw [maxDepth_all_iff]
    simpa using hdepth

end Passable

/-! ## The way of a walk -/

/-- By these names a walk comes into a directory, with the directories that it is then in. -/
inductive ComesTo (fs : FileSystem) (config : Config) (root : String) :
    List String → Ancestor → List Ancestor → List (String × Entry) → Prop
  | start {trail : Trail} {entries : List (String × Entry)} (hresolve : fs.resolve root = .ok trail)
      (hat : entryAt fs.root trail = .directory entries) :
      ComesTo fs config root [] ⟨root, position trail⟩ [] entries
  | enter {names : List String} {here below : Ancestor} {ancestors : List Ancestor}
      {entries inner : List (String × Entry)} {name : String} {entry : Entry}
      (hbefore : ComesTo fs config root names here ancestors entries)
      (hdepth : config.maxDepth.all ((here :: ancestors).length ≤ ·) = true)
      (hmem : (name, entry) ∈ entries)
      (henters : Enters fs config here ancestors name entry below inner) :
      ComesTo fs config root (names ++ [name]) below (here :: ancestors) inner

/-- The path and the directories of a walk are the ones that the names lead through. -/
structure Placed (fs : FileSystem) (root : String) (names : List String) (here : Ancestor)
    (ancestors : List Ancestor) (entries : List (String × Entry)) : Prop where
  isName : ∀ name ∈ names, IsName name
  leads : ∃ trail, fs.resolve (Path.below root names) = .ok trail ∧
    entryAt fs.root trail = .directory entries ∧ here = ⟨Path.below root names, position trail⟩
  length_eq : ancestors.length = names.length
  mem_iff : ∀ a, a ∈ here :: ancestors ↔ ∃ before trail, before <+: names ∧
    fs.resolve (Path.below root before) = .ok trail ∧
    a = ⟨Path.below root before, position trail⟩

section ComesTo

variable {fs : FileSystem} {config : Config} {root : String} {names : List String}
  {here : Ancestor} {ancestors : List Ancestor} {entries : List (String × Entry)} {name : String}
  {entry : Entry}

theorem Placed.entry_eq (hplaced : Placed fs root names here ancestors entries) :
    fs.entry (Path.below root names) = .ok (.directory entries) := by
  obtain ⟨trail, hresolve, hat, -⟩ := hplaced.leads
  exact entry_eq_ok_iff.mpr ⟨trail, hresolve, hat⟩

theorem Placed.path_eq (hplaced : Placed fs root names here ancestors entries) :
    here.path = Path.below root names := by
  obtain ⟨_, -, -, rfl⟩ := hplaced.leads
  rfl

theorem Placed.start {trail : Trail} (hresolve : fs.resolve root = .ok trail)
    (hat : entryAt fs.root trail = .directory entries) :
    Placed fs root [] ⟨root, position trail⟩ [] entries := by
  refine ⟨by simp, ⟨trail, hresolve, hat, rfl⟩, rfl, fun a => ?_⟩
  rw [List.mem_singleton]
  constructor
  · rintro rfl
    exact ⟨[], trail, List.prefix_refl [], hresolve, rfl⟩
  · rintro ⟨before, other, hbegins, hother, rfl⟩
    obtain rfl := List.prefix_nil.mp hbegins
    obtain rfl := Except.ok.inj (hresolve.symm.trans hother)
    rfl

/-- The directory that is entered has the position of what its path leads to. -/
theorem Placed.exists_trail_of_enters (hroot : WellNamed fs.root)
    (hplaced : Placed fs root names here ancestors entries) (hmem : (name, entry) ∈ entries)
    {below : Ancestor} {inner : List (String × Entry)}
    (henters : Enters fs config here ancestors name entry below inner) :
    ∃ trail, fs.resolve (Path.below root (names ++ [name])) = .ok trail ∧
      entryAt fs.root trail = .directory inner ∧
      below = ⟨Path.below root (names ++ [name]), position trail⟩ := by
  obtain ⟨trail, hresolve, hat, rfl⟩ := hplaced.leads
  obtain ⟨hnodup, hnamed⟩ := wellNamed_of_entry_eq_directory hroot hplaced.entry_eq
  rw [below_concat]
  cases henters with
  | directory =>
      have hlookup := lookup_eq_some_of_mem hnodup hmem
      refine ⟨_, resolve_join_entry hresolve hat (hnamed.of_mem hmem).1 hlookup (by simp), rfl, ?_⟩
      rw [position_cons]
  | link _ _ hfound hfoundAt => exact ⟨_, hfound, hfoundAt, rfl⟩

theorem Placed.enter (hroot : WellNamed fs.root)
    (hplaced : Placed fs root names here ancestors entries) (hmem : (name, entry) ∈ entries)
    {below : Ancestor} {inner : List (String × Entry)}
    (henters : Enters fs config here ancestors name entry below inner) :
    Placed fs root (names ++ [name]) below (here :: ancestors) inner := by
  obtain ⟨trail, hresolve, hat, rfl⟩ := hplaced.exists_trail_of_enters hroot hmem henters
  have hname := ((wellNamed_of_entry_eq_directory hroot hplaced.entry_eq).2.of_mem hmem).1
  refine ⟨?_, ⟨trail, hresolve, hat, rfl⟩, by simp [hplaced.length_eq], fun a => ?_⟩
  · exact List.forall_mem_append.mpr ⟨hplaced.isName, List.forall_mem_singleton.mpr hname⟩
  rw [List.mem_cons, hplaced.mem_iff]
  constructor
  · rintro (rfl | ⟨before, other, hbegins, hother, rfl⟩)
    · exact ⟨_, trail, List.prefix_refl _, hresolve, rfl⟩
    · exact ⟨before, other, hbegins.trans (List.prefix_append _ _), hother, rfl⟩
  · rintro ⟨before, other, hbegins, hother, rfl⟩
    rcases List.prefix_concat_iff.mp hbegins with rfl | hbegins
    · obtain rfl := Except.ok.inj (hresolve.symm.trans hother)
      exact .inl rfl
    · exact .inr ⟨before, other, hbegins, hother, rfl⟩

theorem ComesTo.placed (hroot : WellNamed fs.root)
    (hcomes : ComesTo fs config root names here ancestors entries) :
    Placed fs root names here ancestors entries := by
  induction hcomes with
  | start hresolve hat => exact .start hresolve hat
  | enter _ _ hmem henters ih => exact ih.enter hroot hmem henters

/-- Every directory on the way was entered by its name from the directory before it. -/
theorem ComesTo.exists_enters (hcomes : ComesTo fs config root names here ancestors entries)
    {before : List String} (hbegins : before ++ [name] <+: names) :
    ∃ here ancestors entries entry below inner,
      ComesTo fs config root before here ancestors entries ∧ (name, entry) ∈ entries ∧
        Enters fs config here ancestors name entry below inner := by
  induction hcomes with
  | start => simp at hbegins
  | @enter _ _ _ _ _ _ _ entry hbefore _ hmem henters ih =>
      rcases List.prefix_concat_iff.mp hbegins with heq | hbegins
      · obtain ⟨rfl, rfl⟩ := List.append_singleton_inj.mp heq
        exact ⟨_, _, _, entry, _, _, hbefore, hmem, henters⟩
      · exact ih hbegins

/-- A link that leads to a place on the way is one that leads back, and no other link is. -/
theorem Placed.leadsBack_iff (hroot : WellNamed fs.root)
    (hplaced : Placed fs root names here ancestors entries) {target : String}
    (hmem : (name, .link target) ∈ entries) {trail : Trail} {inner : List (String × Entry)}
    (hresolve : fs.resolve (Path.below root (names ++ [name])) = .ok trail)
    (hat : entryAt fs.root trail = .directory inner) :
    LeadsBack fs root (names ++ [name]) ↔
      ∃ a ∈ here :: ancestors, a.position = position trail := by
  constructor
  · rintro ⟨-, -, before, hbegins, hne, first, second, hfirst, hsecond, hsame⟩
    obtain rfl := Except.ok.inj (hresolve.symm.trans hsecond)
    exact ⟨_, (hplaced.mem_iff _).mpr ⟨before, first, prefix_of_prefix_concat hbegins hne, hfirst,
      rfl⟩, hsame⟩
  · rintro ⟨a, ha, hsame⟩
    obtain ⟨before, first, hbegins, hfirst, rfl⟩ := (hplaced.mem_iff a).mp ha
    have hbefore := prefix_concat_and_ne hbegins name
    refine ⟨?_, isDirectory_iff.mpr ⟨inner, entry_eq_ok_iff.mpr ⟨trail, hresolve, hat⟩⟩,
      before, hbefore.1, hbefore.2, first, trail, hfirst, hresolve, hsame⟩
    rw [below_concat, linkText?_join hroot hplaced.entry_eq hmem]
    rfl

theorem ComesTo.not_leadsBack (hroot : WellNamed fs.root)
    (hcomes : ComesTo fs config root names here ancestors entries) {before : List String}
    (hbegins : before <+: names) : ¬LeadsBack fs root before := by
  intro hback
  rcases List.eq_nil_or_concat' before with rfl | ⟨before, name, rfl⟩
  · obtain ⟨earlier, hearlier, hne, -⟩ := hback.onTheWay
    exact hne (List.prefix_nil.mp hearlier)
  · obtain ⟨here, ancestors, entries, entry, below, inner, hbefore, hmem, henters⟩ :=
      hcomes.exists_enters hbegins
    have hplaced := hbefore.placed hroot
    cases henters with
    | directory =>
        have hlink := hback.link
        rw [below_concat, linkText?_join hroot hplaced.entry_eq hmem] at hlink
        cases hlink
    | link _ _ hresolve hat hnew =>
        rw [hplaced.path_eq, ← below_concat] at hresolve
        obtain ⟨a, ha, hsame⟩ := (hplaced.leadsBack_iff hroot hmem hresolve hat).mp hback
        exact hnew a ha hsame

/-- A walk that follows links comes into every directory that names lead to which it can pass. -/
theorem exists_comesTo (hroot : WellNamed fs.root) (hfollow : config.followLinks = true)
    (hpassable : Passable fs config root names) (hback : ¬LeadsBack fs root names)
    (hexcluded : ∀ name ∈ names, config.excludes name = false)
    (hdirectory : fs.isDirectory (Path.below root names) = true) (hne : root ≠ "") :
    ∃ here ancestors entries, ComesTo fs config root names here ancestors entries := by
  induction names using List.reverseRecOn with
  | nil =>
      obtain ⟨entries, hentry⟩ := isDirectory_iff.mp hdirectory
      obtain ⟨trail, hresolve, hat⟩ := entry_eq_ok_iff.mp hentry
      exact ⟨_, _, entries, .start hresolve hat⟩
  | append_singleton names name ih =>
      obtain ⟨hbefore, hnoReturn, hentered, hdepth⟩ := hpassable.directory
      have hname : IsName name := hpassable.isName name (by simp)
      obtain ⟨inner, hinner⟩ := isDirectory_iff.mp hdirectory
      rw [below_concat] at hinner
      obtain ⟨entries, entry, hentries, hmem⟩ :=
        exists_entry_of_entry_join (below_ne_empty hne hbefore.isName) hname hinner
      obtain ⟨here, ancestors, others, hcomes⟩ :=
        ih hbefore hnoReturn hentered (isDirectory_iff.mpr ⟨entries, hentries⟩)
      have hplaced := hcomes.placed hroot
      obtain rfl := Entry.directory.inj (Except.ok.inj (hentries.symm.trans hplaced.entry_eq))
      have hlength : config.maxDepth.all ((here :: ancestors).length ≤ ·) = true := by
        rwa [List.length_cons, hplaced.length_eq]
      have hfree : config.excludes name = false := hexcluded name (by simp)
      suffices hexists : ∃ below inner, Enters fs config here ancestors name entry below inner by
        obtain ⟨below, inner, henters⟩ := hexists
        exact ⟨below, _, inner, hcomes.enter hlength hmem henters⟩
      cases entry with
      | file content =>
          have hfile := entry_join hroot hentries hmem (by simp)
          rw [hinner] at hfile
          cases hfile
      | directory inner => exact ⟨_, _, .directory hfree⟩
      | link target =>
          obtain ⟨trail, hresolve, hat⟩ := entry_eq_ok_iff.mp hinner
          refine ⟨_, inner, .link hfollow hfree (hplaced.path_eq ▸ hresolve) hat ?_⟩
          intro a ha hsame
          rw [← below_concat] at hresolve
          exact hback ((hplaced.leadsBack_iff hroot hmem hresolve hat).mpr ⟨a, ha, hsame⟩)

end ComesTo

end Walk
end FlowSurvey
