import FlowSurvey.Proofs.PathOrder
import FlowSurvey.Walk

/-!
# What a walk comes by

A walk keeps to the paths of the file system: the path of every directory that it
is in leads to the entries that it visits there.  This is kept on the way down,
through real directories as well as through links, if the names in the directories
are such that a path with a name behind it leads to the entry of that name.  So
every visit is about a fault or about a file at the path that the visit names, and
that path is the one that the walk started with, with names behind it.
-/

namespace FlowSurvey

namespace FileSystem

mutual

/-- No directory has a name twice, and all names are names. -/
def WellNamed : Entry → Prop
  | .directory entries => (entries.map Prod.fst).Nodup ∧ WellNamedAmong entries
  | _ => True

def WellNamedAmong : List (String × Entry) → Prop
  | [] => True
  | (name, entry) :: rest => IsName name ∧ WellNamed entry ∧ WellNamedAmong rest

end

mutual

def decidableWellNamed : (entry : Entry) → Decidable (WellNamed entry)
  | .directory entries =>
      have := decidableWellNamedAmong entries
      inferInstanceAs (Decidable ((entries.map Prod.fst).Nodup ∧ WellNamedAmong entries))
  | .file _ | .link _ => isTrue trivial

def decidableWellNamedAmong :
    (entries : List (String × Entry)) → Decidable (WellNamedAmong entries)
  | [] => isTrue trivial
  | (name, entry) :: rest =>
      have := decidableWellNamed entry
      have := decidableWellNamedAmong rest
      inferInstanceAs (Decidable (IsName name ∧ WellNamed entry ∧ WellNamedAmong rest))

end

instance (entry : Entry) : Decidable (WellNamed entry) :=
  decidableWellNamed entry

theorem WellNamedAmong.of_mem
    {entries : List (String × Entry)} (hentries : WellNamedAmong entries)
    {name : String} {entry : Entry} (hmem : (name, entry) ∈ entries) :
    IsName name ∧ WellNamed entry := by
  induction entries with
  | nil => exact absurd hmem List.not_mem_nil
  | cons first rest ih =>
      obtain ⟨firstName, firstEntry⟩ := first
      rw [WellNamedAmong] at hentries
      rcases List.mem_cons.mp hmem with heq | hrest
      · obtain ⟨rfl, rfl⟩ := Prod.mk.inj heq
        exact ⟨hentries.1, hentries.2.1⟩
      · exact ih hentries.2.2 hrest

theorem mem_of_lookup_eq_some
    {entries : List (String × Entry)} {name : String} {entry : Entry}
    (hlookup : entries.lookup name = some entry) : (name, entry) ∈ entries := by
  obtain ⟨before, after, rfl, _⟩ := List.lookup_eq_some_iff.mp hlookup
  simp

theorem lookup_eq_some_of_mem
    {entries : List (String × Entry)} (hnodup : (entries.map Prod.fst).Nodup)
    {name : String} {entry : Entry} (hmem : (name, entry) ∈ entries) :
    entries.lookup name = some entry := by
  obtain ⟨before, after, rfl⟩ := List.append_of_mem hmem
  refine List.lookup_eq_some_iff.mpr ⟨before, after, rfl, ?_⟩
  intro other hother
  rw [bne_iff_ne]
  rintro rfl
  rw [List.map_append, List.map_cons, List.nodup_append] at hnodup
  exact hnodup.2.2 _ (List.mem_map_of_mem hother) _ List.mem_cons_self rfl

theorem IsTrail.wellNamed_entryAt
    {root : Entry} {trail : Trail} (htrail : IsTrail root trail) (hroot : WellNamed root) :
    WellNamed (entryAt root trail) := by
  induction htrail with
  | nil => exact hroot
  | cons _ hdirectory _ hlookup _ ih =>
      rw [hdirectory, WellNamed] at ih
      exact (ih.2.of_mem (mem_of_lookup_eq_some hlookup)).2

theorem entry_eq_ok_iff {fs : FileSystem} {path : String} {entry : Entry} :
    fs.entry path = .ok entry ↔
      ∃ trail, fs.resolve path = .ok trail ∧ entryAt fs.root trail = entry := by
  unfold FileSystem.entry
  cases fs.resolve path with
  | error fault => simp [Except.map]
  | ok trail => simp [Except.map]

theorem isFile_iff {fs : FileSystem} {path : String} :
    fs.isFile path = true ↔ ∃ content, fs.entry path = .ok (.file content) := by
  unfold isFile
  split
  next content hentry => simp [hentry]
  next hentry => simpa using hentry

/-- A single slash leads to the top of a file system. -/
theorem resolve_slash {fs : FileSystem} {entries : List (String × Entry)}
    (hroot : fs.root = .directory entries) : fs.resolve "/" = .ok [] := by
  have hslash : pathOf [] = "/" := by rfl
  rw [← hslash]
  exact resolve_pathOf .nil hroot

section Directory

variable {fs : FileSystem} {directory : String} {entries : List (String × Entry)}

theorem wellNamed_of_entry_eq_directory
    (hroot : WellNamed fs.root) (hentries : fs.entry directory = .ok (.directory entries)) :
    (entries.map Prod.fst).Nodup ∧ WellNamedAmong entries := by
  obtain ⟨trail, hresolve, hat⟩ := entry_eq_ok_iff.mp hentries
  have hnamed := (isTrail_resolve hresolve).wellNamed_entryAt hroot
  rwa [hat, WellNamed] at hnamed

theorem entry_join
    (hroot : WellNamed fs.root) (hentries : fs.entry directory = .ok (.directory entries))
    {name : String} {entry : Entry} (hmem : (name, entry) ∈ entries)
    (hlink : ∀ target, entry ≠ .link target) :
    fs.entry (Path.join directory name) = .ok entry := by
  obtain ⟨hnodup, hnamed⟩ := wellNamed_of_entry_eq_directory hroot hentries
  obtain ⟨trail, hresolve, hat⟩ := entry_eq_ok_iff.mp hentries
  have hlookup := lookup_eq_some_of_mem hnodup hmem
  have hjoin := resolve_join_entry hresolve hat (hnamed.of_mem hmem).1 hlookup hlink
  exact entry_eq_ok_iff.mpr ⟨_, hjoin, rfl⟩

theorem readText_join
    (hroot : WellNamed fs.root) (hentries : fs.entry directory = .ok (.directory entries))
    {name text : String} (hmem : (name, .file text.toUTF8) ∈ entries) :
    fs.readText (Path.join directory name) = .ok text := by
  have hvalid : String.fromUTF8? text.toUTF8 = some text := by
    rw [String.fromUTF8?, dif_pos (show text.toUTF8.IsValidUTF8 from text.isValidUTF8)]
    rfl
  rw [readText, entry_join hroot hentries hmem (by simp)]
  simp only [hvalid]

theorem readText_slash
    (hroot : WellNamed fs.root) (htop : fs.root = .directory entries) {name text : String}
    (hmem : (name, .file text.toUTF8) ∈ entries) : fs.readText ("/" ++ name) = .ok text := by
  have hentries : fs.entry "/" = .ok (.directory entries) :=
    entry_eq_ok_iff.mpr ⟨[], resolve_slash htop, htop⟩
  rw [← join_slash ((wellNamed_of_entry_eq_directory hroot hentries).2.of_mem hmem).1]
  exact readText_join hroot hentries hmem

end Directory

end FileSystem

namespace Walk

open FileSystem

variable {fs : FileSystem} {config : Config}

/-- A file that a walk comes by, with the size that it sees there. -/
inductive Seen (fs : FileSystem) (config : Config) : String → Nat → Prop
  | file {directory name : String} {entries : List (String × Entry)} {content : ByteArray}
      (hentries : fs.entry directory = .ok (.directory entries))
      (hmem : (name, .file content) ∈ entries) :
      Seen fs config (Path.join directory name) content.size
  | link {directory name target : String} {entries : List (String × Entry)}
      (hfollow : config.followLinks = false)
      (hentries : fs.entry directory = .ok (.directory entries))
      (hmem : (name, .link target) ∈ entries)
      (hfile : fs.isFile (Path.join directory name) = true) :
      Seen fs config (Path.join directory name) target.utf8ByteSize
  | target {directory name target : String} {entries : List (String × Entry)}
      {content : ByteArray}
      (hfollow : config.followLinks = true)
      (hentries : fs.entry directory = .ok (.directory entries))
      (hmem : (name, .link target) ∈ entries)
      (hfile : fs.entry (Path.join directory name) = .ok (.file content)) :
      Seen fs config (Path.join directory name) content.size

/-- A visit that is about a fault or about a file that the walk comes by. -/
def Founded (fs : FileSystem) (config : Config) (visit : Visit) : Prop :=
  (∃ fault, visit = .skipped fault) ∨
    ∃ path size, Seen fs config path size ∧ visit ∈ visitFile config path size

/-- The same, where the file has names that lead to it from a directory. -/
def FoundedBelow (fs : FileSystem) (config : Config) (directory : String) (visit : Visit) : Prop :=
  (∃ fault, visit = .skipped fault) ∨
    ∃ names size, names ≠ [] ∧ (∀ name ∈ names, IsName name) ∧
      Seen fs config (Path.below directory names) size ∧
      visit ∈ visitFile config (Path.below directory names) size

theorem FoundedBelow.founded {directory : String} {visit : Visit}
    (hvisit : FoundedBelow fs config directory visit) : Founded fs config visit := by
  rcases hvisit with hfault | ⟨_, size, _, _, hfile⟩
  · exact Or.inl hfault
  · exact Or.inr ⟨_, size, hfile⟩

theorem FoundedBelow.of_join {directory name : String} {visit : Visit} (hname : IsName name)
    (hvisit : FoundedBelow fs config (Path.join directory name) visit) :
    FoundedBelow fs config directory visit := by
  rcases hvisit with hfault | ⟨names, size, _, hnames, hfile⟩
  · exact Or.inl hfault
  · exact Or.inr ⟨name :: names, size, List.cons_ne_nil _ _,
      List.forall_mem_cons.mpr ⟨hname, hnames⟩, hfile⟩

section Step

variable {descend : List Ancestor → List (String × Entry) → List Visit}
  {directory : Ancestor} {ancestors : List Ancestor} {name : String} {visit : Visit}

theorem mem_visitDirectory_iff {entries : List (String × Entry)} :
    visit ∈ visitDirectory config descend ancestors name directory entries ↔
      config.excludes name = false ∧ visit ∈ descend (directory :: ancestors) entries := by
  unfold visitDirectory
  cases config.excludes name <;> simp

/-- What is visited at a link that is followed, all cases of it. -/
theorem cases_of_mem_visitTarget
    {path : String} (hvisit : visit ∈ visitTarget fs config descend ancestors name path) :
    (∃ fault, visit = .skipped fault) ∨
      (∃ content, fs.entry path = .ok (.file content) ∧
        visit ∈ visitFile config path content.size) ∨
      ∃ entries position, fs.entry path = .ok (.directory entries) ∧
        visit ∈ descend (⟨path, position⟩ :: ancestors) entries := by
  unfold visitTarget at hvisit
  split at hvisit
  next fault _ => exact Or.inl ⟨_, List.mem_singleton.mp hvisit⟩
  next trail hresolve =>
    split at hvisit
    next content hat =>
      exact Or.inr (Or.inl ⟨content, entry_eq_ok_iff.mpr ⟨trail, hresolve, hat⟩, hvisit⟩)
    next entries hat =>
      dsimp only at hvisit
      split at hvisit
      next ancestor _ => exact Or.inl ⟨_, List.mem_singleton.mp hvisit⟩
      next =>
        exact Or.inr (Or.inr ⟨entries, _, entry_eq_ok_iff.mpr ⟨trail, hresolve, hat⟩,
          (mem_visitDirectory_iff.mp hvisit).2⟩)
    next target hat => exact absurd hvisit List.not_mem_nil

/-- One entry of a directory: whatever lies below it may be taken as founded there. -/
theorem foundedBelow_of_mem_visitEntry
    (hroot : WellNamed fs.root)
    (hdescend : ∀ below entries, fs.entry below.path = .ok (.directory entries) →
      ∀ visit ∈ descend (below :: directory :: ancestors) entries,
        FoundedBelow fs config below.path visit)
    {entries : List (String × Entry)}
    (hentries : fs.entry directory.path = .ok (.directory entries))
    {entry : Entry} (hmem : (name, entry) ∈ entries)
    (hvisit : visit ∈ visitEntry fs config descend (directory :: ancestors) name entry) :
    FoundedBelow fs config directory.path visit := by
  have hname := ((wellNamed_of_entry_eq_directory hroot hentries).2.of_mem hmem).1
  have hhere {size : Nat} (hseen : Seen fs config (Path.join directory.path name) size)
      (hfile : visit ∈ visitFile config (Path.join directory.path name) size) :
      FoundedBelow fs config directory.path visit :=
    Or.inr ⟨[name], size, List.cons_ne_nil _ _, List.forall_mem_singleton.mpr hname, hseen, hfile⟩
  cases entry with
  | file content =>
      simp only [visitEntry, List.headD_cons] at hvisit
      exact hhere (.file hentries hmem) hvisit
  | directory inner =>
      simp only [visitEntry, List.headD_cons] at hvisit
      have hinner := entry_join hroot hentries hmem (by simp)
      have hbelow := (mem_visitDirectory_iff.mp hvisit).2
      exact (hdescend ⟨_, _⟩ inner hinner visit hbelow).of_join hname
  | link target =>
      simp only [visitEntry, List.headD_cons] at hvisit
      split at hvisit
      next hfollow =>
        rcases cases_of_mem_visitTarget hvisit with
          hfault | ⟨content, hfile, hcontent⟩ | ⟨inner, position, hinner, hbelow⟩
        · exact Or.inl hfault
        · exact hhere (.target hfollow hentries hmem hfile) hcontent
        · exact (hdescend ⟨_, position⟩ inner hinner visit hbelow).of_join hname
      next hfollow =>
        obtain ⟨hfile, hcontent⟩ := List.mem_ite_nil_right.mp hvisit
        have hunfollowed : config.followLinks = false := by simpa using hfollow
        exact hhere (.link hunfollowed hentries hmem hfile) hcontent

end Step

theorem mem_visitEntries_succ_iff
    {fuel : Nat} {ancestors : List Ancestor} {entries : List (String × Entry)} {visit : Visit} :
    visit ∈ visitEntries fs config (fuel + 1) ancestors entries ↔
      config.maxDepth.all (ancestors.length ≤ ·) = true ∧
        ∃ name entry, (name, entry) ∈ entries ∧
          visit ∈ visitEntry fs config (visitEntries fs config fuel) ancestors name entry := by
  rw [visitEntries, List.mem_ite_nil_right, List.mem_flatMap]
  simp only [inOrder, List.mem_mergeSort, Prod.exists]

/-- The walk below a directory, by induction on how deep it may still go. -/
theorem foundedBelow_of_mem_visitEntries
    (hroot : WellNamed fs.root) {fuel : Nat} {directory : Ancestor} {ancestors : List Ancestor}
    {entries : List (String × Entry)}
    (hentries : fs.entry directory.path = .ok (.directory entries)) {visit : Visit}
    (hvisit : visit ∈ visitEntries fs config fuel (directory :: ancestors) entries) :
    FoundedBelow fs config directory.path visit := by
  induction fuel generalizing directory ancestors entries visit with
  | zero => exact absurd hvisit List.not_mem_nil
  | succ n ih =>
      obtain ⟨_, name, entry, hmem, hentry⟩ := mem_visitEntries_succ_iff.mp hvisit
      refine foundedBelow_of_mem_visitEntry hroot ?_ hentries hmem hentry
      intro below inner hinner visit hbelow
      exact ih hinner hbelow

/-- A walk starts in the directory that its root leads to, with fuel to go as deep as it can. -/
theorem visits_eq_ok_iff {root : String} {visits : List Visit} :
    Walk.visits fs root config = .ok visits ↔
      ∃ trail entries, fs.resolve root = .ok trail ∧
        entryAt fs.root trail = .directory entries ∧
        visits = visitEntries fs config (deepest fs + 1)
          [⟨root, position trail⟩] entries := by
  unfold Walk.visits
  cases hresolve : fs.resolve root with
  | error fault => simp
  | ok trail =>
      cases hat : entryAt fs.root trail with
      | directory entries => simp [hat, eq_comm]
      | file content | link target => simp [hat]

theorem foundedBelow_of_mem_visits
    (hroot : WellNamed fs.root) {root : String} {visits : List Visit}
    (hvisits : Walk.visits fs root config = .ok visits) {visit : Visit} (hvisit : visit ∈ visits) :
    FoundedBelow fs config root visit := by
  obtain ⟨trail, entries, hresolve, hat, rfl⟩ := visits_eq_ok_iff.mp hvisits
  exact foundedBelow_of_mem_visitEntries hroot (entry_eq_ok_iff.mpr ⟨trail, hresolve, hat⟩) hvisit

end Walk
end FlowSurvey
