import FlowSurvey.Proofs.WalkVisits

/-!
# Sizes of the files that are found

A file that is too large is not scanned, but reported.  For a file that stands in
a directory, and for one behind a link that is followed, the size that the walk
sees is that of the content.  Behind a link that is not followed the content is
read all the same, and there the walk sees the length of the text in the link.  So
the limit holds for what is scanned exactly if at every such link both lengths are
on the same side of it.
-/

namespace FlowSurvey

namespace FileSystem

/-- The text in the link that stands at a path, if a link stands there. -/
def linkText? (fs : FileSystem) (path : String) : Option String :=
  match fs.start path with
  | .error _ => none
  | .ok place =>
      match follow fs.root maxLinks (pathPieces path).dropLast place with
      | .error _ => none
      | .ok trail =>
          match entryAt fs.root trail with
          | .directory entries =>
              match entries.lookup ((pathPieces path).getLastD "") with
              | some (.link text) => some text
              | _ => none
          | _ => none

variable {fs : FileSystem} {directory name : String} {entries : List (String × Entry)}

theorem linkText?_join
    (hroot : WellNamed fs.root) (hentries : fs.entry directory = .ok (.directory entries))
    {entry : Entry} (hmem : (name, entry) ∈ entries) :
    fs.linkText? (Path.join directory name) =
      match entry with
      | .link text => some text
      | _ => none := by
  obtain ⟨hnodup, hnamed⟩ := wellNamed_of_entry_eq_directory hroot hentries
  obtain ⟨trail, hresolve, hat⟩ := entry_eq_ok_iff.mp hentries
  have hlookup := lookup_eq_some_of_mem hnodup hmem
  obtain ⟨place, before, hstart, hpieces, hbefore⟩ :=
    resolve_join hresolve (hnamed.of_mem hmem).1
  have hlast : (before ++ [name]).getLastD "" = name := by simp
  simp only [linkText?, hstart, hpieces, List.dropLast_concat, hbefore, hat, hlast, hlookup]
  cases entry <;> rfl

end FileSystem

def Visit.file? : Visit → Option String
  | .source path | .tooLarge path _ _ => some path
  | .skipped _ => none

def filesOf (visits : List Visit) : List String :=
  visits.filterMap Visit.file?

namespace Walk

open FileSystem

/-- The size that a walk sees at a path with some content behind it. -/
def seenSize (fs : FileSystem) (config : Config) (path : String) (content : ByteArray) : Nat :=
  if config.followLinks then content.size
  else ((fs.linkText? path).map String.utf8ByteSize).getD content.size

/--
What is scanned is no larger than the limit, and what is reported as too large is
larger than it.
-/
def LimitHolds (fs : FileSystem) (config : Config) (visits : List Visit) : Prop :=
  (∀ path, .source path ∈ visits →
    ∃ content, fs.entry path = .ok (.file content) ∧ content.size ≤ config.maxFileSize) ∧
  ∀ path size limit, .tooLarge path size limit ∈ visits →
    ∃ content, fs.entry path = .ok (.file content) ∧ config.maxFileSize < content.size

variable {fs : FileSystem} {config : Config}

theorem exists_content_of_seen
    (hroot : WellNamed fs.root) {path : String} {size : Nat} (hseen : Seen fs config path size) :
    ∃ content, fs.entry path = .ok (.file content) ∧ size = seenSize fs config path content := by
  cases hseen with
  | file hentries hmem =>
      refine ⟨_, entry_join hroot hentries hmem (by simp), ?_⟩
      simp [seenSize, linkText?_join hroot hentries hmem]
  | link hfollow hentries hmem hfile =>
      obtain ⟨content, hcontent⟩ := isFile_iff.mp hfile
      refine ⟨content, hcontent, ?_⟩
      simp [seenSize, hfollow, linkText?_join hroot hentries hmem]
  | target hfollow hentries hmem hfile =>
      exact ⟨_, hfile, by simp [seenSize, hfollow]⟩

theorem mem_visitFile_cases
    {path : String} {size : Nat} {visit : Visit} (hvisit : visit ∈ visitFile config path size) :
    (visit = .source path ∧ size ≤ config.maxFileSize) ∨
      (visit = .tooLarge path size config.maxFileSize ∧ config.maxFileSize < size) := by
  unfold visitFile at hvisit
  split at hvisit
  · split at hvisit
    next hlarge => exact Or.inr ⟨List.mem_singleton.mp hvisit, hlarge⟩
    next hsmall => exact Or.inl ⟨List.mem_singleton.mp hvisit, Nat.not_lt.mp hsmall⟩
  · exact absurd hvisit List.not_mem_nil

theorem isSourcePath_of_mem_visitFile
    {path : String} {size : Nat} {visit : Visit} (hvisit : visit ∈ visitFile config path size) :
    isSourcePath config path = true := by
  unfold visitFile at hvisit
  exact (List.mem_ite_nil_right.mp hvisit).1

section Visits

variable {root : String} {visits : List Visit}

theorem content_of_mem_visits
    (hroot : WellNamed fs.root) (hvisits : Walk.visits fs root config = .ok visits)
    {visit : Visit} (hvisit : visit ∈ visits) {path : String} (hfile : visit.file? = some path) :
    ∃ content, fs.entry path = .ok (.file content) ∧
      ((visit = .source path ∧ seenSize fs config path content ≤ config.maxFileSize) ∨
        ∃ size limit, visit = .tooLarge path size limit ∧
          config.maxFileSize < seenSize fs config path content) := by
  rcases (foundedBelow_of_mem_visits hroot hvisits hvisit).founded with
    ⟨fault, rfl⟩ | ⟨_, size, hseen, hmem⟩
  · simp [Visit.file?] at hfile
  · obtain ⟨content, hcontent, hsize⟩ := exists_content_of_seen hroot hseen
    rcases mem_visitFile_cases hmem with ⟨rfl, hsmall⟩ | ⟨rfl, hlarge⟩
    · obtain rfl := Option.some.inj hfile
      exact ⟨content, hcontent, Or.inl ⟨rfl, hsize ▸ hsmall⟩⟩
    · obtain rfl := Option.some.inj hfile
      exact ⟨content, hcontent, Or.inr ⟨_, _, rfl, hsize ▸ hlarge⟩⟩

theorem content_of_source
    (hroot : WellNamed fs.root) (hvisits : Walk.visits fs root config = .ok visits)
    {path : String} (hvisit : .source path ∈ visits) :
    ∃ content, fs.entry path = .ok (.file content) ∧
      seenSize fs config path content ≤ config.maxFileSize := by
  simpa using content_of_mem_visits hroot hvisits hvisit rfl

theorem content_of_tooLarge
    (hroot : WellNamed fs.root) (hvisits : Walk.visits fs root config = .ok visits)
    {path : String} {size limit : Nat} (hvisit : .tooLarge path size limit ∈ visits) :
    ∃ content, fs.entry path = .ok (.file content) ∧
      config.maxFileSize < seenSize fs config path content := by
  simpa using content_of_mem_visits hroot hvisits hvisit rfl

theorem mem_filesOf_iff {path : String} :
    path ∈ filesOf visits ↔
      .source path ∈ visits ∨ ∃ size limit, .tooLarge path size limit ∈ visits := by
  rw [filesOf, List.mem_filterMap]
  constructor
  · rintro ⟨visit, hvisit, hfile⟩
    cases visit with
    | source other =>
        obtain rfl : other = path := by simpa [Visit.file?] using hfile
        exact Or.inl hvisit
    | tooLarge other size limit =>
        obtain rfl : other = path := by simpa [Visit.file?] using hfile
        exact Or.inr ⟨size, limit, hvisit⟩
    | skipped fault => simp [Visit.file?] at hfile
  · rintro (hsource | ⟨size, limit, hlarge⟩)
    · exact ⟨_, hsource, rfl⟩
    · exact ⟨_, hlarge, rfl⟩

/-- At every link that is found but not followed, text and content agree about the limit. -/
def LinksAgree (fs : FileSystem) (config : Config) (visits : List Visit) : Prop :=
  ∀ path ∈ filesOf visits, ∀ text content, config.followLinks = false →
    fs.linkText? path = some text → fs.entry path = .ok (.file content) →
    (config.maxFileSize < text.utf8ByteSize ↔ config.maxFileSize < content.size)

theorem LinksAgree.lt_seenSize_iff
    (hagree : LinksAgree fs config visits) {path : String} (hpath : path ∈ filesOf visits)
    {content : ByteArray} (hcontent : fs.entry path = .ok (.file content)) :
    config.maxFileSize < seenSize fs config path content ↔
      config.maxFileSize < content.size := by
  unfold seenSize
  cases hfollow : config.followLinks with
  | true => simp
  | false =>
      cases htext : fs.linkText? path with
      | none => simp
      | some text => simpa using hagree path hpath text content hfollow htext hcontent

theorem LinksAgree.limitHolds
    (hroot : WellNamed fs.root) (hvisits : Walk.visits fs root config = .ok visits)
    (hagree : LinksAgree fs config visits) : LimitHolds fs config visits := by
  constructor
  · intro path hsource
    obtain ⟨content, hcontent, hsmall⟩ := content_of_source hroot hvisits hsource
    have hiff := hagree.lt_seenSize_iff (mem_filesOf_iff.mpr (Or.inl hsource)) hcontent
    exact ⟨content, hcontent, by omega⟩
  · intro path size limit hlarge
    obtain ⟨content, hcontent, hsize⟩ := content_of_tooLarge hroot hvisits hlarge
    have hiff := hagree.lt_seenSize_iff
      (mem_filesOf_iff.mpr (Or.inr ⟨size, limit, hlarge⟩)) hcontent
    exact ⟨content, hcontent, hiff.mp hsize⟩

theorem linksAgree_of_limitHolds
    (hroot : WellNamed fs.root) (hvisits : Walk.visits fs root config = .ok visits)
    (hholds : LimitHolds fs config visits) : LinksAgree fs config visits := by
  intro path hpath text content hfollow htext hcontent
  have hseen : seenSize fs config path content = text.utf8ByteSize := by
    simp [seenSize, hfollow, htext]
  rcases mem_filesOf_iff.mp hpath with hsource | ⟨size, limit, hlarge⟩
  · obtain ⟨read, hread, hsmall⟩ := hholds.1 path hsource
    obtain ⟨weighed, hweighed, hweight⟩ := content_of_source hroot hvisits hsource
    obtain rfl : read = content := by simpa [hcontent, eq_comm] using hread
    obtain rfl : weighed = read := by simpa [hcontent, eq_comm] using hweighed
    omega
  · obtain ⟨read, hread, hbig⟩ := hholds.2 path size limit hlarge
    obtain ⟨weighed, hweighed, hweight⟩ := content_of_tooLarge hroot hvisits hlarge
    obtain rfl : read = content := by simpa [hcontent, eq_comm] using hread
    obtain rfl : weighed = read := by simpa [hcontent, eq_comm] using hweighed
    omega

/--
What a walk finds are files.  The limit holds for what can be read from them
exactly if the links agree about it, and so whenever links are followed.
-/
theorem limitHolds_iff_linksAgree
    (hroot : WellNamed fs.root) (hvisits : Walk.visits fs root config = .ok visits) :
    (∀ path ∈ filesOf visits, ∃ content, fs.entry path = .ok (.file content)) ∧
      (LimitHolds fs config visits ↔ LinksAgree fs config visits) ∧
      (config.followLinks = true → LimitHolds fs config visits) := by
  refine ⟨?_, ⟨linksAgree_of_limitHolds hroot hvisits, fun h => h.limitHolds hroot hvisits⟩, ?_⟩
  · intro path hpath
    obtain ⟨visit, hvisit, hfile⟩ := List.mem_filterMap.mp hpath
    obtain ⟨content, hcontent, _⟩ := content_of_mem_visits hroot hvisits hvisit hfile
    exact ⟨content, hcontent⟩
  · intro hfollow
    have hagree : LinksAgree fs config visits := by
      intro path _ text content hunfollowed
      simp [hfollow] at hunfollowed
    exact hagree.limitHolds hroot hvisits

end Visits

/-! ## A short link to a long file -/

/-- A file of eighteen bytes, and a link to it with a text of six. -/
def linkedTree : FileSystem where
  root := .directory
    [("big.py", .file "x = 1\ny = 2\nz = 3\n".toUTF8), ("l.py", .link "big.py")]

theorem wellNamed_linkedTree : WellNamed linkedTree.root := by decide

theorem resolve_linkedTree_root : linkedTree.resolve "/" = .ok [] :=
  resolve_slash rfl

theorem entry_linkedTree_link :
    linkedTree.entry "/l.py" = .ok (.file "x = 1\ny = 2\nz = 3\n".toUTF8) := by
  have hpath : pathPieces "/l.py" = ["", "l.py"] := by rfl
  have htarget : pathPieces "big.py" = ["big.py"] := by rfl
  have hother : ("l.py" == "big.py") = false := by decide
  have hresolve : linkedTree.resolve "/l.py" =
      .ok [("big.py", .file "x = 1\ny = 2\nz = 3\n".toUTF8)] := by
    simp [resolve, start, hpath, htarget, follow, entryAt, linkedTree, bind, Except.bind,
      List.lookup_cons, hother, maxLinks]
  rw [FileSystem.entry, hresolve]
  rfl

theorem visits_linkedTree (config : Config) :
    Walk.visits linkedTree "/" config =
      .ok (visitEntries linkedTree config (deepest linkedTree + 1) [⟨"/", position []⟩]
        [("big.py", .file "x = 1\ny = 2\nz = 3\n".toUTF8), ("l.py", .link "big.py")]) :=
  visits_eq_ok_iff.mpr ⟨[], _, resolve_linkedTree_root, rfl, rfl⟩

/-- With links followed the limit of ten bytes holds in the tree. -/
theorem limitHolds_iff_linksAgree_linkedTree :
    WellNamed linkedTree.root ∧
      ∃ visits, Walk.visits linkedTree "/" { followLinks := true, maxFileSize := 10 } = .ok visits ∧
        LimitHolds linkedTree { followLinks := true, maxFileSize := 10 } visits := by
  have hvisits := visits_linkedTree { followLinks := true, maxFileSize := 10 }
  have hholds := limitHolds_iff_linksAgree wellNamed_linkedTree hvisits
  exact ⟨wellNamed_linkedTree, _, hvisits, hholds.2.2 rfl⟩

/-- The link is passed as a source file, though what is read from it is over ten bytes. -/
theorem not_limitHolds_linkedTree :
    WellNamed linkedTree.root ∧
      ∃ visits, Walk.visits linkedTree "/" { maxFileSize := 10 } = .ok visits ∧
        .source "/l.py" ∈ visits ∧ ¬LimitHolds linkedTree { maxFileSize := 10 } visits := by
  have hjoin : Path.join "/" "l.py" = "/l.py" := join_slash (by decide)
  have hfile : linkedTree.isFile "/l.py" = true := isFile_iff.mpr ⟨_, entry_linkedTree_link⟩
  have hsource : isSourcePath { maxFileSize := 10 } "/l.py" = true := by rfl
  have hshort : ¬10 < "big.py".utf8ByteSize := by decide
  have hlink : ∀ descend, Visit.source "/l.py" ∈
      visitEntry linkedTree { maxFileSize := 10 } descend [⟨"/", position []⟩] "l.py"
        (.link "big.py") := by
    intro descend
    simp [visitEntry, hjoin, hfile, visitFile, hsource, hshort]
  have hmem : Visit.source "/l.py" ∈
      visitEntries linkedTree { maxFileSize := 10 } (deepest linkedTree + 1)
        [⟨"/", position []⟩]
        [("big.py", .file "x = 1\ny = 2\nz = 3\n".toUTF8), ("l.py", .link "big.py")] :=
    mem_visitEntries_succ_iff.mpr ⟨rfl, "l.py", .link "big.py", by simp, hlink _⟩
  refine ⟨wellNamed_linkedTree, _, visits_linkedTree _, hmem, ?_⟩
  intro hholds
  obtain ⟨content, hcontent, hsmall⟩ := hholds.1 _ hmem
  obtain rfl : _ = content := by simpa [entry_linkedTree_link] using hcontent
  exact absurd hsmall (by decide)

end Walk
end FlowSurvey
