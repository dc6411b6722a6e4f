import FlowSurvey.FileSystem
import Mathlib.Data.List.Basic

/-!
# The resolution of paths

A path is followed piece by piece, so what a longer path leads to is found by
going on from where its first part leads.  The names on a trail are names that a
directory can have, and each is found where the trail says.  So the path without
links that a trail spells leads back to it, and a path with a name put behind it
leads to the entry of that name in the directory.
-/

namespace FlowSurvey

/-! ## Pieces -/

namespace Path

theorem pieces_eq_splitOn (cs : List Char) : pieces cs = cs.splitOn '/' := by
  induction cs with
  | nil => rfl
  | cons c rest ih =>
      rw [pieces, List.splitOn_cons_eq_if_modifyHead, ih]
      by_cases hslash : c = '/'
      · simp [hslash]
      · rw [if_neg hslash, if_neg (by simpa using hslash)]
        cases hpieces : rest.splitOn '/' with
        | nil => exact absurd hpieces (List.splitOn_ne_nil _ _)
        | cons piece more => rfl

theorem slash_not_mem_of_mem_pieces
    {cs piece : List Char} (hpiece : piece ∈ pieces cs) : '/' ∉ piece := by
  induction cs generalizing piece with
  | nil =>
      obtain rfl : piece = [] := by simpa [pieces] using hpiece
      exact List.not_mem_nil
  | cons c rest ih =>
      rw [pieces] at hpiece
      split at hpiece
      next hslash =>
        rcases List.mem_cons.mp hpiece with rfl | hrest
        · exact List.not_mem_nil
        · exact ih hrest
      next hslash =>
        cases hpieces : pieces rest with
        | nil =>
            rw [pieces_eq_splitOn] at hpieces
            exact absurd hpieces (List.splitOn_ne_nil _ _)
        | cons first more =>
            rw [hpieces] at hpiece ih
            rcases List.mem_cons.mp hpiece with rfl | hmore
            · rw [List.mem_cons, not_or]
              exact ⟨fun h => hslash h.symm, ih List.mem_cons_self⟩
            · exact ih (List.mem_cons_of_mem _ hmore)

end Path

theorem slash_not_mem_of_mem_pathPieces
    {path piece : String} (hpiece : piece ∈ pathPieces path) : '/' ∉ piece.toList := by
  obtain ⟨cs, hcs, rfl⟩ := List.mem_map.mp hpiece
  simpa using Path.slash_not_mem_of_mem_pieces hcs

theorem pathPieces_empty : pathPieces "" = [""] := by
  rfl

theorem pathPieces_append_slash (first second : String) :
    pathPieces (first ++ "/" ++ second) = pathPieces first ++ pathPieces second := by
  have hsplit :=
    List.splitOn_append_cons_self (a := '/') first.toList second.toList
  simp only [pathPieces, Path.pieces_eq_splitOn, String.toList_append]
  rw [← List.map_append, ← hsplit]
  simp

theorem pathPieces_of_no_slash {name : String} (hname : '/' ∉ name.toList) :
    pathPieces name = [name] := by
  simp [pathPieces, Path.pieces_eq_splitOn, List.splitOn_eq_singleton hname]

theorem pathPieces_intercalate
    {names : List String} (hnames : ∀ name ∈ names, '/' ∉ name.toList) (hne : names ≠ []) :
    pathPieces ("/".intercalate names) = names := by
  have hsplit : (['/'].intercalate (names.map String.toList)).splitOn '/' =
      names.map String.toList :=
    List.splitOn_intercalate '/' (by simpa using hnames) (by simpa using hne)
  simp only [pathPieces, Path.pieces_eq_splitOn, String.toList_intercalate]
  have hslash : "/".toList = ['/'] := by rfl
  rw [hslash, hsplit]
  simp

/-- A text that names an entry of a directory and nothing else. -/
structure IsName (name : String) : Prop where
  ne_empty : name ≠ ""
  ne_current : name ≠ "."
  ne_parent : name ≠ ".."
  no_slash : '/' ∉ name.toList

theorem isName_iff {name : String} :
    IsName name ↔ name ≠ "" ∧ name ≠ "." ∧ name ≠ ".." ∧ '/' ∉ name.toList :=
  ⟨fun h => ⟨h.ne_empty, h.ne_current, h.ne_parent, h.no_slash⟩,
    fun ⟨hempty, hcurrent, hparent, hslash⟩ => ⟨hempty, hcurrent, hparent, hslash⟩⟩

instance (name : String) : Decidable (IsName name) :=
  decidable_of_iff _ isName_iff.symm

namespace FileSystem

/-! ## Following pieces -/

section Follow

variable {root : Entry} {trail : Trail} {entries : List (String × Entry)}

theorem follow_cons_trivial
    (hdirectory : entryAt root trail = .directory entries) {piece : String}
    (hpiece : piece = "" ∨ piece = ".") (links : Nat) (rest : List String) :
    follow root links (piece :: rest) trail = follow root links rest trail := by
  rw [follow]
  simp only [hdirectory, if_pos hpiece]

theorem follow_cons_parent
    (hdirectory : entryAt root trail = .directory entries)
    (links : Nat) (rest : List String) :
    follow root links (".." :: rest) trail = follow root links rest (trail.drop 1) := by
  have hpiece : ¬(".." = "" ∨ ".." = ".") := by decide
  rw [follow]
  simp only [hdirectory, if_neg hpiece, if_true]

theorem follow_cons_missing
    (hdirectory : entryAt root trail = .directory entries) {piece : String}
    (htrivial : ¬(piece = "" ∨ piece = ".")) (hparent : piece ≠ "..")
    (hlookup : entries.lookup piece = none) (links : Nat) (rest : List String) :
    follow root links (piece :: rest) trail = .error .missing := by
  rw [follow]
  simp only [hdirectory, if_neg htrivial, if_neg hparent, hlookup]

theorem follow_cons_linkLoop
    (hdirectory : entryAt root trail = .directory entries) {piece target : String}
    (htrivial : ¬(piece = "" ∨ piece = ".")) (hparent : piece ≠ "..")
    (hlookup : entries.lookup piece = some (.link target)) (rest : List String) :
    follow root 0 (piece :: rest) trail = .error .linkLoop := by
  rw [follow]
  simp only [hdirectory, if_neg htrivial, if_neg hparent, hlookup]

theorem follow_cons_link
    (hdirectory : entryAt root trail = .directory entries) {piece target : String}
    (htrivial : ¬(piece = "" ∨ piece = ".")) (hparent : piece ≠ "..")
    (hlookup : entries.lookup piece = some (.link target)) (n : Nat) (rest : List String) :
    follow root (n + 1) (piece :: rest) trail =
      follow root n (pathPieces target ++ rest)
        (if target.startsWith "/" then [] else trail) := by
  rw [follow]
  simp only [hdirectory, if_neg htrivial, if_neg hparent, hlookup]

theorem follow_cons_entry
    (hdirectory : entryAt root trail = .directory entries) {piece : String} {entry : Entry}
    (htrivial : ¬(piece = "" ∨ piece = ".")) (hparent : piece ≠ "..")
    (hlookup : entries.lookup piece = some entry) (hlink : ∀ target, entry ≠ .link target)
    (links : Nat) (rest : List String) :
    follow root links (piece :: rest) trail =
      follow root links rest ((piece, entry) :: trail) := by
  rw [follow]
  simp only [hdirectory, if_neg htrivial, if_neg hparent, hlookup]

theorem follow_cons_notADirectory
    (hentry : ∀ entries, entryAt root trail ≠ .directory entries)
    (links : Nat) (piece : String) (rest : List String) :
    follow root links (piece :: rest) trail = .error .notADirectory := by
  rw [follow]
  cases hat : entryAt root trail with
  | directory entries => exact absurd hat (hentry entries)
  | _ => rfl

end Follow

/-- How many links are left after the first pieces does not depend on the ones behind. -/
theorem follow_append (root : Entry) (links : Nat) (pieces : List String) (trail : Trail) :
    ∃ left, ∀ more,
      follow root links (pieces ++ more) trail =
        (follow root links pieces trail).bind (follow root left more) := by
  fun_induction follow root links pieces trail with
  | case1 links trail => exact ⟨links, fun more => rfl⟩
  | case2 links trail piece rest entries hdirectory hpiece ih =>
      obtain ⟨left, hleft⟩ := ih
      refine ⟨left, fun more => ?_⟩
      rw [List.cons_append, follow_cons_trivial hdirectory hpiece, hleft]
  | case3 links trail rest entries hdirectory _ ih =>
      obtain ⟨left, hleft⟩ := ih
      refine ⟨left, fun more => ?_⟩
      rw [List.cons_append, follow_cons_parent hdirectory, hleft]
  | case4 links trail piece rest entries hdirectory htrivial hparent hlookup =>
      refine ⟨links, fun more => ?_⟩
      rw [List.cons_append, follow_cons_missing hdirectory htrivial hparent hlookup]
      rfl
  | case5 trail piece rest entries hdirectory htrivial hparent target hlookup =>
      refine ⟨0, fun more => ?_⟩
      rw [List.cons_append, follow_cons_linkLoop hdirectory htrivial hparent hlookup]
      rfl
  | case6 trail piece rest entries hdirectory htrivial hparent target hlookup n ih =>
      obtain ⟨left, hleft⟩ := ih
      refine ⟨left, fun more => ?_⟩
      rw [List.cons_append, follow_cons_link hdirectory htrivial hparent hlookup,
        ← List.append_assoc]
      exact hleft more
  | case7 links trail piece rest entries hdirectory htrivial hparent entry hlink hlookup ih =>
      obtain ⟨left, hleft⟩ := ih
      refine ⟨left, fun more => ?_⟩
      rw [List.cons_append, follow_cons_entry hdirectory htrivial hparent hlookup hlink, hleft]
  | case8 links trail piece rest hentry =>
      refine ⟨links, fun more => ?_⟩
      rw [List.cons_append, follow_cons_notADirectory hentry]
      rfl

/-! ## Trails -/

/-- Every name on a trail is found, and is no link, in the directory before it. -/
inductive IsTrail (root : Entry) : Trail → Prop
  | nil : IsTrail root []
  | cons {trail : Trail} {entries : List (String × Entry)} {name : String} {entry : Entry}
      (before : IsTrail root trail)
      (directory : entryAt root trail = .directory entries)
      (isName : IsName name)
      (found : entries.lookup name = some entry)
      (noLink : ∀ target, entry ≠ .link target) :
      IsTrail root ((name, entry) :: trail)

theorem IsTrail.drop_one {root : Entry} {trail : Trail} (htrail : IsTrail root trail) :
    IsTrail root (trail.drop 1) := by
  cases htrail with
  | nil => exact .nil
  | cons before => exact before

theorem isTrail_follow
    {root : Entry} {links : Nat} {pieces : List String} {trail found : Trail}
    (htrail : IsTrail root trail) (hpieces : ∀ piece ∈ pieces, '/' ∉ piece.toList)
    (hfollow : follow root links pieces trail = .ok found) : IsTrail root found := by
  fun_induction follow root links pieces trail with
  | case1 links trail =>
      obtain rfl : trail = found := by simpa using hfollow
      exact htrail
  | case2 links trail piece rest entries _ _ ih =>
      exact ih htrail (fun p hp => hpieces p (List.mem_cons_of_mem _ hp)) hfollow
  | case3 links trail rest entries _ _ ih =>
      exact ih htrail.drop_one (fun p hp => hpieces p (List.mem_cons_of_mem _ hp)) hfollow
  | case4 | case5 | case8 => simp at hfollow
  | case6 trail piece rest entries _ _ _ target _ n ih =>
      refine ih ?_ ?_ hfollow
      · split
        · exact .nil
        · exact htrail
      · intro p hp
        rcases List.mem_append.mp hp with htarget | hrest
        · exact slash_not_mem_of_mem_pathPieces htarget
        · exact hpieces p (List.mem_cons_of_mem _ hrest)
  | case7 links trail piece rest entries hdirectory htrivial hparent entry hlink hlookup ih =>
      rw [not_or] at htrivial
      have hname : IsName piece :=
        ⟨htrivial.1, htrivial.2, hparent, hpieces piece List.mem_cons_self⟩
      exact ih (htrail.cons hdirectory hname hlookup hlink)
        (fun p hp => hpieces p (List.mem_cons_of_mem _ hp)) hfollow

theorem IsTrail.exists_root_directory
    {root : Entry} {trail : Trail} (htrail : IsTrail root trail)
    {entries : List (String × Entry)} (hdirectory : entryAt root trail = .directory entries) :
    ∃ entries, root = .directory entries := by
  induction htrail generalizing entries with
  | nil => exact ⟨entries, hdirectory⟩
  | cons _ hbefore _ _ _ ih => exact ih hbefore

theorem position_cons (name : String) (entry : Entry) (trail : Trail) :
    position ((name, entry) :: trail) = position trail ++ [name] := by
  simp [position]

theorem IsTrail.isName_of_mem_position
    {root : Entry} {trail : Trail} (htrail : IsTrail root trail)
    {name : String} (hname : name ∈ position trail) : IsName name := by
  induction htrail with
  | nil => simp [position] at hname
  | cons _ _ hisName _ _ ih =>
      rw [position_cons, List.mem_append, List.mem_singleton] at hname
      rcases hname with hbefore | rfl
      · exact ih hbefore
      · exact hisName

theorem follow_name
    {root : Entry} {trail : Trail} {entries : List (String × Entry)}
    (hdirectory : entryAt root trail = .directory entries)
    {name : String} {entry : Entry} (hname : IsName name)
    (hlookup : entries.lookup name = some entry) (hlink : ∀ target, entry ≠ .link target)
    (links : Nat) :
    follow root links [name] trail = .ok ((name, entry) :: trail) := by
  have htrivial : ¬(name = "" ∨ name = ".") := not_or.mpr ⟨hname.ne_empty, hname.ne_current⟩
  rw [follow_cons_entry hdirectory htrivial hname.ne_parent hlookup hlink, follow]

theorem IsTrail.follow_position
    {root : Entry} {trail : Trail} (htrail : IsTrail root trail) (links : Nat) :
    follow root links (position trail) [] = .ok trail := by
  induction htrail with
  | nil => rw [position, List.map_nil, List.reverse_nil, follow]
  | cons _ hdirectory hname hlookup hlink ih =>
      obtain ⟨left, hleft⟩ := follow_append root links (position _) []
      rw [position_cons, hleft, ih]
      exact follow_name hdirectory hname hlookup hlink left

theorem follow_of_append_blank
    {root : Entry} {links : Nat} {pieces : List String} {trail found : Trail}
    (hfollow : follow root links (pieces ++ [""]) trail = .ok found) :
    follow root links pieces trail = .ok found := by
  obtain ⟨left, hleft⟩ := follow_append root links pieces trail
  rw [hleft] at hfollow
  cases hpieces : follow root links pieces trail with
  | error fault =>
      rw [hpieces] at hfollow
      exact hfollow
  | ok reached =>
      have hblank : follow root left [""] reached = .ok found := by
        rw [hpieces] at hfollow
        exact hfollow
      cases hat : entryAt root reached with
      | directory entries =>
          rw [follow_cons_trivial hat (Or.inl rfl), follow] at hblank
          exact hblank
      | file content | link target =>
          rw [follow_cons_notADirectory (by simp [hat])] at hblank
          simp at hblank

/-! ## Paths -/

theorem isTrail_resolve
    {fs : FileSystem} {path : String} {trail : Trail} (hresolve : fs.resolve path = .ok trail) :
    IsTrail fs.root trail := by
  cases hstart : fs.start path with
  | error fault => simp [resolve, hstart, bind, Except.bind] at hresolve
  | ok place =>
      have hplace : IsTrail fs.root place := by
        unfold start at hstart
        split at hstart
        · simp at hstart
        · split at hstart
          · obtain rfl : [] = place := by simpa using hstart
            exact .nil
          · exact isTrail_follow .nil (fun _ => slash_not_mem_of_mem_pathPieces) hstart
      have hfollow : follow fs.root maxLinks (pathPieces path) place = .ok trail := by
        simpa [resolve, hstart, bind, Except.bind] using hresolve
      exact isTrail_follow hplace (fun _ => slash_not_mem_of_mem_pathPieces) hfollow

theorem start_of_absolute (fs : FileSystem) (path : String) :
    fs.start ("/" ++ path) = .ok [] := by
  have hempty : ("/" ++ path).isEmpty = false := by simp [String.isEmpty]
  have habsolute : ("/" ++ path).startsWith "/" = true := by simp
  simp [start, hempty, habsolute]

/-- The path without links to a directory leads to it. -/
theorem resolve_pathOf
    {fs : FileSystem} {trail : Trail} (htrail : IsTrail fs.root trail)
    {entries : List (String × Entry)} (hdirectory : entryAt fs.root trail = .directory entries) :
    fs.resolve (pathOf trail) = .ok trail := by
  obtain ⟨top, htop⟩ := htrail.exists_root_directory hdirectory
  have hroot : entryAt fs.root [] = .directory top := htop
  have hpieces : pathPieces (pathOf trail) =
      "" :: pathPieces ("/".intercalate (position trail)) := by
    simp [pathOf, pathPieces, Path.pieces]
  have hfollow : follow fs.root maxLinks (pathPieces (pathOf trail)) [] = .ok trail := by
    rw [hpieces, follow_cons_trivial hroot (Or.inl rfl)]
    by_cases hnil : position trail = []
    · have hempty : trail = [] := by simpa [position] using hnil
      rw [hnil, String.intercalate_nil, pathPieces_empty,
        follow_cons_trivial hroot (Or.inl rfl), follow, hempty]
    · rw [pathPieces_intercalate (fun name hname => (htrail.isName_of_mem_position hname).no_slash)
        hnil]
      exact htrail.follow_position maxLinks
  have hstart : fs.start (pathOf trail) = .ok [] := start_of_absolute fs _
  simp [resolve, hstart, bind, Except.bind, hfollow]

theorem resolve_eq_ok_iff
    {fs : FileSystem} {path : String} {trail : Trail} :
    fs.resolve path = .ok trail ↔
      ∃ place, fs.start path = .ok place ∧
        follow fs.root maxLinks (pathPieces path) place = .ok trail := by
  cases hstart : fs.start path with
  | error fault => simp [resolve, hstart, bind, Except.bind]
  | ok place => simp [resolve, hstart, bind, Except.bind]

theorem not_startsWith_slash {name : String} (hname : IsName name) :
    name.startsWith "/" = false := by
  rw [String.startsWith_string_eq_false_iff]
  intro hslash
  exact hname.no_slash (hslash.subset (by simp))

theorem endsWith_slash_iff {path : String} :
    path.endsWith "/" = true ↔ ['/'] <:+ path.toList := by
  rw [← String.endsWith_toSlice, String.Slice.endsWith_string_iff]
  simp

theorem join_slash {name : String} (hname : IsName name) : Path.join "/" name = "/" ++ name := by
  have hend : "/".endsWith "/" = true := endsWith_slash_iff.mpr (by simp)
  simp [Path.join, not_startsWith_slash hname, hend]

/--
A path with a name behind it has the pieces of the path and the name, except that
an empty last piece of the path is left out.
-/
theorem exists_pathPieces_join
    {directory name : String} (hdirectory : directory ≠ "") (hname : IsName name) :
    ∃ before, pathPieces (Path.join directory name) = before ++ [name] ∧
      (pathPieces directory = before ∨ pathPieces directory = before ++ [""]) := by
  have hsingle := pathPieces_of_no_slash hname.no_slash
  have hempty : directory.isEmpty = false := by simpa using hdirectory
  cases hend : directory.endsWith "/" with
  | true =>
      obtain ⟨front, hfront⟩ := endsWith_slash_iff.mp hend
      have hsplit : directory = String.ofList front ++ "/" ++ "" := by
        apply String.toList_injective
        simpa using hfront.symm
      have hjoin : Path.join directory name = String.ofList front ++ "/" ++ name := by
        rw [Path.join, not_startsWith_slash hname, hempty, hend, hsplit]
        simp
      refine ⟨pathPieces (String.ofList front), ?_, Or.inr ?_⟩
      · rw [hjoin, pathPieces_append_slash, hsingle]
      · rw [hsplit, pathPieces_append_slash, pathPieces_empty]
  | false =>
      refine ⟨pathPieces directory, ?_, Or.inl rfl⟩
      rw [Path.join, not_startsWith_slash hname, hempty, hend, ← hsingle,
        ← pathPieces_append_slash]
      simp

theorem start_join
    (fs : FileSystem) {directory name : String} (hdirectory : directory ≠ "")
    (hname : IsName name) : fs.start (Path.join directory name) = fs.start directory := by
  have hempty : directory.isEmpty = false := by simpa using hdirectory
  have hrest : ∃ rest, Path.join directory name = directory ++ rest := by
    rw [Path.join, not_startsWith_slash hname, hempty]
    cases directory.endsWith "/" with
    | true => exact ⟨name, by simp⟩
    | false => exact ⟨"/" ++ name, by simp [String.append_assoc]⟩
  obtain ⟨rest, hrest⟩ := hrest
  have hjoinEmpty : (directory ++ rest).isEmpty = false := by
    simp [hdirectory]
  have habsolute : (directory ++ rest).startsWith "/" = directory.startsWith "/" := by
    rw [Bool.eq_iff_iff, String.startsWith_string_iff, String.startsWith_string_iff,
      String.toList_append]
    cases hcs : directory.toList with
    | nil => exact absurd (String.toList_eq_nil_iff.mp hcs) hdirectory
    | cons c cs => simp
  rw [hrest, start, start, hempty, hjoinEmpty, habsolute]

theorem ne_empty_of_resolve
    {fs : FileSystem} {path : String} {trail : Trail} (hresolve : fs.resolve path = .ok trail) :
    path ≠ "" := by
  rintro rfl
  obtain ⟨place, hstart, _⟩ := resolve_eq_ok_iff.mp hresolve
  simp [start] at hstart

/--
Behind a path that leads to a directory, a name is looked up there; some links of
the budget may be used up by then.
-/
theorem resolve_join
    {fs : FileSystem} {directory name : String} {trail : Trail}
    (hresolve : fs.resolve directory = .ok trail) (hname : IsName name) :
    ∃ place before, fs.start (Path.join directory name) = .ok place ∧
      pathPieces (Path.join directory name) = before ++ [name] ∧
      follow fs.root maxLinks before place = .ok trail := by
  have hne := ne_empty_of_resolve hresolve
  obtain ⟨place, hstart, hfollow⟩ := resolve_eq_ok_iff.mp hresolve
  obtain ⟨before, hpieces, hbefore⟩ := exists_pathPieces_join hne hname
  refine ⟨place, before, (start_join fs hne hname).trans hstart, hpieces, ?_⟩
  rcases hbefore with hsame | hblank
  · rw [← hsame, hfollow]
  · rw [hblank] at hfollow
    exact follow_of_append_blank hfollow

theorem resolve_join_entry
    {fs : FileSystem} {directory name : String} {trail : Trail}
    {entries : List (String × Entry)} {entry : Entry}
    (hresolve : fs.resolve directory = .ok trail)
    (hentries : entryAt fs.root trail = .directory entries) (hname : IsName name)
    (hlookup : entries.lookup name = some entry) (hlink : ∀ target, entry ≠ .link target) :
    fs.resolve (Path.join directory name) = .ok ((name, entry) :: trail) := by
  obtain ⟨place, before, hstart, hpieces, hbefore⟩ := resolve_join hresolve hname
  obtain ⟨left, hleft⟩ := follow_append fs.root maxLinks before place
  refine resolve_eq_ok_iff.mpr ⟨place, hstart, ?_⟩
  rw [hpieces, hleft, hbefore]
  exact follow_name hentries hname hlookup hlink left

/-- A path with a name behind it leads through a directory that has the name. -/
theorem exists_directory_of_resolve_join
    {fs : FileSystem} {directory name : String} (hdirectory : directory ≠ "")
    (hname : IsName name) {found : Trail}
    (hresolve : fs.resolve (Path.join directory name) = .ok found) :
    ∃ trail entries entry, fs.resolve directory = .ok trail ∧
      entryAt fs.root trail = .directory entries ∧ entries.lookup name = some entry := by
  obtain ⟨place, hstart, hfollow⟩ := resolve_eq_ok_iff.mp hresolve
  rw [start_join fs hdirectory hname] at hstart
  obtain ⟨before, hpieces, hbefore⟩ := exists_pathPieces_join hdirectory hname
  obtain ⟨left, hleft⟩ := follow_append fs.root maxLinks before place
  rw [hpieces, hleft] at hfollow
  cases htrail : follow fs.root maxLinks before place with
  | error fault => simp [htrail, Except.bind] at hfollow
  | ok trail =>
      simp only [htrail, Except.bind] at hfollow hleft
      have htrivial : ¬(name = "" ∨ name = ".") := not_or.mpr ⟨hname.ne_empty, hname.ne_current⟩
      obtain ⟨entries, hentries⟩ : ∃ entries, entryAt fs.root trail = .directory entries := by
        by_contra hnone
        rw [not_exists] at hnone
        simp [follow_cons_notADirectory hnone] at hfollow
      obtain ⟨entry, hlookup⟩ : ∃ entry, entries.lookup name = some entry := by
        rw [← Option.ne_none_iff_exists']
        intro hmissing
        simp [follow_cons_missing hentries htrivial hname.ne_parent hmissing] at hfollow
      refine ⟨trail, entries, entry, resolve_eq_ok_iff.mpr ⟨place, hstart, ?_⟩, hentries, hlookup⟩
      rcases hbefore with hsame | hblank
      · rw [hsame, htrail]
      · rw [hblank, hleft, follow_cons_trivial hentries (.inl rfl), follow]

end FileSystem
end FlowSurvey
