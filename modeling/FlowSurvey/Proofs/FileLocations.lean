import FlowSurvey.Location
import FlowSurvey.Proofs.PathOrder

/-!
# Where files lie

A path below a root is the root, spelled in some way, and names behind it.  Trivial pieces
stand for no component, so taking the components of the root off the path leaves the names
as they are.  They are the path below the root, and they locate the file: the last of them
is the name of the file, and the others are the groups.
-/

namespace FlowSurvey
namespace Path

/-! ## Pieces -/

theorem map_toList_pathPieces (path : String) :
    (pathPieces path).map String.toList = pieces path.toList := by
  simp [pathPieces]

section Names

variable {names : List String}

theorem dropWhile_isTrivial_of_isName (hnames : ∀ name ∈ names, IsName name) :
    (names.map String.toList).dropWhile isTrivial = names.map String.toList := by
  cases names with
  | nil => rfl
  | cons name names => simp [isTrivial_eq_false (hnames name List.mem_cons_self)]

theorem trimEnd_of_isName (hnames : ∀ name ∈ names, IsName name) :
    trimEnd (names.map String.toList) = names.map String.toList := by
  have hreverse : ∀ name ∈ names.reverse, IsName name :=
    fun name hname => hnames name (List.mem_reverse.mp hname)
  rw [trimEnd, ← List.map_reverse, dropWhile_isTrivial_of_isName hreverse, ← List.map_reverse,
    List.reverse_reverse]

theorem joinPieces_map_toList (names : List String) :
    String.ofList (joinPieces (names.map String.toList)) = "/".intercalate names := by
  apply String.toList_injective
  simp [joinPieces, String.toList_intercalate]

end Names

theorem piecesAfter_cons_trivial
    {piece : List Char} (htrivial : isTrivial piece = true) (names : List Component)
    (parts : List (List Char)) :
    (piecesAfter names (piece :: parts)).map (·.dropWhile isTrivial) =
      (piecesAfter names parts).map (·.dropWhile isTrivial) := by
  cases names with
  | nil => simp [piecesAfter, htrivial]
  | cons c cs => simp [piecesAfter, htrivial]

/-- Behind the components that some pieces stand for comes what stands behind these pieces. -/
theorem piecesAfter_componentsOf (front rest : List (List Char)) :
    (piecesAfter (componentsOf front) (front ++ rest)).map (·.dropWhile isTrivial) =
      some (rest.dropWhile isTrivial) := by
  induction front with
  | nil => rfl
  | cons piece front ih =>
      by_cases htrivial : isTrivial piece = true
      · have hskip : componentsOf (piece :: front) = componentsOf front := by
          simp [componentsOf, htrivial]
        rw [hskip, List.cons_append, piecesAfter_cons_trivial htrivial, ih]
      · have htake : componentsOf (piece :: front) = componentOf piece :: componentsOf front := by
          simp [componentsOf, htrivial]
        rw [htake, List.cons_append, piecesAfter]
        simpa [htrivial] using ih

/-! ## Names behind a root -/

/-- A path that is an absolute root, spelled in some way, with names behind it. -/
structure SpelledBelow (root path : String) (names : List String) : Prop where
  root_absolute : ∃ cs, root.toList = '/' :: cs
  absolute : ∃ cs, path.toList = '/' :: cs
  exists_front : ∃ front, pathPieces path = front ++ names ∧
    componentsOf (front.map String.toList) = componentsOf (pieces root.toList)
  isName : ∀ name ∈ names, IsName name

theorem spelledBelow_refl {root : String} {cs : List Char} (hroot : root.toList = '/' :: cs) :
    SpelledBelow root root [] where
  root_absolute := ⟨cs, hroot⟩
  absolute := ⟨cs, hroot⟩
  exists_front := ⟨pathPieces root, by simp, by rw [map_toList_pathPieces]⟩
  isName := by simp

theorem ne_empty_of_absolute {path : String} {cs : List Char} (hpath : path.toList = '/' :: cs) :
    path ≠ "" := by
  rintro rfl
  simp at hpath

theorem exists_toList_join
    {directory name : String} (hname : IsName name) {cs : List Char}
    (habsolute : directory.toList = '/' :: cs) :
    ∃ ds, (join directory name).toList = '/' :: ds := by
  have hempty : directory.isEmpty = false := by simpa using ne_empty_of_absolute habsolute
  rw [join, FileSystem.not_startsWith_slash hname, hempty]
  cases directory.endsWith "/" <;> simp [habsolute]

theorem SpelledBelow.join
    {root path : String} {names : List String} (hpath : SpelledBelow root path names)
    {name : String} (hname : IsName name) :
    SpelledBelow root (join path name) (names ++ [name]) := by
  obtain ⟨front, hpieces, hfront⟩ := hpath.exists_front
  obtain ⟨cs, hcs⟩ := hpath.absolute
  refine ⟨hpath.root_absolute, exists_toList_join hname hcs, ?_, ?_⟩
  · obtain ⟨before, hjoin, hsame | hblank⟩ :=
      FileSystem.exists_pathPieces_join (ne_empty_of_absolute hcs) hname
    · exact ⟨front, by rw [hjoin, ← hsame, hpieces, List.append_assoc], hfront⟩
    · -- A last piece that is empty is no name, so there are none yet.
      rw [hpieces] at hblank
      rcases List.eq_nil_or_concat' names with rfl | ⟨init, last, rfl⟩
      · rw [List.append_nil] at hblank
        refine ⟨before, by simpa using hjoin, ?_⟩
        rw [← hfront, hblank, List.map_append, componentsOf_append]
        simp [componentsOf, isTrivial]
      · rw [← List.append_assoc, List.append_singleton_inj] at hblank
        exact absurd hblank.2 (hpath.isName last (by simp)).ne_empty
  · intro other hother
    rcases List.mem_append.mp hother with hbefore | hlast
    · exact hpath.isName other hbefore
    · rwa [List.mem_singleton.mp hlast]

theorem SpelledBelow.below
    {root path : String} {before names : List String} (hpath : SpelledBelow root path before)
    (hnames : ∀ name ∈ names, IsName name) :
    SpelledBelow root (below path names) (before ++ names) := by
  induction names generalizing path before with
  | nil => simpa [Path.below] using hpath
  | cons name names ih =>
      have hstep := hpath.join (hnames name List.mem_cons_self)
      have hrest := ih hstep fun other hother => hnames other (List.mem_cons_of_mem _ hother)
      rwa [List.append_assoc, List.singleton_append] at hrest

section SpelledBelow

variable {root path : String} {names : List String}

theorem SpelledBelow.below?_eq (hpath : SpelledBelow root path names) :
    below? root path = some ("/".intercalate names) := by
  obtain ⟨cs, hcs⟩ := hpath.root_absolute
  obtain ⟨ds, hds⟩ := hpath.absolute
  obtain ⟨front, hpieces, hfront⟩ := hpath.exists_front
  have hcut : (piecesAfter (componentsOf (pieces cs)) (pieces ds)).map (·.dropWhile isTrivial) =
      some (names.map String.toList) := by
    have hall := piecesAfter_componentsOf (front.map String.toList) (names.map String.toList)
    rw [hfront, ← List.map_append, ← hpieces, map_toList_pathPieces, hcs, hds,
      dropWhile_isTrivial_of_isName hpath.isName] at hall
    simpa [pieces, componentsOf, isTrivial, piecesAfter_cons_trivial] using hall
  obtain ⟨rest, hrest, hdrop⟩ := Option.map_eq_some_iff.mp hcut
  simp only [below?, hcs, hds, splitStart, hrest, hdrop, if_true, Option.map_some,
    trimEnd_of_isName hpath.isName, joinPieces_map_toList]

theorem components_of_absolute {cs : List Char} (habsolute : path.toList = '/' :: cs) :
    components path = .root :: componentsOf (pieces path.toList) := by
  simp [components, habsolute, splitStart, pieces, componentsOf, isTrivial]

theorem SpelledBelow.fileName?_eq
    {dirs : List String} {file : String} (hpath : SpelledBelow root path (dirs ++ [file])) :
    fileName? path = some file.toList := by
  obtain ⟨cs, hcs⟩ := hpath.absolute
  obtain ⟨front, hpieces, -⟩ := hpath.exists_front
  rw [fileName?, components_of_absolute hcs, ← map_toList_pathPieces, hpieces, List.map_append,
    componentsOf_append, componentsOf_of_isName hpath.isName]
  simp [List.getLast?_cons]

end SpelledBelow

/-! ## Relative paths -/

/-- Every other way to start a path has a first piece that is trivial. -/
theorem splitStart_of_not_isTrivial
    {cs first : List Char} {rest : List (List Char)} (hpieces : pieces cs = first :: rest)
    (hfirst : isTrivial first = false) : splitStart cs = (none, pieces cs) := by
  have hhead (other : List Char) (more : List (List Char)) (hother : pieces cs = other :: more) :
      isTrivial other = false := by
    rw [hpieces] at hother
    rwa [← (List.cons.inj hother).1]
  have hne : cs ≠ [] := by
    rintro rfl
    simpa [isTrivial] using hhead [] [] rfl
  rcases splitStart_cases hne with ⟨more, rfl⟩ | rfl | ⟨more, rfl⟩ | hplain
  · simpa [isTrivial] using hhead [] (pieces more) (by simp [pieces])
  · simpa [isTrivial] using hhead ['.'] [] (by simp [pieces])
  · simpa [isTrivial] using hhead ['.'] (pieces more) (by simp [pieces])
  · simpa using hplain []

theorem pathNames_intercalate
    {names : List String} (hne : names ≠ []) (hnames : ∀ name ∈ names, IsName name) :
    pathNames ("/".intercalate names) = names := by
  have hpieces : pieces ("/".intercalate names).toList = names.map String.toList := by
    rw [← map_toList_pathPieces,
      pathPieces_intercalate (fun name hname => (hnames name hname).no_slash) hne]
  have hstart : splitStart ("/".intercalate names).toList =
      (none, names.map String.toList) := by
    obtain ⟨first, rest, rfl⟩ := List.exists_cons_of_ne_nil hne
    rw [splitStart_of_not_isTrivial hpieces (isTrivial_eq_false (hnames first List.mem_cons_self)),
      hpieces]
  rw [pathNames, components, hstart]
  simp only [componentsOf_of_isName hnames]
  simp [List.filterMap_map]

/-! ## File names -/

theorem normal_nil_not_mem_components (path : String) : .normal [] ∉ components path := by
  intro hmem
  rcases List.mem_append.mp hmem with hstart | hbody
  · rw [Option.mem_toList] at hstart
    split at hstart <;> simp at hstart
  · obtain ⟨piece, hpiece, heq⟩ := List.mem_map.mp hbody
    rw [componentOf] at heq
    split at heq
    · cases heq
    · obtain rfl := Component.normal.inj heq
      simp [isTrivial] at hpiece

theorem fileName?_ne_nil (path : String) : fileName? path ≠ some [] := by
  intro hname
  rw [fileName?] at hname
  split at hname
  next name hlast =>
    obtain rfl := Option.some.inj hname
    exact normal_nil_not_mem_components path (List.mem_of_getLast? hlast)
  · cases hname

theorem splitExtension_toList_append_dot
    {stem extension : String} (hstem : stem ≠ "") (hextension : '.' ∉ extension.toList) :
    String.ofList (splitExtension (stem ++ "." ++ extension).toList).1 = stem := by
  have htext : (stem ++ "." ++ extension).toList = stem.toList ++ '.' :: extension.toList := by
    simp
  rw [htext, splitExtension_append_dot hextension, if_neg (by simpa using hstem)]
  simp

end Path

/-! ## Locations -/

section Locate

open FlowSurvey.Path

variable {root path : String} {dirs : List String} {file : String}

/-- The name of a file and of the directories on the way to it decide where the file is located. -/
theorem locate_of_spelledBelow (hpath : SpelledBelow root path (dirs ++ [file])) :
    locate root path =
      { sourcePath := path
        sourceRelative := "/".intercalate (dirs ++ [file])
        grouping := dirs
        importPath := ".".intercalate
          (((fileName? root).map String.ofList).toList ++ dirs ++
            [String.ofList (splitExtension file.toList).1])
        module := String.ofList (splitExtension file.toList).1 } := by
  have hmodule : (stem? path).getD "" = String.ofList (splitExtension file.toList).1 := by
    rw [stem?, hpath.fileName?_eq, Option.map_some, Option.getD_some]
  have hnames : pathNames ("/".intercalate (dirs ++ [file])) = dirs ++ [file] :=
    pathNames_intercalate (by simp) hpath.isName
  have hpackage : (if (packageName root).isEmpty then [] else [packageName root]) =
      ((fileName? root).map String.ofList).toList := by
    rw [packageName]
    cases hroot : fileName? root with
    | none => rfl
    | some name =>
        have hname : name ≠ [] := fun h => fileName?_ne_nil root (h ▸ hroot)
        simp [hname]
  simp only [locate, hmodule, hpackage, hpath.below?_eq, Option.getD_some, hnames]
  simp

end Locate
end FlowSurvey
