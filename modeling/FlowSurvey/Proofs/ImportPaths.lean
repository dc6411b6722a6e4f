import FlowSurvey.Proofs.FileLocations

/-!
# Locations and the places they stand for

A root is known by the names on the way to it, however it is spelled: empty pieces and single
dots between slashes stand for no name.  A file below a root is located by these names and its
own, so the spelling of the root makes no difference, neither where the root is given nor where
the path starts with it.  The other way round, an import path can be taken apart at its dots if
no name below the root has one, and then it leads back to the place of the file.
-/

namespace FlowSurvey
namespace Path

/-! ## Spellings of a root -/

/-- An absolute path whose pieces are the names, with trivial pieces between them. -/
structure Spells (names : List String) (path : String) : Prop where
  absolute : ∃ cs, path.toList = '/' :: cs
  pieces_eq : ((pathPieces path).filter fun piece => piece ≠ "" ∧ piece ≠ ".") = names

/-- A root without parent pieces, and a spelling of it that names can be put behind. -/
structure RootSpelling (names : List String) (root base : String) : Prop where
  no_parent : ".." ∉ names
  root_spells : Spells names root
  base_spells : Spells names base
  slash : base.toList.getLast? = some '/'

theorem isTrivial_toList (piece : String) :
    isTrivial piece.toList = decide ¬(piece ≠ "" ∧ piece ≠ ".") := by
  have hcurrent : piece.toList = ['.'] ↔ piece = "." := by
    rw [← String.toList_inj]
    rfl
  simp [isTrivial, hcurrent]

namespace Spells

variable {names : List String} {path : String}

/-- Only the pieces that are names stand for components. -/
theorem componentsOf_eq {pieces : List String}
    (hpieces : (pieces.filter fun piece => piece ≠ "" ∧ piece ≠ ".") = names) :
    componentsOf (pieces.map String.toList) = names.map fun name => componentOf name.toList := by
  have hkept : ((fun piece => !isTrivial piece) ∘ String.toList) =
      fun piece => decide (piece ≠ "" ∧ piece ≠ ".") := by
    funext piece
    simp [isTrivial_toList]
  rw [componentsOf, List.filter_map, hkept, hpieces, List.map_map]
  rfl

theorem componentsOf_pieces (hpath : Spells names path) :
    componentsOf (pieces path.toList) = names.map fun name => componentOf name.toList := by
  rw [← map_toList_pathPieces, componentsOf_eq hpath.pieces_eq]

theorem fileName?_eq (hpath : Spells names path) (hparent : ".." ∉ names) :
    fileName? path = names.getLast?.map String.toList := by
  obtain ⟨cs, hcs⟩ := hpath.absolute
  rw [fileName?, components_of_absolute hcs, hpath.componentsOf_pieces]
  rcases List.eq_nil_or_concat' names with rfl | ⟨before, last, rfl⟩
  · rfl
  · have hlast : last.toList ≠ ['.', '.'] := fun h =>
      hparent (by rw [← String.toList_inj.mp (h.trans rfl : last.toList = "..".toList)]; simp)
    simp [List.getLast?_cons, componentOf, hlast]

end Spells

/-- Names behind a spelling of the root are below the root in whatever spelling. -/
theorem RootSpelling.spelledBelow {names : List String} {root base : String}
    (h : RootSpelling names root base) {below : List String} (hne : below ≠ [])
    (hbelow : ∀ name ∈ below, IsName name) :
    SpelledBelow root (base ++ "/".intercalate below) below := by
  obtain ⟨cs, hcs⟩ := h.base_spells.absolute
  obtain ⟨front, hfront⟩ := List.getLast?_eq_some_iff.mp h.slash
  have hbase : base = String.ofList front ++ "/" ++ "" := by
    apply String.toList_injective
    simp [hfront]
  have hpieces : pathPieces (base ++ "/".intercalate below) =
      pathPieces (String.ofList front) ++ below := by
    rw [hbase, String.append_empty, pathPieces_append_slash,
      pathPieces_intercalate (fun name hname => (hbelow name hname).no_slash) hne]
  refine ⟨h.root_spells.absolute, ⟨cs ++ ("/".intercalate below).toList, by simp [hcs]⟩,
    ⟨pathPieces (String.ofList front), hpieces, ?_⟩, hbelow⟩
  have hkept : ((pathPieces (String.ofList front)).filter fun piece =>
      piece ≠ "" ∧ piece ≠ ".") = names := by
    rw [← h.base_spells.pieces_eq, hbase, pathPieces_append_slash, pathPieces_empty,
      List.filter_append]
    simp
  rw [Spells.componentsOf_eq hkept, h.root_spells.componentsOf_pieces]

/-! ## Stems -/

/-- A file name, what stands in front of its last dot and what behind it; a dot that the name
starts with takes nothing off. -/
inductive HasStem : (file stem : String) → (extension : Option String) → Prop
  | extended {stem extension : String} (hstem : stem ≠ "") (hextension : '.' ∉ extension.toList) :
      HasStem (stem ++ "." ++ extension) stem (some extension)
  | plain {file : String} (hfile : '.' ∉ file.toList.tail) : HasStem file file none

theorem splitExtension_of_no_dot_behind {c : Char} {rest : List Char} (hrest : '.' ∉ rest) :
    splitExtension (c :: rest) = (c :: rest, none) := by
  by_cases hc : c = '.'
  · subst hc
    simpa using @splitExtension_append_dot [] rest hrest
  · have hnone : ∀ d ∈ (c :: rest).reverse, decide (d ≠ '.') = true := by
      intro d hd
      rw [List.mem_reverse, List.mem_cons] at hd
      rcases hd with rfl | hd
      · simpa using hc
      · exact decide_eq_true fun hdot => hrest (hdot ▸ hd)
    rw [splitExtension, List.dropWhile_eq_nil_iff.mpr hnone]
    rfl

theorem hasStem_splitExtension {file : String} (hfile : file ≠ "") :
    HasStem file (String.ofList (splitExtension file.toList).1)
      ((splitExtension file.toList).2.map String.ofList) := by
  obtain ⟨c, rest, hcs⟩ := List.exists_cons_of_ne_nil (show file.toList ≠ [] by simpa using hfile)
  by_cases hdot : '.' ∈ rest
  · obtain ⟨behind, front, hreverse, hbehind⟩ :=
      List.eq_append_cons_of_mem (List.mem_reverse.mpr hdot)
    have hrest : rest = front.reverse ++ '.' :: behind.reverse := by
      simpa using congrArg List.reverse hreverse
    have hsplit : splitExtension file.toList =
        (c :: front.reverse, some behind.reverse) := by
      rw [hcs, hrest, ← List.cons_append, splitExtension_append_dot (by simpa using hbehind),
        if_neg (List.cons_ne_nil _ _)]
    have htext : file = String.ofList (c :: front.reverse) ++ "." ++
        String.ofList behind.reverse := by
      apply String.toList_injective
      simp [hcs, hrest]
    rw [hsplit]
    nth_rewrite 1 [htext]
    exact .extended (by simp) (by simpa using hbehind)
  · rw [hcs, splitExtension_of_no_dot_behind hdot, ← hcs, String.ofList_toList]
    exact .plain (by simpa [hcs] using hdot)

/-- A stem and an extension belong to one file name only. -/
theorem HasStem.file_eq {file file' stem : String} {extension : Option String}
    (hfile : HasStem file stem extension) (hfile' : HasStem file' stem extension) :
    file = file' := by
  cases hfile with
  | extended => cases hfile' with
    | extended => rfl
  | plain => cases hfile' with
    | plain => rfl

/-! ## Dotted names -/

theorem intercalate_dot_injective {xs ys : List String} (hxs : xs ≠ []) (hys : ys ≠ [])
    (hx : ∀ x ∈ xs, '.' ∉ x.toList) (hy : ∀ y ∈ ys, '.' ∉ y.toList)
    (heq : ".".intercalate xs = ".".intercalate ys) : xs = ys := by
  have hsplit (zs : List String) (hzs : zs ≠ []) (hz : ∀ z ∈ zs, '.' ∉ z.toList) :
      (".".intercalate zs).toList.splitOn '.' = zs.map String.toList := by
    rw [String.toList_intercalate]
    exact List.splitOn_intercalate '.' (by simpa using hz) (by simpa using hzs)
  have hpieces : xs.map String.toList = ys.map String.toList := by
    rw [← hsplit xs hxs hx, ← hsplit ys hys hy, heq]
  exact List.map_injective_iff.mpr (fun _ _ => String.toList_inj.mp) hpieces

/-- What stands in front of the dotted names may hold dots, if it is the same. -/
theorem eq_of_intercalate_append_eq {front xs ys : List String} (hfront : front.length ≤ 1)
    (hxs : xs ≠ []) (hys : ys ≠ [])
    (hx : ∀ x ∈ xs, '.' ∉ x.toList) (hy : ∀ y ∈ ys, '.' ∉ y.toList)
    (heq : ".".intercalate (front ++ xs) = ".".intercalate (front ++ ys)) : xs = ys := by
  refine intercalate_dot_injective hxs hys hx hy ?_
  match front, hfront with
  | [], _ => exact heq
  | [package], _ =>
    rw [← String.toList_inj, String.toList_intercalate, String.toList_intercalate] at heq ⊢
    rw [List.singleton_append, List.singleton_append, List.map_cons, List.map_cons,
      List.intercalate_cons_of_ne_nil (by simpa using hxs),
      List.intercalate_cons_of_ne_nil (by simpa using hys)] at heq
    exact List.append_cancel_left heq

end Path

/-! ## Locations -/

open FlowSurvey.Path

section Located

variable {names dirs : List String} {root base file : String}

theorem locate_of_rootSpelling (h : RootSpelling names root base)
    (hfile : ∀ name ∈ dirs ++ [file], IsName name) :
    locate root (base ++ "/".intercalate (dirs ++ [file])) =
      { sourcePath := base ++ "/".intercalate (dirs ++ [file])
        sourceRelative := "/".intercalate (dirs ++ [file])
        grouping := dirs
        importPath := ".".intercalate (names.getLast?.toList ++ dirs ++
          [String.ofList (splitExtension file.toList).1])
        module := String.ofList (splitExtension file.toList).1 } := by
  rw [locate_of_spelledBelow (h.spelledBelow (by simp) hfile),
    h.root_spells.fileName?_eq h.no_parent, Option.map_map]
  simp [Function.comp_def]

theorem extension?_of_rootSpelling (h : RootSpelling names root base)
    (hfile : ∀ name ∈ dirs ++ [file], IsName name) :
    extension? (base ++ "/".intercalate (dirs ++ [file])) =
      (splitExtension file.toList).2.map String.ofList := by
  rw [extension?, (h.spelledBelow (by simp) hfile).fileName?_eq, Option.bind_some]

/-- The fields of a location, told from the names of the root and those below it. -/
structure LocatedAt (names dirs : List String) (file path : String) (l : Location) : Prop where
  grouping_eq : l.grouping = dirs
  sourceRelative_eq : l.sourceRelative = "/".intercalate (dirs ++ [file])
  stem : HasStem file l.module (extension? path)
  importPath_eq : l.importPath = ".".intercalate (names.getLast?.toList ++ dirs ++ [l.module])

theorem locatedAt_of_rootSpelling (h : RootSpelling names root base)
    (hfile : ∀ name ∈ dirs ++ [file], IsName name) :
    LocatedAt names dirs file (base ++ "/".intercalate (dirs ++ [file]))
      (locate root (base ++ "/".intercalate (dirs ++ [file]))) := by
  have hstem := hasStem_splitExtension (hfile file (by simp)).ne_empty
  rw [← extension?_of_rootSpelling h hfile] at hstem
  rw [locate_of_rootSpelling h hfile]
  exact ⟨rfl, rfl, hstem, rfl⟩

/-- Without dots in the names the import path and the extension tell where a file is. -/
theorem LocatedAt.eq_of_importPath_eq {others : List String} {other path path' : String}
    {l l' : Location} (hl : LocatedAt names dirs file path l)
    (hl' : LocatedAt names others other path' l')
    (hextension : extension? path = extension? path')
    (hdots : ∀ name ∈ dirs ++ [l.module], '.' ∉ name.toList)
    (hdots' : ∀ name ∈ others ++ [l'.module], '.' ∉ name.toList)
    (himport : l.importPath = l'.importPath) : dirs = others ∧ file = other := by
  have hroot : names.getLast?.toList.length ≤ 1 := by
    cases names.getLast? <;> simp
  rw [hl.importPath_eq, hl'.importPath_eq, List.append_assoc, List.append_assoc] at himport
  obtain ⟨hdirs, hmodule⟩ := List.append_singleton_inj.mp
    (eq_of_intercalate_append_eq hroot (by simp) (by simp) hdots hdots' himport)
  have hstem := hl'.stem
  rw [← hmodule, ← hextension] at hstem
  exact ⟨hdirs, hl.stem.file_eq hstem⟩

/--
A file below a root is located by its own name, the directories on the way to it and the last
name of the root, however the root is spelled, where it is given and in the path.  If neither
the directories nor the stems have dots in them, two files with one import path and one
extension are the same.
-/
theorem locate_spelled (h : RootSpelling names root base)
    (hfile : ∀ name ∈ dirs ++ [file], IsName name) :
    let path := base ++ "/".intercalate (dirs ++ [file])
    let l := locate root path
    LocatedAt names dirs file path l ∧
      (∀ root' base', RootSpelling names root' base' →
        let l' := locate root' (base' ++ "/".intercalate (dirs ++ [file]))
        l'.grouping = l.grouping ∧ l'.sourceRelative = l.sourceRelative ∧
          l'.module = l.module ∧ l'.importPath = l.importPath) ∧
      ∀ others other, (∀ name ∈ others ++ [other], IsName name) →
        let path' := base ++ "/".intercalate (others ++ [other])
        let l' := locate root path'
        extension? path = extension? path' →
        (∀ name ∈ dirs ++ [l.module], '.' ∉ name.toList) →
        (∀ name ∈ others ++ [l'.module], '.' ∉ name.toList) →
        l.importPath = l'.importPath → path = path' := by
  refine ⟨locatedAt_of_rootSpelling h hfile, fun root' base' h' => ?_, ?_⟩
  · rw [locate_of_rootSpelling h hfile, locate_of_rootSpelling h' hfile]
    exact ⟨rfl, rfl, rfl, rfl⟩
  · intro others other hother path' l' hextension hdots hdots' himport
    obtain ⟨hdirs, hsame⟩ := (locatedAt_of_rootSpelling h hfile).eq_of_importPath_eq
      (locatedAt_of_rootSpelling h hother) hextension hdots hdots' himport
    rw [hdirs, hsame]

end Located

/-- A root given with a trailing slash, and a path that starts with it in another spelling. -/
theorem locate_spelled_nested :
    RootSpelling ["srv", "flows"] "/srv//flows/" "/./srv/flows/.//" ∧
      LocatedAt ["srv", "flows"] ["team.a", "daily"] "etl.tar.py"
        "/./srv/flows/.//team.a/daily/etl.tar.py"
        (locate "/srv//flows/" "/./srv/flows/.//team.a/daily/etl.tar.py") ∧
      (locate "/srv//flows/" "/./srv/flows/.//team.a/daily/etl.tar.py").importPath =
        "flows.team.a.daily.etl.tar" := by
  have hroot : RootSpelling ["srv", "flows"] "/srv//flows/" "/./srv/flows/.//" :=
    ⟨by decide, ⟨⟨_, rfl⟩, by decide⟩, ⟨⟨_, rfl⟩, by decide⟩, by decide⟩
  have hnames : ∀ name ∈ ["team.a", "daily"] ++ ["etl.tar.py"], IsName name := by
    simp only [isName_iff]
    decide
  refine ⟨hroot, (locate_spelled hroot hnames).1, by decide⟩

end FlowSurvey
