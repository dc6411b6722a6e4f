import FlowSurvey.Proofs.PathResolution
import Mathlib.Data.List.TakeWhile
import Mathlib.Tactic.SplitIfs

/-!
# The order of paths

Paths are compared component by component, and components as the bytes of their
UTF-8 text.  A path with a name behind it has one component more.  The order of the
bytes of two names is the order of their characters, because no character's code
begins another one's; so the names in a directory put everything below them in
order.
-/

namespace FlowSurvey

/-! ## The order of characters and of their bytes -/

namespace Path

open String (utf8EncodeChar)

theorem ofNat_cons_lt_ofNat_cons_iff
    {m n : Nat} (hm : m < 256) (hn : n < 256) {xs ys : List UInt8} :
    UInt8.ofNat m :: xs < UInt8.ofNat n :: ys ↔ m < n ∨ m = n ∧ xs < ys := by
  rw [List.cons_lt_cons_iff, UInt8.lt_iff_toNat_lt, ← UInt8.toNat_inj]
  simp [Nat.mod_eq_of_lt hm, Nat.mod_eq_of_lt hn]

/-- The order of two characters decides, whatever stands behind them. -/
theorem utf8EncodeChar_append_lt {c d : Char} (hlt : c < d) (xs ys : List UInt8) :
    utf8EncodeChar c ++ xs < utf8EncodeChar d ++ ys := by
  have hcodes : c.val.toNat < d.val.toNat := hlt
  have hbound : d.val.toNat < 0x110000 := by
    have hvalid := d.valid
    simp only [UInt32.isValidChar, Nat.isValidChar] at hvalid
    omega
  unfold utf8EncodeChar
  generalize c.val.toNat = m at hcodes
  generalize d.val.toNat = n at hcodes hbound
  have htwo (k : Nat) : k / 4096 = k / 64 / 64 := by omega
  have hthree (k : Nat) : k / 262144 = k / 64 / 64 / 64 := by omega
  dsimp only
  -- one case for each two lengths of the codes
  split_ifs <;>
    simp (disch := omega) only [List.cons_append, List.nil_append,
      ofNat_cons_lt_ofNat_cons_iff, htwo, hthree] <;>
    omega

/-- The bytes of a text. -/
def utf8 (text : List Char) : List UInt8 :=
  text.flatMap utf8EncodeChar

theorem utf8_lt_of_lt {cs ds : List Char} (hlt : cs < ds) : utf8 cs < utf8 ds := by
  induction hlt with
  | @nil d ds =>
      obtain ⟨b, bs, hd⟩ := List.exists_cons_of_ne_nil (String.utf8EncodeChar_ne_nil (c := d))
      rw [utf8, utf8, List.flatMap_cons, hd]
      exact List.Lex.nil
  | cons _ ih =>
      simp only [utf8, List.flatMap_cons]
      exact List.append_left_lt ih
  | rel hcd =>
      simp only [utf8, List.flatMap_cons]
      exact utf8EncodeChar_append_lt hcd _ _

/-! ## Components -/

/-- The bytes that a component is compared by. -/
def Component.bytes : Component → List UInt8
  | .root => utf8 ['/']
  | .current => utf8 ['.']
  | .parent => utf8 ['.', '.']
  | .normal name => utf8 name

/-- What a path is compared by. -/
def componentBytes (path : String) : List (List UInt8) :=
  (components path).map Component.bytes

theorem componentsOf_append (first second : List (List Char)) :
    componentsOf (first ++ second) = componentsOf first ++ componentsOf second := by
  simp [componentsOf]

theorem pieces_append_slash (front name : List Char) :
    pieces (front ++ '/' :: name) = pieces front ++ pieces name := by
  simp only [pieces_eq_splitOn, List.splitOn_append_cons_self]

/-- A path starts in a way of its own, or in one that what stands behind it does not change. -/
theorem splitStart_cases {cs : List Char} (hne : cs ≠ []) :
    (∃ rest, cs = '/' :: rest) ∨ cs = ['.'] ∨ (∃ rest, cs = '.' :: '/' :: rest) ∨
      ∀ more, splitStart (cs ++ more) = (none, pieces (cs ++ more)) := by
  obtain ⟨c, cs, rfl⟩ := List.exists_cons_of_ne_nil hne
  by_cases hslash : c = '/'
  · exact Or.inl ⟨cs, by rw [hslash]⟩
  by_cases hdot : c = '.'
  · cases cs with
    | nil => exact Or.inr (Or.inl (by rw [hdot]))
    | cons d cs =>
        by_cases hnext : d = '/'
        · exact Or.inr (Or.inr (Or.inl ⟨cs, by rw [hdot, hnext]⟩))
        · exact Or.inr (Or.inr (Or.inr fun more => by simp [splitStart, hslash, hnext]))
  · exact Or.inr (Or.inr (Or.inr fun more => by simp [splitStart, hslash, hdot]))

theorem components_append_slash {front : String} (hfront : front ≠ "") (name : String) :
    components (front ++ "/" ++ name) = components front ++ componentsOf (pieces name.toList) := by
  have hne : front.toList ≠ [] := by simpa using hfront
  have htext : (front ++ "/" ++ name).toList = front.toList ++ '/' :: name.toList := by simp
  rw [components, components, htext]
  rcases splitStart_cases hne with ⟨rest, hcs⟩ | hcs | ⟨rest, hcs⟩ | hplain
  · simp [hcs, splitStart, pieces_append_slash, componentsOf_append]
  · simp [hcs, splitStart, componentsOf, isTrivial]
  · simp [hcs, splitStart, pieces_append_slash, componentsOf, isTrivial]
  · have hstart := hplain []
    rw [List.append_nil] at hstart
    rw [hplain, hstart, pieces_append_slash]
    simp [componentsOf_append]

theorem isTrivial_eq_false {name : String} (hname : IsName name) :
    isTrivial name.toList = false := by
  have hempty : name.toList ≠ [] := by simpa using hname.ne_empty
  have hcurrent : name.toList ≠ ['.'] := fun h => hname.ne_current (String.toList_injective h)
  simp [isTrivial, hempty, hcurrent]

theorem componentsOf_of_isName
    {names : List String} (hnames : ∀ name ∈ names, IsName name) :
    componentsOf (names.map String.toList) = names.map fun name => .normal name.toList := by
  induction names with
  | nil => rfl
  | cons name names ih =>
      have hname := hnames name List.mem_cons_self
      have hparent : name.toList ≠ ['.', '.'] :=
        fun h => hname.ne_parent (String.toList_injective h)
      have hrest := ih fun other hother => hnames other (List.mem_cons_of_mem _ hother)
      rw [componentsOf] at hrest ⊢
      simp [isTrivial_eq_false hname, componentOf, hparent, hrest]

theorem componentsOf_pieces_of_isName {name : String} (hname : IsName name) :
    componentsOf (pieces name.toList) = [.normal name.toList] := by
  rw [pieces_eq_splitOn, List.splitOn_eq_singleton hname.no_slash]
  exact componentsOf_of_isName (List.forall_mem_singleton.mpr hname)

theorem components_join
    {directory name : String} (hdirectory : directory ≠ "") (hname : IsName name) :
    components (join directory name) = components directory ++ [.normal name.toList] := by
  have hempty : directory.isEmpty = false := by simpa using hdirectory
  rw [join, FileSystem.not_startsWith_slash hname, hempty]
  cases hend : directory.endsWith "/" with
  | false =>
      have hslash := components_append_slash hdirectory name
      rwa [componentsOf_pieces_of_isName hname] at hslash
  | true =>
      obtain ⟨cs, hcs⟩ := FileSystem.endsWith_slash_iff.mp hend
      obtain ⟨front, rfl⟩ : ∃ front, directory = front ++ "/" :=
        ⟨String.ofList cs, String.toList_injective (by simpa using hcs.symm)⟩
      by_cases hfront : front = ""
      · have hroot : components ("" ++ "/") = [.root] := by rfl
        subst hfront
        rw [hroot]
        simp [components, splitStart, componentsOf_pieces_of_isName hname]
      · have hbare : components (front ++ "/") = components front := by
          have hslash := components_append_slash hfront ""
          simpa [pieces, componentsOf, isTrivial] using hslash
        have hslash := components_append_slash hfront name
        rw [componentsOf_pieces_of_isName hname] at hslash
        simpa [hbare] using hslash

theorem join_ne_empty {directory name : String} (hname : IsName name) :
    join directory name ≠ "" := by
  have hempty := hname.ne_empty
  unfold join
  split
  · exact hempty
  · split <;> simp [hempty]

/-! ## Extensions -/

/-- A name with a last dot inside it, and what stands behind that dot. -/
def HasExtension (name extension : String) : Prop :=
  ∃ stem, stem ≠ "" ∧ '.' ∉ extension.toList ∧ name = stem ++ "." ++ extension

theorem splitExtension_append_dot {stem extension : List Char} (hextension : '.' ∉ extension) :
    splitExtension (stem ++ '.' :: extension) =
      if stem = [] then ('.' :: extension, none) else (stem, some extension) := by
  have hbehind : ∀ c ∈ extension.reverse, decide (c ≠ '.') = true := by
    intro c hc
    have hne : c ≠ '.' := by
      rintro rfl
      exact hextension (List.mem_reverse.mp hc)
    simpa using hne
  have hreverse : (stem ++ '.' :: extension).reverse =
      extension.reverse ++ '.' :: stem.reverse := by simp
  rw [splitExtension]
  rw [hreverse, List.takeWhile_append_of_pos hbehind, List.dropWhile_append_of_pos hbehind]
  by_cases hstem : stem = [] <;> simp [hstem]

theorem splitExtension_snd_append_dot {stem extension : List Char} (hextension : '.' ∉ extension) :
    (splitExtension (stem ++ '.' :: extension)).2 =
      if stem = [] then none else some extension := by
  rw [splitExtension_append_dot hextension]
  split <;> rfl

theorem splitExtension_snd_of_no_dot {name : List Char} (hname : '.' ∉ name) :
    (splitExtension name).2 = none := by
  have hall : ∀ c ∈ name.reverse, decide (c ≠ '.') = true := by
    intro c hc
    have hne : c ≠ '.' := by
      rintro rfl
      exact hname (List.mem_reverse.mp hc)
    simpa using hne
  rw [splitExtension]
  rw [List.dropWhile_eq_nil_iff.mpr hall]
  simp

theorem splitExtension_snd_eq_some_iff {name extension : List Char} :
    (splitExtension name).2 = some extension ↔
      ∃ stem, stem ≠ [] ∧ '.' ∉ extension ∧ name = stem ++ '.' :: extension := by
  constructor
  · intro hsplit
    by_cases hdot : '.' ∈ name
    · obtain ⟨behind, front, hreverse, hbehind⟩ :=
        List.eq_append_cons_of_mem (List.mem_reverse.mpr hdot)
      obtain rfl : name = front.reverse ++ '.' :: behind.reverse := by
        simpa using congrArg List.reverse hreverse
      have hclean : '.' ∉ behind.reverse := by simpa using hbehind
      rw [splitExtension_snd_append_dot hclean] at hsplit
      split at hsplit
      · simp at hsplit
      next hstem =>
        obtain rfl := Option.some.inj hsplit
        exact ⟨_, hstem, hclean, rfl⟩
    · simp [splitExtension_snd_of_no_dot hdot] at hsplit
  · rintro ⟨stem, hstem, hextension, rfl⟩
    rw [splitExtension_snd_append_dot hextension, if_neg hstem]

theorem fileName?_join
    {directory name : String} (hdirectory : directory ≠ "") (hname : IsName name) :
    fileName? (join directory name) = some name.toList := by
  simp [fileName?, components_join hdirectory hname]

theorem extension?_join_eq_some_iff
    {directory name extension : String} (hdirectory : directory ≠ "") (hname : IsName name) :
    extension? (join directory name) = some extension ↔ HasExtension name extension := by
  rw [extension?, fileName?_join hdirectory hname, Option.bind_some, Option.map_eq_some_iff]
  constructor
  · rintro ⟨cs, hsplit, rfl⟩
    obtain ⟨stem, hstem, hcs, hsplit⟩ := splitExtension_snd_eq_some_iff.mp hsplit
    refine ⟨String.ofList stem, by simpa using hstem, by simpa using hcs, ?_⟩
    exact String.toList_injective (by simpa using hsplit)
  · rintro ⟨stem, hstem, hdot, rfl⟩
    refine ⟨extension.toList, splitExtension_snd_eq_some_iff.mpr ?_, by simp⟩
    exact ⟨stem.toList, by simpa using hstem, hdot, by simp⟩

/-! ## Paths below a directory -/

/-- The path that leads on from a directory by some names. -/
def below (directory : String) (names : List String) : String :=
  names.foldl join directory

theorem below_concat (directory : String) (names : List String) (name : String) :
    below directory (names ++ [name]) = join (below directory names) name := by
  simp [below]

theorem below_ne_empty
    {directory : String} (hdirectory : directory ≠ "") {names : List String}
    (hnames : ∀ name ∈ names, IsName name) : below directory names ≠ "" := by
  rcases List.eq_nil_or_concat' names with rfl | ⟨before, name, rfl⟩
  · exact hdirectory
  · rw [below_concat]
    exact join_ne_empty (hnames name (by simp))

theorem components_below
    {directory : String} (hdirectory : directory ≠ "") {names : List String}
    (hnames : ∀ name ∈ names, IsName name) :
    components (below directory names) =
      components directory ++ names.map fun name => .normal name.toList := by
  induction names generalizing directory with
  | nil => simp [below]
  | cons name names ih =>
      have hname := hnames name List.mem_cons_self
      have hrest := ih (@join_ne_empty directory name hname)
        fun other hother => hnames other (List.mem_cons_of_mem _ hother)
      rw [below, List.foldl_cons, ← below, hrest, components_join hdirectory hname]
      simp

/-- Different names lead to different paths. -/
theorem eq_of_below_eq
    {directory : String} (hdirectory : directory ≠ "") {first second : List String}
    (hfirst : ∀ name ∈ first, IsName name) (hsecond : ∀ name ∈ second, IsName name)
    (heq : below directory first = below directory second) : first = second := by
  have hcomponents := congrArg components heq
  rw [components_below hdirectory hfirst, components_below hdirectory hsecond,
    List.append_cancel_left_eq] at hcomponents
  refine List.map_injective_iff.mpr ?_ hcomponents
  intro name other hsame
  exact String.toList_injective (Component.normal.inj hsame)

theorem componentBytes_below
    {directory : String} (hdirectory : directory ≠ "") {names : List String}
    (hnames : ∀ name ∈ names, IsName name) :
    componentBytes (below directory names) =
      componentBytes directory ++ names.map fun name => utf8 name.toList := by
  simp [componentBytes, components_below hdirectory hnames, Component.bytes]

/-- The first name at which two paths below a directory differ puts them in order. -/
theorem componentBytes_below_lt
    {directory first second : String} {firstRest secondRest : List String}
    (hdirectory : directory ≠ "") (hfirst : ∀ name ∈ first :: firstRest, IsName name)
    (hsecond : ∀ name ∈ second :: secondRest, IsName name) (hlt : first < second) :
    componentBytes (below directory (first :: firstRest)) <
      componentBytes (below directory (second :: secondRest)) := by
  rw [componentBytes_below hdirectory hfirst, componentBytes_below hdirectory hsecond]
  refine List.append_left_lt (List.Lex.rel ?_)
  exact utf8_lt_of_lt hlt

end Path
end FlowSurvey
