import FlowSurvey.Proofs.FloatNumerals
import Mathlib.Data.List.Basic

/-!
# Printed documents

A document that is printed with indentation reads back as the value that it was
printed from, but for its doubles: what the text of a double is read as need not be
the same double.  The fields of its objects must be in the order of their names, as
the fields of a value always are.  The reader takes every bracket from a budget, so
the value must not be nested deeper than that; its fuel is never used up, since every
step that takes some leaves at least one character behind.
-/

namespace FlowSurvey.Json

/-! ## Measures of values -/

mutual

/-- No doubles, and fields in the order of their names, each name once. -/
def Plain : Json → Prop
  | .float _ => False
  | .arr items => PlainItems items
  | .obj fields => (fields.Pairwise fun a b => a.1 < b.1) ∧ PlainFields fields
  | _ => True

def PlainItems : List Json → Prop
  | [] => True
  | item :: rest => Plain item ∧ PlainItems rest

def PlainFields : List (String × Json) → Prop
  | [] => True
  | (_, value) :: rest => Plain value ∧ PlainFields rest

end

mutual

/-- Fields in the order of their names, each name once. -/
def Ordered : Json → Prop
  | .arr items => OrderedItems items
  | .obj fields => (fields.Pairwise fun a b => a.1 < b.1) ∧ OrderedFields fields
  | _ => True

def OrderedItems : List Json → Prop
  | [] => True
  | item :: rest => Ordered item ∧ OrderedItems rest

def OrderedFields : List (String × Json) → Prop
  | [] => True
  | (_, value) :: rest => Ordered value ∧ OrderedFields rest

end

mutual

theorem Plain.ordered : ∀ {value : Json}, value.Plain → value.Ordered
  | .null, _ | .bool _, _ | .whole _, _ | .str _, _ => trivial
  | .arr _, hplain => PlainItems.ordered hplain
  | .obj _, hplain => ⟨hplain.1, PlainFields.ordered hplain.2⟩

theorem PlainItems.ordered : ∀ {items : List Json}, PlainItems items → OrderedItems items
  | [], _ => trivial
  | _ :: _, hplain => ⟨hplain.1.ordered, PlainItems.ordered hplain.2⟩

theorem PlainFields.ordered :
    ∀ {fields : List (String × Json)}, PlainFields fields → OrderedFields fields
  | [], _ => trivial
  | (_, _) :: _, hplain => ⟨hplain.1.ordered, PlainFields.ordered hplain.2⟩

end

mutual

/-- How many arrays and objects stand in one another. -/
def nesting : Json → Nat
  | .arr items => 1 + nestingItems items
  | .obj fields => 1 + nestingFields fields
  | _ => 0

def nestingItems : List Json → Nat
  | [] => 0
  | item :: rest => max (nesting item) (nestingItems rest)

def nestingFields : List (String × Json) → Nat
  | [] => 0
  | (_, value) :: rest => max (nesting value) (nestingFields rest)

end

mutual

/-- The fuel that reading a value takes, at most. -/
def effort : Json → Nat
  | .arr items => 1 + effortItems items
  | .obj fields => 1 + effortFields fields
  | _ => 1

def effortItems : List Json → Nat
  | [] => 1
  | item :: rest => 1 + effort item + effortItems rest

def effortFields : List (String × Json) → Nat
  | [] => 1
  | (_, value) :: rest => 1 + effort value + effortFields rest

end

theorem nestingItems_le
    {items : List Json} {bound : Nat} (hitems : ∀ item ∈ items, item.nesting ≤ bound) :
    nestingItems items ≤ bound := by
  induction items with
  | nil => exact Nat.zero_le bound
  | cons item rest ih =>
      exact Nat.max_le.mpr ⟨hitems item List.mem_cons_self,
        ih fun other hother => hitems other (List.mem_cons_of_mem _ hother)⟩

theorem nestingFields_le
    {fields : List (String × Json)} {bound : Nat}
    (hfields : ∀ field ∈ fields, field.2.nesting ≤ bound) : nestingFields fields ≤ bound := by
  induction fields with
  | nil => exact Nat.zero_le bound
  | cons field rest ih =>
      exact Nat.max_le.mpr ⟨hfields field List.mem_cons_self,
        ih fun other hother => hfields other (List.mem_cons_of_mem _ hother)⟩

theorem orderedItems_of_forall
    {items : List Json} (hitems : ∀ item ∈ items, item.Ordered) : OrderedItems items := by
  induction items with
  | nil => trivial
  | cons item rest ih =>
      exact ⟨hitems item List.mem_cons_self,
        ih fun other hother => hitems other (List.mem_cons_of_mem _ hother)⟩

theorem orderedFields_of_forall
    {fields : List (String × Json)} (hfields : ∀ field ∈ fields, field.2.Ordered) :
    OrderedFields fields := by
  induction fields with
  | nil => trivial
  | cons field rest ih =>
      exact ⟨hfields field List.mem_cons_self,
        ih fun other hother => hfields other (List.mem_cons_of_mem _ hother)⟩

/-! ## What values are read as -/

/-- What the text of a double is read as, which is nothing if it is not finite. -/
def rereadFloat (x : Float) : Json :=
  match readValue 1 0 (floatDigits x) with
  | .ok (value, _) => value
  | .error _ => .null

mutual

/-- A value with its doubles replaced by what their texts are read as. -/
def reread : Json → Json
  | .float x => rereadFloat x
  | .arr items => .arr (rereadItems items)
  | .obj fields => .obj (rereadFields fields)
  | value => value

def rereadItems : List Json → List Json
  | [] => []
  | item :: rest => reread item :: rereadItems rest

def rereadFields : List (String × Json) → List (String × Json)
  | [] => []
  | (key, value) :: rest => (key, reread value) :: rereadFields rest

end

theorem rereadItems_eq_map (items : List Json) : rereadItems items = items.map reread := by
  induction items with
  | nil => rfl
  | cons item rest ih => rw [rereadItems, ih, List.map_cons]

theorem rereadFields_eq_map (fields : List (String × Json)) :
    rereadFields fields = fields.map fun field => (field.1, field.2.reread) := by
  induction fields with
  | nil => rfl
  | cons field rest ih => rw [rereadFields, ih, List.map_cons]

theorem pairwise_rereadFields
    {fields : List (String × Json)} (hordered : fields.Pairwise fun a b => a.1 < b.1) :
    (rereadFields fields).Pairwise fun a b => a.1 < b.1 := by
  rw [rereadFields_eq_map, List.pairwise_map]
  exact hordered

mutual

/-- Without doubles a value is read as itself. -/
theorem Plain.reread_eq : ∀ {value : Json}, value.Plain → value.reread = value
  | .null, _ | .bool _, _ | .whole _, _ | .str _, _ => rfl
  | .arr _, hplain => congrArg Json.arr (PlainItems.reread_eq hplain)
  | .obj _, hplain => congrArg Json.obj (PlainFields.reread_eq hplain.2)

theorem PlainItems.reread_eq : ∀ {items : List Json}, PlainItems items → rereadItems items = items
  | [], _ => rfl
  | item :: rest, hplain => by
      have hitem : item.reread = item := hplain.1.reread_eq
      have hrest : rereadItems rest = rest := PlainItems.reread_eq hplain.2
      rw [rereadItems, hitem, hrest]

theorem PlainFields.reread_eq :
    ∀ {fields : List (String × Json)}, PlainFields fields → rereadFields fields = fields
  | [], _ => rfl
  | (key, value) :: rest, hplain => by
      have hvalue : value.reread = value := hplain.1.reread_eq
      have hrest : rereadFields rest = rest := PlainFields.reread_eq hplain.2
      rw [rereadFields, hvalue, hrest]

end

/-! ## Space -/

theorem skipSpace_newline (level : Nat) (cs : List Char) :
    skipSpace (newline level ++ cs) = skipSpace cs := by
  have hblank : ∀ n, skipSpace (List.replicate n ' ' ++ cs) = skipSpace cs := by
    intro n
    induction n with
    | zero => rfl
    | succ n ih => simpa [skipSpace, List.replicate_succ, isSpace] using ih
  simpa [skipSpace, newline, isSpace] using hblank (2 * level)

theorem skipSpace_cons_of_not_isSpace {c : Char} (hc : isSpace c = false) (cs : List Char) :
    skipSpace (c :: cs) = c :: cs := by
  simp [skipSpace, hc]

theorem not_isSpace_of_isDigit {c : Char} (hdigit : c.isDigit = true) : isSpace c = false := by
  have hspace : ∀ d, isSpace d = true → d.isDigit = false := by
    intro d hd
    simp only [isSpace, Bool.or_eq_true, decide_eq_true_eq] at hd
    rcases hd with ((rfl | rfl) | rfl) | rfl <;> rfl
  cases hc : isSpace c with
  | false => rfl
  | true => simp [hspace c hc] at hdigit

theorem exists_toDigits_eq_cons (n : Nat) :
    ∃ c cs, Nat.toDigits 10 n = c :: cs ∧ c.isDigit = true := by
  cases hdigits : Nat.toDigits 10 n with
  | nil => exact absurd hdigits Nat.toDigits_ne_nil
  | cons c cs =>
      have hmem : c ∈ Nat.toDigits 10 n := hdigits ▸ List.mem_cons_self
      exact ⟨c, cs, rfl, Nat.isDigit_of_mem_toDigits (by omega) (by omega) hmem⟩

theorem exists_floatDigits_eq_cons (x : Float) :
    ∃ c cs, floatDigits x = c :: cs ∧ isSpace c = false ∧ c ≠ ']' := by
  by_cases hx : x.isFinite = true
  · obtain ⟨text, r, y, hread, -, hprinted | hprinted⟩ := exists_readsAs_floatDigits hx
    · obtain ⟨c, cs, rfl, hdigit⟩ := hread.starts
      refine ⟨c, cs, hprinted, not_isSpace_of_isDigit hdigit, ?_⟩
      rintro rfl
      simp at hdigit
    · exact ⟨'-', text, hprinted, by decide, by decide⟩
  · rw [floatDigits, if_neg hx]
    exact ⟨_, _, rfl, by decide, by decide⟩

/-- A printed value starts with a character that neither is skipped nor closes an array. -/
theorem exists_prettyChars_eq_cons (level : Nat) (value : Json) :
    ∃ c cs, prettyChars level value = c :: cs ∧ isSpace c = false ∧ c ≠ ']' := by
  cases value with
  | null => exact ⟨_, _, rfl, by decide, by decide⟩
  | bool b => cases b <;> exact ⟨_, _, rfl, by decide, by decide⟩
  | float x => exact exists_floatDigits_eq_cons x
  | str s => exact ⟨_, _, rfl, by decide, by decide⟩
  | arr items => cases items <;> exact ⟨_, _, rfl, by decide, by decide⟩
  | obj fields => cases fields <;> exact ⟨_, _, rfl, by decide, by decide⟩
  | whole n =>
      obtain ⟨c, cs, hdigits, hdigit⟩ := exists_toDigits_eq_cons n.val.natAbs
      rw [prettyChars, wholeDigits]
      split
      · refine ⟨c, cs, hdigits, not_isSpace_of_isDigit hdigit, ?_⟩
        rintro rfl
        simp at hdigit
      · exact ⟨_, _, rfl, by decide, by decide⟩

theorem skipSpace_prettyChars (level : Nat) (value : Json) (rest : List Char) :
    skipSpace (prettyChars level value ++ rest) = prettyChars level value ++ rest := by
  obtain ⟨c, cs, hprinted, hspace, -⟩ := exists_prettyChars_eq_cons level value
  rw [hprinted]
  exact skipSpace_cons_of_not_isSpace hspace _

theorem exists_item_eq_cons (level : Nat) (item : Json) (rest : List Char) :
    ∃ c after, prettyChars level item ++ rest = c :: after ∧
      skipSpace (newline level ++ (prettyChars level item ++ rest)) = c :: after ∧ c ≠ ']' := by
  have hskip := skipSpace_prettyChars level item rest
  obtain ⟨c, cs, hprinted, -, hc⟩ := exists_prettyChars_eq_cons level item
  rw [skipSpace_newline, hskip, hprinted]
  exact ⟨c, cs ++ rest, rfl, rfl, hc⟩

/-- Where a key is read, its opening quote has been taken. -/
theorem skipSpace_key (level : Nat) (key : String) (rest : List Char) :
    skipSpace (newline level ++ (quote key ++ rest)) =
      '"' :: (key.toList.flatMap escapeChar ++ '"' :: rest) := by
  rw [skipSpace_newline, quote, List.cons_append, List.append_assoc, List.singleton_append]
  exact skipSpace_cons_of_not_isSpace (by decide) _

/-! ## Steps of the reader -/

section Steps

variable {fuel depth : Nat} {cs after start rest left : List Char}

theorem readValue_whole
    {n : Whole} (hcs : skipSpace cs = wholeDigits n.val ++ rest) (hrest : EndsNumeral rest) :
    readValue (fuel + 1) depth cs = .ok (.whole n, rest) := by
  unfold wholeDigits at hcs
  split at hcs
  next hsign =>
    have hread := readNumber_toDigits true (natAbs_le_maxWord n) hrest
    rw [finishWhole_true hsign] at hread
    obtain ⟨c, digits, hdigits, hdigit⟩ := exists_toDigits_eq_cons n.val.natAbs
    rw [hdigits, List.cons_append] at hcs hread
    rw [readValue]
    simp only [hcs]
    split <;> simp_all
  next hsign =>
    have hread := readNumber_toDigits false (natAbs_le_maxWord n) hrest
    rw [finishWhole_false (by omega)] at hread
    rw [readValue]
    simpa only [hcs, List.cons_append] using hread

theorem exists_readValue_floatDigits (x : Float) :
    ∃ value, ∀ {fuel depth cs rest}, skipSpace cs = floatDigits x ++ rest → EndsNumeral rest →
      readValue (fuel + 1) depth cs = .ok (value, rest) := by
  by_cases hx : x.isFinite = true
  · obtain ⟨text, r, y, hread, hy, hprinted | hprinted⟩ := exists_readsAs_floatDigits hx
    · refine ⟨.float y, fun {fuel depth cs rest} hcs hrest => ?_⟩
      have hnumber : readNumber true (text ++ rest) = .ok (.float y, rest) := by
        rw [hread.reads true hrest, finishFloat, hy]
        rfl
      obtain ⟨c, cs, rfl, hdigit⟩ := hread.starts
      rw [hprinted, List.cons_append] at hcs
      rw [List.cons_append] at hnumber
      rw [readValue]
      simp only [hcs]
      split <;> simp_all
    · refine ⟨.float (-y), fun {fuel depth cs rest} hcs hrest => ?_⟩
      have hnumber : readNumber false (text ++ rest) = .ok (.float (-y), rest) := by
        rw [hread.reads false hrest, finishFloat, hy]
        rfl
      rw [hprinted, List.cons_append] at hcs
      rw [readValue]
      simpa only [hcs] using hnumber
  · refine ⟨.null, fun {fuel depth cs rest} hcs _ => ?_⟩
    rw [floatDigits, if_neg hx] at hcs
    rw [readValue, hcs]
    rfl

theorem readValue_float
    {x : Float} (hcs : skipSpace cs = floatDigits x ++ rest) (hrest : EndsNumeral rest) :
    readValue (fuel + 1) depth cs = .ok (rereadFloat x, rest) := by
  obtain ⟨value, hvalue⟩ := exists_readValue_floatDigits x
  obtain ⟨c, after, hprinted, hspace, -⟩ := exists_floatDigits_eq_cons x
  have hskip : skipSpace (floatDigits x) = floatDigits x ++ [] := by
    rw [List.append_nil, hprinted]
    exact skipSpace_cons_of_not_isSpace hspace _
  have halone : rereadFloat x = value := by
    rw [rereadFloat, @hvalue 0 0 _ _ hskip endsNumeral_nil]
  rw [halone]
  exact hvalue hcs hrest

theorem readValue_str
    {s : String} (hcs : skipSpace cs = quote s ++ rest) :
    readValue (fuel + 1) depth cs = .ok (.str s, rest) := by
  have hread := readString_escaped s rest
  rw [quote, List.cons_append, List.append_assoc, List.singleton_append] at hcs
  rw [readValue]
  simp [hcs, hread, bind, Except.bind]

theorem readValue_array
    {items : List Json} (hcs : skipSpace cs = '[' :: after)
    (hitems : readItems fuel depth true after = .ok (items, rest)) :
    readValue (fuel + 1) (depth + 1) cs = .ok (.arr items, rest) := by
  rw [readValue]
  simp [hcs, hitems, bind, Except.bind]

theorem readValue_object
    {fields : List (String × Json)} (hcs : skipSpace cs = '{' :: after)
    (hfields : readFields fuel depth true after = .ok (fields, rest)) :
    readValue (fuel + 1) (depth + 1) cs = .ok (mkObj fields, rest) := by
  rw [readValue]
  simp [hcs, hfields, bind, Except.bind]

theorem readItems_close (first : Bool) (hcs : skipSpace cs = ']' :: rest) :
    readItems (fuel + 1) depth first cs = .ok ([], rest) := by
  rw [readItems]
  simp only [hcs]
  rfl

theorem readItems_first
    {item found : Json} {items : List Json} {level : Nat}
    (hread : ∀ {cs}, skipSpace cs = prettyChars level item ++ rest →
      readValue fuel depth cs = .ok (found, rest))
    (hitems : readItems fuel depth false rest = .ok (items, left)) :
    readItems (fuel + 1) depth true (newline level ++ (prettyChars level item ++ rest)) =
      .ok (found :: items, left) := by
  have hitem := hread (skipSpace_prettyChars level item rest)
  obtain ⟨c, after, hprinted, hskip, hc⟩ := exists_item_eq_cons level item rest
  rw [hprinted] at hitem hskip ⊢
  rw [readItems]
  simp only [hskip]
  split <;> simp_all [bind, Except.bind]

/-- Behind a comma an array goes on as if it began there. -/
theorem readItems_comma
    {item : Json} {level : Nat}
    (hcs : cs = newline level ++ (prettyChars level item ++ rest)) :
    readItems (fuel + 1) depth false (',' :: cs) = readItems (fuel + 1) depth true cs := by
  obtain ⟨c, after, -, hskip, hc⟩ := exists_item_eq_cons level item rest
  rw [← hcs] at hskip
  have hcomma := skipSpace_cons_of_not_isSpace (show isSpace ',' = false by decide) cs
  rw [readItems, readItems]
  simp only [hcomma, hskip, Bool.false_eq_true, if_false, if_true]
  split
  case h_1 heq => cases heq
  case h_2 heq => exact absurd (List.cons.inj heq).1 hc
  case h_3 =>
    split
    case h_1 heq => cases heq
    case h_2 heq => exact absurd (List.cons.inj heq).1 hc
    case h_3 heq => rw [heq]
    case h_4 => rfl

theorem readFields_close (first : Bool) (hcs : skipSpace cs = '}' :: rest) :
    readFields (fuel + 1) depth first cs = .ok ([], rest) := by
  rw [readFields]
  simp only [hcs]
  rfl

theorem readFields_first
    {key : String} {value found : Json} {fields : List (String × Json)} {level : Nat}
    (hread : ∀ {cs}, skipSpace cs = prettyChars level value ++ rest →
      readValue fuel depth cs = .ok (found, rest))
    (hfields : readFields fuel depth false rest = .ok (fields, left)) :
    readFields (fuel + 1) depth true
        (newline level ++ (quote key ++ ':' :: ' ' :: (prettyChars level value ++ rest))) =
      .ok ((key, found) :: fields, left) := by
  have hskip := skipSpace_key level key (':' :: ' ' :: (prettyChars level value ++ rest))
  have hkey := readString_escaped key (':' :: ' ' :: (prettyChars level value ++ rest))
  have hcolon := skipSpace_cons_of_not_isSpace (show isSpace ':' = false by decide)
    (' ' :: (prettyChars level value ++ rest))
  have hvalue := hread (show skipSpace (' ' :: _) = _ from skipSpace_prettyChars level value rest)
  rw [readFields]
  simp [hskip, hkey, hcolon, hvalue, hfields, bind, Except.bind]

theorem readFields_comma (hcs : skipSpace cs = '"' :: after) :
    readFields (fuel + 1) depth false (',' :: cs) = readFields (fuel + 1) depth true cs := by
  have hcomma := skipSpace_cons_of_not_isSpace (show isSpace ',' = false by decide) cs
  rw [readFields, readFields]
  simp [hcomma, hcs, bind, Except.bind]

end Steps

/-! ## Fields in order -/

theorem insertField_of_forall_lt
    {key : String} {value : Json} {fields : List (String × Json)}
    (hbefore : ∀ field ∈ fields, field.1 < key) :
    insertField key value fields = fields ++ [(key, value)] := by
  induction fields with
  | nil => rfl
  | cons field rest ih =>
      obtain ⟨name, found⟩ := field
      have hname : name < key := hbefore (name, found) List.mem_cons_self
      have hnotBefore : ¬key < name := String.lt_asymm hname
      have hne : key ≠ name := by
        rintro rfl
        exact hnotBefore hname
      have htail := ih fun field hfield => hbefore field (List.mem_cons_of_mem _ hfield)
      rw [insertField, if_neg hnotBefore, if_neg hne, htail]
      rfl

theorem foldl_insertField
    {earlier fields : List (String × Json)}
    (hordered : (earlier ++ fields).Pairwise fun a b => a.1 < b.1) :
    fields.foldl (fun acc field => insertField field.1 field.2 acc) earlier =
      earlier ++ fields := by
  induction fields generalizing earlier with
  | nil => simp
  | cons field rest ih =>
      have hbefore : ∀ before ∈ earlier, before.1 < field.1 := fun before hmem =>
        (List.pairwise_append.mp hordered).2.2 before hmem field List.mem_cons_self
      have hnext : (earlier ++ [field] ++ rest).Pairwise fun a b => a.1 < b.1 := by
        simpa using hordered
      rw [List.foldl_cons, insertField_of_forall_lt hbefore, ih hnext]
      simp

theorem mkObj_of_ordered
    {fields : List (String × Json)} (hordered : fields.Pairwise fun a b => a.1 < b.1) :
    mkObj fields = .obj fields := by
  have hfold := @foldl_insertField [] fields hordered
  exact congrArg Json.obj hfold

theorem mem_insertField
    {key : String} {value : Json} {fields : List (String × Json)} {field : String × Json}
    (hfield : field ∈ insertField key value fields) : field = (key, value) ∨ field ∈ fields := by
  induction fields with
  | nil => exact Or.inl (List.mem_singleton.mp hfield)
  | cons first rest ih =>
      rw [insertField] at hfield
      split at hfield
      · exact List.mem_cons.mp hfield
      · split at hfield
        · exact (List.mem_cons.mp hfield).imp_right (List.mem_cons_of_mem _)
        · rcases List.mem_cons.mp hfield with rfl | hrest
          · exact Or.inr List.mem_cons_self
          · exact (ih hrest).imp_right (List.mem_cons_of_mem _)

theorem pairwise_insertField
    (key : String) (value : Json) {fields : List (String × Json)}
    (hordered : fields.Pairwise fun a b => a.1 < b.1) :
    (insertField key value fields).Pairwise fun a b => a.1 < b.1 := by
  induction fields with
  | nil => exact List.pairwise_singleton _ _
  | cons first rest ih =>
      obtain ⟨name, found⟩ := first
      obtain ⟨hfirst, hrest⟩ := List.pairwise_cons.mp hordered
      rw [insertField]
      split
      next hbefore =>
        refine List.pairwise_cons.mpr ⟨fun field hfield => ?_, hordered⟩
        rcases List.mem_cons.mp hfield with rfl | hfield
        · exact hbefore
        · exact String.lt_trans hbefore (hfirst field hfield)
      next hbefore =>
        split
        next hkey =>
          subst hkey
          exact List.pairwise_cons.mpr ⟨hfirst, hrest⟩
        next hkey =>
          have hafter : name < key :=
            Std.lt_of_le_of_ne (String.not_lt.mp hbefore) (Ne.symm hkey)
          refine List.pairwise_cons.mpr ⟨fun field hfield => ?_, ih hrest⟩
          rcases mem_insertField hfield with rfl | hfield
          · exact hafter
          · exact hfirst field hfield

theorem mem_insertField_self
    (key : String) (value : Json) (fields : List (String × Json)) :
    (key, value) ∈ insertField key value fields := by
  induction fields with
  | nil => exact List.mem_cons_self
  | cons first rest ih =>
      rw [insertField]
      split
      · exact List.mem_cons_self
      · split
        · exact List.mem_cons_self
        · exact List.mem_cons_of_mem _ ih

theorem mem_insertField_of_ne
    {key : String} (value : Json) {fields : List (String × Json)} {field : String × Json}
    (hfield : field ∈ fields) (hne : field.1 ≠ key) : field ∈ insertField key value fields := by
  induction fields with
  | nil => exact absurd hfield List.not_mem_nil
  | cons first rest ih =>
      rw [insertField]
      split
      · exact List.mem_cons_of_mem _ hfield
      · split
        next hkey =>
          rcases List.mem_cons.mp hfield with rfl | hrest
          · exact absurd hkey.symm hne
          · exact List.mem_cons_of_mem _ hrest
        next =>
          rcases List.mem_cons.mp hfield with rfl | hrest
          · exact List.mem_cons_self
          · exact List.mem_cons_of_mem _ (ih hrest)

/-- Of fields with different names none is lost. -/
theorem mem_fieldsOfList
    {fields : List (String × Json)} (hnames : (fields.map Prod.fst).Nodup)
    {field : String × Json} (hfield : field ∈ fields) : field ∈ fieldsOfList fields := by
  have hfold (earlier : List (String × Json))
      (hmem : field ∈ fields ∨ field ∈ earlier ∧ field.1 ∉ fields.map Prod.fst) :
      field ∈ fields.foldl (fun acc field => insertField field.1 field.2 acc) earlier := by
    clear hfield
    induction fields generalizing earlier with
    | nil => exact (hmem.resolve_left List.not_mem_nil).1
    | cons first rest ih =>
        rw [List.map_cons, List.nodup_cons] at hnames
        rw [List.foldl_cons]
        apply ih hnames.2
        rcases hmem with hfields | ⟨hearlier, hname⟩
        · rcases List.mem_cons.mp hfields with rfl | hrest
          · exact .inr ⟨mem_insertField_self _ _ _, hnames.1⟩
          · exact .inl hrest
        · rw [List.map_cons, List.mem_cons, not_or] at hname
          exact .inr ⟨mem_insertField_of_ne _ hearlier hname.1, hname.2⟩
  exact hfold [] (.inl hfield)

/-- The fields of a list are put in order, and none is there that was not given. -/
theorem fieldsOfList_spec (fields : List (String × Json)) :
    ((fieldsOfList fields).Pairwise fun a b => a.1 < b.1) ∧
      ∀ field ∈ fieldsOfList fields, field ∈ fields := by
  have hfold (earlier : List (String × Json)) (hordered : earlier.Pairwise fun a b => a.1 < b.1) :
      ((fields.foldl (fun acc field => insertField field.1 field.2 acc) earlier).Pairwise
          fun a b => a.1 < b.1) ∧
        ∀ field ∈ fields.foldl (fun acc field => insertField field.1 field.2 acc) earlier,
          field ∈ earlier ∨ field ∈ fields := by
    induction fields generalizing earlier with
    | nil => exact ⟨hordered, fun field hfield => Or.inl hfield⟩
    | cons first rest ih =>
        obtain ⟨hpairwise, hmem⟩ := ih _ (pairwise_insertField first.1 first.2 hordered)
        refine ⟨hpairwise, fun field hfield => ?_⟩
        rcases hmem field hfield with hearlier | hrest
        · rcases mem_insertField hearlier with rfl | hearlier
          · exact Or.inr List.mem_cons_self
          · exact Or.inl hearlier
        · exact Or.inr (List.mem_cons_of_mem _ hrest)
  obtain ⟨hpairwise, hmem⟩ := hfold [] List.Pairwise.nil
  exact ⟨hpairwise, fun field hfield => (hmem field hfield).resolve_left (by simp)⟩

/-! ## Whole documents -/

theorem endsNumeral_prettyItems (level : Nat) (items : List Json) (rest : List Char) :
    EndsNumeral (prettyItems level items ++ rest) := by
  intro c hc
  cases items with
  | nil =>
      obtain rfl : '\n' = c := Option.some.inj hc
      decide
  | cons item items =>
      obtain rfl : ',' = c := Option.some.inj hc
      decide

theorem endsNumeral_prettyFields
    (level : Nat) (fields : List (String × Json)) (rest : List Char) :
    EndsNumeral (prettyFields level fields ++ rest) := by
  intro c hc
  cases fields with
  | nil =>
      obtain rfl : '\n' = c := Option.some.inj hc
      decide
  | cons field fields =>
      obtain ⟨key, value⟩ := field
      obtain rfl : ',' = c := Option.some.inj hc
      decide

theorem effort_pos (value : Json) : 0 < value.effort := by
  cases value <;> simp only [effort] <;> omega

theorem effortItems_pos (items : List Json) : 0 < effortItems items := by
  cases items <;> simp only [effortItems] <;> omega

theorem effortFields_pos (fields : List (String × Json)) : 0 < effortFields fields := by
  rcases fields with _ | ⟨⟨key, value⟩, rest⟩ <;> simp only [effortFields] <;> omega

mutual

/-- A value that is printed is read back, if there is fuel and depth enough. -/
theorem readValue_prettyChars
    (value : Json) {level fuel depth : Nat} {cs rest : List Char}
    (hordered : value.Ordered) (hfuel : value.effort ≤ fuel) (hdepth : value.nesting ≤ depth)
    (hrest : EndsNumeral rest) (hcs : skipSpace cs = prettyChars level value ++ rest) :
    readValue fuel depth cs = .ok (value.reread, rest) := by
  obtain ⟨fuel, rfl⟩ := Nat.exists_eq_add_one.mpr (Nat.lt_of_lt_of_le (effort_pos value) hfuel)
  match value with
  | .null =>
      rw [readValue, hcs]
      rfl
  | .bool true =>
      rw [readValue, hcs]
      rfl
  | .bool false =>
      rw [readValue, hcs]
      rfl
  | .whole n => exact readValue_whole hcs hrest
  | .float x => exact readValue_float hcs hrest
  | .str s => exact readValue_str hcs
  | .arr items =>
      have hpos := effortItems_pos items
      simp only [effort, nesting] at hfuel hdepth
      obtain ⟨fuel, rfl⟩ := Nat.exists_eq_add_one.mpr (show 0 < fuel by omega)
      obtain ⟨depth, rfl⟩ := Nat.exists_eq_add_one.mpr (show 0 < depth by omega)
      match items with
      | [] => exact readValue_array hcs (readItems_close true rfl)
      | item :: items =>
          obtain ⟨hitem, hitems⟩ := hordered
          simp only [effortItems, nestingItems] at hfuel hdepth
          simp only [prettyChars, List.cons_append, List.append_assoc] at hcs
          have hends := endsNumeral_prettyItems level items rest
          have hreadItem {cs} := @readValue_prettyChars item (level + 1) fuel depth cs _ hitem
            (by omega) (by omega) hends
          have hreadItems := @readItems_prettyItems items level fuel depth rest hitems
            (by omega) (by omega)
          exact readValue_array hcs (readItems_first hreadItem hreadItems)
  | .obj fields =>
      have hpos := effortFields_pos fields
      simp only [effort, nesting] at hfuel hdepth
      obtain ⟨fuel, rfl⟩ := Nat.exists_eq_add_one.mpr (show 0 < fuel by omega)
      obtain ⟨depth, rfl⟩ := Nat.exists_eq_add_one.mpr (show 0 < depth by omega)
      obtain ⟨hpairwise, hordered⟩ := hordered
      -- The fields are put in order once they are read, which they are already.
      rw [reread, ← mkObj_of_ordered (pairwise_rereadFields hpairwise)]
      match fields with
      | [] => exact readValue_object hcs (readFields_close true rfl)
      | (key, value) :: fields =>
          obtain ⟨hvalue, hfields⟩ := hordered
          simp only [effortFields, nestingFields] at hfuel hdepth
          simp only [prettyChars, List.cons_append, List.append_assoc] at hcs
          have hends := endsNumeral_prettyFields level fields rest
          have hreadValue {cs} := @readValue_prettyChars value (level + 1) fuel depth cs _ hvalue
            (by omega) (by omega) hends
          have hreadFields := @readFields_prettyFields fields level fuel depth rest hfields
            (by omega) (by omega)
          exact readValue_object hcs (readFields_first hreadValue hreadFields)

theorem readItems_prettyItems
    (items : List Json) {level fuel depth : Nat} {rest : List Char}
    (hordered : OrderedItems items) (hfuel : effortItems items ≤ fuel)
    (hdepth : nestingItems items ≤ depth) :
    readItems fuel depth false (prettyItems level items ++ rest) =
      .ok (rereadItems items, rest) := by
  obtain ⟨fuel, rfl⟩ :=
    Nat.exists_eq_add_one.mpr (Nat.lt_of_lt_of_le (effortItems_pos items) hfuel)
  match items with
  | [] =>
      rw [prettyItems, List.append_assoc]
      exact readItems_close false (skipSpace_newline level (']' :: rest))
  | item :: items =>
      obtain ⟨hitem, hitems⟩ := hordered
      simp only [effortItems, nestingItems] at hfuel hdepth
      simp only [prettyItems, List.cons_append, List.append_assoc]
      have hends := endsNumeral_prettyItems level items rest
      have hreadItem {cs} := @readValue_prettyChars item (level + 1) fuel depth cs _ hitem
        (by omega) (by omega) hends
      have hreadItems := @readItems_prettyItems items level fuel depth rest hitems
        (by omega) (by omega)
      rw [readItems_comma rfl]
      exact readItems_first hreadItem hreadItems

theorem readFields_prettyFields
    (fields : List (String × Json)) {level fuel depth : Nat} {rest : List Char}
    (hordered : OrderedFields fields) (hfuel : effortFields fields ≤ fuel)
    (hdepth : nestingFields fields ≤ depth) :
    readFields fuel depth false (prettyFields level fields ++ rest) =
      .ok (rereadFields fields, rest) := by
  obtain ⟨fuel, rfl⟩ :=
    Nat.exists_eq_add_one.mpr (Nat.lt_of_lt_of_le (effortFields_pos fields) hfuel)
  match fields with
  | [] =>
      rw [prettyFields, List.append_assoc]
      exact readFields_close false (skipSpace_newline level ('}' :: rest))
  | (key, value) :: fields =>
      obtain ⟨hvalue, hfields⟩ := hordered
      simp only [effortFields, nestingFields] at hfuel hdepth
      simp only [prettyFields, List.cons_append, List.append_assoc]
      have hends := endsNumeral_prettyFields level fields rest
      have hreadValue {cs} := @readValue_prettyChars value (level + 1) fuel depth cs _ hvalue
        (by omega) (by omega) hends
      have hreadFields := @readFields_prettyFields fields level fuel depth rest hfields
        (by omega) (by omega)
      rw [readFields_comma (skipSpace_key (level + 1) key _)]
      exact readFields_first hreadValue hreadFields

end

theorem length_toDigits_pos (n : Nat) : 0 < (Nat.toDigits 10 n).length :=
  List.length_pos_iff.mpr Nat.toDigits_ne_nil

mutual

/-- The fuel of a document, which grows with its length, is enough for what is printed in it. -/
theorem effort_le_length_prettyChars (value : Json) (level : Nat) :
    value.effort ≤ (prettyChars level value).length := by
  match value with
  | .null => simp [effort, prettyChars]
  | .bool true => simp [effort, prettyChars]
  | .bool false => simp [effort, prettyChars]
  | .whole n =>
      have hdigits := length_toDigits_pos n.val.natAbs
      simp only [effort, prettyChars, wholeDigits]
      split
      · exact hdigits
      · exact Nat.succ_pos _
  | .float x =>
      obtain ⟨c, cs, hprinted, -⟩ := exists_floatDigits_eq_cons x
      simp [effort, prettyChars, hprinted]
  | .str s => simp [effort, prettyChars, quote]
  | .arr [] => simp [effort, effortItems, prettyChars]
  | .arr (item :: items) =>
      have hitem := effort_le_length_prettyChars item (level + 1)
      have hitems := effortItems_le_length_prettyItems items level
      simp only [effort, effortItems, prettyChars, newline, List.length_cons, List.length_append]
      omega
  | .obj [] => simp [effort, effortFields, prettyChars]
  | .obj ((key, value) :: fields) =>
      have hvalue := effort_le_length_prettyChars value (level + 1)
      have hfields := effortFields_le_length_prettyFields fields level
      simp only [effort, effortFields, prettyChars, newline, List.length_cons, List.length_append]
      omega

theorem effortItems_le_length_prettyItems
    (items : List Json) (level : Nat) :
    effortItems items ≤ (prettyItems level items).length := by
  match items with
  | [] => simp [effortItems, prettyItems, newline]
  | item :: items =>
      have hitem := effort_le_length_prettyChars item (level + 1)
      have hitems := effortItems_le_length_prettyItems items level
      simp only [effortItems, prettyItems, newline, List.length_cons, List.length_append]
      omega

theorem effortFields_le_length_prettyFields
    (fields : List (String × Json)) (level : Nat) :
    effortFields fields ≤ (prettyFields level fields).length := by
  match fields with
  | [] => simp [effortFields, prettyFields, newline]
  | (key, value) :: fields =>
      have hvalue := effort_le_length_prettyChars value (level + 1)
      have hfields := effortFields_le_length_prettyFields fields level
      simp only [effortFields, prettyFields, newline, List.length_cons, List.length_append]
      omega

end

theorem parse_pretty_of_ordered
    {value : Json} (hordered : value.Ordered) (hnesting : value.nesting < 128) :
    parse (pretty value) = .ok value.reread := by
  have heffort := effort_le_length_prettyChars value 0
  have hskip := skipSpace_prettyChars 0 value []
  rw [List.append_nil] at hskip
  have hread : readValue (2 * (prettyChars 0 value).length + 2) maxDepth (prettyChars 0 value) =
      .ok (value.reread, []) := by
    have hdepth : value.nesting ≤ maxDepth := Nat.le_of_lt_succ hnesting
    apply readValue_prettyChars value hordered (by omega) hdepth endsNumeral_nil
    rw [hskip, List.append_nil]
  have hdocument : readDocument (prettyChars 0 value) = .ok value.reread := by
    simp only [readDocument, hread, bind, Except.bind]
    rfl
  rw [parse, pretty, String.toList_ofList, hdocument]

theorem parse_pretty {value : Json} (hplain : value.Plain) (hnesting : value.nesting < 128) :
    parse (pretty value) = .ok value := by
  have hread := parse_pretty_of_ordered hplain.ordered hnesting
  rwa [hplain.reread_eq] at hread

end FlowSurvey.Json
