import FlowSurvey.Proofs.LineEndings
import FlowSurvey.Text.Docstring
import Mathlib.Data.List.DropRight
import Mathlib.Order.Lattice.Nat

/-!
# Cleaned documentation strings

The rule for cleaning a documentation string speaks of columns, of all the newlines in it and
of the least indentation of its later lines.  Cleaning goes through the text once and never
sees an empty line behind the last newline; such a line would be dropped in the end, so the
rule is followed all the same.  A carriage return before each newline ends the columns and the
lines where the newline does, so it changes nothing.
-/

namespace FlowSurvey.Text

/-! ## The rule -/

/-- How many characters have been written since the last newline. -/
def column (written : List Char) : Nat :=
  (written.reverse.takeWhile (· ≠ '\n')).length

/-- A text with spaces up to the next multiple of eight columns in the place of each tab. -/
def untabbed (doc : List Char) : List Char :=
  doc.foldl
    (fun written c =>
      if c = '\t' then written ++ List.replicate (8 - column written % 8) ' ' else written ++ [c])
    []

/-- The least number of blanks in front of a line that holds more than blanks, or zero. -/
noncomputable def leastIndentation (ls : List (List Char)) : Nat :=
  sInf {k | ∃ line ∈ ls, (∃ c ∈ line, isBlank c = false) ∧ k = (line.takeWhile isBlank).length}

def withoutEmptyEnds (ls : List (List Char)) : List (List Char) :=
  (ls.rdropWhile (· = [])).dropWhile (· = [])

/-- The first line without the blanks in front of it, and the others moved to the left. -/
noncomputable def alignedLines : List (List Char) → List (List Char)
  | [] => []
  | first :: rest => first.dropWhile isBlank :: rest.map (·.drop (leastIndentation rest))

/-- What a documentation string is to be cleaned to. -/
noncomputable def aligned (doc : String) : String :=
  let ls := (untabbed doc.toList).splitOn '\n'
  String.ofList (['\n'].intercalate (withoutEmptyEnds (alignedLines ls)))

/-! ## Tabs -/

theorem column_concat (written : List Char) {c : Char} (hc : c ≠ '\n') :
    column (written ++ [c]) = column written + 1 := by
  simp [column, hc]

theorem column_newline (written : List Char) : column (written ++ ['\n']) = 0 := by
  simp [column]

theorem column_spaces (written : List Char) (width : Nat) :
    column (written ++ List.replicate width ' ') = column written + width := by
  induction width with
  | zero => simp
  | succ width ih =>
    rw [List.replicate_succ', ← List.append_assoc, column_concat _ (by decide), ih, Nat.add_assoc]

theorem foldl_tabs_eq {cs : List Char} (hreturn : '\r' ∉ cs) (written : List Char) :
    cs.foldl
        (fun written c =>
          if c = '\t' then written ++ List.replicate (8 - column written % 8) ' '
          else written ++ [c])
        written =
      written ++ expandTabs (column written) cs := by
  induction cs generalizing written with
  | nil => simp [expandTabs]
  | cons c rest ih =>
    rw [List.mem_cons, not_or] at hreturn
    rw [List.foldl_cons, ih hreturn.2]
    by_cases htab : c = '\t'
    · subst htab
      rw [if_pos rfl, column_spaces, expandTabs, List.append_assoc]
      rfl
    · rw [if_neg htab, expandTabs, List.append_assoc, List.singleton_append]
      · by_cases hnewline : c = '\n'
        · subst hnewline
          rw [column_newline, if_pos (.inl rfl)]
        · rw [column_concat _ hnewline, if_neg]
          exact not_or.mpr ⟨hnewline, Ne.symm hreturn.1⟩
      · exact htab

theorem untabbed_eq {doc : List Char} (hreturn : '\r' ∉ doc) : untabbed doc = expandTabs 0 doc :=
  foldl_tabs_eq hreturn []

theorem return_not_mem_expandTabs {cs : List Char} (hreturn : '\r' ∉ cs) (column : Nat) :
    '\r' ∉ expandTabs column cs := by
  fun_induction expandTabs column cs with
  | case1 => exact List.not_mem_nil
  | case2 column rest width ih =>
    rw [List.mem_append, not_or]
    exact ⟨by simp, ih (by simp_all)⟩
  | case3 column c rest htab ih =>
    rw [List.mem_cons, not_or] at hreturn ⊢
    exact ⟨hreturn.1, ih hreturn.2⟩

/-! ## Lines -/

theorem lines_newline (cs : List Char) : lines ('\n' :: cs) = [] :: lines cs := by
  rw [lines]

theorem lines_plain {c : Char} (hnewline : c ≠ '\n') (hreturn : c ≠ '\r') (cs : List Char) :
    lines (c :: cs) =
      match lines cs with
      | [] => [[c]]
      | line :: more => (c :: line) :: more :=
  lines.eq_4 c cs hnewline fun _ hc => absurd hc hreturn

/-- Splitting at the newlines gives one more line behind a newline at the end. -/
theorem splitOn_newline_eq {cs : List Char} (hreturn : '\r' ∉ cs) :
    cs.splitOn '\n' = lines cs ∨ cs.splitOn '\n' = lines cs ++ [[]] := by
  induction cs with
  | nil => exact .inr rfl
  | cons c rest ih =>
    rw [List.mem_cons, not_or] at hreturn
    rw [List.splitOn_cons_eq_if_modifyHead]
    by_cases hnewline : c = '\n'
    · subst hnewline
      rw [lines_newline]
      simpa using ih hreturn.2
    · rw [if_neg (by simpa using hnewline), lines_plain hnewline (Ne.symm hreturn.1)]
      rcases ih hreturn.2 with hsame | hmore
      · left
        rw [hsame]
        cases hlines : lines rest with
        | nil => exact absurd (hsame.trans hlines) (List.splitOn_ne_nil _ _)
        | cons line more => rfl
      · rw [hmore]
        cases lines rest with
        | nil => exact .inl rfl
        | cons line more => exact .inr rfl

/-! ## Indentation -/

/-- Trimming takes all of a line away only if it holds nothing but blanks. -/
theorem not_isEmpty_trim_iff (line : List Char) :
    (!(trim line).isEmpty) = true ↔ ∃ c ∈ line, isBlank c = false := by
  have hempty : trim line = [] ↔ ∀ c ∈ line, isBlank c = true := by
    rw [trim, trimEnd, List.reverse_eq_nil_iff, List.dropWhile_eq_nil_iff, trimStart]
    constructor
    · intro hrest c hc
      rw [← List.takeWhile_append_dropWhile (p := isBlank) (l := line), List.mem_append] at hc
      rcases hc with hfront | hbehind
      · exact List.mem_takeWhile_imp hfront
      · exact hrest c (List.mem_reverse.mpr hbehind)
    · intro hall c hc
      exact hall c ((List.dropWhile_suffix isBlank).mem (List.mem_reverse.mp hc))
  simp [hempty]

theorem sharedIndentation_eq (ls : List (List Char)) :
    sharedIndentation ls = leastIndentation ls := by
  have hmem (k : Nat) :
      k ∈ (ls.filter fun line => !(trim line).isEmpty).map indentation ↔
        ∃ line ∈ ls, (∃ c ∈ line, isBlank c = false) ∧ k = (line.takeWhile isBlank).length := by
    simp only [List.mem_map, List.mem_filter, not_isEmpty_trim_iff, indentation, and_assoc,
      eq_comm (a := k)]
  rw [sharedIndentation, leastIndentation]
  cases hleast : ((ls.filter fun line => !(trim line).isEmpty).map indentation).min? with
  | none =>
    rw [List.min?_eq_none_iff] at hleast
    have hnone : {k | ∃ line ∈ ls, (∃ c ∈ line, isBlank c = false) ∧
        k = (line.takeWhile isBlank).length} = ∅ := by
      refine Set.eq_empty_iff_forall_notMem.mpr fun k hk => ?_
      have hlisted := (hmem k).mpr hk
      rw [hleast] at hlisted
      exact absurd hlisted List.not_mem_nil
    rw [hnone, Nat.sInf_empty, Option.getD_none]
  | some m =>
    obtain ⟨hm, hle⟩ := List.min?_eq_some_iff.mp hleast
    have hisLeast : IsLeast {k | ∃ line ∈ ls, (∃ c ∈ line, isBlank c = false) ∧
        k = (line.takeWhile isBlank).length} m :=
      ⟨(hmem m).mp hm, fun k hk => hle k ((hmem k).mpr hk)⟩
    rw [hisLeast.csInf_eq, Option.getD_some]

/-! ## Alignment -/

theorem withoutEmptyEnds_eq (ls : List (List Char)) : withoutEmptyEnds ls = stripEmptyLines ls := by
  have hempty : (fun line : List Char => decide (line = [])) = List.isEmpty := by
    funext line
    cases line <;> rfl
  rw [withoutEmptyEnds, stripEmptyLines, List.rdropWhile, hempty]

/-- An empty line at the end is dropped, and it has no indentation to share. -/
theorem dedent_concat_empty (ls : List (List Char)) : dedent (ls ++ [[]]) = dedent ls := by
  cases ls with
  | nil => rfl
  | cons first rest =>
    have hmargin : sharedIndentation (rest ++ [[]]) = sharedIndentation rest := by
      simp [sharedIndentation, trim, trimStart, trimEnd]
    rw [List.cons_append, dedent, dedent, hmargin, List.map_append, List.map_singleton,
      List.drop_nil, ← List.cons_append, stripEmptyLines, stripEmptyLines, List.reverse_concat,
      List.dropWhile_cons_of_pos rfl]

theorem withoutEmptyEnds_alignedLines (ls : List (List Char)) :
    withoutEmptyEnds (alignedLines ls) = dedent ls := by
  rw [withoutEmptyEnds_eq]
  cases ls with
  | nil => rfl
  | cons first rest =>
    rw [alignedLines, dedent, sharedIndentation_eq]
    rfl

theorem aligned_eq {doc : String} (hreturn : '\r' ∉ doc.toList) :
    aligned doc = cleanDocstring doc := by
  rw [aligned, cleanDocstring, untabbed_eq hreturn, withoutEmptyEnds_alignedLines]
  rcases splitOn_newline_eq (return_not_mem_expandTabs hreturn 0) with hsame | hmore
  · rw [hsame]
  · rw [hmore, dedent_concat_empty]

/-! ## Carriage returns -/

theorem expandTabs_withCarriageReturns {cs : List Char} (hreturn : '\r' ∉ cs) (column : Nat) :
    expandTabs column (withCarriageReturns cs) = withCarriageReturns (expandTabs column cs) := by
  induction cs generalizing column with
  | nil => rfl
  | cons c rest ih =>
    rw [List.mem_cons, not_or] at hreturn
    by_cases hnewline : c = '\n'
    · subst hnewline
      simp [expandTabs, ih hreturn.2]
    · rw [withCarriageReturns_cons hnewline]
      by_cases htab : c = '\t'
      · subst htab
        rw [expandTabs, expandTabs, ih hreturn.2, withCarriageReturns_append]
        exact congrArg (· ++ _) (withCarriageReturns_of_not_mem (by simp)).symm
      · rw [expandTabs, expandTabs, ih hreturn.2, withCarriageReturns_cons hnewline]
        all_goals exact htab

theorem lines_withCarriageReturns {cs : List Char} (hreturn : '\r' ∉ cs) :
    lines (withCarriageReturns cs) = lines cs := by
  induction cs with
  | nil => rfl
  | cons c rest ih =>
    rw [List.mem_cons, not_or] at hreturn
    by_cases hnewline : c = '\n'
    · subst hnewline
      rw [withCarriageReturns_newline, lines_newline, lines, ih hreturn.2]
    · rw [withCarriageReturns_cons hnewline, lines_plain hnewline (Ne.symm hreturn.1),
        lines_plain hnewline (Ne.symm hreturn.1), ih hreturn.2]

/--
A text is cleaned as the rule says, and lines that end with a carriage return besides are
cleaned like those that do not.
-/
theorem cleanDocstring_eq_aligned {doc : String} (hreturn : '\r' ∉ doc.toList) :
    cleanDocstring doc = aligned doc ∧
      cleanDocstring (.ofList (withCarriageReturns doc.toList)) = cleanDocstring doc := by
  refine ⟨(aligned_eq hreturn).symm, ?_⟩
  rw [cleanDocstring, String.toList_ofList, expandTabs_withCarriageReturns hreturn,
    lines_withCarriageReturns (return_not_mem_expandTabs hreturn 0), cleanDocstring]

/-- A tab behind blanks and one in front of them, a line of blanks, and a newline at the end. -/
theorem cleanDocstring_eq_aligned_tabs :
    '\r' ∉ "Sum.\n \n  \tx\ty\n\t  z\n\n".toList ∧
      aligned "Sum.\n \n  \tx\ty\n\t  z\n\n" = "Sum.\n\nx       y\n  z" ∧
      cleanDocstring "Sum.\r\n \r\n  \tx\ty\r\n\t  z\r\n\r\n" = "Sum.\n\nx       y\n  z" := by
  have hreturn : '\r' ∉ "Sum.\n \n  \tx\ty\n\t  z\n\n".toList := by decide
  have hclean : cleanDocstring "Sum.\n \n  \tx\ty\n\t  z\n\n" = "Sum.\n\nx       y\n  z" := by
    decide
  obtain ⟨halign, hreturns⟩ := cleanDocstring_eq_aligned hreturn
  exact ⟨hreturn, halign ▸ hclean, hreturns.trans hclean⟩

end FlowSurvey.Text
