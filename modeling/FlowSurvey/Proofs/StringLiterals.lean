import FlowSurvey.Proofs.StringEscapes

/-!
# String literals and their texts

The quotes of a literal close behind its body and not before, where a backslash takes the
next character along.  Such quotes are found again, although the longer ones are looked for
first, so a literal is decoded from its body.  A body spells a text unless the letters before
the quotes say that it is raw, or that the literal stands for no plain text at all.
-/

namespace FlowSurvey.Text

/-! ## Quotes -/

/-- The quotes around a literal: one or three of either mark. -/
structure Quotes where
  mark : Char
  triple : Bool
  isQuote_mark : isQuote mark = true

namespace Quotes

variable (q : Quotes)

def delimiter : List Char :=
  List.replicate (if q.triple then 3 else 1) q.mark

/--
The quotes close behind a body and not before.  A backslash takes the character behind it
along, and lines end only between three quotes or behind a backslash.
-/
def closes : List Char → Bool
  | [] => true
  | ['\\'] => false
  | '\\' :: _ :: rest => closes rest
  | c :: rest =>
      (q.triple || c != '\n') && !q.delimiter.isPrefixOf (c :: rest ++ q.delimiter) && closes rest

/-- A literal as it stands in the source. -/
def enclose (letters body : List Char) : List Char :=
  letters ++ (q.delimiter ++ body ++ q.delimiter)

variable {q}

theorem head?_ne_mark
    {body : List Char} (hbody : q.closes body = true) (hsingle : q.triple = false) :
    body.head? ≠ some q.mark := by
  intro hhead
  obtain ⟨rest, rfl⟩ := List.head?_eq_some_iff.mp hhead
  have hmark : q.mark ≠ '\\' := by
    intro heq
    simpa [heq, isQuote] using q.isQuote_mark
  simp [closes, hmark, delimiter, hsingle] at hbody

theorem not_three_marks_prefix {mark : Char} {body : List Char} (hbody : body.head? ≠ some mark)
    (hlength : 6 ≤ (mark :: (body ++ [mark])).length) :
    ¬ [mark, mark, mark] <+: mark :: (body ++ [mark]) := by
  intro hprefix
  cases body with
  | nil => simp at hlength
  | cons c rest => simp_all

/-- Quotes that are looked for before the right ones are not there. -/
theorem exists_delimiters_eq
    {body : List Char} (hbody : q.triple = false → body.head? ≠ some q.mark) :
    ∃ earlier later, delimiters = earlier ++ q.delimiter :: later ∧
      ∀ d ∈ earlier, 2 * d.length ≤ (q.delimiter ++ body ++ q.delimiter).length →
        ¬ d <+: q.delimiter ++ body ++ q.delimiter := by
  obtain ⟨mark, triple, hquote⟩ := q
  have hmark : mark = '"' ∨ mark = '\'' := by simpa [isQuote] using hquote
  rcases hmark with rfl | rfl <;> cases triple
  case inl.true => exact ⟨[], _, rfl, by simp⟩
  case inr.true => exact ⟨[['"', '"', '"']], _, rfl, by simp [delimiter]⟩
  case inl.false =>
    have hthree := not_three_marks_prefix (hbody rfl)
    exact ⟨[['"', '"', '"'], ['\'', '\'', '\'']], _, rfl, by simpa [delimiter] using hthree⟩
  case inr.false =>
    have hthree := not_three_marks_prefix (hbody rfl)
    exact ⟨[['"', '"', '"'], ['\'', '\'', '\''], ['"']], _, rfl,
      by simpa [delimiter] using hthree⟩

theorem unquote_enclosed {body : List Char} (hbody : q.triple = false → body.head? ≠ some q.mark) :
    unquote (q.delimiter ++ body ++ q.delimiter) = some body := by
  obtain ⟨earlier, later, hdelimiters, hearlier⟩ := exists_delimiters_eq hbody
  rw [unquote, hdelimiters, List.findSome?_eq_some_iff]
  refine ⟨earlier, q.delimiter, later, rfl, ?_, fun d hd => ?_⟩
  · have hsuffix : q.delimiter <:+ q.delimiter ++ body ++ q.delimiter := List.suffix_append _ _
    have hlength : 2 * q.delimiter.length ≤ (q.delimiter ++ body ++ q.delimiter).length := by
      simp only [List.length_append]
      omega
    rw [if_pos ⟨hlength, by simp, List.isSuffixOf_iff_suffix.mpr hsuffix⟩, List.append_assoc,
      List.drop_left]
    have hbetween : (q.delimiter ++ (body ++ q.delimiter)).length - 2 * q.delimiter.length =
        body.length := by
      simp only [List.length_append]
      omega
    rw [hbetween, List.take_left]
  · refine if_neg fun ⟨hlength, hprefix, _⟩ => ?_
    exact hearlier d hd hlength (List.isPrefixOf_iff_prefix.mp hprefix)

theorem delimiter_eq_mark_cons (q : Quotes) :
    ∃ more, q.delimiter = q.mark :: more ∧ q.delimiter = more ++ [q.mark] := by
  unfold delimiter
  cases q.triple
  · exact ⟨[], rfl, rfl⟩
  · exact ⟨[q.mark, q.mark], rfl, rfl⟩

theorem isBlank_mark (q : Quotes) : isBlank q.mark = false := by
  have hmark : q.mark = '"' ∨ q.mark = '\'' := by simpa [isQuote] using q.isQuote_mark
  rcases hmark with hmark | hmark <;> rw [hmark] <;> decide

end Quotes

theorem toNat_of_isAlpha {c : Char} (hc : c.isAlpha = true) : 65 ≤ c.toNat ∧ c.toNat ≤ 122 := by
  have hletter : (c.isUpper || c.isLower) = true := hc
  rcases Bool.or_eq_true_iff.mp hletter with hupper | hlower
  · have hrange : 'A'.val ≤ c.val ∧ c.val ≤ 'Z'.val := of_decide_eq_true hupper
    exact ⟨hrange.1, Nat.le_trans hrange.2 (by decide)⟩
  · have hboth : (decide ('a'.val ≤ c.val) && decide (c.val ≤ 'z'.val)) = true := hlower
    obtain ⟨hge, hle⟩ := Bool.and_eq_true_iff.mp hboth
    exact ⟨Nat.le_trans (by decide) (of_decide_eq_true hge), of_decide_eq_true hle⟩

theorem not_isBlank_of_isAlpha {c : Char} (hc : c.isAlpha = true) : isBlank c = false := by
  have hcode := toNat_of_isAlpha hc
  simp only [isBlank, Bool.or_eq_false_iff, Bool.and_eq_false_iff, decide_eq_false_iff_not,
    beq_eq_false_iff_ne]
  omega

theorem not_isQuote_of_isAlpha {c : Char} (hc : c.isAlpha = true) : isQuote c = false := by
  have hcode := toNat_of_isAlpha hc
  rw [Bool.eq_false_iff]
  intro hquote
  have hmark : c = '"' ∨ c = '\'' := by simpa [isQuote] using hquote
  rcases hmark with rfl | rfl <;> exact absurd hcode.1 (by decide)

theorem trim_letters_append {letters token : List Char} (hletters : ∀ c ∈ letters, c.isAlpha = true)
    (hfirst : ∃ c rest, token = c :: rest ∧ isBlank c = false)
    (hlast : ∃ front c, token = front ++ [c] ∧ isBlank c = false) :
    trim (letters ++ token) = letters ++ token := by
  have hstart : trimStart (letters ++ token) = letters ++ token := by
    cases letters with
    | nil =>
      obtain ⟨c, rest, rfl, hc⟩ := hfirst
      simp [trimStart, hc]
    | cons c rest =>
      have hc := not_isBlank_of_isAlpha (hletters c List.mem_cons_self)
      simp [trimStart, hc]
  obtain ⟨front, c, rfl, hc⟩ := hlast
  rw [trim, hstart, ← List.append_assoc, trimEnd, List.reverse_concat,
    List.dropWhile_cons_of_neg (by simp [hc]), ← List.reverse_concat, List.reverse_reverse]

theorem trim_enclose (q : Quotes) {letters : List Char} (hletters : ∀ c ∈ letters, c.isAlpha = true)
    (body : List Char) : trim (q.enclose letters body) = q.enclose letters body := by
  obtain ⟨more, hfirst, hlast⟩ := q.delimiter_eq_mark_cons
  have hstart : q.delimiter ++ body ++ q.delimiter = q.mark :: (more ++ body ++ q.delimiter) := by
    nth_rewrite 1 [hfirst]
    rfl
  have hend : q.delimiter ++ body ++ q.delimiter = q.delimiter ++ body ++ more ++ [q.mark] := by
    nth_rewrite 2 [hlast]
    rw [List.append_assoc _ more]
  exact trim_letters_append hletters ⟨q.mark, _, hstart, q.isBlank_mark⟩
    ⟨_, q.mark, hend, q.isBlank_mark⟩

theorem decodeToken_enclose (q : Quotes) {letters : List Char}
    (hletters : ∀ c ∈ letters, c.isAlpha = true) (body : List Char) :
    decodeToken (q.enclose letters body) =
      if letters.any isFormatLetter then none
      else (unquote (q.delimiter ++ body ++ q.delimiter)).map fun body =>
        if letters.any isRawLetter then body else unescape body := by
  obtain ⟨more, hfirst, -⟩ := q.delimiter_eq_mark_cons
  have hnoQuote (c : Char) (hc : c ∈ letters) : (!isQuote c) = true := by
    rw [not_isQuote_of_isAlpha (hletters c hc)]
    rfl
  have hbefore : (q.enclose letters body).takeWhile (!isQuote ·) = letters := by
    rw [Quotes.enclose, List.takeWhile_append_of_pos hnoQuote, hfirst, List.append_assoc,
      List.cons_append, List.takeWhile_cons_of_neg (by simp [q.isQuote_mark]), List.append_nil]
  have hbehind : (q.enclose letters body).dropWhile (!isQuote ·) =
      q.delimiter ++ body ++ q.delimiter := by
    rw [Quotes.enclose, List.dropWhile_append_of_pos hnoQuote, hfirst, List.append_assoc,
      List.cons_append, List.dropWhile_cons_of_neg (by simp [q.isQuote_mark])]
  rw [decodeToken, trim_enclose q hletters, hbefore, hbehind]

/-- A literal that is read as plain text is read from what its quotes enclose. -/
theorem decodeToken_enclose_of_closes {q : Quotes} {letters : List Char}
    (hletters : ∀ c ∈ letters, c.isAlpha = true) (hplain : letters.any isFormatLetter = false)
    {body : List Char} (hbody : q.triple = false → body.head? ≠ some q.mark) :
    decodeToken (q.enclose letters body) =
      some (if letters.any isRawLetter then body else unescape body) := by
  rw [decodeToken_enclose q hletters, hplain, Quotes.unquote_enclosed hbody]
  rfl

/--
A body that spells a text stands for that text, and a raw body for itself, in any quotes that
close behind it.  A literal that is formatted, of bytes, or a template stands for no text.
-/
theorem decodeStringToken_enclose (q : Quotes) (body : List Char) :
    (∀ letters ∈ [[], ['u'], ['U']], ∀ text, q.closes body = true → Spells body text →
      decodeStringToken (.ofList (q.enclose letters body)) = some (.ofList text)) ∧
    (∀ letters ∈ [['r'], ['R']], q.closes body = true →
      decodeStringToken (.ofList (q.enclose letters body)) = some (.ofList body)) ∧
    ∀ letters : List Char, (∀ c ∈ letters, c.isAlpha = true) →
      (∃ c ∈ letters, c ∈ ['f', 'F', 'b', 'B', 't', 'T']) →
      decodeStringToken (.ofList (q.enclose letters body)) = none := by
  have htables :
      (∀ letters ∈ [[], ['u'], ['U']], letters.all Char.isAlpha = true ∧
        letters.any isFormatLetter = false ∧ letters.any isRawLetter = false) ∧
      (∀ letters ∈ [['r'], ['R']], letters.all Char.isAlpha = true ∧
        letters.any isFormatLetter = false ∧ letters.any isRawLetter = true) ∧
      ['f', 'F', 'b', 'B', 't', 'T'].all isFormatLetter = true := by
    decide
  obtain ⟨hplain, hraw, hformat⟩ := htables
  refine ⟨fun letters hletters text hbody hspells => ?_, fun letters hletters hbody => ?_,
    fun letters halpha hletters => ?_⟩
  · obtain ⟨halpha, hnoFormat, hnoRaw⟩ := hplain letters hletters
    rw [decodeStringToken, String.toList_ofList,
      decodeToken_enclose_of_closes (List.all_eq_true.mp halpha) hnoFormat
        (Quotes.head?_ne_mark hbody), hnoRaw, ← hspells.unescape_eq]
    rfl
  · obtain ⟨halpha, hnoFormat, hisRaw⟩ := hraw letters hletters
    rw [decodeStringToken, String.toList_ofList,
      decodeToken_enclose_of_closes (List.all_eq_true.mp halpha) hnoFormat
        (Quotes.head?_ne_mark hbody), hisRaw]
    rfl
  · obtain ⟨c, hc, hletter⟩ := hletters
    have hisFormat : letters.any isFormatLetter = true :=
      List.any_eq_true.mpr ⟨c, hc, List.all_eq_true.mp hformat c hletter⟩
    rw [decodeStringToken, String.toList_ofList, decodeToken_enclose q halpha, hisFormat]
    rfl

/-- Three double quotes. -/
def longQuotes : Quotes := ⟨'"', true, by decide⟩

/-- A quote behind the opening ones, escapes of each kind, and an escaped quote at the end. -/
def mixedBody : List Char :=
  ['"', '\\', 'x', '4', 'a', '\\', '\n', '\\', '1', 'z', '\\', 'u', '0', '0', 'E', '9', '\\', 'q',
    '\\', '"']

theorem spells_mixedBody :
    Spells mixedBody ['"', 'J', '\x01', 'z', 'é', '\\', 'q', '"'] := by
  refine .plain (by decide) (by decide) ?_
  refine @Spells.hex 'x' 'J' ['4', 'a'] _ _ (by decide) rfl ?_
  refine .joined ?_
  refine @Spells.octal '\x01' ['1'] _ _ (by simp) (by simp) rfl (by simp [octalDigits]) ?_
  refine .plain (by decide) (by decide) ?_
  refine @Spells.hex 'u' 'é' ['0', '0', 'E', '9'] _ _ (by decide) rfl ?_
  refine .other (by decide) ?_
  exact .simple (by decide) .nil

theorem decodeStringToken_enclose_mixedBody :
    longQuotes.closes mixedBody = true ∧
      Spells mixedBody ['"', 'J', '\x01', 'z', 'é', '\\', 'q', '"'] ∧
      String.ofList (longQuotes.enclose ['u'] mixedBody) =
        "u\"\"\"\"\\x4a\\\n\\1z\\u00E9\\q\\\"\"\"\"" ∧
      decodeStringToken (.ofList (longQuotes.enclose ['u'] mixedBody)) =
        some "\"J\x01zé\\q\"" ∧
      decodeStringToken (.ofList (longQuotes.enclose ['R'] mixedBody)) =
        some (.ofList mixedBody) ∧
      decodeStringToken (.ofList (longQuotes.enclose ['r', 'B'] mixedBody)) = none := by
  have hbody : longQuotes.closes mixedBody = true := by decide
  obtain ⟨hplain, hraw, hformat⟩ := decodeStringToken_enclose longQuotes mixedBody
  exact ⟨hbody, spells_mixedBody, rfl, hplain ['u'] (by decide) _ hbody spells_mixedBody,
    hraw ['R'] (by decide) hbody,
    hformat ['r', 'B'] (List.all_eq_true.mp (by decide)) ⟨'B', by decide, by decide⟩⟩

end FlowSurvey.Text
