import FlowSurvey.Proofs.StringLiterals

/-!
# Line endings in string literals

A file may end its lines with a carriage return before each newline.  Decoding takes the
characters of a literal as they are: a carriage return between quotes stays in the text, and
one behind a backslash keeps the lines from being joined.  So the text that a literal stands
for grows with each line that ends inside it, and the main result says exactly which literals
stand for the same text with either line ending.
-/

namespace FlowSurvey.Text

/-- A text whose lines end with a carriage return and a newline. -/
def withCarriageReturns (cs : List Char) : List Char :=
  cs.flatMap fun c => if c = '\n' then ['\r', '\n'] else [c]

@[simp] theorem withCarriageReturns_nil : withCarriageReturns [] = [] := rfl

@[simp] theorem withCarriageReturns_newline (cs : List Char) :
    withCarriageReturns ('\n' :: cs) = '\r' :: '\n' :: withCarriageReturns cs := rfl

theorem withCarriageReturns_cons {c : Char} (hc : c ≠ '\n') (cs : List Char) :
    withCarriageReturns (c :: cs) = c :: withCarriageReturns cs := by
  simp [withCarriageReturns, hc]

theorem withCarriageReturns_escape {c : Char} (hc : c ≠ '\n') (cs : List Char) :
    withCarriageReturns ('\\' :: c :: cs) = '\\' :: c :: withCarriageReturns cs := by
  rw [withCarriageReturns_cons (by decide), withCarriageReturns_cons hc]

theorem count_newline_escape {c : Char} (hc : c ≠ '\n') (cs : List Char) :
    ('\\' :: c :: cs).count '\n' = cs.count '\n' := by
  rw [List.count_cons_of_ne (by decide), List.count_cons_of_ne hc]

theorem withCarriageReturns_append (xs ys : List Char) :
    withCarriageReturns (xs ++ ys) = withCarriageReturns xs ++ withCarriageReturns ys :=
  List.flatMap_append

theorem withCarriageReturns_of_not_mem {cs : List Char} (hcs : '\n' ∉ cs) :
    withCarriageReturns cs = cs := by
  induction cs with
  | nil => rfl
  | cons c rest ih =>
    rw [List.mem_cons, not_or] at hcs
    rw [withCarriageReturns_cons (Ne.symm hcs.1), ih hcs.2]

theorem length_withCarriageReturns (cs : List Char) :
    (withCarriageReturns cs).length = cs.length + cs.count '\n' := by
  induction cs with
  | nil => rfl
  | cons c rest ih =>
    by_cases hc : c = '\n'
    · subst hc
      simp [ih]
      omega
    · rw [withCarriageReturns_cons hc, List.count_cons_of_ne hc, List.length_cons, ih,
        List.length_cons]
      omega

/-! ## Decoding -/

section Span

variable {p : Char → Bool}

theorem of_mem_spanUpTo {n : Nat} {cs : List Char} {c : Char} (hc : c ∈ (spanUpTo p n cs).1) :
    p c = true := by
  fun_induction spanUpTo p n cs with
  | case1 => simp at hc
  | case2 => simp at hc
  | case3 n d rest hd run ih =>
    rcases List.mem_cons.mp hc with rfl | hrest
    · exact hd
    · exact ih hrest
  | case4 => simp at hc

/-- Digits end where a line ends, whatever it ends with. -/
theorem spanUpTo_withCarriageReturns
    (hreturn : p '\r' = false) (hnewline : p '\n' = false) (n : Nat) (cs : List Char) :
    spanUpTo p n (withCarriageReturns cs) =
      ((spanUpTo p n cs).1, withCarriageReturns (spanUpTo p n cs).2) := by
  induction n generalizing cs with
  | zero => simp [spanUpTo]
  | succ n ih =>
    cases cs with
    | nil => rfl
    | cons c rest =>
      by_cases hc : c = '\n'
      · subst hc
        simp [spanUpTo, hreturn, hnewline]
      · rw [withCarriageReturns_cons hc]
        by_cases hp : p c = true
        · simp [spanUpTo, hp, ih]
        · simp [spanUpTo, hp, withCarriageReturns_cons hc]

theorem count_spanUpTo (hnewline : p '\n' = false) (n : Nat) (cs : List Char) :
    cs.count '\n' = (spanUpTo p n cs).2.count '\n' := by
  have hdigits : (spanUpTo p n cs).1.count '\n' = 0 := by
    rw [List.count_eq_zero]
    intro hmem
    simp [of_mem_spanUpTo hmem] at hnewline
  calc
    cs.count '\n' = ((spanUpTo p n cs).1 ++ (spanUpTo p n cs).2).count '\n' := by
      rw [spanUpTo_append]
    _ = (spanUpTo p n cs).2.count '\n' := by
      rw [List.count_append, hdigits, Nat.zero_add]

theorem not_mem_spanUpTo_rest {n : Nat} {cs : List Char} {c : Char} (hc : c ∉ cs) :
    c ∉ (spanUpTo p n cs).2 := by
  intro hmem
  rw [← spanUpTo_append p n cs] at hc
  exact hc (List.mem_append_right _ hmem)

end Span

/-- Each line that ends in a body makes the decoded text longer. -/
theorem length_unescape_withCarriageReturns
    {body : List Char} (hbody : '\r' ∉ body) :
    (unescape body).length + body.count '\n' ≤ (unescape (withCarriageReturns body)).length := by
  fun_induction unescape body with
  | case1 => simp
  | case2 rest ih =>
    -- The backslash and the carriage return stay, and the newline is no longer joined.
    have hkept : unescape (withCarriageReturns ('\\' :: '\n' :: rest)) =
        '\\' :: '\r' :: '\n' :: unescape (withCarriageReturns rest) := by
      rw [withCarriageReturns_cons (by decide), withCarriageReturns_newline,
        unescape_other (by decide), unescape_plain (by decide)]
    have hrest := ih (by simp_all)
    rw [hkept]
    simp
    omega
  | case3 c rest hnewline plain hsimple ih =>
    have hrest := ih (by simp_all)
    rw [withCarriageReturns_escape hnewline, count_newline_escape hnewline, unescape]
    simp only [if_neg hnewline, hsimple, List.length_cons]
    omega
  | case4 c rest hnewline hsimple width hwidth ih =>
    have hrest := ih (not_mem_spanUpTo_rest (by simp_all))
    rw [withCarriageReturns_escape hnewline, count_newline_escape hnewline, unescape]
    simp only [if_neg hnewline, hsimple, hwidth, List.length_append,
      spanUpTo_withCarriageReturns (p := isHexDigit) (by decide) (by decide),
      count_spanUpTo (p := isHexDigit) (by decide) width rest]
    omega
  | case5 c rest hnewline hsimple hwidth hoctal ih =>
    have hrest := ih (not_mem_spanUpTo_rest (by simp_all))
    rw [withCarriageReturns_escape hnewline, count_newline_escape hnewline, unescape]
    simp only [if_neg hnewline, hsimple, hwidth, if_pos hoctal, List.length_cons,
      spanUpTo_withCarriageReturns (p := isOctalDigit) (by decide) (by decide),
      count_spanUpTo (p := isOctalDigit) (by decide) 2 rest]
    omega
  | case6 c rest hnewline hsimple hwidth hoctal ih =>
    have hrest := ih (by simp_all)
    rw [withCarriageReturns_escape hnewline, count_newline_escape hnewline, unescape]
    simp only [if_neg hnewline, hsimple, hwidth, if_neg hoctal, List.length_cons]
    omega
  | case7 c rest hc ih =>
    have hrest := ih (by simp_all)
    by_cases hnewline : c = '\n'
    · subst hnewline
      rw [withCarriageReturns_newline, unescape_plain (by decide), unescape_plain (by decide)]
      simp only [List.length_cons, List.count_cons_self]
      omega
    · have hstep : unescape (c :: withCarriageReturns rest) =
          c :: unescape (withCarriageReturns rest) := by
        by_cases hbackslash : c = '\\'
        · cases rest with
          | nil => simp [hbackslash, unescape]
          | cons d more => exact (hc d more hbackslash rfl).elim
        · exact unescape_plain hbackslash _
      rw [withCarriageReturns_cons hnewline, hstep, List.length_cons, List.length_cons,
        List.count_cons_of_ne hnewline]
      omega

/-! ## Literals -/

section Literals

variable (q : Quotes)

theorem newline_not_mem_delimiter : '\n' ∉ q.delimiter := by
  intro hnewline
  have hmark := q.isQuote_mark
  rw [← List.eq_of_mem_replicate hnewline] at hmark
  exact absurd hmark (by decide)

theorem newline_not_mem_letters
    {letters : List Char} (hletters : ∀ c ∈ letters, c.isAlpha = true) : '\n' ∉ letters :=
  fun hnewline => absurd (hletters _ hnewline) (by decide)

theorem withCarriageReturns_enclose
    {letters : List Char} (hletters : ∀ c ∈ letters, c.isAlpha = true) (body : List Char) :
    withCarriageReturns (q.enclose letters body) =
      q.enclose letters (withCarriageReturns body) := by
  have hdelimiter := withCarriageReturns_of_not_mem (newline_not_mem_delimiter q)
  simp only [Quotes.enclose, withCarriageReturns_append, hdelimiter,
    withCarriageReturns_of_not_mem (newline_not_mem_letters hletters)]

theorem newline_mem_enclose_iff
    {letters : List Char} (hletters : ∀ c ∈ letters, c.isAlpha = true) {body : List Char} :
    '\n' ∈ q.enclose letters body ↔ '\n' ∈ body := by
  simp [Quotes.enclose, newline_not_mem_delimiter q, newline_not_mem_letters hletters]

theorem head?_withCarriageReturns_ne_mark
    {body : List Char} (hbody : body.head? ≠ some q.mark) :
    (withCarriageReturns body).head? ≠ some q.mark := by
  cases body with
  | nil => simp
  | cons c rest =>
    by_cases hc : c = '\n'
    · subst hc
      intro hhead
      have hmark := q.isQuote_mark
      rw [← Option.some.inj hhead] at hmark
      exact absurd hmark (by decide)
    · rw [withCarriageReturns_cons hc]
      exact hbody

/-- A body stands for the same text, whether it is raw or not, only if no line ends in it. -/
theorem read_withCarriageReturns_eq_iff (raw : Bool) {body : List Char} (hbody : '\r' ∉ body) :
    (if raw then withCarriageReturns body else unescape (withCarriageReturns body)) =
        (if raw then body else unescape body) ↔ '\n' ∉ body := by
  constructor
  · intro heq
    have hlength := congrArg List.length heq
    have hraw := length_withCarriageReturns body
    have hunescaped := length_unescape_withCarriageReturns hbody
    rw [← List.count_eq_zero]
    cases raw <;> simp only [if_true, if_false, Bool.false_eq_true] at hlength <;> omega
  · intro hnewline
    rw [withCarriageReturns_of_not_mem hnewline]

/--
A literal stands for the same text with either line ending exactly if it stands for no text, or
no line ends in it.
-/
theorem decodeStringToken_withCarriageReturns_iff
    {letters : List Char} (hletters : ∀ c ∈ letters, c.isAlpha = true)
    {body : List Char} (hbody : q.closes body = true) (hreturn : '\r' ∉ body) :
    decodeStringToken (.ofList (withCarriageReturns (q.enclose letters body))) =
        decodeStringToken (.ofList (q.enclose letters body)) ↔
      decodeStringToken (.ofList (q.enclose letters body)) = none ∨
        '\n' ∉ q.enclose letters body := by
  have hhead := Quotes.head?_ne_mark hbody
  rw [withCarriageReturns_enclose q hletters, newline_mem_enclose_iff q hletters]
  simp only [decodeStringToken, String.toList_ofList]
  cases hplain : letters.any isFormatLetter with
  | true => simp [decodeToken_enclose q hletters, hplain]
  | false =>
    have hreturns := decodeToken_enclose_of_closes hletters hplain fun hsingle =>
      head?_withCarriageReturns_ne_mark q (hhead hsingle)
    have hsame := read_withCarriageReturns_eq_iff (letters.any isRawLetter) hreturn
    rw [hreturns, decodeToken_enclose_of_closes hletters hplain hhead, Option.map_some,
      Option.map_some, Option.some.injEq, String.ofList_inj, hsame]
    simp

end Literals

/-- Two lines, with the escape of a newline between the words of the first. -/
def twoLines : List Char :=
  ['a', '\\', 'n', 'b', '\n', 'c']

theorem decodeStringToken_withCarriageReturns_iff_twoLines :
    longQuotes.closes twoLines = true ∧ '\r' ∉ twoLines ∧
      '\n' ∈ longQuotes.enclose ['u'] twoLines ∧
      (decodeStringToken (.ofList (withCarriageReturns (longQuotes.enclose ['u'] twoLines))) =
          decodeStringToken (.ofList (longQuotes.enclose ['u'] twoLines)) ↔
        decodeStringToken (.ofList (longQuotes.enclose ['u'] twoLines)) = none ∨
          '\n' ∉ longQuotes.enclose ['u'] twoLines) :=
  ⟨by decide, by decide, by decide,
    decodeStringToken_withCarriageReturns_iff longQuotes (List.all_eq_true.mp (by decide))
      (by decide) (by decide)⟩

/-- Three quotes, a letter on each of two lines, and three quotes. -/
theorem not_decodeStringToken_withCarriageReturns :
    ¬ ∀ (q : Quotes) (letters body : List Char), (∀ c ∈ letters, c.isAlpha = true) →
      q.closes body = true → '\r' ∉ body →
      decodeStringToken (.ofList (withCarriageReturns (q.enclose letters body))) =
        decodeStringToken (.ofList (q.enclose letters body)) := by
  intro hall
  have hletters : ∀ c ∈ ([] : List Char), c.isAlpha = true := List.forall_mem_nil _
  have hsame := hall longQuotes [] ['a', '\n', 'b'] hletters (by decide) (by decide)
  have hdecoded (body : List Char) :
      decodeStringToken (.ofList (longQuotes.enclose [] body)) =
        some (.ofList (unescape body)) := by
    rw [decodeStringToken, String.toList_ofList,
      decodeToken_enclose_of_closes hletters (by decide) fun hsingle =>
        absurd hsingle (by decide)]
    rfl
  rw [withCarriageReturns_enclose longQuotes hletters, hdecoded, hdecoded,
    Option.some.injEq, String.ofList_inj] at hsame
  simp [withCarriageReturns, unescape] at hsame

end FlowSurvey.Text
