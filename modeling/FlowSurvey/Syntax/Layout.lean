import FlowSurvey.Syntax.Node
import FlowSurvey.Text.Blank
import FlowSurvey.Text.Identifier

/-!
# Layout

Line ends and indentation carry structure only where the grammar asks for them.
A gap is what stands between two tokens: blanks, comments and joined lines, and
line ends as long as no statement may end there.  How far a line is indented is
measured by looking past everything blank; a line that is indented less than the
block around it closes that block, and inside a statement it is an error unless a
bracket may be closed there.
-/

namespace FlowSurvey.Syntax

/-- What is left of a text, and where it starts. -/
structure Cursor where
  rest : List Char
  place : Place
  offset : Nat

def Cursor.ofText (text : String) : Cursor :=
  ⟨text.toList, ⟨0, 0⟩, 0⟩

def Cursor.drop (c : Cursor) (n : Nat) : Cursor :=
  ⟨c.rest.drop n, c.place.over (c.rest.take n), c.offset + n⟩

/-- Takes the characters that satisfy `p`, up to the first that does not. -/
def Cursor.dropWhile (c : Cursor) (p : Char → Bool) : Cursor :=
  ⟨c.rest.dropWhile p, c.place.over (c.rest.takeWhile p),
    c.offset + (c.rest.takeWhile p).length⟩

@[simp] theorem Cursor.rest_drop (c : Cursor) (n : Nat) : (c.drop n).rest = c.rest.drop n := rfl

@[simp] theorem Cursor.rest_dropWhile (c : Cursor) (p : Char → Bool) :
    (c.dropWhile p).rest = c.rest.dropWhile p := rfl

/-- The state of a parser: what is left, and the blocks that are open. -/
structure State where
  cursor : Cursor
  indents : List Nat
  /-- No loop takes more turns than the text has characters. -/
  budget : Nat

def State.indent (s : State) : Nat :=
  s.indents.headD 0

abbrev Parser := StateT State Option

/-! ## Blank characters between tokens -/

/-- Separates tokens without being one. -/
def isFiller (c : Char) : Bool :=
  Text.isBlank c || c = '\uFEFF' || c = '\u2060' || c = '\u200B'

/-- The characters of a comment or a joined line at the start of a text. -/
def triviaLength : List Char → Option (Kind × Nat)
  | '#' :: rest => some (.comment, 1 + (rest.takeWhile (· ≠ '\n')).length)
  | '\\' :: '\n' :: _ => some (.lineContinuation, 2)
  | '\\' :: '\r' :: '\n' :: _ => some (.lineContinuation, 3)
  | _ => none

theorem triviaLength_pos {cs : List Char} {kind : Kind} {n : Nat}
    (h : triviaLength cs = some (kind, n)) : 0 < n ∧ cs ≠ [] := by
  unfold triviaLength at h
  split at h <;> simp_all <;> omega

theorem Cursor.length_drop_trivia_lt (c : Cursor) {kind : Kind} {n : Nat}
    (h : triviaLength (c.dropWhile isFiller).rest = some (kind, n)) :
    ((c.dropWhile isFiller).drop n).rest.length < c.rest.length := by
  have hpos := triviaLength_pos h
  have hle := (List.dropWhile_sublist isFiller (l := c.rest)).length_le
  have hne : 0 < (c.rest.dropWhile isFiller).length := List.length_pos_iff.mpr hpos.2
  simp only [Cursor.rest_drop, Cursor.rest_dropWhile, List.length_drop]
  omega

/-- The source of the characters between two cursors. -/
def sourceBetween (first last : Cursor) : String :=
  String.ofList (first.rest.take (last.offset - first.offset))

/-! ## The margin of a line -/

/-- What is found by looking past blanks, line ends and joined lines. -/
structure Margin where
  /-- A line, or the text, ended on the way. -/
  lineEnd : Bool
  width : Nat
  /-- How far the first comment on a line of its own is indented. -/
  comment : Option Nat
  cursor : Cursor

/--
Looks past blanks.  Comments are passed over only if asked for, and then only on
lines of their own.  There is no margin before a backslash that joins no lines.
-/
def marginFrom (comments : Bool) (m : Margin) (inComment : Bool) : List Char → Option Margin
  | [] => some { m with lineEnd := true, width := 0, cursor := ⟨[], m.cursor.place, m.cursor.offset⟩ }
  | c :: rest =>
      let next : Cursor := ⟨rest, m.cursor.place.after c, m.cursor.offset + 1⟩
      if inComment then
        marginFrom comments { m with width := 0, cursor := next } (c != '\n') rest
      else if c = '\n' then
        marginFrom comments { m with lineEnd := true, width := 0, cursor := next } false rest
      else if c = ' ' then
        marginFrom comments { m with width := m.width + 1, cursor := next } false rest
      else if c = '\t' then
        marginFrom comments { m with width := m.width + 8, cursor := next } false rest
      else if c = '\r' ∨ c = '\x0c' then
        marginFrom comments { m with width := 0, cursor := next } false rest
      else if c = '#' ∧ comments then
        if m.lineEnd then
          let comment := some (m.comment.getD m.width)
          marginFrom comments { m with comment := comment, cursor := next } true rest
        else some m
      else if c = '\\' then
        match rest with
        | [] => some { m with lineEnd := true, width := 0, cursor := next }
        | '\n' :: more =>
            let next := (⟨c :: rest, m.cursor.place, m.cursor.offset⟩ : Cursor).drop 2
            marginFrom comments { m with cursor := next } false more
        | '\r' :: '\n' :: more =>
            let next := (⟨c :: rest, m.cursor.place, m.cursor.offset⟩ : Cursor).drop 3
            marginFrom comments { m with cursor := next } false more
        | _ => none
      else some m

def margin (comments : Bool) (c : Cursor) : Option Margin :=
  marginFrom comments ⟨false, 0, none, c⟩ false c.rest

/-- The line that follows belongs to no open block of that indentation. -/
def Margin.closes (m : Margin) (indent : Nat) : Bool :=
  m.lineEnd && m.width < indent && m.comment.all (· < indent)

/-! ## Strings -/

def isStringLetter (c : Char) : Bool :=
  "fFrRbBuUtT".toList.contains c

def isStringQuote (c : Char) : Bool :=
  c = '"' || c = '\'' || c = '`'

def startsString (cs : List Char) : Bool :=
  ((cs.dropWhile isStringLetter).head?.map isStringQuote).getD false

/-! ## Gaps -/

/-- What may come next, apart from a token of the construct itself. -/
structure Gap where
  lineEnd : Bool := false
  closer : Bool := false
  string : Bool := false

/-- The line is indented less than the block, and nothing excuses it. -/
def Gap.breaksOff (g : Gap) (indent : Nat) (m : Margin) : Bool :=
  m.lineEnd && m.width < indent && !g.closer &&
    !(g.string && (m.cursor.rest.head?.map isStringQuote).getD false)

/--
The comments and joined lines up to the next token, and where that token starts.
A gap fails where the statement ends or a line breaks off.
-/
def Gap.cross (g : Gap) (indent : Nat) (c : Cursor) : Option (List Node × Cursor) :=
  let m? := margin g.lineEnd c
  if m?.any fun m => if g.lineEnd then m.lineEnd else g.breaksOff indent m then none
  else
    match m?.filter fun m => g.string && m.comment.isNone && startsString m.cursor.rest with
    | some m => some ([], m.cursor)
    | none =>
        let start := c.dropWhile isFiller
        match _h : triviaLength start.rest with
        | none => some ([], start)
        | some (kind, n) =>
            let last := start.drop n
            (g.cross indent last).map fun (trivia, next) =>
              (.leaf kind start.place (sourceBetween start last) :: trivia, next)
termination_by c.rest.length
decreasing_by
  exact Cursor.length_drop_trivia_lt c ‹_›

def gap (g : Gap) : Parser (List Node) := fun s =>
  (g.cross s.indent s.cursor).map fun (trivia, next) => (trivia, { s with cursor := next })

/-- The comments up to the end of a statement, if that is all there is up to it. -/
def endOfLine? (c : Cursor) : Option (List Node × Cursor) :=
  match margin true c with
  | some ⟨true, _, _, _⟩ => some ([], c)
  | _ =>
      let start := c.dropWhile isFiller
      match _h : triviaLength start.rest with
      | none => none
      | some (kind, n) =>
          let last := start.drop n
          (endOfLine? last).map fun (trivia, next) =>
            (.leaf kind start.place (sourceBetween start last) :: trivia, next)
termination_by c.rest.length
decreasing_by
  exact Cursor.length_drop_trivia_lt c ‹_›

/-- The end of a statement; the line end itself is left in place. -/
def endOfLine : Parser (List Node) := fun s =>
  (endOfLine? s.cursor).map fun (trivia, next) => (trivia, { s with cursor := next })

end FlowSurvey.Syntax
