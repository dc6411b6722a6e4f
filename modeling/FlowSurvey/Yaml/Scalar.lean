import FlowSurvey.Yaml.Text

/-!
# YAML scalars

A scalar is written plainly, between quotes, or as a block of lines.  Lines of a
plain or quoted scalar are folded: a single line end becomes a space, and of
several all but the first are kept.
-/

namespace FlowSurvey.Yaml

inductive Style where
  | plain
  | quoted
  /-- A block of lines that are kept as they are. -/
  | literal
  | folded
  deriving DecidableEq, Repr

/-- What becomes of the blanks and the line ends between two words. -/
def foldedGap (blanks breaks : List Char) : List Char :=
  match breaks with
  | [] => blanks
  | '\n' :: [] => [' ']
  | '\n' :: more => more
  | _ => breaks

/-- The blanks on a line and the line ends that come next; a tab may not stand for indentation. -/
def readGap (indent : Nat) (context : String) (start : Mark) (blanks breaks : List Char) :
    (fuel : Nat) → Cursor → Except Fault (List Char × List Char × Cursor)
  | 0, c => .ok (blanks.reverse, breaks, c)
  | n + 1, c =>
      match c.rest with
      | [] => .ok (blanks.reverse, breaks, c)
      | a :: _ =>
          if isBlank a then
            if !breaks.isEmpty && c.mark.column < indent && a = '\t' then
              .error ⟨"found a tab character that violates indentation", c.mark,
                some (context, start)⟩
            else
              readGap indent context start (if breaks.isEmpty then a :: blanks else blanks) breaks n
                c.next
          else if isBreak a then
            readGap indent context start [] (breaks ++ c.lineEnd) n c.next
          else .ok (blanks.reverse, breaks, c)

/-! ## Plain scalars -/

def isFlowIndicator (c : Char) : Bool :=
  c = ',' || c = '[' || c = ']' || c = '\x7b' || c = '\x7d'

/-- A plain scalar goes on with the character that comes next. -/
def plainGoesOn (flow : Bool) : List Char → Bool
  | [] => false
  | ':' :: rest => !endsWord rest
  | c :: _ => !isBlank c && !isBreak c && !(flow && isFlowIndicator c)

/-- A colon inside brackets before something that cannot follow one in a plain scalar. -/
def badColon (flow : Bool) : List Char → Bool
  | ':' :: c :: _ => flow && (isFlowIndicator c || c = '?')
  | _ => false

/-- The characters of a plain scalar up to a blank or its end. -/
def plainWord (flow : Bool) (start : Mark) (word : List Char) :
    (fuel : Nat) → Cursor → Except Fault (List Char × Cursor)
  | 0, c => .ok (word.reverse, c)
  | n + 1, c =>
      if badColon flow c.rest then
        .error ⟨"found unexpected ':'", c.mark, some ("while scanning a plain scalar", start)⟩
      else if plainGoesOn flow c.rest then
        plainWord flow start (c.rest.take 1 ++ word) n c.next
      else .ok (word.reverse, c)

/-- A plain scalar, and whether a line ended behind its last word. -/
def readPlain (flow : Bool) (indent : Nat) (start : Mark) (text gap : List Char) (broken : Bool) :
    (fuel : Nat) → Cursor → Except Fault (List Char × Bool × Cursor)
  | 0, c => .ok (text, broken, c)
  | n + 1, c => do
      if c.atDocumentMarker || c.rest.head? = some '#' then return (text, broken, c)
      let (word, afterWord) ← plainWord flow start [] c.rest.length c
      let text := if word.isEmpty then text else text ++ gap ++ word
      let broken := broken && word.isEmpty
      if !(afterWord.atBlank || afterWord.atBreak) then return (text, broken, afterWord)
      let (blanks, breaks, next) ←
        readGap indent "while scanning a plain scalar" start [] [] afterWord.rest.length afterWord
      let broken := !breaks.isEmpty
      if !flow && next.mark.column < indent then return (text, broken, next)
      readPlain flow indent start text (foldedGap blanks breaks) broken n next

/-! ## Quoted scalars -/

/-- The characters that an escape of one letter stands for. -/
def escapedChar : Char → Option Char
  | '0' => some '\x00'
  | 'a' => some '\x07'
  | 'b' => some '\x08'
  | 't' | '\t' => some '\t'
  | 'n' => some '\n'
  | 'v' => some '\x0b'
  | 'f' => some '\x0c'
  | 'r' => some '\r'
  | 'e' => some '\x1b'
  | ' ' => some ' '
  | '"' => some '"'
  | '/' => some '/'
  | '\\' => some '\\'
  | 'N' => some '\u0085'
  | '_' => some '\u00a0'
  | 'L' => some '\u2028'
  | 'P' => some '\u2029'
  | _ => none

def escapeWidth : Char → Option Nat
  | 'x' => some 2
  | 'u' => some 4
  | 'U' => some 8
  | _ => none

def hexValue (c : Char) : Option Nat :=
  if c.isDigit then some (c.toNat - '0'.toNat)
  else if 'a' ≤ c && c ≤ 'f' then some (c.toNat - 'a'.toNat + 10)
  else if 'A' ≤ c && c ≤ 'F' then some (c.toNat - 'A'.toNat + 10)
  else none

def quotedContext : String := "while parsing a quoted scalar"

def readEscape (start : Mark) (c : Cursor) : Except Fault (Char × Cursor) := do
  let fail (problem : String) : Except Fault (Char × Cursor) :=
    .error ⟨problem, c.mark, some (quotedContext, start)⟩
  match c.rest with
  | _ :: letter :: rest =>
      match escapedChar letter, escapeWidth letter with
      | some plain, _ => return (plain, c.drop 2)
      | none, some width =>
          match (rest.take width).mapM hexValue with
          | some digits =>
              let code := digits.foldl (fun value d => value * 16 + d) 0
              if digits.length < width then fail "did not find expected hexdecimal number"
              else if code.isValidChar then return (Char.ofNat code, c.drop (2 + width))
              else fail "found invalid Unicode character escape code"
          | none => fail "did not find expected hexdecimal number"
      | none, none => fail "found unknown escape character"
  | _ => fail "found unknown escape character"

/-- What ends a run of characters in a quoted scalar. -/
inductive QuotedStop where
  | closing
  | blank
  /-- A line end that a backslash takes out of the text. -/
  | joined
  deriving DecidableEq

def quotedRun (double : Bool) (start : Mark) (run : List Char) :
    (fuel : Nat) → Cursor → Except Fault (List Char × QuotedStop × Cursor)
  | 0, c => .ok (run.reverse, .blank, c)
  | n + 1, c =>
      match c.rest with
      | [] => .ok (run.reverse, .blank, c)
      | a :: rest =>
          if isBlank a || isBreak a then .ok (run.reverse, .blank, c)
          else if !double && a = '\'' then
            if rest.head? = some '\'' then quotedRun double start ('\'' :: run) n (c.drop 2)
            else .ok (run.reverse, .closing, c.next)
          else if double && a = '"' then .ok (run.reverse, .closing, c.next)
          else if double && a = '\\' then
            if rest.head?.any isBreak then .ok (run.reverse, .joined, c.drop 2)
            else
              match readEscape start c with
              | .ok (plain, next) => quotedRun double start (plain :: run) n next
              | .error f => .error f
          else quotedRun double start (a :: run) n c.next

def readQuoted (double : Bool) (start : Mark) (text : List Char) :
    (fuel : Nat) → Cursor → Except Fault (List Char × Cursor)
  | 0, c => .error ⟨"found unexpected end of stream", c.mark, some (quotedContext, start)⟩
  | n + 1, c => do
      if c.atDocumentMarker then
        throw ⟨"found unexpected document indicator", c.mark, some (quotedContext, start)⟩
      if c.rest.isEmpty then
        throw ⟨"found unexpected end of stream", c.mark, some (quotedContext, start)⟩
      let (run, stop, afterRun) ← quotedRun double start [] c.rest.length c
      match stop with
      | .closing => return (text ++ run, afterRun)
      | .blank =>
          let (blanks, breaks, next) ←
            readGap 0 quotedContext start [] [] afterRun.rest.length afterRun
          readQuoted double start (text ++ run ++ foldedGap blanks breaks) n next
      | .joined =>
          let (_, breaks, next) ←
            readGap 0 quotedContext start [] ['\n'] afterRun.rest.length afterRun
          readQuoted double start (text ++ run ++ breaks.drop 1) n next

/-! ## Block scalars -/

/-- Which of the line ends behind the last line are kept. -/
inductive Chomping where
  | strip
  | clip
  | keep
  deriving DecidableEq

def blockContext : String := "while scanning a block scalar"

structure BlockHeader where
  chomping : Chomping
  increment : Option Nat

/-- The sign and the digit behind the indicator of a block scalar, in either order. -/
def readBlockHeader (start : Mark) (c : Cursor) : Except Fault (BlockHeader × Cursor) := do
  let sign (c : Cursor) : Option Chomping × Cursor :=
    match c.rest with
    | '+' :: _ => (some .keep, c.next)
    | '-' :: _ => (some .strip, c.next)
    | _ => (none, c)
  let digit (c : Cursor) : Except Fault (Option Nat × Cursor) :=
    match c.rest with
    | d :: _ =>
        if d = '0' then
          .error ⟨"found an indentation indicator equal to 0", c.mark, some (blockContext, start)⟩
        else if d.isDigit then .ok (some (d.toNat - '0'.toNat), c.next)
        else .ok (none, c)
    | [] => .ok (none, c)
  let (before, c) := sign c
  let (increment, c) ← digit c
  let (behind, c) := if before.isSome || increment.isNone then (before, c) else sign c
  let c := c.dropWhile isBlank
  let c := if c.rest.head? = some '#' then c.dropWhile fun _ => true else c
  if !(c.rest.isEmpty || c.atBreak) then
    throw ⟨"did not find expected comment or line break", c.mark, some (blockContext, start)⟩
  return (⟨behind.getD .clip, increment⟩, c.next)

/-- The empty lines that come next, and how far the longest run of spaces before them goes. -/
def blockBreaks (start : Mark) (indent : Option Nat) (deepest : Nat) (breaks : List Char) :
    (fuel : Nat) → Cursor → Except Fault (Nat × List Char × Cursor)
  | 0, c => .ok (deepest, breaks, c)
  | n + 1, c =>
      let within (c : Cursor) := indent.all (c.mark.column < ·)
      match c.rest with
      | ' ' :: _ =>
          if within c then blockBreaks start indent (max deepest (c.mark.column + 1)) breaks n c.next
          else .ok (deepest, breaks, c)
      | '\t' :: _ =>
          if within c then
            .error ⟨"found a tab character where an indentation space is expected", c.mark,
              some (blockContext, start)⟩
          else .ok (deepest, breaks, c)
      | a :: _ =>
          if isBreak a then blockBreaks start indent deepest (breaks ++ c.lineEnd) n c.next
          else .ok (deepest, breaks, c)
      | [] => .ok (deepest, breaks, c)

/-- The lines of a block, with the line end of the last one and the empty lines behind it. -/
def blockLines (literal : Bool) (start : Mark) (indent : Nat) (text lastEnd breaks : List Char)
    (indented : Bool) :
    (fuel : Nat) → Cursor → Except Fault (List Char × List Char × List Char × Cursor)
  | 0, c => .ok (text, lastEnd, breaks, c)
  | n + 1, c => do
      if c.mark.column ≠ indent || c.rest.isEmpty then return (text, lastEnd, breaks, c)
      let starts := c.atBlank
      let joint :=
        if !literal && lastEnd = ['\n'] && !indented && !starts then
          if breaks.isEmpty then [' '] else []
        else lastEnd
      let line := c.rest.takeWhile fun a => !isBreak a
      let afterLine := c.drop line.length
      let (_, more, next) ←
        blockBreaks start (some indent) 0 [] afterLine.next.rest.length.succ afterLine.next
      blockLines literal start indent (text ++ joint ++ breaks ++ line) afterLine.lineEnd more
        starts n next

/-- A block scalar behind its indicator, below a block of some indentation. -/
def readBlock (literal : Bool) (parent : Int) (start : Mark) (c : Cursor) :
    Except Fault (List Char × Cursor) := do
  let (header, c) ← readBlockHeader start c
  let given := header.increment.map fun n => (max parent 0).toNat + n
  let (deepest, breaks, c) ← blockBreaks start given 0 [] c.rest.length.succ c
  let indent := given.getD (max (max deepest (parent + 1).toNat) 1)
  let (text, lastEnd, more, c) ←
    blockLines literal start indent [] [] breaks false c.rest.length.succ c
  return match header.chomping with
    | .strip => (text, c)
    | .clip => (text ++ lastEnd, c)
    | .keep => (text ++ lastEnd ++ more, c)

end FlowSurvey.Yaml
