/-!
# Reading YAML text

A reader of YAML text knows how far the text has been read, in lines and columns
from zero.  A line may end with a newline, a carriage return, both, or one of the
three line separators of Unicode.
-/

namespace FlowSurvey.Yaml

/-- A place in a text, in lines and columns from zero. -/
structure Mark where
  line : Nat
  column : Nat
  deriving DecidableEq, Repr, Inhabited

def Mark.isStart (m : Mark) : Bool :=
  m.line = 0 && m.column = 0

def Mark.describe (m : Mark) : String :=
  "line " ++ toString (m.line + 1) ++ " column " ++ toString (m.column + 1)

structure Fault where
  problem : String
  place : Mark
  /-- What was being read, and since where. -/
  context : Option (String × Mark) := none

def Fault.message (f : Fault) : String :=
  let at_ (m : Mark) := if m.isStart then "" else " at " ++ m.describe
  let context :=
    match f.context with
    | none => ""
    | some (text, mark) => ", " ++ text ++ (if mark = f.place then "" else at_ mark)
  f.problem ++ at_ f.place ++ context

def isBreak (c : Char) : Bool :=
  c = '\n' || c = '\r' || c = '\u0085' || c = '\u2028' || c = '\u2029'

def isBlank (c : Char) : Bool :=
  c = ' ' || c = '\t'

/-- Nothing, a blank or a line end comes next. -/
def endsWord : List Char → Bool
  | [] => true
  | c :: _ => isBlank c || isBreak c

def isAllowed (c : Char) : Bool :=
  let n := c.toNat
  n = 0x09 || n = 0x0A || n = 0x0D || (0x20 ≤ n && n ≤ 0x7E) || n = 0x85 ||
    (0xA0 ≤ n && n ≤ 0xFFFD) || 0x10000 ≤ n

/-- What is left of a text, and where it starts. -/
structure Cursor where
  rest : List Char
  mark : Mark
  index : Nat

namespace Cursor

/-- Takes one character, or a line end of two. -/
def next (c : Cursor) : Cursor :=
  match c.rest with
  | [] => c
  | '\r' :: '\n' :: rest => ⟨rest, ⟨c.mark.line + 1, 0⟩, c.index + 2⟩
  | a :: rest =>
      ⟨rest, if isBreak a then ⟨c.mark.line + 1, 0⟩ else ⟨c.mark.line, c.mark.column + 1⟩,
        c.index + 1⟩

def drop (c : Cursor) : Nat → Cursor
  | 0 => c
  | n + 1 => c.next.drop n

/-- Takes the characters that satisfy `p`, none of which ends a line. -/
def dropWhile (p : Char → Bool) (c : Cursor) : Cursor :=
  c.drop (c.rest.takeWhile fun a => p a && !isBreak a).length

/-- The line end that comes next, as it is kept in a scalar. -/
def lineEnd (c : Cursor) : List Char :=
  match c.rest with
  | '\u2028' :: _ => ['\u2028']
  | '\u2029' :: _ => ['\u2029']
  | a :: _ => if isBreak a then ['\n'] else []
  | [] => []

def atBreak (c : Cursor) : Bool :=
  c.rest.head?.any isBreak

def atBlank (c : Cursor) : Bool :=
  c.rest.head?.any isBlank

/-- A line starts here that separates documents. -/
def atDocumentMarker (c : Cursor) : Bool :=
  c.mark.column = 0 &&
    (c.rest.take 3 = ['-', '-', '-'] || c.rest.take 3 = ['.', '.', '.']) && endsWord (c.rest.drop 3)

end Cursor

end FlowSurvey.Yaml
