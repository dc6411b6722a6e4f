import FlowSurvey.Text.Blank

/-!
# Documentation strings

A documentation string is written indented like the code around it.  Cleaning
one removes the indentation that its lines share, after tabs have been widened
to stops eight columns apart, and drops the empty lines at both ends.  The first
line carries no shared indentation, because it follows the opening quotes; it is
trimmed on its own.
-/

namespace FlowSurvey.Text

def tabStop : Nat := 8

/-- Widens every tab, given the column of the first character. -/
def expandTabs (column : Nat) : List Char → List Char
  | [] => []
  | '\t' :: rest =>
      let width := tabStop - column % tabStop
      List.replicate width ' ' ++ expandTabs (column + width) rest
  | c :: rest =>
      c :: expandTabs (if c = '\n' ∨ c = '\r' then 0 else column + 1) rest

/--
The lines of a text, without their ends.  A line ends with a newline, or with a
carriage return before one; a newline at the very end starts no further line.
-/
def lines : List Char → List (List Char)
  | [] => []
  | '\n' :: rest => [] :: lines rest
  | '\r' :: '\n' :: rest => [] :: lines rest
  | c :: rest =>
      match lines rest with
      | [] => [[c]]
      | line :: more => (c :: line) :: more

/-- The indentation shared by all lines that hold more than blanks. -/
def sharedIndentation (ls : List (List Char)) : Nat :=
  (((ls.filter fun line => !(trim line).isEmpty).map indentation).min?).getD 0

/-- Drops the empty lines at the end, then those at the start. -/
def stripEmptyLines (ls : List (List Char)) : List (List Char) :=
  ((ls.reverse.dropWhile List.isEmpty).reverse).dropWhile List.isEmpty

/-- The lines of a documentation string without the indentation they share. -/
def dedent : List (List Char) → List (List Char)
  | [] => []
  | first :: rest =>
      let margin := sharedIndentation rest
      stripEmptyLines (trimStart first :: rest.map (·.drop margin))

def cleanDocstring (doc : String) : String :=
  String.ofList (List.intercalate ['\n'] (dedent (lines (expandTabs 0 doc.toList))))

end FlowSurvey.Text
