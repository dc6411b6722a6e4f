import FlowSurvey.Syntax.Layout

/-!
# Words, numbers and punctuation

The parsers of this file take one token that starts where they start.  Of several
tokens that could start there the longest counts.  A reserved word is never a
name; the words that open a statement only in some places are ordinary names
elsewhere.
-/

namespace FlowSurvey.Syntax

/-! ## Taking characters -/

def peek : Parser (List Char) := fun s => some (s.cursor.rest, s)

def here : Parser Cursor := fun s => some (s.cursor, s)

def place : Parser Place := fun s => some (s.cursor.place, s)

def skip (n : Nat) : Parser Unit := fun s =>
  some ((), { s with cursor := s.cursor.drop n })

def lookAhead (p : Parser α) : Parser α := fun s => (p s).map fun result => (result.1, s)

def guardThat (b : Bool) : Parser Unit := fun s => if b then some ((), s) else none

/-- The result of a parser, or nothing and no character taken. -/
def optionally (p : Parser α) : Parser (Option α) := fun s =>
  match p s with
  | some (a, s') => some (some a, s')
  | none => some (none, s)

/-- The children that a parser finds, or none. -/
def orNone (p : Parser (List α)) : Parser (List α) := do
  return (← optionally p).getD []

def manyUpTo (p : Parser (List α)) : Nat → Parser (List α)
  | 0 => pure []
  | n + 1 => do
      match ← optionally p with
      | none => return []
      | some found => return found ++ (← manyUpTo p n)

/-- Runs a parser, which takes at least one character, as often as it succeeds. -/
def many (p : Parser (List α)) : Parser (List α) := fun s => manyUpTo p s.budget s

def firstOf (ps : List (Parser α)) : Parser α :=
  ps.foldr (· <|> ·) failure

/-! ## Punctuation -/

/-- The punctuation of more than one character, longer ones first. -/
def longPunctuation : List String :=
  ["...", "**=", "//=", ">>=", "<<=", ":=", "->", "==", "!=", "<=", ">=", "<>", "//", "**",
    "<<", ">>", "+=", "-=", "*=", "/=", "%=", "@=", "&=", "|=", "^="]

def shortPunctuation : List Char :=
  "()[]\x7b\x7d,:;.=+-*/%@|&^~<>".toList

/-- The punctuation that a text starts with. -/
def punctuation? (cs : List Char) : Option String :=
  match longPunctuation.find? fun p => p.toList.isPrefixOf cs with
  | some p => some p
  | none => (cs.head?.filter shortPunctuation.contains).map String.singleton

def tokenOf (text : String) : Parser Node := do
  let start ← place
  skip text.length
  return .leaf .token start text

/-- A given punctuation, where no longer one starts. -/
def symbol (text : String) : Parser Node := do
  guardThat (punctuation? (← peek) == some text)
  tokenOf text

def symbolAmong (texts : List String) : Parser Node := do
  match punctuation? (← peek) with
  | some text => do guardThat (texts.contains text); tokenOf text
  | none => failure

/-- A single character, whatever comes after it. -/
def character (c : Char) : Parser Node := do
  guardThat ((← peek).head? == some c)
  tokenOf (String.singleton c)

/-! ## Words -/

/-- The longest word that a text starts with. -/
def word? (cs : List Char) : Option String :=
  match cs with
  | c :: _ => if Text.isIdentifierStart c then some (String.ofList (cs.takeWhile Text.isIdentifierPart)) else none
  | [] => none

def reservedWords : List String :=
  ["False", "None", "True", "and", "as", "assert", "break", "class", "continue", "def", "del",
    "elif", "else", "except", "finally", "for", "from", "global", "if", "import", "in", "is",
    "lambda", "nonlocal", "not", "or", "pass", "raise", "return", "try", "while", "with", "yield"]

def isReserved (word : String) : Bool :=
  reservedWords.contains word

def keyword (text : String) : Parser Node := do
  guardThat (word? (← peek) == some text)
  tokenOf text

def name : Parser Node := do
  match word? (← peek) with
  | some word => do
      guardThat (!isReserved word)
      let start ← place
      skip word.length
      return .leaf .identifier start word
  | none => failure

/-! ## Numbers -/

/-- The length of a run of digits in which single underscores may stand after digits. -/
def groupedDigits : List Char → Nat
  | c :: '_' :: rest => if c.isDigit then 2 + groupedDigits rest else 0
  | c :: rest => if c.isDigit then 1 + groupedDigits rest else 0
  | [] => 0

/-- The length of a run of digits of a base in which single underscores may stand before digits. -/
def prefixedDigits (isDigit : Char → Bool) : List Char → Nat
  | '_' :: c :: rest => if isDigit c then 2 + prefixedDigits isDigit rest else 0
  | c :: rest => if isDigit c then 1 + prefixedDigits isDigit rest else 0
  | [] => 0

def startsWithAny (cs : List Char) (letters : List Char) : Nat :=
  if (cs.head?.map letters.contains).getD false then 1 else 0

/-- The digits that a letter after a leading zero announces. -/
def radixDigits : Char → Option (Char → Bool)
  | 'x' | 'X' => some fun c => c.isDigit || ('a' ≤ c && c ≤ 'f') || ('A' ≤ c && c ≤ 'F')
  | 'o' | 'O' => some fun c => '0' ≤ c && c ≤ '7'
  | 'b' | 'B' => some fun c => c = '0' || c = '1'
  | _ => none

/-- The length of the longest integer that a text starts with. -/
def integerLength (cs : List Char) : Nat :=
  let decimal := groupedDigits cs
  let plain := if decimal = 0 then 0 else
    decimal + startsWithAny (cs.drop decimal) ['l', 'L', 'j', 'J']
  match cs with
  | '0' :: letter :: rest =>
      match radixDigits letter with
      | some isDigit =>
          let n := prefixedDigits isDigit rest
          if n = 0 then plain else 2 + n + startsWithAny (rest.drop n) ['l', 'L']
      | none => plain
  | _ => plain

def exponentLength (cs : List Char) : Nat :=
  if startsWithAny cs ['e', 'E'] = 0 then 0
  else
    let sign := startsWithAny (cs.drop 1) ['+', '-']
    let digits := groupedDigits (cs.drop (1 + sign))
    if digits = 0 then 0 else 1 + sign + digits

/-- The length of the longest float that a text starts with. -/
def floatLength (cs : List Char) : Nat :=
  let whole := groupedDigits cs
  let afterWhole := cs.drop whole
  let body :=
    if afterWhole.head? = some '.' then
      let fraction := groupedDigits (afterWhole.drop 1)
      if whole = 0 ∧ fraction = 0 then 0
      else
        let point := whole + 1 + fraction
        point + exponentLength (cs.drop point)
    else if whole = 0 then 0
    else
      let exponent := exponentLength afterWhole
      if exponent = 0 then 0 else whole + exponent
  if body = 0 then 0 else body + startsWithAny (cs.drop body) ['j', 'J']

def number : Parser Node := do
  let cs ← peek
  let whole := integerLength cs
  let fractional := floatLength cs
  guardThat (0 < whole ∨ 0 < fractional)
  let n := max whole fractional
  let start ← place
  skip n
  return .leaf (if whole < fractional then .float else .integer) start (String.ofList (cs.take n))

end FlowSurvey.Syntax
