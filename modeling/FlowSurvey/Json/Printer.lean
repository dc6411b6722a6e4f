import FlowSurvey.Json.Basic
import FlowSurvey.Decimal.Shortest

/-!
# Printing JSON

Documents are printed with an indentation of two spaces a level, answers on one
line.  A string is quoted with the short escapes where there is one, the control
characters that have none as four hexadecimal digits.
-/

namespace FlowSurvey.Json

def hexDigit (n : Nat) : Char :=
  if n < 10 then Char.ofNat ('0'.toNat + n) else Char.ofNat ('a'.toNat + n - 10)

def escapeChar (c : Char) : List Char :=
  match c with
  | '"' => ['\\', '"']
  | '\\' => ['\\', '\\']
  | '\x08' => ['\\', 'b']
  | '\x0c' => ['\\', 'f']
  | '\n' => ['\\', 'n']
  | '\r' => ['\\', 'r']
  | '\t' => ['\\', 't']
  | c =>
      if c.toNat < 0x20 then
        ['\\', 'u', '0', '0', hexDigit (c.toNat / 16), hexDigit (c.toNat % 16)]
      else [c]

def quote (s : String) : List Char :=
  '"' :: (s.toList.flatMap escapeChar ++ ['"'])

def wholeDigits (n : Int) : List Char :=
  if 0 ≤ n then Nat.toDigits 10 n.natAbs else '-' :: Nat.toDigits 10 n.natAbs

/-- A double; one that is not finite has no numeral. -/
def floatDigits (x : Float) : List Char :=
  if x.isFinite then (Decimal.renderFloat x).toList else ['n', 'u', 'l', 'l']

/-- The start of a line that is indented by a number of levels. -/
def newline (level : Nat) : List Char :=
  '\n' :: List.replicate (2 * level) ' '

mutual

def prettyChars (level : Nat) : Json → List Char
  | .null => ['n', 'u', 'l', 'l']
  | .bool true => ['t', 'r', 'u', 'e']
  | .bool false => ['f', 'a', 'l', 's', 'e']
  | .whole n => wholeDigits n.val
  | .float x => floatDigits x
  | .str s => quote s
  | .arr [] => ['[', ']']
  | .arr (item :: rest) =>
      '[' :: newline (level + 1) ++ prettyChars (level + 1) item ++ prettyItems level rest
  | .obj [] => ['{', '}']
  | .obj ((key, value) :: rest) =>
      '{' :: newline (level + 1) ++ quote key ++ ':' :: ' ' :: prettyChars (level + 1) value ++
        prettyFields level rest

/-- The items after the first, and the closing bracket. -/
def prettyItems (level : Nat) : List Json → List Char
  | [] => newline level ++ [']']
  | item :: rest =>
      ',' :: newline (level + 1) ++ prettyChars (level + 1) item ++ prettyItems level rest

/-- The fields after the first, and the closing brace. -/
def prettyFields (level : Nat) : List (String × Json) → List Char
  | [] => newline level ++ ['}']
  | (key, value) :: rest =>
      ',' :: newline (level + 1) ++ quote key ++ ':' :: ' ' :: prettyChars (level + 1) value ++
        prettyFields level rest

end

def pretty (value : Json) : String :=
  String.ofList (prettyChars 0 value)

mutual

def compactChars : Json → List Char
  | .arr [] => ['[', ']']
  | .arr (item :: rest) => '[' :: compactChars item ++ compactItems rest
  | .obj [] => ['{', '}']
  | .obj ((key, value) :: rest) =>
      '{' :: quote key ++ ':' :: compactChars value ++ compactFields rest
  | scalar => prettyChars 0 scalar

def compactItems : List Json → List Char
  | [] => [']']
  | item :: rest => ',' :: compactChars item ++ compactItems rest

def compactFields : List (String × Json) → List Char
  | [] => ['}']
  | (key, value) :: rest => ',' :: quote key ++ ':' :: compactChars value ++ compactFields rest

end

def compact (value : Json) : String :=
  String.ofList (compactChars value)

end FlowSurvey.Json
