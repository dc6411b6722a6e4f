import FlowSurvey.Syntax.Rule

/-!
# String literals

The body of a string is read in pieces.  A piece ends at an escape, at a quote
that does not close the string, and at the braces of a formatted string; a line
end inside a string of single quotes is allowed at the start of a piece only.
Braces in a formatted string enclose an expression.
-/

namespace FlowSurvey.Syntax

/-- How a string is delimited and read. -/
structure Delimiter where
  quote : Char
  triple : Bool
  raw : Bool
  bytes : Bool
  formatted : Bool

/-- The delimiter that a string starts with, and its length. -/
def delimiter? (cs : List Char) : Option (Delimiter × Nat) :=
  let letters := cs.takeWhile isStringLetter
  let has (among : String) := letters.any among.toList.contains
  let build (quote : Char) (n : Nat) :=
    (⟨quote, n = 3, has "rR", has "bB", has "fFtT"⟩, letters.length + n)
  match cs.dropWhile isStringLetter with
  | '`' :: _ => some (build '`' 1)
  | '\'' :: '\'' :: '\'' :: _ => some (build '\'' 3)
  | '\'' :: _ => some (build '\'' 1)
  | '"' :: '"' :: '"' :: _ => some (build '"' 3)
  | '"' :: _ => some (build '"' 1)
  | _ => none

def countHex (cs : List Char) : Nat :=
  (cs.takeWhile fun c => c.isDigit || ('a' ≤ c && c ≤ 'f') || ('A' ≤ c && c ≤ 'F')).length

/-- The length of an escape, whose backslash comes first; an unknown one is the backslash alone. -/
def escapeLength : List Char → Nat
  | '\\' :: 'u' :: rest => if 4 ≤ countHex rest then 6 else 1
  | '\\' :: 'U' :: rest => if 8 ≤ countHex rest then 10 else 1
  | '\\' :: 'x' :: rest => if 2 ≤ countHex rest then 4 else 1
  | '\\' :: '\r' :: '\n' :: _ => 3
  | '\\' :: '\n' :: _ => 2
  | '\\' :: 'N' :: '{' :: rest =>
      let name := rest.takeWhile (· ≠ '}')
      if name.isEmpty || name.length = rest.length then 1 else 4 + name.length
  | '\\' :: c :: rest =>
      if c.isDigit then 1 + min 3 ((c :: rest).takeWhile Char.isDigit).length
      else if "'\"abfrntv\\".toList.contains c then 2
      else 1
  | _ => 1

/-- The length of a backslash in a raw string with what it protects. -/
def rawEscapeLength (quote : Char) : List Char → Nat
  | '\\' :: c :: rest =>
      let escaped := if c = quote || c = '\\' then 1 else 0
      match if escaped = 1 then rest else c :: rest with
      | '\r' :: '\n' :: _ => 1 + escaped + 2
      | '\r' :: _ | '\n' :: _ => 1 + escaped + 1
      | _ => 1 + escaped
  | _ => 1

/-- The format of an interpolated value, up to its closing brace. -/
def formatBody (interpolation : Parser Node) : Nat → Parser (List Node)
  | 0 => failure
  | n + 1 => do
      match (← peek).head? with
      | none => failure
      | some '}' => return []
      | some '{' => do
          let inner ← interpolation
          return inner :: (← formatBody interpolation n)
      | some _ => do
          skip 1
          formatBody interpolation n

/-- An expression between braces, with its conversion and its format. -/
def interpolation (rules : Rules) : Nat → Parser Node
  | 0 => failure
  | n + 1 => do
      let start ← place
      let opening ← character '{'
      let trivia ← gap openGap
      let value ← rules (.values .bracket)
      let equals ← orNone (after closeGap (symbol "="))
      let conversion ← orNone do
        let trivia ← gap closeGap
        match ← peek with
        | '!' :: c :: _ => do
            guardThat ('a' ≤ c ∧ c ≤ 'z')
            return trivia ++ [← tokenOf (String.ofList ['!', c])]
        | _ => failure
      let format ← orNone do
        let colon ← after closeGap (character ':')
        let start ← place
        let body ← formatBody (interpolation rules n) (← get).budget
        return colon ++ [.branch .formatSpecifier start body]
      let closing ← after closeGap (character '}')
      return .branch .interpolation start
        ([opening] ++ trivia ++ value ++ equals ++ conversion ++ format ++ closing)

/-- The interpolations in the body of a string, which is read up to its closing quotes. -/
def stringBody (rules : Rules) (d : Delimiter) : (fuel : Nat) → (inPiece : Bool) → Parser (List Node)
  | 0, _ => failure
  | n + 1, inPiece => do
      match ← peek with
      | [] => failure
      | c :: rest =>
          if d.formatted ∧ (c = '{' ∨ c = '}') then
            if rest.head? = some c then
              skip 2
              stringBody rules d n false
            else do
              guardThat (c = '{')
              let inner ← interpolation rules (n + 1)
              return inner :: (← stringBody rules d n false)
          else if c = '\\' then
            if d.raw then
              skip (rawEscapeLength d.quote (c :: rest))
              stringBody rules d n inPiece
            else if d.bytes ∧ (rest.head?.any "NuU".toList.contains) then
              skip 3
              stringBody rules d n true
            else
              skip (escapeLength (c :: rest))
              stringBody rules d n false
          else if c = d.quote then
            if d.triple then
              match rest with
              | a :: b :: _ =>
                  if a = c then
                    if b = c then
                      skip 3
                      return []
                    else
                      skip 2
                      stringBody rules d n false
                  else
                    skip 1
                    stringBody rules d n false
              | _ => do
                  skip 1
                  stringBody rules d n false
            else
              skip 1
              return []
          else do
            guardThat !(c = '\n' && inPiece && !d.triple)
            skip 1
            stringBody rules d n true

def stringLiteral (rules : Rules) : Parser Node := do
  let first ← here
  match delimiter? first.rest with
  | none => failure
  | some (d, n) => do
      skip n
      let inner ← stringBody rules d (← get).budget false
      let last ← here
      return { Node.branch .string first.place inner with text := sourceBetween first last }

end FlowSurvey.Syntax
