import FlowSurvey.Text.Blank

/-!
# String tokens

A string token is a string literal as it stands in the source: letters that say
how it is to be read, an opening quote, a body and a closing quote.  Decoding
gives the text that the literal stands for.  Formatted literals, byte literals
and templates stand for no plain text and decode to nothing.

An escape that is not well formed stands for itself.
-/

namespace FlowSurvey.Text

/-- The longest run of at most `n` characters that satisfy `p`, and what follows it. -/
def spanUpTo (p : Char → Bool) : Nat → List Char → List Char × List Char
  | 0, cs => ([], cs)
  | _ + 1, [] => ([], [])
  | n + 1, c :: cs =>
      if p c then
        let run := spanUpTo p n cs
        (c :: run.1, run.2)
      else ([], c :: cs)

theorem spanUpTo_append (p : Char → Bool) (n : Nat) (cs : List Char) :
    (spanUpTo p n cs).1 ++ (spanUpTo p n cs).2 = cs := by
  induction n generalizing cs with
  | zero => simp [spanUpTo]
  | succ n ih =>
    cases cs with
    | nil => simp [spanUpTo]
    | cons c cs => by_cases h : p c <;> simp [spanUpTo, h, ih]

theorem length_spanUpTo_rest_le (p : Char → Bool) (n : Nat) (cs : List Char) :
    (spanUpTo p n cs).2.length ≤ cs.length := by
  have h := congrArg List.length (spanUpTo_append p n cs)
  simp only [List.length_append] at h
  omega

def isOctalDigit (c : Char) : Bool :=
  '0' ≤ c && c ≤ '7'

def isHexDigit (c : Char) : Bool :=
  c.isDigit || ('a' ≤ c && c ≤ 'f') || ('A' ≤ c && c ≤ 'F')

/-- The value of a digit of a base up to sixteen, in either case. -/
def digitValue (c : Char) : Nat :=
  if c.isDigit then c.toNat - '0'.toNat
  else if 'a' ≤ c then c.toNat - 'a'.toNat + 10
  else c.toNat - 'A'.toNat + 10

/-- The number that a run of digits of a base spells. -/
def numeral (base : Nat) (digits : List Char) : Nat :=
  digits.foldl (fun value d => value * base + digitValue d) 0

/-- The character that a backslash and one more character stand for. -/
def simpleEscape : Char → Option Char
  | '\\' => some '\\'
  | '\'' => some '\''
  | '"' => some '"'
  | 'n' => some '\n'
  | 't' => some '\t'
  | 'r' => some '\r'
  | 'a' => some '\x07'
  | 'b' => some '\x08'
  | 'f' => some '\x0c'
  | 'v' => some '\x0b'
  | _ => none

/-- How many hexadecimal digits follow the letter of an escape. -/
def hexEscapeWidth : Char → Option Nat
  | 'x' => some 2
  | 'u' => some 4
  | 'U' => some 8
  | _ => none

/-- A hexadecimal escape with too few digits, or that names no character, stands for itself. -/
def hexEscape (letter : Char) (width : Nat) (digits : List Char) : List Char :=
  let code := numeral 16 digits
  if digits.length = width ∧ code.isValidChar then [Char.ofNat code]
  else '\\' :: letter :: digits

/-- The text that the body of a string token stands for. -/
def unescape (body : List Char) : List Char :=
  match body with
  | [] => []
  | '\\' :: c :: rest =>
      if c = '\n' then unescape rest
      else
        match simpleEscape c with
        | some plain => plain :: unescape rest
        | none =>
            match hexEscapeWidth c with
            | some width =>
                hexEscape c width (spanUpTo isHexDigit width rest).1 ++
                  unescape (spanUpTo isHexDigit width rest).2
            | none =>
                if isOctalDigit c then
                  Char.ofNat (numeral 8 (c :: (spanUpTo isOctalDigit 2 rest).1)) ::
                    unescape (spanUpTo isOctalDigit 2 rest).2
                else '\\' :: c :: unescape rest
  | c :: rest => c :: unescape rest
termination_by body.length
decreasing_by all_goals grind [length_spanUpTo_rest_le]

def isQuote (c : Char) : Bool :=
  c = '"' || c = '\''

/-- The opening quotes, the longer ones first. -/
def delimiters : List (List Char) :=
  [['"', '"', '"'], ['\'', '\'', '\''], ['"'], ['\'']]

/-- The text between a pair of equal quotes that do not overlap. -/
def unquote (quoted : List Char) : Option (List Char) :=
  delimiters.findSome? fun delimiter =>
    let n := delimiter.length
    if 2 * n ≤ quoted.length ∧ delimiter.isPrefixOf quoted ∧ delimiter.isSuffixOf quoted then
      some ((quoted.drop n).take (quoted.length - 2 * n))
    else none

/-- The letters before the quotes that make a literal stand for no plain text. -/
def isFormatLetter (c : Char) : Bool :=
  c.toLower = 'f' || c.toLower = 'b' || c.toLower = 't'

def isRawLetter (c : Char) : Bool :=
  c.toLower = 'r'

/-- The text that a string token stands for, if it is a plain one. -/
def decodeToken (token : List Char) : Option (List Char) :=
  let trimmed := trim token
  let letters := trimmed.takeWhile (!isQuote ·)
  if letters.any isFormatLetter then none
  else (unquote (trimmed.dropWhile (!isQuote ·))).map fun body =>
    if letters.any isRawLetter then body else unescape body

def decodeStringToken (token : String) : Option String :=
  (decodeToken token.toList).map String.ofList

end FlowSurvey.Text
