import FlowSurvey.Json.Basic
import FlowSurvey.Text.StringToken

/-!
# Reading JSON

A reader takes the characters that are left and gives a value and the rest, or
stops.  A stop says why, where, and whether it was the text that ended too soon.
Brackets may be nested to a depth of 127.

Numbers are read into at most 64 bits of digits and a power of ten.  Digits
beyond those 64 bits do not count, and the power is applied by one
multiplication or division of doubles.
-/

namespace FlowSurvey.Json

inductive Fault where
  | endInArray
  | endInObject
  | endInString
  | endInValue
  | expectedColon
  | expectedCommaOrBracket
  | expectedCommaOrBrace
  | expectedWord
  | expectedValue
  | invalidEscape
  | invalidNumber
  | numberOutOfRange
  | controlCharacter
  | keyNotString
  | loneSurrogate
  | trailingComma
  | trailingCharacters
  | brokenSurrogatePair
  | nestedTooDeep
  deriving DecidableEq, Repr

def Fault.atEnd : Fault → Bool
  | .endInArray | .endInObject | .endInString | .endInValue => true
  | _ => false

def Fault.message : Fault → String
  | .endInArray => "EOF while parsing a list"
  | .endInObject => "EOF while parsing an object"
  | .endInString => "EOF while parsing a string"
  | .endInValue => "EOF while parsing a value"
  | .expectedColon => "expected `:`"
  | .expectedCommaOrBracket => "expected `,` or `]`"
  | .expectedCommaOrBrace => "expected `,` or `\x7d`"
  | .expectedWord => "expected ident"
  | .expectedValue => "expected value"
  | .invalidEscape => "invalid escape"
  | .invalidNumber => "invalid number"
  | .numberOutOfRange => "number out of range"
  | .controlCharacter => "control character (\\u0000-\\u001F) found while parsing a string"
  | .keyNotString => "key must be a string"
  | .loneSurrogate => "lone leading surrogate in hex escape"
  | .trailingComma => "trailing comma"
  | .trailingCharacters => "trailing characters"
  | .brokenSurrogatePair => "unexpected end of hex escape"
  | .nestedTooDeep => "recursion limit exceeded"

/-- A fault before the characters that are left; `seen` of their bytes belong to it. -/
structure Stop where
  fault : Fault
  left : List Char
  seen : Nat

/-- A fault at the next character, which is looked at but not taken. -/
def stopAt (fault : Fault) (left : List Char) : Except Stop α :=
  .error ⟨fault, left, 1⟩

/-- A fault in what has been taken. -/
def stopAfter (fault : Fault) (left : List Char) : Except Stop α :=
  .error ⟨fault, left, 0⟩

def isSpace (c : Char) : Bool :=
  c = ' ' || c = '\n' || c = '\t' || c = '\r'

def skipSpace (cs : List Char) : List Char :=
  cs.dropWhile isSpace

def word : List Char → List Char → Except Stop (List Char)
  | [], cs => .ok cs
  | _ :: _, [] => stopAfter .endInValue []
  | expected :: more, c :: cs =>
      if c = expected then word more cs else stopAfter .expectedWord cs

/-! ## Numbers -/

def maxWord : Nat := 18446744073709551615

/-- The digits of a number as far as they fit, and the power of ten that goes with them. -/
structure Digits where
  significand : Nat
  exponent : Int

/-- Takes one more digit unless it would exceed 64 bits. -/
def Digits.push? (d : Digits) (digit : Nat) : Option Nat :=
  let next := d.significand * 10 + digit
  if next ≤ maxWord then some next else none

/-- The double `significand * 10 ^ -n`, for a power beyond the range of doubles in steps. -/
def divideByPower (x : Float) (n : Nat) : Float :=
  if n ≤ 308 then x / Float.ofScientific 1 false n
  else if x == 0.0 then x
  else divideByPower (x / 1e308) (n - 308)
termination_by n

/-- The double that digits and their power of ten stand for, if it is finite. -/
def Digits.toFloat? (d : Digits) : Option Float :=
  let x := d.significand.toUInt64.toFloat
  if 0 ≤ d.exponent then
    if d.exponent ≤ 308 then
      let y := x * Float.ofScientific 1 false d.exponent.toNat
      if y.isInf then none else some y
    else if x == 0.0 then some x
    else none
  else some (divideByPower x d.exponent.natAbs)

def signed (positive : Bool) (x : Float) : Float :=
  if positive then x else -x

def finishFloat (positive : Bool) (d : Digits) (cs : List Char) : Except Stop (Json × List Char) :=
  match d.toFloat? with
  | some x => .ok (.float (signed positive x), cs)
  | none => stopAfter .numberOutOfRange cs

def maxExponent : Nat := 2147483647

/-- Takes the digits of an exponent, or stops where they exceed 31 bits. -/
def exponentDigits (exponent : Nat) : List Char → Except (List Char) (Nat × List Char)
  | [] => .ok (exponent, [])
  | c :: cs =>
      if c.isDigit then
        let next := exponent * 10 + Text.digitValue c
        if next ≤ maxExponent then exponentDigits next cs else .error cs
      else .ok (exponent, c :: cs)

/-- The exponent of a number, after its letter. -/
def readExponent (positive : Bool) (d : Digits) (cs : List Char) : Except Stop (Json × List Char) :=
  let (grows, afterSign) :=
    match cs with
    | '+' :: rest => (true, rest)
    | '-' :: rest => (false, rest)
    | _ => (true, cs)
  match afterSign with
  | [] => stopAfter .endInValue []
  | c :: rest =>
      if c.isDigit then
        match exponentDigits (Text.digitValue c) rest with
        | .ok (e, left) =>
            let shift : Int := if grows then e else -e
            finishFloat positive ⟨d.significand, d.exponent + shift⟩ left
        | .error left =>
            if d.significand ≠ 0 ∧ grows then stopAfter .numberOutOfRange left
            else .ok (.float (signed positive 0.0), left.dropWhile Char.isDigit)
      else stopAfter .invalidNumber rest

def finishDecimal (positive : Bool) (d : Digits) (cs : List Char) : Except Stop (Json × List Char) :=
  match cs with
  | 'e' :: rest | 'E' :: rest => readExponent positive d rest
  | _ => finishFloat positive d cs

/-- The digits after the decimal point; `some` is set once there was one. -/
def readFraction (positive : Bool) (d : Digits) (some? : Bool) : List Char → Except Stop (Json × List Char)
  | [] =>
      if some? then finishDecimal positive d [] else stopAt .endInValue []
  | c :: cs =>
      if c.isDigit then
        match d.push? (Text.digitValue c) with
        | some next => readFraction positive ⟨next, d.exponent - 1⟩ true cs
        | none => finishDecimal positive d (cs.dropWhile Char.isDigit)
      else if some? then finishDecimal positive d (c :: cs)
      else stopAt .invalidNumber (c :: cs)

/-- What may follow the digits before the decimal point, apart from more digits. -/
def readFractionOrExponent? (positive : Bool) (d : Digits) (cs : List Char) :
    Option (Except Stop (Json × List Char)) :=
  match cs with
  | '.' :: rest => some (readFraction positive d false rest)
  | 'e' :: rest | 'E' :: rest => some (readExponent positive d rest)
  | _ => none

/-- A number without fraction and exponent; a negative zero and one too small are doubles. -/
def finishWhole (positive : Bool) (significand : Nat) : Json :=
  if positive then .ofNat significand
  else if h : 0 < significand ∧ significand ≤ 9223372036854775808 then
    .whole ⟨-significand, by omega, by omega⟩
  else .float (-(significand.toUInt64.toFloat))

/-- The digits before the decimal point; those that do not fit only count. -/
def readInteger (positive : Bool) (significand : Nat) : List Char → Except Stop (Json × List Char)
  | [] => .ok (finishWhole positive significand, [])
  | c :: cs =>
      if c.isDigit then
        match Digits.push? ⟨significand, 0⟩ (Text.digitValue c) with
        | some next => readInteger positive next cs
        | none =>
            let more := (c :: cs).takeWhile Char.isDigit
            let d : Digits := ⟨significand, more.length⟩
            let left := (c :: cs).dropWhile Char.isDigit
            (readFractionOrExponent? positive d left).getD (finishFloat positive d left)
      else
        (readFractionOrExponent? positive ⟨significand, 0⟩ (c :: cs)).getD
          (.ok (finishWhole positive significand, c :: cs))

def readNumber (positive : Bool) : List Char → Except Stop (Json × List Char)
  | [] => stopAfter .endInValue []
  | c :: cs =>
      if c = '0' then
        match cs with
        | d :: _ => if d.isDigit then stopAt .invalidNumber cs else readInteger positive 0 cs
        | [] => readInteger positive 0 []
      else if c.isDigit then readInteger positive (Text.digitValue c) cs
      else stopAfter .invalidNumber cs

/-! ## Strings -/

def utf8Length (cs : List Char) : Nat :=
  cs.foldl (fun n c => n + c.utf8Size) 0

def readHex (cs : List Char) : Except Stop (Nat × List Char) :=
  match cs with
  | a :: b :: c :: d :: rest =>
      if [a, b, c, d].all Text.isHexDigit then .ok (Text.numeral 16 [a, b, c, d], rest)
      else .error ⟨.invalidEscape, cs, 4⟩
  | _ =>
      if 4 ≤ utf8Length cs then .error ⟨.invalidEscape, cs, 4⟩
      else stopAfter .endInString []

def isLeadingSurrogate (n : Nat) : Bool :=
  0xD800 ≤ n && n ≤ 0xDBFF

def isTrailingSurrogate (n : Nat) : Bool :=
  0xDC00 ≤ n && n ≤ 0xDFFF

/-- The character of an escape, after its letter. -/
def readUnicodeEscape (cs : List Char) : Except Stop (Char × List Char) := do
  let (first, rest) ← readHex cs
  if isTrailingSurrogate first then stopAfter .loneSurrogate rest
  else if isLeadingSurrogate first then
    match rest with
    | '\\' :: 'u' :: rest =>
        let (second, rest) ← readHex rest
        if isTrailingSurrogate second then
          .ok (Char.ofNat (0x10000 + (first - 0xD800) * 0x400 + (second - 0xDC00)), rest)
        else stopAfter .loneSurrogate rest
    | [] | ['\\'] => stopAfter .endInString []
    | '\\' :: rest => .error ⟨.brokenSurrogatePair, rest, 1⟩
    | rest => .error ⟨.brokenSurrogatePair, rest, 1⟩
  else .ok (Char.ofNat first, rest)

def shortEscape : Char → Option Char
  | '"' => some '"'
  | '\\' => some '\\'
  | '/' => some '/'
  | 'b' => some '\x08'
  | 'f' => some '\x0c'
  | 'n' => some '\n'
  | 'r' => some '\r'
  | 't' => some '\t'
  | _ => none

/-- One character of a string, or its closing quote. -/
def readStringChar : List Char → Except Stop (Option Char × List Char)
  | [] => stopAfter .endInString []
  | '"' :: rest => .ok (none, rest)
  | ['\\'] => stopAfter .endInString []
  | '\\' :: 'u' :: rest => do
      let (c, rest) ← readUnicodeEscape rest
      .ok (some c, rest)
  | '\\' :: letter :: rest =>
      match shortEscape letter with
      | some c => .ok (some c, rest)
      | none => stopAfter .invalidEscape rest
  | c :: rest =>
      if c.toNat < 0x20 then stopAfter .controlCharacter rest else .ok (some c, rest)

/-- The characters of a string up to its closing quote, of which there are at most `fuel`. -/
def readStringBody : (fuel : Nat) → List Char → Except Stop (List Char × List Char)
  | 0, cs => stopAfter .endInString cs
  | fuel + 1, cs => do
      match ← readStringChar cs with
      | (none, rest) => .ok ([], rest)
      | (some c, rest) => do
          let (more, rest) ← readStringBody fuel rest
          .ok (c :: more, rest)

def readString (cs : List Char) : Except Stop (String × List Char) := do
  let (body, rest) ← readStringBody (cs.length + 1) cs
  .ok (String.ofList body, rest)

/-! ## Values -/

mutual

/-- A value, in which `depth` more brackets may be opened. -/
def readValue (fuel depth : Nat) (cs : List Char) : Except Stop (Json × List Char) :=
  match fuel with
  | 0 => stopAt .endInValue cs
  | fuel + 1 =>
      match skipSpace cs with
      | [] => stopAt .endInValue []
      | 'n' :: rest => do .ok (.null, ← word ['u', 'l', 'l'] rest)
      | 't' :: rest => do .ok (.bool true, ← word ['r', 'u', 'e'] rest)
      | 'f' :: rest => do .ok (.bool false, ← word ['a', 'l', 's', 'e'] rest)
      | '-' :: rest => readNumber false rest
      | '"' :: rest => do
          let (s, rest) ← readString rest
          .ok (.str s, rest)
      | '[' :: rest =>
          match depth with
          | 0 => stopAt .nestedTooDeep ('[' :: rest)
          | depth + 1 => do
              let (items, rest) ← readItems fuel depth true rest
              .ok (.arr items, rest)
      | '{' :: rest =>
          match depth with
          | 0 => stopAt .nestedTooDeep ('{' :: rest)
          | depth + 1 => do
              let (fields, rest) ← readFields fuel depth true rest
              .ok (mkObj fields, rest)
      | c :: rest =>
          if c.isDigit then readNumber true (c :: rest) else stopAt .expectedValue (c :: rest)

/-- The items of an array that are left, up to its closing bracket. -/
def readItems (fuel depth : Nat) (first : Bool) (cs : List Char) : Except Stop (List Json × List Char) :=
  match fuel with
  | 0 => stopAt .endInArray cs
  | fuel + 1 => do
      let start ← match skipSpace cs with
        | [] => stopAt .endInArray []
        | ']' :: rest => return ([], rest)
        | ',' :: rest =>
            if first then .ok (',' :: rest)
            else
              match skipSpace rest with
              | [] => stopAt .endInValue []
              | ']' :: rest => stopAt .trailingComma (']' :: rest)
              | rest => .ok rest
        | rest => if first then .ok rest else stopAt .expectedCommaOrBracket rest
      let (item, rest) ← readValue fuel depth start
      let (items, rest) ← readItems fuel depth false rest
      .ok (item :: items, rest)

/-- The fields of an object that are left, up to its closing brace. -/
def readFields (fuel depth : Nat) (first : Bool) (cs : List Char) :
    Except Stop (List (String × Json) × List Char) :=
  match fuel with
  | 0 => stopAt .endInObject cs
  | fuel + 1 => do
      let start ← match skipSpace cs with
        | [] => stopAt .endInObject []
        | '}' :: rest => return ([], rest)
        | '"' :: rest => if first then .ok rest else stopAt .expectedCommaOrBrace ('"' :: rest)
        | ',' :: rest =>
            if first then stopAt .keyNotString (',' :: rest)
            else
              match skipSpace rest with
              | [] => stopAt .endInValue []
              | '"' :: rest => .ok rest
              | '}' :: rest => stopAt .trailingComma ('}' :: rest)
              | rest => stopAt .keyNotString rest
        | rest => if first then stopAt .keyNotString rest else stopAt .expectedCommaOrBrace rest
      let (key, rest) ← readString start
      let rest ← match skipSpace rest with
        | [] => stopAt .endInObject []
        | ':' :: rest => .ok rest
        | rest => stopAt .expectedColon rest
      let (value, rest) ← readValue fuel depth rest
      let (fields, rest) ← readFields fuel depth false rest
      .ok ((key, value) :: fields, rest)

end

def maxDepth : Nat := 127

/-- A document, with the place where reading stopped if it is none. -/
def readDocument (cs : List Char) : Except Stop Json := do
  let (value, rest) ← readValue (2 * cs.length + 2) maxDepth cs
  match skipSpace rest with
  | [] => .ok value
  | left => stopAt .trailingCharacters left

/-! ## Places -/

/-- A fault and its place: the line, from one, and the bytes taken of it. -/
structure ReadError where
  fault : Fault
  line : Nat
  column : Nat
  deriving DecidableEq, Repr

def utf8Bytes (cs : List Char) : List UInt8 :=
  cs.flatMap String.utf8EncodeChar

/-- The place after a number of bytes. -/
def placeAfter (bytes : List UInt8) : Nat × Nat :=
  bytes.foldl (fun place b => if b = 10 then (place.1 + 1, 0) else (place.1, place.2 + 1)) (1, 0)

def Stop.locate (stop : Stop) (cs : List Char) : ReadError :=
  let bytes := utf8Bytes cs
  let taken := bytes.length - (utf8Bytes stop.left).length + stop.seen
  let place := placeAfter (bytes.take taken)
  ⟨stop.fault, place.1, place.2⟩

def ReadError.message (e : ReadError) : String :=
  s!"{e.fault.message} at line {e.line} column {e.column}"

def parse (text : String) : Except ReadError Json :=
  match readDocument text.toList with
  | .ok value => .ok value
  | .error stop => .error (stop.locate text.toList)

end FlowSurvey.Json
