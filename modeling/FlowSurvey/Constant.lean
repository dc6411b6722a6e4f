import FlowSurvey.Decimal.Literal
import FlowSurvey.Json.Basic
import FlowSurvey.Syntax.Node
import FlowSurvey.Text.Docstring
import FlowSurvey.Text.StringToken

/-!
# Constants

A constant is an expression whose value is known from its source: a plain string,
strings that follow one another, a number, a truth value or nothing at all, in
any number of parentheses.  Names, calls, containers, formatted strings and signed
numbers are no constants.
-/

namespace FlowSurvey

open Syntax

/-! ## Numbers -/

/-- The digits of a number, without the underscores that group them. -/
def ungrouped (text : String) : List Char :=
  text.toList.filter (· ≠ '_')

/-- The base that the start of an integer announces, and the digits that follow. -/
def splitBase : List Char → Nat × List Char
  | '0' :: 'x' :: rest | '0' :: 'X' :: rest => (16, rest)
  | '0' :: 'o' :: rest | '0' :: 'O' :: rest => (8, rest)
  | '0' :: 'b' :: rest | '0' :: 'B' :: rest => (2, rest)
  | digits => (10, digits)

def isDigitOf (base : Nat) (c : Char) : Bool :=
  Text.isHexDigit c && Text.digitValue c < base

def largestInteger : Nat :=
  9223372036854775807

def integerValue? (text : String) : Option Nat :=
  let (base, digits) := splitBase (ungrouped text)
  let value := Text.numeral base digits
  if !digits.isEmpty && digits.all (isDigitOf base) && value ≤ largestInteger then some value
  else none

/-- The value of a float literal, if it is real and finite. -/
def floatValue? (text : String) : Option Float :=
  Decimal.literalValue? (ungrouped text)

/-! ## Expressions -/

/-- The text of a plain string; a string with a value inside is not plain. -/
def plainString? (n : Node) : Option String :=
  if n.kind = .string && n.children.all fun child => child.kind != .interpolation then
    Text.decodeStringToken n.text
  else none

/-- The text of strings that follow one another, with comments between them. -/
def joinedStrings? (parts : List Node) : Option String :=
  ((parts.filter fun n => n.isNamed && n.kind != .comment).mapM plainString?).map String.join

mutual

def constant? : Node → Option Json
  | ⟨kind, role, start, text, children⟩ =>
      match kind with
      | .string => (plainString? ⟨kind, role, start, text, children⟩).map .str
      | .concatenatedString => (joinedStrings? children).map .str
      | .integer => (integerValue? text).map .ofNat
      | .float => (floatValue? text).map .float
      | .true => some (.bool Bool.true)
      | .false => some (.bool Bool.false)
      | .none => some .null
      | .parenthesized => onlyConstant? children
      | _ => Option.none

/-- The value of a constant that is the only thing between parentheses. -/
def onlyConstant? : List Node → Option Json
  | [] => none
  | n :: rest =>
      if n.isNamed then
        if rest.any Node.isNamed then none else constant? n
      else onlyConstant? rest

end

/-! ## Calls and definitions -/

/-- A keyword of a call with its value, if that is a constant. -/
def constantKeyword? (argument : Node) : Option (String × Json) :=
  if argument.kind = .keywordArgument then do
    let name ← argument.child? .name
    let value ← argument.child? .value
    let constant ← constant? value
    return (name.text, constant)
  else none

/-- The keywords of a call whose values are constants; the last of each name counts. -/
def constantKeywords (call : Node) : List (String × Json) :=
  match call.child? .arguments with
  | some arguments => Json.fieldsOfList (arguments.children.filterMap constantKeyword?)
  | none => []

def docstring? (definition : Node) : Option String := do
  let body ← definition.child? .body
  let first ← body.namedChildren.find? fun n => n.kind != .comment
  guard (first.kind = .expressionStatement)
  match first.namedChildren with
  | [n] => do
      let doc ← (← constant? n).asString?
      return Text.cleanDocstring doc
  | _ => failure

end FlowSurvey
