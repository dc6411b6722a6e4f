import FlowSurvey.Syntax.Lexeme

/-!
# Recursion in the grammar

The grammar refers to itself in a few places only; those are the rules below.
The parser of a construct is written for any parser of the rules, and the knot is
tied once, where the rules are given their parsers.

A parser of a construct starts at the first token of the construct and ends
behind its last one.  What may come after it is told by its caller, since that
decides whether a line end or a closing bracket is looked for.
-/

namespace FlowSurvey.Syntax

/-- What may come after an expression, apart from an operator. -/
structure Follow where
  lineEnd : Bool
  closer : Bool
  /-- A condition may follow that makes the expression conditional. -/
  condition : Bool

def Follow.statement : Follow := ⟨true, false, true⟩

def Follow.bracket : Follow := ⟨false, true, true⟩

/-- Before a token that has to come. -/
def Follow.token : Follow := ⟨false, false, true⟩

/-- In a clause of a comprehension. -/
def Follow.clause : Follow := ⟨false, true, false⟩

def Follow.gap (f : Follow) : Gap := { lineEnd := f.lineEnd, closer := f.closer }

/-- The gap before an expression that need not come. -/
def Follow.optionalGap (f : Follow) : Gap :=
  { lineEnd := f.lineEnd, closer := f.closer, string := true }

/-- The gap before an expression that has to come. -/
def operandGap : Gap := { string := true }

def openGap : Gap := { closer := true, string := true }

def closeGap : Gap := { closer := true }

/-- The gap before a token that has to come and is no string. -/
def tokenGap : Gap := {}

/-- The rules through which the grammar refers to itself. -/
inductive Rule where
  | expression (f : Follow)
  /-- An expression without operators of its own, or a negation or comparison. -/
  | inversion (f : Follow)
  /-- Operators of at least some precedence between operands. -/
  | binary (least : Nat) (f : Follow)
  /-- An operand with its signs. -/
  | unary (f : Follow)
  /-- An operand with what is attached to it from behind. -/
  | operand (f : Follow)
  /-- A yield, or expressions with commas between them. -/
  | values (f : Follow)
  /-- What stands on the right of an assignment. -/
  | rightSide (f : Follow)
  /-- A pattern that is not made of others by bars. -/
  | simplePattern
  | casePattern
  /-- A statement, or a line of simple ones. -/
  | statement

abbrev Rules := Rule → Parser (List Node)

/-- The one node of a rule. -/
def Rules.node (rules : Rules) (r : Rule) : Parser Node := do
  match ← rules r with
  | [n] => return n
  | _ => failure

def Rules.expression (rules : Rules) (f : Follow) : Parser Node :=
  rules.node (.expression f)

def Rules.operand (rules : Rules) (f : Follow) : Parser Node :=
  rules.node (.operand f)

/-! ## Sequences -/

def after (g : Gap) (p : Parser Node) : Parser (List Node) := do
  let trivia ← gap g
  return trivia ++ [← p]

/-- The items of a list behind its first item. -/
def moreItems (f : Follow) (item : Parser Node) : Parser (List Node) :=
  many do
    let comma ← after f.gap (symbol ",")
    return comma ++ (← after f.optionalGap item)

def trailingComma (f : Follow) : Parser (List Node) :=
  orNone (after f.gap (symbol ","))

/-- The operands of operators of one precedence, grouped from the left. -/
def leftNested (kind : Kind) (first : Node) (segments : List (List Node)) : Node :=
  segments.foldl (fun left segment => .branch kind left.start (left :: segment)) first

/-- One or more operands with an operator, with its gaps, between any two. -/
def chain (kind : Kind) (operand : Parser Node) (operator : Parser (List Node)) : Parser Node := do
  let first ← operand
  let segments ← many do
    let op ← operator
    return [op ++ [← operand]]
  return leftNested kind first segments

/-- An operator between operands. -/
def operatorBetween (f : Follow) (operator : Parser Node) : Parser (List Node) := do
  let op ← after f.gap operator
  return op ++ (← gap operandGap)

end FlowSurvey.Syntax
