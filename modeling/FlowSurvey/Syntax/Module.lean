import FlowSurvey.Syntax.Statement

/-!
# Modules

A module is a block of statements that nothing closes but the end of the text.
Every text has a tree; it is valid if the tree has no error node and no statement
that the language has given up.
-/

namespace FlowSurvey.Syntax

/-- The parsers of the rules, for constructs that are nested up to a depth. -/
def rulesUpTo : Nat → Rules
  | 0, _ => failure
  | n + 1, rule =>
      let rules := rulesUpTo n
      let single (p : Parser Node) : Parser (List Node) := do return [← p]
      match rule with
      | .expression f => single (expression rules f)
      | .inversion f => single (inversion rules f)
      | .binary least f => single (binary rules least f)
      | .unary f => single (unary rules f)
      | .operand f => single (operand rules f)
      | .values f => valueItems rules f
      | .rightSide f => single (rightSide rules f)
      | .simplePattern => single (simplePattern rules)
      | .casePattern => single (casePattern rules)
      | .statement => statement rules

def parse (text : String) : Node :=
  let cursor := Cursor.ofText text
  let size := cursor.rest.length
  let items := blockItems (rulesUpTo (2 * size + 8) .statement) (size + 1)
  let children := (items.run ⟨cursor, [0], size + 1⟩).map Prod.fst
  .branch .module ⟨0, 0⟩ (children.getD [])

/-! ## Validity -/

inductive Offence where
  | printStatement
  | execStatement
  | malformed
  | missing (what : String)
  deriving DecidableEq, Repr

def Offence.message : Offence → String
  | .printStatement => "Python 2 print statement"
  | .execStatement => "Python 2 exec statement"
  | .malformed => "invalid syntax"
  | .missing what => "missing " ++ what

/--
What a node by itself, whatever its children are, does wrong.  The text of a missing node says
what is missing; a tree of `parse` has an error node instead, wherever something is missing.
-/
def Node.offence? (n : Node) : Option Offence :=
  match n.kind with
  | .printStatement => some .printStatement
  | .execStatement => some .execStatement
  | .error => some .malformed
  | .missing => some (.missing n.text)
  | _ => none

mutual

/-- The first node of a tree, each before its children, that does something wrong. -/
def Node.firstInvalid? : Node → Option Node
  | ⟨kind, role, start, text, children⟩ =>
      let n : Node := ⟨kind, role, start, text, children⟩
      if n.offence?.isSome then some n else firstInvalidAmong? children

def Node.firstInvalidAmong? : List Node → Option Node
  | [] => none
  | n :: rest =>
      match n.firstInvalid? with
      | some found => some found
      | none => firstInvalidAmong? rest

end

structure SyntaxError where
  place : Place
  offence : Offence
  deriving DecidableEq, Repr

/-- The first offence of a tree, if it has any. -/
def Node.syntaxError? (tree : Node) : Option SyntaxError :=
  tree.firstInvalid?.bind fun n => n.offence?.map (⟨n.start, ·⟩)

/-- The tree of a text that has no offence. -/
def parseValid (text : String) : Except SyntaxError Node :=
  let tree := parse text
  match tree.syntaxError? with
  | some error => .error error
  | none => .ok tree

end FlowSurvey.Syntax
