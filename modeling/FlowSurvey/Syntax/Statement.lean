import FlowSurvey.Syntax.Pattern

/-!
# Statements

A simple statement ends at a semicolon or at the end of its line; a compound
statement has a body, which stands on the same line or is a block of lines that
are indented further.  Where no statement can be read an error node takes the
place of everything that is left, and all blocks that are open end there.

The words that open a statement only in some places are tried as names first, or
last, as it takes to accept every text in which they are names.
-/

namespace FlowSurvey.Syntax

/-! ## Ends of statements and blocks -/

/--
The comments before the next statement of a block, and whether there is one: none
is where the text ends or a line is indented less than the block.
-/
def boundaryFrom (indent : Nat) (c : Cursor) : List Node × Bool × Cursor :=
  if (margin true c).any (·.closes indent) then ([], false, c)
  else
    let start := c.dropWhile isFiller
    match _h : triviaLength start.rest with
    | none => ([], !start.rest.isEmpty, start)
    | some (kind, n) =>
        let last := start.drop n
        let (trivia, more, next) := boundaryFrom indent last
        (.leaf kind start.place (sourceBetween start last) :: trivia, more, next)
termination_by c.rest.length
decreasing_by
  exact Cursor.length_drop_trivia_lt c ‹_›

def boundary : Parser (List Node × Bool) := fun s =>
  let (trivia, more, next) := boundaryFrom s.indent s.cursor
  some ((trivia, more), { s with cursor := next })

/-- A clause that may continue a compound statement behind its body. -/
def continued (clause : Parser Node) : Parser (List Node) := do
  let (trivia, more) ← boundary
  guardThat more
  return trivia ++ [← clause]

/-- Gives up what is left of the text. -/
def brokenOff : Parser Node := do
  let start ← place
  modify fun s => { s with cursor := { s.cursor with rest := [] } }
  return .branch .error start []

/-- The items of a block, one of which is read at a time, with the comments between them. -/
def blockItems (item : Parser (List Node)) : Nat → Parser (List Node)
  | 0 => pure []
  | n + 1 => do
      let (trivia, more) ← boundary
      if more then
        let found ← item <|> do return [← brokenOff]
        return trivia ++ found ++ (← blockItems item n)
      else return trivia

/--
A block of lines that are indented further than what is around them, with the
comments before it.  The block is empty if the next line is not.
-/
def indentedBlock (item : Parser (List Node)) : Parser (List Node) := do
  let trivia ← endOfLine
  let s ← get
  match (margin true s.cursor).filter fun m => s.indent < m.width with
  | none => return trivia ++ [.branch .block (← place) []]
  | some m => do
      set { s with indents := m.width :: s.indents }
      let (leading, _) ← boundary
      let start ← place
      let items ← blockItems item s.budget
      modify fun s' => { s' with indents := s.indents }
      return trivia ++ leading ++ [.branch .block start items]

/-! ## Imports -/

def importedName : Parser Node := do
  let named ← dottedName
  let other ← orNone do
    let word ← after tokenGap (keyword "as")
    return word ++ (← after tokenGap name)
  if other.isEmpty then return named
  else return .branch .aliasedImport named.start (named :: other)

def statementGap : Gap := Follow.statement.gap

def importedNames (f : Follow) : Parser (List Node) := do
  let first ← importedName
  let more ← moreItems f importedName
  return first :: more ++ (← trailingComma f)

def importStatement : Parser Node := do
  let start ← place
  let word ← keyword "import"
  let trivia ← gap tokenGap
  return .branch .importStatement start (word :: trivia ++ (← importedNames .statement))

/-- The dots that count packages upwards, with the name below them. -/
def relativeImport : Parser Node := do
  let start ← place
  let first ← character '.'
  let dots ← many (after tokenGap (character '.'))
  let named ← orNone (after tokenGap dottedName)
  return .branch .relativeImport start (first :: dots ++ named)

/-- The names of an import, which may stand in parentheses. -/
def importedList : Parser (List Node) :=
  (do
    let opening ← symbol "("
    let trivia ← gap tokenGap
    let names ← importedNames .bracket
    return opening :: trivia ++ names ++ (← after closeGap (symbol ")"))) <|>
  importedNames .statement

def importFrom : Parser Node := do
  let start ← place
  let word ← keyword "from"
  let beforeModule ← gap tokenGap
  let future := word? (← peek) == some "__future__"
  let module ← if future then keyword "__future__" else relativeImport <|> dottedName
  let importing ← after tokenGap (keyword "import")
  let beforeNames ← gap tokenGap
  let head := word :: beforeModule ++ module :: importing ++ beforeNames
  match ← optionally (symbol "*") with
  | some star => do
      guardThat !future
      return .branch .importFrom start (head ++ [{ star with kind := .wildcardImport }])
  | none =>
      return .branch (if future then .futureImport else .importFrom) start
        (head ++ (← importedList))

/-! ## Other simple statements -/

def optionalValues (rules : Rules) : Parser (List Node) :=
  orNone (after Follow.statement.optionalGap (expressionList rules .statement))

def returnStatement (rules : Rules) : Parser Node := do
  let start ← place
  let word ← keyword "return"
  return .branch .returnStatement start (word :: (← optionalValues rules))

def deleteStatement (rules : Rules) : Parser Node := do
  let start ← place
  let word ← keyword "del"
  return .branch .deleteStatement start
    (word :: (← after operandGap (expressionList rules .statement)))

def raiseStatement (rules : Rules) : Parser Node := do
  let start ← place
  let word ← keyword "raise"
  let raised ← optionalValues rules
  let cause ← orNone do
    let source ← after statementGap (keyword "from")
    return source ++ (← after operandGap (rules.expression .statement))
  return .branch .raiseStatement start (word :: raised ++ cause)

def assertStatement (rules : Rules) : Parser Node := do
  let start ← place
  let word ← keyword "assert"
  let first ← after operandGap (rules.expression .statement)
  return .branch .assertStatement start
    (word :: first ++ (← moreItems .statement (rules.expression .statement)))

def wordStatement : Parser Node := do
  let start ← place
  let kind ← match word? (← peek) with
    | some "pass" => pure Kind.passStatement
    | some "break" => pure Kind.breakStatement
    | some "continue" => pure Kind.continueStatement
    | _ => failure
  let word ← match word? (← peek) with
    | some word => tokenOf word
    | none => failure
  return .branch kind start [word]

/-- The names that a function shares with what is around it. -/
def scopeStatement : Parser Node := do
  let start ← place
  let word ← keyword "global" <|> keyword "nonlocal"
  let first ← after tokenGap name
  let more ← moreItems .statement name
  return .branch (if word.text = "global" then .globalStatement else .nonlocalStatement) start
    (word :: first ++ more)

/-! ## Assignments and expressions -/

def augmentedOperators : List String :=
  ["+=", "-=", "*=", "/=", "@=", "//=", "%=", "**=", ">>=", "<<=", "&=", "^=", "|="]

/-- The type behind a colon; stars may stand before it. -/
def typeHint (rules : Rules) (f : Follow) : Parser (List Node) := do
  let stars ← orNone do return [← symbolAmong ["*", "**"]]
  let trivia ← if stars.isEmpty then pure [] else gap operandGap
  let type ← rules.expression f
  return stars ++ trivia ++ [type.withRole .typeHint]

/-- The one target that the items of an expression stand for. -/
def targetOfItems? (start : Place) (items : List Node) : Option Node :=
  match items with
  | [n] => n.target?
  | _ => (Node.targets? items).map (.branch .patternList start)

/-- The right-hand side of an assignment, as one node. -/
def assignedValue (rules : Rules) : Parser (List Node) := do
  let trivia ← gap operandGap
  return trivia ++ [(← rules.node (.rightSide .statement)).withRole .right]

/-- What makes an assignment of the items before it. -/
def assignmentTail (rules : Rules) (start : Place) (items : List Node) : Parser Node := do
  match targetOfItems? start items with
  | none => failure
  | some left => do
      let head := left.withRole .left
      let trivia ← gap statementGap
      match punctuation? (← peek) with
      | some "=" => do
          let equals ← symbol "="
          return .branch .assignment start
            (head :: trivia ++ equals :: (← assignedValue rules))
      | some ":" => do
          let colon ← symbol ":"
          let beforeType ← gap operandGap
          let type ← typeHint rules .statement
          let value ← orNone do
            let equals ← after statementGap (symbol "=")
            return equals ++ (← assignedValue rules)
          return .branch .assignment start
            (head :: trivia ++ colon :: beforeType ++ type ++ value)
      | _ => do
          let op ← symbolAmong augmentedOperators
          return .branch .augmentedAssignment start
            (head :: trivia ++ op :: (← assignedValue rules))

/-- What stands on the right of an assignment: a yield, values, or another assignment. -/
def rightSide (rules : Rules) (f : Follow) : Parser Node := do
  let start ← place
  match ← optionally (yieldExpression rules f) with
  | some n => return n
  | none => do
      let items ← expressionItems rules f
      match ← optionally (assignmentTail rules start items) with
      | some n => return n
      | none =>
          match items with
          | [n] => return n
          | _ => return .branch .expressionList start items

/-- An expression statement, of which an assignment is one. -/
def expressionStatement (rules : Rules) : Parser Node := do
  let start ← place
  match ← optionally (yieldExpression rules .statement) with
  | some n => return .branch .expressionStatement start [n]
  | none => do
      let items ← expressionItems rules .statement
      match ← optionally (assignmentTail rules start items) with
      | some n => return .branch .expressionStatement start [n]
      | none => return .branch .expressionStatement start items

/-! ## Statements that begin with a name -/

/-- Gives an identifier the part of a name. -/
def Node.asName (n : Node) : Node :=
  if n.kind = .identifier then n.withRole .name else n

def typeParameters (rules : Rules) : Parser Node := do
  let start ← place
  let opening ← symbol "["
  let parameter : Parser Node := do
    let start ← place
    let type ← typeHint rules .bracket
    let bound ← orNone do
      let colon ← after closeGap (character ':')
      let trivia ← gap operandGap
      return colon ++ trivia ++ (← typeHint rules .bracket)
    return .branch .constrainedType start (type ++ bound)
  let first ← after operandGap parameter
  let more ← moreItems .bracket parameter
  let comma ← trailingComma .bracket
  return .branch .typeParameters start
    (opening :: first ++ more ++ comma ++ (← after closeGap (symbol "]")))

def typeAlias (rules : Rules) : Parser Node := do
  let start ← place
  let word ← keyword "type"
  let trivia ← gap operandGap
  let left ← (do
      let named ← name
      let params ← after tokenGap (typeParameters rules)
      let _ ← lookAhead (after tokenGap (symbol "="))
      return named :: params) <|> typeHint rules .token
  let equals ← after tokenGap (symbol "=")
  let beforeRight ← gap operandGap
  return .branch .typeAlias start
    (word :: trivia ++ left ++ equals ++ beforeRight ++ (← typeHint rules .statement))

def chevronStatement (rules : Rules) : Parser Node := do
  let start ← place
  let word ← keyword "print"
  let before ← gap tokenGap
  let chevronStart ← place
  let chevron ← symbol ">>"
  let file ← after operandGap (rules.expression .statement)
  let more ← moreItems .statement (rules.expression .statement)
  return .branch .printStatement start
    (word :: before ++ .branch .chevron chevronStart (chevron :: file) :: more ++
      (← trailingComma .statement))

def printStatement (rules : Rules) : Parser Node := do
  let start ← place
  let word ← keyword "print"
  let trivia ← gap operandGap
  return .branch .printStatement start (word :: trivia ++ (← expressionItems rules .statement))

def execStatement (rules : Rules) : Parser Node := do
  let start ← place
  let word ← keyword "exec"
  let code ← after operandGap (stringLiteral rules <|> name)
  let within ← orNone do
    let word ← after statementGap (keyword "in")
    let first ← after operandGap (rules.expression .statement)
    return word ++ first ++ (← moreItems .statement (rules.expression .statement))
  return .branch .execStatement start (word :: code ++ within)

/-- A simple statement may end here. -/
def atEnd : Parser Unit := do
  match ← optionally endOfLine with
  | some _ => return
  | none => do
      let _ ← after statementGap (symbol ";")

/-- An expression statement that ends where it should, or else one of the others. -/
def expressionOr (rules : Rules) (other : Parser Node) : Parser Node :=
  (do
    let n ← expressionStatement rules
    lookAhead atEnd
    return n) <|> other <|> expressionStatement rules

def simpleStatement (rules : Rules) : Parser Node := do
  match word? (← peek) with
  | some "import" => importStatement
  | some "from" => importFrom
  | some "assert" => assertStatement rules
  | some "return" => returnStatement rules
  | some "del" => deleteStatement rules
  | some "raise" => raiseStatement rules
  | some "pass" | some "break" | some "continue" => wordStatement
  | some "global" | some "nonlocal" => scopeStatement
  | some "print" => chevronStatement rules <|> expressionOr rules (printStatement rules)
  | some "exec" => expressionOr rules (execStatement rules)
  | some "type" => expressionOr rules (typeAlias rules)
  | _ => expressionStatement rules

/-- Simple statements with semicolons between them, up to the end of the line. -/
def simpleStatements (rules : Rules) : Parser (List Node) := do
  let first ← simpleStatement rules
  let more ← many do
    let semicolon ← after statementGap (symbol ";")
    return semicolon ++ (← after Follow.statement.optionalGap (simpleStatement rules))
  let semicolon ← orNone (after statementGap (symbol ";"))
  match ← optionally endOfLine with
  | some trivia => return first :: more ++ semicolon ++ trivia
  | none => return first :: more ++ semicolon ++ [← brokenOff]

/-! ## Bodies -/

def suite (rules : Rules) : Parser (List Node) :=
  indentedBlock (rules .statement) <|> do
    let trivia ← gap Follow.statement.optionalGap
    let start ← place
    let items ← simpleStatements rules <|> do return [← brokenOff]
    return trivia ++ [.branch .block start items]

def colonAndBody (rules : Rules) : Parser (List Node) := do
  let colon ← after tokenGap (symbol ":")
  let found ← suite rules
  return colon ++ found.map fun n => if n.kind = .block then n.withRole .body else n

/-! ## Compound statements -/

def elseClause (rules : Rules) : Parser Node := do
  let start ← place
  let word ← keyword "else"
  return .branch .elseClause start (word :: (← colonAndBody rules))

def optionalElse (rules : Rules) : Parser (List Node) :=
  orNone (continued (elseClause rules))

/-- A word with a condition and a body. -/
def conditionAndBody (rules : Rules) (word : String) : Parser (List Node) := do
  let word ← keyword word
  let condition ← after operandGap (rules.expression .token)
  return word :: condition ++ (← colonAndBody rules)

def ifStatement (rules : Rules) : Parser Node := do
  let start ← place
  let head ← conditionAndBody rules "if"
  let alternatives ← many (continued do
    return .branch .elifClause (← place) (← conditionAndBody rules "elif"))
  return .branch .ifStatement start (head ++ alternatives ++ (← optionalElse rules))

def whileStatement (rules : Rules) : Parser Node := do
  let start ← place
  let head ← conditionAndBody rules "while"
  return .branch .whileStatement start (head ++ (← optionalElse rules))

def forStatement (rules : Rules) : Parser Node := do
  let start ← place
  let word ← keyword "for"
  let left ← after operandGap (targets rules)
  let membership ← after tokenGap (keyword "in")
  let right ← after operandGap (expressionList rules .token)
  let body ← colonAndBody rules
  return .branch .forStatement start
    (word :: left ++ membership ++ right ++ body ++ (← optionalElse rules))

def exceptClause (rules : Rules) : Parser Node := do
  let start ← place
  let word ← keyword "except"
  let star ← orNone (after tokenGap (symbol "*"))
  let caught ← orNone do
    let first ← after operandGap (rules.expression .token)
    return first ++ (← moreItems .token (rules.expression .token))
  return .branch .exceptClause start (word :: star ++ caught ++ (← colonAndBody rules))

def finallyClause (rules : Rules) : Parser Node := do
  let start ← place
  let word ← keyword "finally"
  return .branch .finallyClause start (word :: (← colonAndBody rules))

def tryStatement (rules : Rules) : Parser Node := do
  let start ← place
  let word ← keyword "try"
  let body ← colonAndBody rules
  let handlers ← many (continued (exceptClause rules))
  let otherwise ← optionalElse rules
  let last ← orNone (continued (finallyClause rules))
  return .branch .tryStatement start (word :: body ++ handlers ++ otherwise ++ last)

def withStatement (rules : Rules) : Parser Node := do
  let start ← place
  let word ← keyword "with"
  let first ← after operandGap (rules.expression .token)
  let more ← moreItems .token (rules.expression .token)
  let comma ← trailingComma .token
  return .branch .withStatement start
    (word :: first ++ more ++ comma ++ (← colonAndBody rules))

def parameterList (rules : Rules) : Parser Node := do
  let start ← place
  let opening ← symbol "("
  let items ← orNone do
    let trivia ← gap openGap
    return trivia ++ (← parameterItems rules true .bracket)
  return .branch .parameters start (opening :: items ++ (← after closeGap (symbol ")")))

def functionDefinition (rules : Rules) : Parser Node := do
  let start ← place
  let word ← keyword "def"
  let named ← after tokenGap name
  let types ← orNone (after tokenGap (typeParameters rules))
  let params ← after tokenGap (parameterList rules)
  let result ← orNone do
    let arrow ← after tokenGap (symbol "->")
    let trivia ← gap operandGap
    return arrow ++ trivia ++ (← typeHint rules .token)
  return .branch .functionDefinition start
    (word :: named.map Node.asName ++ types ++ params ++ result ++ (← colonAndBody rules))

def classDefinition (rules : Rules) : Parser Node := do
  let start ← place
  let word ← keyword "class"
  let named ← after tokenGap name
  let types ← orNone (after tokenGap (typeParameters rules))
  let bases ← orNone do
    let bases ← after tokenGap (arguments rules)
    guardThat (bases.all fun n => n.kind != .generator)
    return bases
  return .branch .classDefinition start
    (word :: named.map Node.asName ++ types ++ bases ++ (← colonAndBody rules))

/-- A statement behind the word that makes it wait. -/
def waiting (p : Parser Node) : Parser Node := do
  let start ← place
  let word ← keyword "async"
  let trivia ← gap tokenGap
  let n ← p
  return { n with start := start, children := word :: trivia ++ n.children }

def decorator (rules : Rules) : Parser (List Node) := do
  let start ← place
  let sign ← symbol "@"
  let expression ← after operandGap (rules.expression .statement)
  let trivia ← endOfLine
  return .branch .decorator start (sign :: expression) :: trivia

def decoratedDefinition (rules : Rules) : Parser Node := do
  let start ← place
  let first ← decorator rules
  let more ← many do
    let trivia ← gap tokenGap
    return trivia ++ (← decorator rules)
  let trivia ← gap tokenGap
  let definition ← firstOf
    [classDefinition rules, functionDefinition rules, waiting (functionDefinition rules)]
  return .branch .decoratedDefinition start
    (first ++ more ++ trivia ++ [definition.withRole .definition])

/-! ## Match statements -/

def caseClause (rules : Rules) : Parser Node := do
  let start ← place
  let word ← keyword "case"
  let first ← after operandGap (rules.node .casePattern)
  let more ← moreItems .token (rules.node .casePattern)
  let comma ← trailingComma .token
  let guarded ← orNone (after tokenGap (ifClause rules .token))
  return .branch .caseClause start
    (word :: first ++ more ++ comma ++ guarded ++ (← colonAndBody rules))

def matchStatement (rules : Rules) : Parser Node := do
  let start ← place
  let word ← keyword "match"
  let first ← after operandGap (rules.expression .token)
  let more ← moreItems .token (rules.expression .token)
  let comma ← trailingComma .token
  let colon ← after tokenGap (symbol ":")
  let body ← indentedBlock do return [← caseClause rules]
  return .branch .matchStatement start (word :: first ++ more ++ comma ++ colon ++ body)

/-! ## Any statement -/

def compoundStatement (rules : Rules) : Parser Node := do
  let cs ← peek
  match word? cs with
  | none => do
      guardThat (cs.head? == some '@')
      decoratedDefinition rules
  | some "if" => ifStatement rules
  | some "for" => forStatement rules
  | some "while" => whileStatement rules
  | some "try" => tryStatement rules
  | some "with" => withStatement rules
  | some "def" => functionDefinition rules
  | some "class" => classDefinition rules
  | some "match" => matchStatement rules
  | some "async" =>
      waiting (functionDefinition rules <|> forStatement rules <|> withStatement rules)
  | some _ => failure

/-- A compound statement, or a line of simple statements. -/
def statement (rules : Rules) : Parser (List Node) :=
  (do return [← compoundStatement rules]) <|> simpleStatements rules

end FlowSurvey.Syntax
