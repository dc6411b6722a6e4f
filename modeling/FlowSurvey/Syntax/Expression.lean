import FlowSurvey.Syntax.StringLiteral
import FlowSurvey.Syntax.Target

/-!
# Expressions

Operators bind, from the loosest to the tightest: conditions, `as`, `or`, `and`,
`not`, comparisons, the binary operators by their precedence, signs, powers, and
what is attached to an operand from behind.
-/

namespace FlowSurvey.Syntax

/-! ## Sequences of expressions -/

/-- Expressions with commas between them; a comma may end them. -/
def expressionItems (rules : Rules) (f : Follow) : Parser (List Node) := do
  let first ← rules.expression f
  let more ← moreItems f (rules.expression f)
  return first :: more ++ (← trailingComma f)

/-- A list of several expressions is a node of its own. -/
def expressionList (rules : Rules) (f : Follow) : Parser Node := do
  let start ← place
  match ← expressionItems rules f with
  | [n] => return n
  | items => return .branch .expressionList start items

def yieldExpression (rules : Rules) (f : Follow) : Parser Node := do
  let start ← place
  let word ← keyword "yield"
  let operand ← orNone (firstOf
    [do
      let source ← after f.gap (keyword "from")
      return source ++ (← after operandGap (rules.expression f)),
     after f.optionalGap (expressionList rules f)])
  return .branch .yield start (word :: operand)

def valueItems (rules : Rules) (f : Follow) : Parser (List Node) :=
  (do return [← yieldExpression rules f]) <|> expressionItems rules f

/-! ## Targets -/

/-- A target by itself: an operand with what is attached to it. -/
def target (rules : Rules) (f : Follow) : Parser Node := do
  match (← rules.operand f).target? with
  | some t => return t
  | none => failure

def targets (rules : Rules) : Parser Node := do
  let start ← place
  let first ← target rules .token
  let more ← moreItems .token (target rules .token)
  match more ++ (← trailingComma .token) with
  | [] => return first
  | rest => return .branch .patternList start (first :: rest)

/-! ## Comprehensions -/

def forInClause (rules : Rules) : Parser Node := do
  let start ← place
  let async ← orNone do
    let word ← keyword "async"
    return word :: (← gap tokenGap)
  let loop ← keyword "for"
  let left ← after operandGap (targets rules)
  let membership ← after tokenGap (keyword "in")
  let first ← after operandGap (rules.expression .clause)
  let more ← moreItems .clause (rules.expression .clause)
  let comma ← trailingComma .clause
  return .branch .forInClause start
    (async ++ [loop] ++ left ++ membership ++ first ++ more ++ comma)

def ifClause (rules : Rules) (f : Follow) : Parser Node := do
  let start ← place
  let word ← keyword "if"
  return .branch .ifClause start (word :: (← after operandGap (rules.expression f)))

/-- The clauses of a comprehension; the first one is a loop. -/
def comprehensionClauses (rules : Rules) : Parser (List Node) := do
  let first ← after closeGap (forInClause rules)
  let more ← many (after closeGap (forInClause rules <|> ifClause rules .clause))
  return first ++ more

/-! ## Brackets -/

/-- A member of a sequence in brackets, which may be spread out. -/
def member (rules : Rules) : Parser Node := do
  let start ← place
  match (← peek) with
  | '*' :: _ => do
      let star ← symbol "*"
      return .branch .listSplat start (star :: (← after operandGap (rules.expression .bracket)))
  | _ => yieldExpression rules .bracket <|> rules.expression .bracket

inductive Enclosed where
  | nothing (children : List Node)
  | single (child : Node) (children : List Node)
  | several (children : List Node)
  | comprehension (children : List Node)

/-- The members between brackets, after the opening one. -/
def enclosed (rules : Rules) (opening : Node) (closing : String) : Parser Enclosed := do
  let trivia ← gap openGap
  let before := opening :: trivia
  match ← optionally (symbol closing) with
  | some last => return .nothing (before ++ [last])
  | none => do
      let first ← member rules
      match ← optionally (comprehensionClauses rules) with
      | some clauses =>
          return .comprehension
            (before ++ [first] ++ clauses ++ (← after closeGap (symbol closing)))
      | none => do
          let more ← moreItems .bracket (member rules)
          let comma ← trailingComma .bracket
          let last ← after closeGap (symbol closing)
          match more ++ comma with
          | [] => return .single first (before ++ [first] ++ last)
          | rest => return .several (before ++ [first] ++ rest ++ last)

/-- A parenthesis holds one expression, a tuple or a generator. -/
def parenthesis (rules : Rules) : Parser Node := do
  let start ← place
  let opening ← symbol "("
  match ← enclosed rules opening ")" with
  | .nothing children | .several children => return .branch .tuple start children
  | .single child children =>
      return .branch (if child.kind = .listSplat then .tuple else .parenthesized) start children
  | .comprehension children => return .branch .generator start children

def listDisplay (rules : Rules) : Parser Node := do
  let start ← place
  let opening ← symbol "["
  match ← enclosed rules opening "]" with
  | .nothing children | .several children | .single _ children =>
      return .branch .list start children
  | .comprehension children => return .branch .listComprehension start children

def dictionarySplat (rules : Rules) : Parser Node := do
  let start ← place
  let stars ← symbol "**"
  return .branch .dictionarySplat start
    (stars :: (← after operandGap (rules.expression .bracket)))

/-- A key behind which comes its value. -/
def pairAfter (rules : Rules) (key : Node) : Parser Node := do
  guardThat (key.kind != .listSplat && key.kind != .yield)
  let colon ← after closeGap (character ':')
  let value ← after operandGap (rules.expression .bracket)
  return .branch .pair key.start (key :: colon ++ value)

def dictionaryItem (rules : Rules) : Parser Node :=
  dictionarySplat rules <|> do pairAfter rules (← rules.expression .token)

/-- The items of a dictionary behind its first one, and the closing brace. -/
def dictionaryRest (rules : Rules) : Parser (List Node) := do
  let more ← moreItems .bracket (dictionaryItem rules)
  let comma ← trailingComma .bracket
  return more ++ comma ++ (← after closeGap (symbol "\x7d"))

/-- Braces hold a dictionary, a set, or a comprehension of either. -/
def braces (rules : Rules) : Parser Node := do
  let start ← place
  let opening ← symbol "\x7b"
  let before := opening :: (← gap openGap)
  match ← optionally (symbol "\x7d") with
  | some last => return .branch .dictionary start (before ++ [last])
  | none => do
    match ← optionally (symbol "," <|> dictionarySplat rules) with
    | some first =>
        let rest ← if first.kind = .token then after closeGap (symbol "\x7d") else dictionaryRest rules
        return .branch .dictionary start (before ++ [first] ++ rest)
    | none => do
      let first ← member rules
      match ← optionally (pairAfter rules first) with
      | some pair =>
          match ← optionally (comprehensionClauses rules) with
          | some clauses =>
              return .branch .dictionaryComprehension start
                (before ++ [pair] ++ clauses ++ (← after closeGap (symbol "\x7d")))
          | none => return .branch .dictionary start (before ++ [pair] ++ (← dictionaryRest rules))
      | none =>
          match ← optionally (comprehensionClauses rules) with
          | some clauses =>
              return .branch .setComprehension start
                (before ++ [first] ++ clauses ++ (← after closeGap (symbol "\x7d")))
          | none => do
              let more ← moreItems .bracket (member rules)
              let comma ← trailingComma .bracket
              return .branch .set start
                (before ++ [first] ++ more ++ comma ++ (← after closeGap (symbol "\x7d")))

/-! ## Arguments and subscripts -/

/-- A name with an equals sign behind it. -/
def argumentName : Parser (List Node) := do
  let key ← name
  return key.withRole .name :: (← after closeGap (symbol "="))

def argument (rules : Rules) : Parser Node := do
  let start ← place
  match ← optionally argumentName with
  | some key =>
      let trivia ← gap operandGap
      let value ← rules.expression .bracket
      return .branch .keywordArgument start (key ++ trivia ++ [value.withRole .value])
  | none =>
      match (← peek) with
      | '*' :: _ =>
          dictionarySplat rules <|> do
            let star ← symbol "*"
            return .branch .listSplat start
              (star :: (← after operandGap (rules.expression .bracket)))
      | _ => rules.expression .bracket

/-- The arguments of a call; a generator alone needs no parentheses of its own. -/
def arguments (rules : Rules) : Parser Node := do
  let start ← place
  let opening ← symbol "("
  let before := opening :: (← gap openGap)
  match ← optionally (symbol ")" <|> symbol ",") with
  | some last =>
      let closing ← if last.text = "," then after closeGap (symbol ")") else pure []
      return .branch .argumentList start (before ++ last :: closing)
  | none => do
      let first ← argument rules
      let clauses? ← optionally do
        guardThat (first.kind != .keywordArgument && first.kind != .dictionarySplat)
        comprehensionClauses rules
      match clauses? with
      | some clauses =>
          return .branch .generator start
            (before ++ [first] ++ clauses ++ (← after closeGap (symbol ")")))
      | none => do
          let more ← moreItems .bracket (argument rules)
          let comma ← trailingComma .bracket
          return .branch .argumentList start
            (before ++ [first] ++ more ++ comma ++ (← after closeGap (symbol ")")))

/-- An index, or a slice with up to three parts. -/
def subscriptItem (rules : Rules) : Parser Node := do
  let start ← place
  let lower ← optionally (rules.expression .bracket)
  let colon ← orNone (if lower.isSome then after closeGap (character ':')
    else do return [← character ':'])
  match lower, colon with
  | some index, [] => return index
  | none, [] => failure
  | _, _ => do
      let upper ← orNone (after openGap (rules.expression .bracket))
      let step ← orNone do
        let colon ← after closeGap (character ':')
        return colon ++ (← orNone (after openGap (rules.expression .bracket)))
      return .branch .slice start (lower.toList ++ colon ++ upper ++ step)

/-- The subscripts in brackets, of which there is at least one. -/
def subscripts (rules : Rules) : Parser (List Node) := do
  let opening ← symbol "["
  let first ← after operandGap (subscriptItem rules)
  let more ← moreItems .bracket (subscriptItem rules)
  let comma ← trailingComma .bracket
  return opening :: first ++ more ++ comma ++ (← after closeGap (symbol "]"))

/-! ## Operands -/

def wordAtom : Parser Node := do
  let start ← place
  match word? (← peek) with
  | some "True" => do skip 4; return .leaf .true start "True"
  | some "False" => do skip 5; return .leaf .false start "False"
  | some "None" => do skip 4; return .leaf .none start "None"
  | _ => name

/-- Strings that follow one another are one operand. -/
def strings (rules : Rules) (f : Follow) : Parser Node := do
  let first ← stringLiteral rules
  let more ← many (after f.optionalGap (stringLiteral rules))
  if more.isEmpty then return first
  else return .branch .concatenatedString first.start (first :: more)

/-- An operand without anything attached to it. -/
def atom (rules : Rules) (f : Follow) : Parser Node := do
  let cs ← peek
  if startsString cs then strings rules f
  else
    match cs with
    | '(' :: _ => parenthesis rules
    | '[' :: _ => listDisplay rules
    | '{' :: _ => braces rules
    | '.' :: _ => (do
        let dots ← symbol "..."
        return .leaf .ellipsis dots.start dots.text) <|> number
    | c :: _ => if c.isDigit then number else wordAtom
    | [] => failure

/-- Something attached to an operand, and the kind that results. -/
def trailer (rules : Rules) (f : Follow) :
    Parser (Kind × Role × List Node) := do
  let trivia ← gap f.gap
  match ← peek with
  | '.' :: _ => do
      let dot ← character '.'
      let member ← after tokenGap name
      return (.attribute, .object, trivia ++ dot :: member.map (·.withRole .attribute))
  | '(' :: _ => do
      let args ← arguments rules
      return (.call, .function, trivia ++ [args.withRole .arguments])
  | '[' :: _ => do
      return (.subscript, .value, trivia ++ (← subscripts rules))
  | _ => failure

/-- Part of the operand, to which the star before it can belong, is a place. -/
def Node.hasPlace (n : Node) : Bool :=
  n.kind.isPlace ||
    (n.kind = .call && ((n.child? .function).map fun callee => callee.kind.isPlace ||
      callee.children.any fun inner => inner.kind.isPlace).getD Bool.false)

/-- An operand with what is attached to it from behind, without a star before it. -/
def attached (rules : Rules) (f : Follow) : Parser Node := do
  let first ← atom rules f
  let trailers ← many do return [← trailer rules f]
  return trailers.foldl
    (fun operand (kind, role, nodes) =>
      .branch kind operand.start (operand.withRole role :: nodes)) first

def operand (rules : Rules) (f : Follow) : Parser Node := do
  let start ← place
  match ← peek with
  | '*' :: _ => do
      let star ← symbol "*"
      let operand ← after operandGap (attached rules f)
      guardThat (operand.any Node.hasPlace)
      return .branch .listSplat start (star :: operand)
  | _ => attached rules f

/-! ## Operators -/

def binaryPrecedence : String → Option Nat
  | "|" => some 14
  | "&" => some 15
  | "^" => some 16
  | "<<" | ">>" => some 17
  | "+" | "-" => some 18
  | "*" | "/" | "//" | "%" | "@" => some 19
  | _ => none

/-- A waiting expression; the word alone is a name. -/
def awaiting (rules : Rules) (f : Follow) : Parser Node := do
  let start ← place
  let word ← keyword "await"
  return .branch .await start (word :: (← after f.optionalGap (rules.node (.unary f))))

def power (rules : Rules) (f : Follow) : Parser Node := do
  let base ← awaiting rules f <|> operand rules f
  match ← optionally (operatorBetween f (symbol "**")) with
  | some stars =>
      return .branch .binaryOperation base.start (base :: stars ++ [← rules.node (.unary f)])
  | none => return base

def unary (rules : Rules) (f : Follow) : Parser Node := do
  let start ← place
  match ← optionally (symbolAmong ["+", "-", "~"]) with
  | some sign =>
      return .branch .unaryOperation start
        (sign :: (← after operandGap (rules.node (.unary f))))
  | none => power rules f

/-- Operators that bind at least as tightly as `least`. -/
def binary (rules : Rules) (least : Nat) (f : Follow) : Parser Node := do
  let first ← unary rules f
  let segments ← many do
    let trivia ← gap f.gap
    match (punctuation? (← peek)).bind fun text => (binaryPrecedence text).map (text, ·) with
    | none => failure
    | some (text, precedence) => do
        guardThat (least ≤ precedence)
        let op ← tokenOf text
        let right ← after operandGap (rules.node (.binary (precedence + 1) f))
        return [trivia ++ op :: right]
  return leftNested .binaryOperation first segments

/-- The operator of a comparison, which may be two words. -/
def comparisonOperator : Parser (List Node) :=
  (do return [← symbolAmong ["<", "<=", "==", "!=", ">=", ">", "<>"]]) <|>
  (do return [← keyword "in"]) <|>
  (do
    let negation ← keyword "not"
    return negation :: (← after tokenGap (keyword "in"))) <|>
  (do
    let identity ← keyword "is"
    return identity :: (← orNone (after operandGap (keyword "not"))))

def comparison (rules : Rules) (f : Follow) : Parser Node := do
  let first ← binary rules 0 f
  let more ← many do
    let trivia ← gap f.gap
    let op ← comparisonOperator
    return trivia ++ op ++ (← after operandGap (binary rules 0 f))
  if more.isEmpty then return first
  else return .branch .comparison first.start (first :: more)

/-! ## Parameters -/

/-- The parameters of a function with types, of a lambda without. -/
def parameter (rules : Rules) (typed : Bool) (f : Follow) : Parser Node := do
  let start ← place
  let typeOf := orNone do
    guardThat typed
    let colon ← after f.gap (character ':')
    let splat ← orNone (after operandGap (symbolAmong ["*", "**"]))
    return colon ++ splat ++ (← after operandGap (rules.expression f))
  let default := orNone do
    let equals ← after f.gap (symbol "=")
    return equals ++ (← after operandGap (rules.expression f))
  match ← optionally (symbolAmong ["*", "**", "/"]) with
  | some mark =>
      if mark.text = "/" then return { mark with kind := .positionalSeparator }
      else
        match ← optionally (after f.gap (target rules f)) with
        | none => do
            guardThat (mark.text == "*")
            return { mark with kind := .keywordSeparator }
        | some named => do
            guardThat (named.any (·.kind.isPlace))
            let splat := .branch (if mark.text = "*" then .listSplatPattern
              else .dictionarySplatPattern) start (mark :: named)
            match ← typeOf with
            | [] => return splat
            | hint => return .branch .typedParameter start (splat :: hint)
  | none => do
      let named ← name <|> (do
        let tuple ← target rules f
        guardThat (tuple.kind == .tuplePattern)
        return tuple)
      let hint ← typeOf
      let value ← default
      match hint, value with
      | [], [] => return named
      | _, [] => return .branch .typedParameter start (named :: hint)
      | [], _ => return .branch .defaultParameter start (named :: value)
      | _, _ => return .branch .typedDefaultParameter start (named :: hint ++ value)

def parameterItems (rules : Rules) (typed : Bool) (f : Follow) : Parser (List Node) := do
  let first ← parameter rules typed f
  let more ← moreItems f (parameter rules typed f)
  return first :: more ++ (← trailingComma f)

/-! ## Expressions -/

def lambdaExpression (rules : Rules) (f : Follow) : Parser Node := do
  let start ← place
  let word ← keyword "lambda"
  let params ← orNone (after tokenGap do
    let start ← place
    return .branch .lambdaParameters start (← parameterItems rules Bool.false .token))
  let colon ← after tokenGap (character ':')
  let body ← after operandGap (rules.expression f)
  return .branch .lambda start (word :: params ++ colon ++ body)

def namedExpression (rules : Rules) (f : Follow) : Parser Node := do
  let start ← place
  let target ← name
  let walrus ← after f.gap (symbol ":=")
  let value ← after operandGap (chain .booleanOperation
    (chain .booleanOperation (rules.node (.inversion f)) (operatorBetween f (keyword "and")))
    (operatorBetween f (keyword "or")))
  return .branch .namedExpression start (target :: walrus ++ value)

/-- A negation, a lambda, a named expression or a comparison. -/
def inversion (rules : Rules) (f : Follow) : Parser Node := do
  let start ← place
  match word? (← peek) with
  | some "not" => do
      let word ← keyword "not"
      return .branch .negation start (word :: (← after operandGap (rules.node (.inversion f))))
  | some "lambda" => lambdaExpression rules f
  | some _ => namedExpression rules f <|> comparison rules f
  | none => comparison rules f

def disjunction (rules : Rules) (f : Follow) : Parser Node :=
  chain .booleanOperation
    (chain .booleanOperation (inversion rules f) (operatorBetween f (keyword "and")))
    (operatorBetween f (keyword "or"))

def expression (rules : Rules) (f : Follow) : Parser Node := do
  let value ← chain .asExpression (disjunction rules f) (operatorBetween f (keyword "as"))
  let condition ← orNone do
    guardThat f.condition
    let word ← operatorBetween f (keyword "if")
    let test ← rules.expression .token
    let otherwise ← after tokenGap (keyword "else")
    return word ++ test :: otherwise ++ (← after operandGap (rules.expression f))
  if condition.isEmpty then return value
  else return .branch .conditional value.start (value :: condition)

end FlowSurvey.Syntax
