import FlowSurvey.Syntax.Expression

/-!
# Patterns of match statements

A pattern is a name, a constant, or a shape whose parts are patterns.  Patterns
stand beside one another with bars between them, and any of them can be named.
-/

namespace FlowSurvey.Syntax

/-- Patterns with commas between them, up to a closing bracket. -/
def patternsUpTo (item : Parser Node) (closing : String) : Parser (List Node) := do
  let items ← orNone do
    let first ← after openGap item
    let more ← moreItems .bracket item
    return first ++ more ++ (← trailingComma .bracket)
  return items ++ (← after closeGap (symbol closing))

def dottedName : Parser Node := do
  let start ← place
  let first ← name
  let more ← many do
    let dot ← after tokenGap (character '.')
    return dot ++ (← after tokenGap name)
  return .branch .dottedName start (first :: more)

/-- A dotted name, which with parentheses behind it stands for a class. -/
def classPattern (rules : Rules) : Parser Node := do
  let named ← dottedName
  let parts ← orNone do
    let opening ← after tokenGap (symbol "(")
    return opening ++ (← patternsUpTo (rules.node .casePattern) ")")
  if parts.isEmpty then return named
  else return .branch .classPattern named.start (named :: parts)

/-- A number with its sign; a sum of two numbers is a complex number. -/
def numberPattern : Parser Node := do
  let start ← place
  let sign ← orNone do
    let minus ← symbol "-"
    return minus :: (← gap tokenGap)
  let first ← number
  let more ← orNone do
    let op ← after tokenGap (symbolAmong ["+", "-"])
    return op ++ (← after tokenGap number)
  return .branch .signedNumber start (sign ++ first :: more)

def splatPattern : Parser Node := do
  let start ← place
  let star ← symbolAmong ["*", "**"]
  return .branch .splatPattern start (star :: (← after tokenGap name))

/-- A pattern without bars and without a name for the whole. -/
def simplePattern (rules : Rules) : Parser Node := do
  let start ← place
  let cs ← peek
  if startsString cs then strings rules .token
  else
    match cs with
    | '(' :: _ => do
        let opening ← symbol "("
        return .branch .matchTuplePattern start
          (opening :: (← patternsUpTo (rules.node .casePattern) ")"))
    | '[' :: _ => do
        let opening ← symbol "["
        return .branch .matchListPattern start
          (opening :: (← patternsUpTo (rules.node .casePattern) "]"))
    | '{' :: _ => do
        let opening ← symbol "\x7b"
        let entry := splatPattern <|> do
          let key ← rules.node .simplePattern
          let colon ← after closeGap (character ':')
          return .branch .pair key.start
            (key :: colon ++ (← after operandGap (rules.node .casePattern)))
        return .branch .matchDictPattern start (opening :: (← patternsUpTo entry "\x7d"))
    | '*' :: _ => splatPattern
    | '-' :: _ => numberPattern
    | '.' :: _ => numberPattern
    | c :: _ =>
        if c.isDigit then numberPattern
        else
          match word? cs with
          | some "True" | some "False" | some "None" => wordAtom
          | _ => classPattern rules
    | [] => failure

def unionPattern (rules : Rules) : Parser Node := do
  let first ← simplePattern rules
  let more ← many do
    let bar ← after tokenGap (symbol "|")
    return bar ++ (← after operandGap (simplePattern rules))
  if more.isEmpty then return first
  else return .branch .unionPattern first.start (first :: more)

def keywordPattern (rules : Rules) : Parser Node := do
  let key ← name
  let equals ← after tokenGap (symbol "=")
  return .branch .keywordPattern key.start
    (key :: equals ++ (← after operandGap (simplePattern rules)))

def casePattern (rules : Rules) : Parser Node := do
  let first ← keywordPattern rules <|> unionPattern rules
  let names ← many do
    let word ← after tokenGap (keyword "as")
    return [word ++ (← after tokenGap name)]
  return leftNested .asPattern first names

end FlowSurvey.Syntax
