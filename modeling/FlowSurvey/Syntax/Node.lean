/-!
# Syntax trees

A syntax tree keeps everything that stands in the source.  Punctuation and
keywords are token nodes; comments and joined lines stand among the children of
the smallest construct around them.  A child that plays a particular part in its
parent carries that part as its role.

A tree of a text that could not be read to its end has an error node in place of
what is left.
-/

namespace FlowSurvey.Syntax

/-- A place in a text: rows and columns count from zero, columns in bytes. -/
structure Place where
  row : Nat
  column : Nat
  deriving DecidableEq, Repr, Inhabited

def Place.after (p : Place) (c : Char) : Place :=
  if c = '\n' then ⟨p.row + 1, 0⟩ else ⟨p.row, p.column + c.utf8Size⟩

def Place.over (p : Place) (cs : List Char) : Place :=
  cs.foldl Place.after p

inductive Kind where
  -- tokens and what stands between them
  | token | comment | lineContinuation | error | missing
  -- blocks and simple statements
  | module | block | expressionStatement | assignment | augmentedAssignment
  | importStatement | importFrom | futureImport | dottedName | aliasedImport
  | relativeImport | wildcardImport | printStatement | chevron | execStatement
  | assertStatement | returnStatement | deleteStatement | raiseStatement | passStatement
  | breakStatement | continueStatement | globalStatement | nonlocalStatement | typeAlias
  -- compound statements
  | ifStatement | elifClause | elseClause | forStatement | whileStatement | tryStatement
  | exceptClause | finallyClause | withStatement
  | functionDefinition | classDefinition | decoratedDefinition | decorator
  | matchStatement | caseClause
  -- parameters and arguments
  | parameters | lambdaParameters | defaultParameter | typedParameter
  | typedDefaultParameter | listSplatPattern | dictionarySplatPattern | keywordSeparator
  | positionalSeparator | typeParameters | constrainedType
  | argumentList | keywordArgument | listSplat | dictionarySplat
  -- targets of assignments
  | patternList | tuplePattern | listPattern
  -- expressions
  | expressionList | namedExpression | asExpression | conditional | lambda | negation
  | booleanOperation | comparison | binaryOperation | unaryOperation | await | yield
  | attribute | subscript | slice | call | list | listComprehension | dictionary
  | dictionaryComprehension | set | setComprehension | tuple | parenthesized | generator
  | pair | forInClause | ifClause
  -- atoms
  | identifier | string | concatenatedString | interpolation | formatSpecifier
  | integer | float | true | false | none | ellipsis
  -- patterns of match statements
  | asPattern | keywordPattern | classPattern | splatPattern | unionPattern
  | matchListPattern | matchTuplePattern | matchDictPattern | signedNumber
  deriving DecidableEq, Repr, Inhabited

inductive Role where
  | name | body | definition | left | right | typeHint | value | function | arguments
  | object | attribute
  deriving DecidableEq, Repr

structure Node where
  kind : Kind
  role : Option Role
  start : Place
  /-- The source of a token, a name, a number, a comment or a string. -/
  text : String
  children : List Node
  deriving Inhabited, Repr

namespace Node

def branch (kind : Kind) (start : Place) (children : List Node) : Node :=
  ⟨kind, .none, start, "", children⟩

/-- A construct that is known by its source alone. -/
def leaf (kind : Kind) (start : Place) (text : String) : Node :=
  ⟨kind, .none, start, text, []⟩

def withRole (role : Role) (n : Node) : Node :=
  { n with role := some role }

/-- A node that has a kind of its own, which a token has not. -/
def isNamed (n : Node) : Bool :=
  n.kind != .token

def namedChildren (n : Node) : List Node :=
  n.children.filter isNamed

/-- The first child that plays a part. -/
def child? (role : Role) (n : Node) : Option Node :=
  n.children.find? fun child => child.role == some role

mutual

/-- The nodes of a tree, each before its children. -/
def preorder : Node → List Node
  | ⟨kind, role, start, text, children⟩ =>
      ⟨kind, role, start, text, children⟩ :: preorderAll children

def preorderAll : List Node → List Node
  | [] => []
  | n :: rest => preorder n ++ preorderAll rest

end

end Node

end FlowSurvey.Syntax
