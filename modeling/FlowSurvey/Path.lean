/-!
# Paths

A path is a text with slashes between its pieces.  Its components leave out the
pieces that change nothing: empty ones, and a single dot that is not at the
start.  What is left of a path below another one is text again, cut out of the
path as it stands.
-/

namespace FlowSurvey.Path

inductive Component where
  | root
  | current
  | parent
  | normal (name : List Char)
  deriving DecidableEq

/-- The pieces of a text between slashes; there is always at least one. -/
def pieces : List Char → List (List Char)
  | [] => [[]]
  | c :: rest =>
      if c = '/' then [] :: pieces rest
      else
        match pieces rest with
        | [] => [[c]]
        | piece :: more => (c :: piece) :: more

/-- A piece that changes nothing. -/
def isTrivial (piece : List Char) : Bool :=
  piece = [] || piece = ['.']

/-- The component that a piece stands for after the start of a path. -/
def componentOf (piece : List Char) : Component :=
  if piece = ['.', '.'] then .parent else .normal piece

/-- The component that only the start of a path can be, and the pieces behind it. -/
def splitStart (path : List Char) : Option Component × List (List Char) :=
  match path with
  | '/' :: rest => (some .root, pieces rest)
  | ['.'] => (some .current, [])
  | '.' :: '/' :: rest => (some .current, [] :: pieces rest)
  | _ => (none, pieces path)

def componentsOf (parts : List (List Char)) : List Component :=
  (parts.filter fun piece => !isTrivial piece).map componentOf

def components (path : String) : List Component :=
  let (start, body) := splitStart path.toList
  start.toList ++ componentsOf body

def fileName? (path : String) : Option (List Char) :=
  match (components path).getLast? with
  | some (.normal name) => some name
  | _ => none

/-- The part of a file name before its last dot, and the part behind it. -/
def splitExtension (name : List Char) : List Char × Option (List Char) :=
  let reversed := name.reverse
  let stem := ((reversed.dropWhile (· ≠ '.')).drop 1).reverse
  if stem = [] then (name, none)
  else (stem, some (reversed.takeWhile (· ≠ '.')).reverse)

def stem? (path : String) : Option String :=
  (fileName? path).map fun name => String.ofList (splitExtension name).1

def extension? (path : String) : Option String :=
  (fileName? path).bind fun name => (splitExtension name).2.map String.ofList

/-! ## Paths below others -/

def joinPieces (parts : List (List Char)) : List Char :=
  List.intercalate ['/'] parts

def trimEnd (parts : List (List Char)) : List (List Char) :=
  (parts.reverse.dropWhile isTrivial).reverse

/-- The pieces behind the given components, which have to come first. -/
def piecesAfter : List Component → List (List Char) → Option (List (List Char))
  | [], parts => some parts
  | c :: cs, parts =>
      match parts.dropWhile isTrivial with
      | [] => none
      | piece :: rest => if componentOf piece = c then piecesAfter cs rest else none

/-- The text of a path without trivial pieces at its end. -/
def withoutTail (path : List Char) : List Char :=
  match splitStart path with
  | (none, body) => joinPieces (trimEnd body)
  | (some .root, body) => '/' :: joinPieces (trimEnd body)
  | (some _, body) => '.' :: joinPieces (trimEnd body)

/-- What is left of a path below another one, if it is below it. -/
def below? (base path : String) : Option String :=
  let (baseStart, baseBody) := splitStart base.toList
  let (start, body) := splitStart path.toList
  match baseStart, componentsOf baseBody with
  | none, [] => some (String.ofList (withoutTail path.toList))
  | _, names =>
      if baseStart = start then
        (piecesAfter names body).map fun rest =>
          String.ofList (joinPieces (trimEnd (rest.dropWhile isTrivial)))
      else none

def join (directory name : String) : String :=
  if name.startsWith "/" then name
  else if directory.isEmpty || directory.endsWith "/" then directory ++ name
  else directory ++ "/" ++ name

end FlowSurvey.Path
