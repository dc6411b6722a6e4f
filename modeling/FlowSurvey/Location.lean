import FlowSurvey.Path
import FlowSurvey.Record.Flow

/-!
# Locations

Where a file lies below the root of a survey decides how its flows are grouped
and how they are imported: the directories on the way down are the groups, and
they stand between the name of the root and the name of the module.
-/

namespace FlowSurvey

structure Location where
  sourcePath : String
  sourceRelative : String
  grouping : List String
  importPath : String
  module : String
  deriving DecidableEq, Repr

/-- The name under which everything below a root is imported. -/
def packageName (root : String) : String :=
  ((Path.fileName? root).map String.ofList).getD ""

def pathNames (path : String) : List String :=
  (Path.components path).filterMap fun
    | .normal name => some (String.ofList name)
    | _ => none

def locate (root path : String) : Location :=
  let relative := (Path.below? root path).getD path
  let module := (Path.stem? path).getD ""
  let names := pathNames relative
  let package := packageName root
  { sourcePath := path
    sourceRelative := relative
    grouping := names.dropLast
    importPath :=
      if names.isEmpty then module
      else
        ".".intercalate
          ((if package.isEmpty then [] else [package]) ++ names.dropLast ++ [module])
    module }

/-- The attributes of a flow; there are keywords among them only if it has any. -/
def attributesOf (platform : Platform) (d : Declaration) : List (String × Json) :=
  (d.enclosingFunction.map fun name => ("enclosing_function", Json.str name)).toList ++
    (if d.keywords.isEmpty then [] else [("kwargs", Json.obj d.keywords)]) ++
    [("platform", .str platform.name)]

def Flow.ofDeclaration (platform : Platform) (location : Location) (number : Nat)
    (d : Declaration) : Flow where
  name := canonicalName d.declaredName
  declaredName := d.declaredName
  description := d.description
  id := d.key number
  form := d.form
  symbol := d.symbol
  ownerKind := d.ownerKind
  owner := d.owner
  module := location.module
  sourcePath := location.sourcePath
  sourceRelative := location.sourceRelative
  importPath := location.importPath
  line := some (UInt64.ofNat d.line)
  grouping := location.grouping
  attributes := attributesOf platform d

def flowsOfFile (platform : Platform) (root path : String) (tree : Syntax.Node) (start : Nat) :
    List Flow :=
  let location := locate root path
  (numbered start (declarationsOf platform location.module tree)).map fun (number, d) =>
    .ofDeclaration platform location number d

end FlowSurvey
