import FlowSurvey.Decimal.Literal
import FlowSurvey.Record.Decode
import FlowSurvey.Yaml.Node

/-!
# Configuration

A configuration says which files of a tree are source files and how far to look
for them.  It is written as YAML; what is left out keeps its default, and what is
not known is refused.
-/

namespace FlowSurvey

structure Config where
  /-- The extensions of source files, without the dot. -/
  extensions : List String := ["py"]
  /-- The names of directories that are passed over below the root. -/
  excludedDirectories : List String := [".git", "__pycache__", ".pytest_cache", ".mypy_cache"]
  followLinks : Bool := false
  maxDepth : Option Nat := none
  maxFileSize : Nat := 10 * 1024 * 1024
  deriving DecidableEq, Repr

def equalIgnoringCase (a b : String) : Bool :=
  a.toList.map Char.toLower == b.toList.map Char.toLower

def Config.isSourceExtension (config : Config) (extension : String) : Bool :=
  config.extensions.any fun e => equalIgnoringCase e extension

def Config.excludes (config : Config) (directory : String) : Bool :=
  config.excludedDirectories.contains directory

inductive ConfigFault where
  | malformed (fault : Yaml.Fault)
  /-- A value at some path in the document. -/
  | value (path : String) (message : String) (mark : Yaml.Mark)

def ConfigFault.message : ConfigFault → String
  | .malformed fault => fault.message
  | .value path message mark =>
      (if path.isEmpty then "" else path ++ ": ") ++ message ++
        (if mark.isStart then "" else " at " ++ mark.describe)

namespace Config

open Yaml

/-! ## Plain scalars -/

def isNull (text : String) : Bool :=
  ["null", "Null", "NULL", "~"].contains text

def boolean? (text : String) : Option Bool :=
  if ["true", "True", "TRUE"].contains text then some true
  else if ["false", "False", "FALSE"].contains text then some false
  else none

def digitsIn? (base : Nat) (digits : List Char) : Option Nat :=
  if digits.isEmpty then none
  else
    digits.foldlM
      (fun value c => (hexValue c).bind fun d => if d < base then some (value * base + d) else none)
      0

def isPadded (digits : List Char) : Bool :=
  match digits with
  | '0' :: _ :: _ => digits.all Char.isDigit
  | _ => false

def natural? (text : String) : Option Nat :=
  let digits :=
    match text.toList with
    | '+' :: rest => rest
    | rest => rest
  match digits with
  | '0' :: 'x' :: rest => digitsIn? 16 rest
  | '0' :: 'o' :: rest => digitsIn? 8 rest
  | '0' :: 'b' :: rest => digitsIn? 2 rest
  | _ => if isPadded digits then none else digitsIn? 10 digits

/-- A natural number that fits an unsigned 64-bit word. -/
def size? (text : String) : Option Nat :=
  (natural? text).filter (· < 18446744073709551616)

def integer? (text : String) : Option Int :=
  match text.toList with
  | '-' :: rest =>
      if rest.head? = some '+' then none
      else (natural? (String.ofList rest)).map fun n => -(n : Int)
  | _ => (natural? text).map fun n => (n : Int)

def float? (text : String) : Option Float :=
  match text.toList with
  | '-' :: rest => (Decimal.literalValue? rest).map fun x => -x
  | '+' :: rest => Decimal.literalValue? rest
  | rest => Decimal.literalValue? rest

def foundPlain (text : String) : Found :=
  if text.isEmpty || isNull text then .unit
  else
    match boolean? text, integer? text, float? text with
    | some b, _, _ => .bool b
    | none, some n, _ => .integer n
    | none, none, some x => .float x
    | none, none, none => .string text

/-- Why a scalar with a tag is not what was expected; it may not be what the tag says. -/
def taggedMismatch (text : String) (style : Style) (tag expected : String) : Mismatch :=
  let check (value : Option Found) (what : String) : Mismatch :=
    match value with
    | some found => .wrongType found expected
    | none => .wrongValue (.string text) what
  if tag = coreTag "bool" then check ((boolean? text).map .bool) "a boolean"
  else if tag = coreTag "int" then check ((integer? text).map .integer) "an integer"
  else if tag = coreTag "float" then check ((float? text).map .float) "a float"
  else if tag = coreTag "null" then check (if isNull text then some .unit else none) "null"
  else if tag.startsWith "!" && style = .plain then .wrongType (foundPlain text) expected
  else .wrongType (.string text) expected

def mismatch (expected : String) : Node → Mismatch
  | .sequence _ _ => .wrongType .sequence expected
  | .mapping _ _ => .wrongType .map expected
  | .scalar text style (some tag) _ => taggedMismatch text style tag expected
  | .scalar text .plain none _ => .wrongType (foundPlain text) expected
  | .scalar text _ none _ => .wrongType (.string text) expected

/-! ## Values -/

def refuse (path expected : String) (node : Node) : Except ConfigFault α :=
  .error (.value path (mismatch expected node).message node.mark)

def text (path : String) : Node → Except ConfigFault String
  | .scalar text _ _ _ => .ok text
  | node => refuse path "a string" node

/-- A list; a value that is left out is an empty one. -/
def texts (path : String) : Node → Except ConfigFault (List String)
  | .sequence items _ =>
      items.zipIdx.mapM fun (item, i) => text (path ++ "[" ++ toString i ++ "]") item
  | .scalar "" .plain _ _ => .ok []
  | node => refuse path "a sequence" node

/-- The text of a value that is no string: a plain scalar, or a literal one with a tag of that kind. -/
def bareText? (kind : String) : Node → Option String
  | .scalar text .plain _ _ => some text
  | .scalar text .literal tag _ => if tag = some (coreTag kind) then some text else none
  | _ => none

def boolean (path : String) (node : Node) : Except ConfigFault Bool :=
  match (bareText? "bool" node).bind boolean? with
  | some b => .ok b
  | none => refuse path "a boolean" node

def size (path expected : String) (node : Node) : Except ConfigFault Nat :=
  match (bareText? "int" node).bind size? with
  | some n => .ok n
  | none => refuse path expected node

/-- A value may be left out, or be null; a tag that says null leaves no choice. -/
def isAbsent (path : String) : Node → Except ConfigFault Bool
  | .scalar text .plain none _ => .ok (text.isEmpty || isNull text)
  | .scalar text .plain (some tag) mark =>
      if tag ≠ coreTag "null" then .ok false
      else if isNull text then .ok true
      else .error (.value path (Mismatch.wrongValue (.string text) "null").message mark)
  | _ => .ok false

/-- A size, or null, or nothing, for none. -/
def optionalSize (path : String) (node : Node) : Except ConfigFault (Option Nat) := do
  if ← isAbsent path node then return none
  else return some (← size path "usize" node)

/-! ## Documents -/

def keys : List String :=
  ["extensions", "excluded_dirs", "follow_links", "max_depth", "max_file_size"]

def set (config : Config) (key : String) (value : Node) : Except ConfigFault Config :=
  match key with
  | "extensions" => do return { config with extensions := ← texts key value }
  | "excluded_dirs" => do return { config with excludedDirectories := ← texts key value }
  | "follow_links" => do return { config with followLinks := ← boolean key value }
  | "max_depth" => do return { config with maxDepth := ← optionalSize key value }
  | "max_file_size" => do return { config with maxFileSize := ← size key "u64" value }
  | _ => .ok config

def knownKey (node : Node) : Except ConfigFault String :=
  match node with
  | .scalar text _ _ mark =>
      if keys.contains text then .ok text
      else .error (.value "" ("unknown field `" ++ text ++ "`, " ++ alternatives keys) mark)
  | _ => refuse "" "field identifier" node

/-- Takes the entries one by one; no key may come twice. -/
def setAll (mark : Mark) (config : Config) (seen : List String) :
    List (Node × Node) → Except ConfigFault Config
  | [] => .ok config
  | (keyNode, value) :: rest => do
      let key ← knownKey keyNode
      if seen.contains key then throw (.value "" ("duplicate field `" ++ key ++ "`") mark)
      setAll mark (← config.set key value) (key :: seen) rest

def ofNode : Node → Except ConfigFault Config
  | .mapping entries mark => setAll mark {} [] entries
  | .scalar "" .plain _ _ => .ok {}
  | node => refuse "" "struct ScanConfig" node

/-- The configuration that a text describes; an empty one describes the default. -/
def parse (text : String) : Except ConfigFault Config :=
  match Yaml.parse text with
  | .error fault => .error (.malformed fault)
  | .ok none => .ok {}
  | .ok (some node) => ofNode node

end Config

end FlowSurvey
