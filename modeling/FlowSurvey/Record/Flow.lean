import FlowSurvey.Declaration
import FlowSurvey.Record.Decode

/-!
# Flow records

A flow record says what a flow is called, where it is declared and how to import
it.  What a platform adds is kept apart in the attributes, which never mix with
the fields of the record.
-/

namespace FlowSurvey

/-- A declared name in the spelling by which flows are compared. -/
def canonicalName (declared : String) : String :=
  String.ofList (declared.toList.map fun c => if c = '-' then '_' else c)

structure Flow where
  name : String
  declaredName : String
  description : String := ""
  id : String
  form : Form := .function
  symbol : String := ""
  ownerKind : OwnerKind := .module
  owner : String := ""
  module : String := ""
  sourcePath : String
  /-- The path below the root of the scan. -/
  sourceRelative : String
  importPath : String := ""
  line : Option UInt64 := none
  /-- The directories between the root and the file. -/
  grouping : List String := []
  attributes : List (String × Json) := []

namespace Flow

/-- A record of which only the name and the place are known. -/
def named (declaredName id sourcePath sourceRelative : String) : Flow :=
  { name := canonicalName declaredName, declaredName, id, sourcePath, sourceRelative }

/-- What identifies a flow from one scan to the next. -/
def refetchKey (flow : Flow) : String × String :=
  (flow.name, flow.sourceRelative)

/-- The directory below the root that a flow belongs to. -/
def group? (flow : Flow) : Option String :=
  flow.grouping.head?

def toJson (flow : Flow) : Json :=
  .obj
    [("child_attributes", .obj flow.attributes),
     ("description", .str flow.description),
     ("grouping", .arr (flow.grouping.map .str)),
     ("id", .str flow.id),
     ("import_path", .str flow.importPath),
     ("line_number", (flow.line.map fun n => .whole (.ofUInt64 n)).getD .null),
     ("module", .str flow.module),
     ("name", .str flow.name),
     ("obj_name", .str flow.symbol),
     ("obj_parent", .str flow.owner),
     ("obj_parent_type", .str flow.ownerKind.label),
     ("obj_type", .str flow.form.label),
     ("original_name", .str flow.declaredName),
     ("source_path", .str flow.sourcePath),
     ("source_relative", .str flow.sourceRelative)]

def forms : List (String × Form) :=
  [Form.object, .function, .method].map fun form => (form.label, form)

def ownerKinds : List (String × OwnerKind) :=
  [OwnerKind.module, .classBody].map fun kind => (kind.label, kind)

def ofFields (fields : List (String × Json)) : Except Mismatch Flow := do
  let attributes ← Decode.field? fields "child_attributes" Decode.fields
  let description ← Decode.field? fields "description" Decode.string
  let grouping ← Decode.field? fields "grouping" (Decode.list Decode.string)
  let id ← Decode.field? fields "id" Decode.string
  let importPath ← Decode.field? fields "import_path" Decode.string
  let line ← Decode.field? fields "line_number" Decode.optionalSize
  let module ← Decode.field? fields "module" Decode.string
  let name ← Decode.field? fields "name" Decode.string
  let symbol ← Decode.field? fields "obj_name" Decode.string
  let owner ← Decode.field? fields "obj_parent" Decode.string
  let ownerKind ← Decode.field? fields "obj_parent_type" (Decode.variant ownerKinds)
  let form ← Decode.field? fields "obj_type" (Decode.variant forms)
  let declaredName ← Decode.field? fields "original_name" Decode.string
  let sourcePath ← Decode.field? fields "source_path" Decode.string
  let sourceRelative ← Decode.field? fields "source_relative" Decode.string
  return {
    name := ← Decode.required "name" name
    declaredName := ← Decode.required "original_name" declaredName
    description := ← Decode.required "description" description
    id := ← Decode.required "id" id
    form := form.getD .function
    symbol := symbol.getD ""
    ownerKind := ownerKind.getD .module
    owner := owner.getD ""
    module := module.getD ""
    sourcePath := ← Decode.required "source_path" sourcePath
    sourceRelative := ← Decode.required "source_relative" sourceRelative
    importPath := importPath.getD ""
    line := line.getD none
    grouping := grouping.getD []
    attributes := attributes.getD [] }

end Flow

end FlowSurvey
