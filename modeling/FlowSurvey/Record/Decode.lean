import FlowSurvey.Decimal.Shortest
import FlowSurvey.Json.Basic
import FlowSurvey.Text.Quoted

/-!
# Decoding records

A record is decoded from the fields of an object.  Fields that the record does
not know are passed over.  The fields it knows are looked at in the order of
their names, so that of several values of a wrong type the first by name is
reported; only then is a field missed, in the order of the record.
-/

namespace FlowSurvey

/-- What stands where something else was expected. -/
inductive Found where
  | null
  | unit
  | bool (value : Bool)
  | integer (value : Int)
  | float (value : Float)
  | string (value : String)
  | sequence
  | map

def Found.describe : Found → String
  | .null => "null"
  | .unit => "unit value"
  | .bool value => "boolean `" ++ toString value ++ "`"
  | .integer value => "integer `" ++ toString value ++ "`"
  | .float value => "floating point `" ++ Decimal.renderFloat value ++ "`"
  | .string value => "string " ++ Text.quoted value
  | .sequence => "sequence"
  | .map => "map"

def Json.found : Json → Found
  | .null => .null
  | .bool value => .bool value
  | .whole value => .integer value.val
  | .float value => .float value
  | .str value => .string value
  | .arr _ => .sequence
  | .obj _ => .map

inductive Mismatch where
  | wrongType (found : Found) (expected : String)
  | wrongValue (found : Found) (expected : String)
  | unknownVariant (name : String) (variants : List String)
  | missingField (name : String)

/-- The names that would have been accepted. -/
def alternatives (names : List String) : String :=
  match names.map fun name => "`" ++ name ++ "`" with
  | [] => "there are no variants"
  | [only] => "expected " ++ only
  | [first, second] => "expected " ++ first ++ " or " ++ second
  | several => "expected one of " ++ ", ".intercalate several

def Mismatch.message : Mismatch → String
  | .wrongType found expected => "invalid type: " ++ found.describe ++ ", expected " ++ expected
  | .wrongValue found expected => "invalid value: " ++ found.describe ++ ", expected " ++ expected
  | .unknownVariant name variants => "unknown variant `" ++ name ++ "`, " ++ alternatives variants
  | .missingField name => "missing field `" ++ name ++ "`"

namespace Decode

abbrev Decoder (α : Type) := Json → Except Mismatch α

def string : Decoder String
  | .str s => .ok s
  | value => .error (.wrongType value.found "a string")

def list (item : Decoder α) : Decoder (List α)
  | .arr items => items.mapM item
  | value => .error (.wrongType value.found "a sequence")

def fields : Decoder (List (String × Json))
  | .obj fields => .ok fields
  | value => .error (.wrongType value.found "a map")

/-- A size, or null for none. -/
def optionalSize : Decoder (Option UInt64)
  | .null => .ok none
  | .whole n =>
      match n.toUInt64? with
      | some size => .ok (some size)
      | none => .error (.wrongValue (.integer n.val) "usize")
  | value => .error (.wrongType value.found "usize")

def variantOf (variants : List (String × α)) (name : String) : Except Mismatch α :=
  match variants.lookup name with
  | some variant => .ok variant
  | none => .error (.unknownVariant name (variants.map Prod.fst))

/-- A variant, as its name or as an object with its name as the only key. -/
def variant (variants : List (String × α)) : Decoder α
  | .str name => variantOf variants name
  | .obj [(name, content)] => do
      let variant ← variantOf variants name
      match content with
      | .null => .ok variant
      | other => .error (.wrongType other.found "unit")
  | .obj _ => .error (.wrongValue .map "map with a single key")
  | value => .error (.wrongType value.found "string or map")

def field? (fields : List (String × Json)) (name : String) (decode : Decoder α) :
    Except Mismatch (Option α) :=
  match Json.lookup name fields with
  | some value => (decode value).map some
  | none => .ok none

/-- A field that may not be absent, after it has been looked for. -/
def required (name : String) : Option α → Except Mismatch α
  | some value => .ok value
  | none => .error (.missingField name)

end Decode

end FlowSurvey
