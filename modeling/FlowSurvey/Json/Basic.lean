/-!
# JSON values

A whole number is kept exactly as long as it fits a signed or an unsigned
64-bit word; every other number is a double.  An object lists its fields in the
order of their names, each name once.
-/

namespace FlowSurvey

/-- A whole number that fits a signed or an unsigned 64-bit word. -/
structure Whole where
  val : Int
  lower : -9223372036854775808 ≤ val := by decide
  upper : val < 18446744073709551616 := by decide
  deriving DecidableEq

def Whole.ofUInt64 (n : UInt64) : Whole :=
  ⟨n.toNat, by omega, by have h := n.toNat_lt; omega⟩

/-- A whole number as an unsigned 64-bit word, if it is one. -/
def Whole.toUInt64? (n : Whole) : Option UInt64 :=
  if 0 ≤ n.val then some n.val.toNat.toUInt64 else none

inductive Json where
  | null
  | bool (value : Bool)
  | whole (value : Whole)
  | float (value : Float)
  | str (value : String)
  | arr (items : List Json)
  | obj (fields : List (String × Json))
  deriving Inhabited

namespace Json

/-- Puts a field at its place, instead of one of the same name. -/
def insertField (key : String) (value : Json) : List (String × Json) → List (String × Json)
  | [] => [(key, value)]
  | (k, v) :: rest =>
      if key < k then (key, value) :: (k, v) :: rest
      else if key = k then (key, value) :: rest
      else (k, v) :: insertField key value rest

/-- The fields of an object, of which the last of each name counts. -/
def fieldsOfList (fields : List (String × Json)) : List (String × Json) :=
  fields.foldl (fun acc field => insertField field.1 field.2 acc) []

def mkObj (fields : List (String × Json)) : Json :=
  .obj (fieldsOfList fields)

def lookup (key : String) (fields : List (String × Json)) : Option Json :=
  fields.lookup key

/-- The field of that name, if the value is an object that has one. -/
def field? (key : String) : Json → Option Json
  | .obj fields => lookup key fields
  | _ => none

def asString? : Json → Option String
  | .str s => some s
  | _ => none

def ofNat (n : Nat) : Json :=
  if h : n < 18446744073709551616 then .whole ⟨n, by omega, by omega⟩ else .null

mutual

/-- Equality of values, where doubles are compared as numbers. -/
def beq : Json → Json → Bool
  | .null, .null => true
  | .bool a, .bool b => a == b
  | .whole a, .whole b => a.val == b.val
  | .float a, .float b => a == b
  | .str a, .str b => a == b
  | .arr a, .arr b => beqItems a b
  | .obj a, .obj b => beqFields a b
  | _, _ => false

def beqItems : List Json → List Json → Bool
  | [], [] => true
  | a :: as, b :: bs => beq a b && beqItems as bs
  | _, _ => false

def beqFields : List (String × Json) → List (String × Json) → Bool
  | [], [] => true
  | (k, a) :: as, (l, b) :: bs => k == l && beq a b && beqFields as bs
  | _, _ => false

end

instance : BEq Json := ⟨beq⟩

end Json

end FlowSurvey
