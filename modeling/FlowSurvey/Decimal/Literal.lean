import FlowSurvey.Decimal.Shortest

/-!
# Decimal literals

A decimal literal has digits with or without a point among them, and an exponent
if it likes.  Its value is the nearest double.
-/

namespace FlowSurvey.Decimal

def digitsValue (digits : List Char) : Nat :=
  digits.foldl (fun value d => value * 10 + (d.toNat - '0'.toNat)) 0

def allDigits? (digits : List Char) : Option Nat :=
  if !digits.isEmpty && digits.all Char.isDigit then some (digitsValue digits) else none

def exponent? : List Char → Option Int
  | '-' :: digits => (allDigits? digits).map fun n => -(n : Int)
  | '+' :: digits => (allDigits? digits).map fun n => (n : Int)
  | digits => (allDigits? digits).map fun n => (n : Int)

/-- The double nearest to a literal, if it is one and is not too large. -/
def literalValue? (cs : List Char) : Option Float :=
  let whole := cs.takeWhile Char.isDigit
  let afterWhole := cs.dropWhile Char.isDigit
  let (fraction, afterFraction) :=
    match afterWhole with
    | '.' :: rest => (rest.takeWhile Char.isDigit, rest.dropWhile Char.isDigit)
    | rest => ([], rest)
  let power? :=
    match afterFraction with
    | [] => some 0
    | 'e' :: rest | 'E' :: rest => exponent? rest
    | _ => none
  if whole.isEmpty && fraction.isEmpty then none
  else
    power?.bind fun power => nearestFloat? (digitsValue (whole ++ fraction)) (power - fraction.length)

end FlowSurvey.Decimal
