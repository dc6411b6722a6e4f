/-!
# Shortest decimal text of a binary fraction

A positive double is `mantissa * 2 ^ exponent`.  The reals that round to it form
an interval around it, closed exactly if the mantissa is even.  Of the decimals
in that interval we write one with the fewest digits, and of several such the
one nearest to the value.  All comparisons are between natural numbers.

A value is written positionally from `10 ^ -5` up to `10 ^ 16` and with an
exponent outside; a positional text always has a fractional part.
-/

namespace FlowSurvey.Decimal

structure Ratio where
  num : Nat
  den : Nat

/-- The product of a natural number and a power of a base, which may be negative. -/
def Ratio.scaled (n base : Nat) (exponent : Int) : Ratio :=
  if 0 ≤ exponent then ⟨n * base.pow exponent.toNat, 1⟩
  else ⟨n, base.pow (-exponent).toNat⟩

def Ratio.lt (a b : Ratio) : Bool :=
  a.num * b.den < b.num * a.den

def Ratio.le (a b : Ratio) : Bool :=
  a.num * b.den ≤ b.num * a.den

def Ratio.dist (a b : Ratio) : Ratio :=
  if a.lt b then ⟨b.num * a.den - a.num * b.den, a.den * b.den⟩
  else ⟨a.num * b.den - b.num * a.den, a.den * b.den⟩

/-- A positive double, as a mantissa and a power of two. -/
structure Binary where
  mantissa : Nat
  exponent : Int
  /-- The next smaller double is only half a unit away. -/
  tightBelow : Bool

/-- The fields of the binary64 format, for a value that is finite and not zero. -/
def Binary.ofBits (bits : UInt64) : Binary :=
  let fraction := (bits &&& 0xFFFFFFFFFFFFF).toNat
  let biased := ((bits >>> 52) &&& 0x7FF).toNat
  if biased = 0 then ⟨fraction, -1074, false⟩
  else ⟨fraction + 0x10000000000000, (biased : Int) - 1075, fraction = 0 && biased ≠ 1⟩

def Binary.value (b : Binary) : Ratio :=
  .scaled b.mantissa 2 b.exponent

def Binary.lower (b : Binary) : Ratio :=
  if b.tightBelow then .scaled (4 * b.mantissa - 1) 2 (b.exponent - 2)
  else .scaled (2 * b.mantissa - 1) 2 (b.exponent - 1)

def Binary.upper (b : Binary) : Ratio :=
  .scaled (2 * b.mantissa + 1) 2 (b.exponent - 1)

/-- Whether a rational rounds to the value, ties going to the even mantissa. -/
def Binary.covers (b : Binary) (x : Ratio) : Bool :=
  if b.mantissa % 2 = 0 then b.lower.le x && x.le b.upper
  else b.lower.lt x && x.lt b.upper

structure Scientific where
  digits : Nat
  exponent : Int

def Scientific.value (d : Scientific) : Ratio :=
  .scaled d.digits 10 d.exponent

/-- The nearest decimal to a value among its two neighbours on the grid `10 ^ exponent`. -/
def Binary.onGrid? (b : Binary) (exponent : Int) : Option Scientific :=
  let step := Ratio.scaled 1 10 exponent
  let below := b.value.num * step.den / (b.value.den * step.num)
  let low : Scientific := ⟨below, exponent⟩
  let high : Scientific := ⟨below + 1, exponent⟩
  let lowFits := 0 < below && b.covers low.value
  let highFits := b.covers high.value
  if lowFits && highFits then
    let dLow := low.value.dist b.value
    let dHigh := high.value.dist b.value
    if dLow.lt dHigh || (dLow.le dHigh && below % 2 = 0) then some low else some high
  else if lowFits then some low
  else if highFits then some high
  else none

/-- An upper bound for the decimal exponent of a value, at most two too large. -/
def Binary.magnitude (b : Binary) : Int :=
  Int.fdiv (((b.mantissa.log2 : Int) + b.exponent + 1) * 78913) 262144 + 2

/-- The decimal with the fewest digits that rounds to a value. -/
def Binary.shortest (b : Binary) : Scientific :=
  ((List.range 20).findSome? fun n : Nat => b.onGrid? (b.magnitude - (n : Int))).getD ⟨0, 0⟩

def Scientific.normalize (d : Scientific) : Scientific :=
  let digits := Nat.toDigits 10 d.digits
  let kept := (digits.reverse.dropWhile (· = '0')).reverse
  let dropped := digits.length - kept.length
  ⟨d.digits / Nat.pow 10 dropped, d.exponent + dropped⟩

def Scientific.render (d : Scientific) : String :=
  let digits := Nat.toDigits 10 d.digits
  let scientific := d.exponent + digits.length - 1
  String.ofList <|
    if -5 ≤ scientific ∧ scientific < 16 then
      if 0 ≤ d.exponent then
        digits ++ List.replicate d.exponent.toNat '0' ++ ['.', '0']
      else if 0 ≤ scientific then
        let whole := scientific.toNat + 1
        digits.take whole ++ '.' :: digits.drop whole
      else '0' :: '.' :: (List.replicate (-scientific - 1).toNat '0' ++ digits)
    else
      let power := (if 0 ≤ scientific then '+' else '-') :: Nat.toDigits 10 scientific.natAbs
      match digits with
      | first :: second :: rest => first :: '.' :: second :: rest ++ 'e' :: power
      | _ => digits ++ 'e' :: power

/-- The shortest text that reads back as a finite double. -/
def renderFloat (x : Float) : String :=
  let bits := x.toBits
  let magnitude := bits &&& 0x7FFFFFFFFFFFFFFF
  let sign := if bits = magnitude then "" else "-"
  if magnitude = 0 then sign ++ "0.0"
  else sign ++ (Binary.ofBits magnitude).shortest.normalize.render

/--
The double nearest to `digits * 10 ^ exponent`, or nothing if that is too large
for one.
-/
def nearestFloat? (digits : Nat) (exponent : Int) : Option Float :=
  if digits = 0 then some 0.0
  else
    let scientific := exponent + (Nat.toDigits 10 digits).length
    if 400 < scientific then none
    else if scientific < -400 then some 0.0
    else
      let x := Float.ofScientific digits (exponent < 0) exponent.natAbs
      if x.isInf then none else some x

end FlowSurvey.Decimal
