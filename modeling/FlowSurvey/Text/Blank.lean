/-!
# Blank characters

The blank characters are those with the Unicode property White_Space.  Trimming
and the measure of an indentation are stated over lists of characters, where
they follow the shape of the list.
-/

namespace FlowSurvey.Text

/-- Has the Unicode property White_Space. -/
def isBlank (c : Char) : Bool :=
  let n := c.toNat
  (0x09 ≤ n && n ≤ 0x0D) || n == 0x20 || n == 0x85 || n == 0xA0 || n == 0x1680 ||
    (0x2000 ≤ n && n ≤ 0x200A) || n == 0x2028 || n == 0x2029 || n == 0x202F ||
    n == 0x205F || n == 0x3000

def trimStart (cs : List Char) : List Char :=
  cs.dropWhile isBlank

def trimEnd (cs : List Char) : List Char :=
  (cs.reverse.dropWhile isBlank).reverse

def trim (cs : List Char) : List Char :=
  trimEnd (trimStart cs)

/-- The number of blank characters that a line starts with. -/
def indentation (cs : List Char) : Nat :=
  (cs.takeWhile isBlank).length

end FlowSurvey.Text
