import ChatPipeline.Decimal.Binary
import ChatPipeline.Text.Digit

/-!
# Decimal digits of a double

Two ways to choose the decimal digits of a positive value `significand * 2 ^ exponent`: the fewest
that read back as the same double, and a fixed number of them.  Both work on the decimal grids
`10 ^ k` in exact arithmetic.
-/

namespace ChatPipeline.Decimal

/-- The value `digits * 10 ^ exponent`. -/
structure Digits where
  digits : Nat
  exponent : Int
  deriving DecidableEq, Repr

namespace Digits

def count (d : Digits) : Nat := (Text.digits 10 d.digits).length

def point (d : Digits) : Int := d.count + d.exponent

def text (d : Digits) : List Char := Text.digits 10 d.digits

end Digits

def Digits.le (d : Digits) (num den : Nat) : Bool :=
  let (up, down) := powerRatio 10 d.exponent
  d.digits * up * den ≤ num * down

def Digits.ge (d : Digits) (num den : Nat) : Bool :=
  let (up, down) := powerRatio 10 d.exponent
  num * down ≤ d.digits * up * den

/-- The exponent of the leading decimal digit of `num / den`. -/
def decimalExponent (num den : Nat) : Int :=
  let guess : Int := ((num.log2 : Int) - (den.log2 : Int) - 1) * 30103 / 100000 - 1
  let reaches (e : Int) : Bool := Digits.le ⟨1, e⟩ num den
  if reaches (guess + 3) then guess + 3
  else if reaches (guess + 2) then guess + 2
  else if reaches (guess + 1) then guess + 1
  else guess

/-! ## The fewest digits that read back -/

/-- The values that read back as one double: all between two bounds over a common denominator, the
bounds among them if the significand is even. -/
structure Neighbourhood where
  low : Nat
  value : Nat
  high : Nat
  den : Nat
  closed : Bool

def Neighbourhood.of (significand : Nat) (exponent : Int) : Neighbourhood :=
  let (up, down) := powerRatio 2 (exponent - 2)
  let gap := if significand = Nat.pow 2 52 ∧ -1074 < exponent then 1 else 2
  { low := (4 * significand - gap) * up
    value := 4 * significand * up
    high := (4 * significand + 2) * up
    den := down
    closed := significand % 2 == 0 }

def Neighbourhood.mem (n : Neighbourhood) (d : Digits) : Bool :=
  if n.closed then d.ge n.low n.den && d.le n.high n.den
  else !d.le n.low n.den && !d.ge n.high n.den

/-- The grid points next to the value, where they read back; of two the nearer, of two equally near
the even one. -/
def Neighbourhood.onGrid (n : Neighbourhood) (k : Int) : Option Digits :=
  let (up, down) := powerRatio 10 k
  let below := n.value * down / (n.den * up)
  let lower : Digits := ⟨below, k⟩
  let upper : Digits := ⟨below + 1, k⟩
  match decide (0 < below) && n.mem lower, n.mem upper with
  | true, true => some ⟨roundDiv (n.value * down) (n.den * up), k⟩
  | true, false => some lower
  | false, true => some upper
  | false, false => none

def Neighbourhood.coarsest (n : Neighbourhood) (k : Int) : Nat → Digits
  | 0 => ⟨n.value / n.den, 0⟩
  | fuel + 1 => (n.onGrid k).getD (n.coarsest (k - 1) fuel)

/-- Seventeen digits always read back. -/
def shortest (significand : Nat) (exponent : Int) : Digits :=
  let n := Neighbourhood.of significand exponent
  n.coarsest (decimalExponent n.value n.den) 17

/-! ## A fixed number of digits -/

def toPlaces (significand : Nat) (exponent : Int) (places : Nat) : Nat :=
  let (up, down) := powerRatio 2 exponent
  roundDiv (significand * up * Nat.pow 10 places) down

def toSignificant (significand : Nat) (exponent : Int) (count : Nat) : Digits :=
  let (up, down) := powerRatio 2 exponent
  let k := decimalExponent (significand * up) down - count + 1
  let (gridUp, gridDown) := powerRatio 10 k
  let rounded := roundDiv (significand * up * gridDown) (down * gridUp)
  if rounded = Nat.pow 10 count then ⟨Nat.pow 10 (count - 1), k + 1⟩ else ⟨rounded, k⟩

end ChatPipeline.Decimal
