/-!
# Binary floating point

A double is a sign, a natural significand and a power of two, and it is read and built here in exact
natural arithmetic.  `nearest` gives the double nearest to a ratio, a tie going to the even
significand; beyond the largest double it is an infinity.
-/

namespace ChatPipeline.Decimal

inductive FloatClass where
  | nan
  | infinite (negative : Bool)
  | finite (negative : Bool) (significand : Nat) (exponent : Int)
  deriving DecidableEq, Repr

/-- The value of a finite double is `significand * 2 ^ exponent`. -/
def classify (x : Float) : FloatClass :=
  let bits : Nat := x.toBits.toNat
  let negative := bits / Nat.pow 2 63 == 1
  let exponent : Nat := bits / Nat.pow 2 52 % Nat.pow 2 11
  let fraction := bits % Nat.pow 2 52
  if exponent = 2047 then if fraction = 0 then .infinite negative else .nan
  else if exponent = 0 then .finite negative fraction (-1074)
  else .finite negative (fraction + Nat.pow 2 52) ((exponent : Int) - 1075)

def infinity (negative : Bool) : Float := if negative then -1.0 / 0.0 else 1.0 / 0.0

def notANumber : Float := 0.0 / 0.0

/-! ## Rounding a quotient -/

/-- The natural number nearest to `num / den`, a tie going to the even one. -/
def roundDiv (num den : Nat) : Nat :=
  let whole := num / den
  let rest := 2 * (num % den)
  if rest < den then whole
  else if den < rest then whole + 1
  else if whole % 2 = 0 then whole else whole + 1

/-- `base ^ exponent` as a numerator and a denominator. -/
def powerRatio (base : Nat) (exponent : Int) : Nat × Nat :=
  if 0 ≤ exponent then (Nat.pow base exponent.toNat, 1) else (1, Nat.pow base (-exponent).toNat)

/-- A value `significand * 2 ^ exponent` as the bits of a double, where the significand is below
`2 ^ 53`, or equal to it after a carry, and small only at the least exponent. -/
def assemble (negative : Bool) (significand : Nat) (exponent : Int) : Float :=
  let magnitude := (exponent + 1074).toNat * Nat.pow 2 52 + significand
  if 2047 * Nat.pow 2 52 ≤ magnitude then infinity negative
  else Float.ofBits (UInt64.ofNat ((if negative then Nat.pow 2 63 else 0) + magnitude))

/-- The exponent at which the significand of `num / den` has 53 bits, or the least one. -/
def binaryExponent (num den : Nat) : Int :=
  let guess : Int := (num.log2 : Int) - (den.log2 : Int) - 53
  let (up, down) := powerRatio 2 guess
  let exponent := if num * down < Nat.pow 2 53 * (den * up) then guess else guess + 1
  max exponent (-1074)

def nearest (negative : Bool) (num den : Nat) : Float :=
  if num = 0 then assemble negative 0 (-1074)
  else
    let exponent := binaryExponent num den
    if 1024 < exponent then infinity negative
    else
      let (up, down) := powerRatio 2 exponent
      assemble negative (roundDiv (num * down) (den * up)) exponent

def ofInt? (i : Int) : Option Float :=
  let x := nearest (i < 0) i.natAbs 1
  if x.isInf then none else some x

/-- The double nearest to `digits * 10 ^ exponent`.  The first two cases only bound the work: there
the result is an infinity or a zero in any case. -/
def ofDecimal (negative : Bool) (digits : Nat) (exponent : Int) : Float :=
  if digits = 0 then nearest negative 0 1
  else
    let size : Int := (digits.log2 : Int) * 3 / 10 + exponent
    if 400 < size then infinity negative
    else if (digits.log2 : Int) / 3 + 1 + exponent < -400 then nearest negative 0 1
    else
      let (up, down) := powerRatio 10 exponent
      nearest negative (digits * up) down

end ChatPipeline.Decimal
