import ChatPipeline.Decimal.Shortest

/-!
# Notations for a double

The fewest digits that read back, laid out with a decimal point where it falls close to the digits
and with an exponent elsewhere.  `NumberStyle` holds the decisions of one notation: `plainNumber`
for displayed values and for JSON text of loose values, `compactNumber` for the JSON text of
records.
-/

namespace ChatPipeline.Decimal

structure NumberStyle where
  /-- The least place of the point that is written positionally. -/
  leastPoint : Int
  greatestPoint : Int
  /-- The least number of exponent digits. -/
  exponentWidth : Nat
  exponentPlus : Bool
  nan : String
  positiveInfinity : String
  negativeInfinity : String

def plainNumber : NumberStyle where
  leastPoint := -3
  greatestPoint := 16
  exponentWidth := 2
  exponentPlus := true
  nan := "nan"
  positiveInfinity := "inf"
  negativeInfinity := "-inf"

/-- A record's JSON text has no number that is not finite. -/
def compactNumber : NumberStyle where
  leastPoint := -4
  greatestPoint := 16
  exponentWidth := 1
  exponentPlus := true
  nan := "null"
  positiveInfinity := "null"
  negativeInfinity := "null"

def dropTrailingZeros (cs : List Char) : List Char :=
  match (cs.reverse.dropWhile (· == '0')).reverse with
  | [] => ['0']
  | kept => kept

/-- Digits with a decimal point at a place; at least one digit stands on each side. -/
def positional (digits : List Char) (point : Int) : List Char :=
  if point ≤ 0 then '0' :: '.' :: List.replicate (-point).toNat '0' ++ digits
  else
    let n := point.toNat
    if digits.length ≤ n then digits ++ List.replicate (n - digits.length) '0' ++ ['.', '0']
    else digits.take n ++ '.' :: digits.drop n

def exponentText (style : NumberStyle) (exponent : Int) : List Char :=
  let sign := if exponent < 0 then ['-'] else if style.exponentPlus then ['+'] else []
  sign ++ Text.paddedDigits 10 style.exponentWidth exponent.natAbs

def scientific (style : NumberStyle) (digits : List Char) (point : Int) : List Char :=
  let mantissa := match digits with
    | [] => ['0']
    | [d] => [d]
    | d :: rest => d :: '.' :: rest
  mantissa ++ 'e' :: exponentText style (point - 1)

def NumberStyle.format (style : NumberStyle) (x : Float) : String :=
  match classify x with
  | .nan => style.nan
  | .infinite negative => if negative then style.negativeInfinity else style.positiveInfinity
  | .finite negative significand exponent =>
    let body :=
      if significand = 0 then ['0', '.', '0']
      else
        let d := shortest significand exponent
        let digits := dropTrailingZeros d.text
        if style.leastPoint ≤ d.point ∧ d.point ≤ style.greatestPoint then positional digits d.point
        else scientific style digits d.point
    String.ofList (if negative then '-' :: body else body)

def display (x : Float) : String := plainNumber.format x

end ChatPipeline.Decimal
