import ChatPipeline.Decimal.Binary
import ChatPipeline.Text.Digit
import ChatPipeline.Text.Blank

/-!
# Numbers in text

Three grammars.  `laxInteger` and `laxFloat` read the numbers that validation accepts in place of a
number: blanks around, a sign, single underscores between digits, and for integers a fraction of
zeros.  `anyScriptInteger` reads an integer in the decimal digits of any script.
-/

namespace ChatPipeline.Decimal

open ChatPipeline.Text

/-- Blank space without the separator controls. -/
def isOuterBlank (c : Char) : Bool := isBlank c && !(0x1c ≤ c.toNat && c.toNat ≤ 0x1f)

def trimOuter (cs : List Char) : List Char := trimBy isOuterBlank cs

def stripUnderscores (cs : List Char) : Option (List Char) :=
  if cs.head? = some '_' ∨ cs.getLast? = some '_' then none
  else if (cs.zip (cs.drop 1)).any fun (a, b) => a == '_' && b == '_' then none
  else some (cs.filter (· != '_'))

def allDigits (cs : List Char) : Bool := !cs.isEmpty && cs.all isAsciiDigit

def digitsNumber (cs : List Char) : Nat := ofDigits 10 (cs.filterMap digitValue?)

/-! ## Lax integers -/

inductive IntegerFault where
  | malformed
  | tooLong
  deriving DecidableEq, Repr

def maxDigits : Nat := 4300

def stripLeadingZeros (cs : List Char) : Option (List Char) :=
  match cs with
  | '0' :: rest =>
    match rest.dropWhile fun c => c == '0' || c == '_' with
    | [] => cs.getLast?.map ([·])
    | '.' :: after => some ('0' :: '.' :: after)
    | c :: after => if isAsciiDigit c then some (c :: after) else none
  | c :: _ => if isAsciiDigit c || c == '-' then some cs else none
  | [] => none

def stripZeroFraction (cs : List Char) : List Char :=
  let whole := cs.takeWhile (· != '.')
  match cs.drop whole.length with
  | '.' :: zeros => if !zeros.isEmpty && zeros.all (· == '0') then whole else cs
  | _ => cs

def laxInteger (s : String) : Except IntegerFault Int :=
  let cs := trimOuter s.toList
  let unsigned := match cs with
    | '+' :: '-' :: _ => none
    | '+' :: rest => some rest
    | _ => some cs
  match unsigned.bind stripLeadingZeros |>.bind fun cs => stripUnderscores (stripZeroFraction cs) with
  | none => .error .malformed
  | some cs =>
    if maxDigits < cs.length then .error .tooLong
    else
      match cs with
      | '-' :: ds => if allDigits ds then .ok (-(digitsNumber ds : Int)) else .error .malformed
      | ds => if allDigits ds then .ok (digitsNumber ds) else .error .malformed

/-! ## Lax doubles -/

def takeSign : List Char → Bool × List Char
  | '+' :: rest => (false, rest)
  | '-' :: rest => (true, rest)
  | cs => (false, cs)

def exponentValue? (cs : List Char) : Option Int :=
  match cs with
  | [] => some 0
  | c :: rest =>
    if c = 'e' ∨ c = 'E' then
      let (negative, ds) := takeSign rest
      if allDigits ds then
        some (if negative then -(digitsNumber ds : Int) else digitsNumber ds)
      else none
    else none

def unsignedFloat? (negative : Bool) (cs : List Char) : Option Float :=
  let lower := cs.map Char.toLower
  if lower = "nan".toList then some notANumber
  else if lower = "inf".toList ∨ lower = "infinity".toList then some (infinity negative)
  else
    let whole := cs.takeWhile isAsciiDigit
    let (fraction, rest) := match cs.drop whole.length with
      | '.' :: after => (after.takeWhile isAsciiDigit, after.dropWhile isAsciiDigit)
      | rest => ([], rest)
    if whole.isEmpty && fraction.isEmpty then none
    else
      (exponentValue? rest).map fun e =>
        ofDecimal negative (digitsNumber (whole ++ fraction)) (e - fraction.length)

def signedFloat? (cs : List Char) : Option Float :=
  let (negative, rest) := takeSign cs
  unsignedFloat? negative rest

def laxFloat (s : String) : Option Float :=
  match signedFloat? (trimOuter s.toList) with
  | some x => some x
  | none => (stripUnderscores s.toList).bind signedFloat?

/-! ## Integers in any script -/

def asciiOf (c : Char) : Char :=
  if c.toNat < 0x80 then c
  else
    match digitValue? c with
    | some d => digitChar d
    | none => if isBlank c then ' ' else c

def groupedDigits? (cs : List Char) : Option Nat :=
  (stripUnderscores cs).bind fun ds => if allDigits ds then some (digitsNumber ds) else none

def anyScriptInteger (s : String) : Option Int :=
  let cs := trimBy isAsciiBlank (s.toList.map asciiOf)
  let (negative, rest) := takeSign cs
  if maxDigits < (rest.filter isAsciiDigit).length then none
  else (groupedDigits? rest).map fun n => if negative then -(n : Int) else n

end ChatPipeline.Decimal
