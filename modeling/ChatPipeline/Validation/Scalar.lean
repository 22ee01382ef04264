import ChatPipeline.Validation.Checked
import ChatPipeline.Decimal.Reading
import ChatPipeline.Decimal.Notation
import ChatPipeline.Text.Bytes

/-!
# Scalars

The lenient checks of texts, numbers, truth values, choices and bounds.
-/

namespace ChatPipeline.Validation

open ChatPipeline.Text ChatPipeline.Decimal

def checkText : Check String := fun v =>
  match v with
  | .bytes octets => match decode? octets with
    | some s => .ok s
    | none => reject "string_unicode"
      "Input should be a valid string, unable to parse raw data as a unicode string" v
  | _ => match v.text? with
    | some s => .ok s
    | none => reject "string_type" "Input should be a valid string" v

def scalarText? (v : Value) : Option String :=
  match v with
  | .bytes octets => decode? octets
  | _ => v.text?

/-! ## Integers -/

def integerTooLarge (v : Value) : Checked α :=
  reject "int_parsing_size" "Unable to parse input string as an integer, exceeded maximum size" v

/-- The integer that a double without fraction is; its magnitude stays below `2 ^ 63`. -/
def checkWhole (x : Float) (v : Value) : Checked Int :=
  match classify x with
  | .finite negative significand exponent =>
    let (up, down) := powerRatio 2 exponent
    let n := significand * up / down
    if significand * up % down ≠ 0 then
      reject "int_from_float" "Input should be a valid integer, got a number with a fractional part" v
    else if Nat.pow 2 63 ≤ n then integerTooLarge v
    else .ok (if negative then -(n : Int) else n)
  | _ => reject "finite_number" "Input should be a finite number" v

def checkInt : Check Int := fun v =>
  match v with
  | .int i => .ok i
  | .member _ _ .number (.int i) => .ok i
  | .bool b => .ok (if b then 1 else 0)
  | .float x => checkWhole x v
  | _ => match scalarText? v with
    | some s => match laxInteger s with
      | .ok i => .ok i
      | .error .malformed => reject "int_parsing"
        "Input should be a valid integer, unable to parse string as an integer" v
      | .error .tooLong => integerTooLarge v
    | none => reject "int_type" "Input should be a valid integer" v

/-! ## Doubles -/

def notANumberInput (v : Value) : Checked α :=
  reject "float_type" "Input should be a valid number" v

def checkFloat : Check Float := fun v =>
  match v with
  | .float x => .ok x
  | .int i | .member _ _ .number (.int i) => match ofInt? i with
    | some x => .ok x
    | none => notANumberInput v
  | .bool b => .ok (if b then 1.0 else 0.0)
  | _ => match scalarText? v with
    | some s => match laxFloat s with
      | some x => .ok x
      | none => reject "float_parsing"
        "Input should be a valid number, unable to parse string as a number" v
    | none => notANumberInput v

/-! ## Truth values -/

def truths : List String := ["true", "t", "yes", "y", "on", "1"]

def falsehoods : List String := ["false", "f", "no", "n", "off", "0"]

def uninterpretable (v : Value) : Checked α :=
  reject "bool_parsing" "Input should be a valid boolean, unable to interpret input" v

def notATruth (v : Value) : Checked α := reject "bool_type" "Input should be a valid boolean" v

def checkBool : Check Bool := fun v =>
  match v with
  | .bool b => .ok b
  | .int i | .member _ _ .number (.int i) =>
    if i = 0 then .ok false
    else if i = 1 then .ok true
    else if -(Nat.pow 2 63 : Nat) ≤ i ∧ i < (Nat.pow 2 63 : Nat) then uninterpretable v
    else notATruth v
  | .float x => if x == 0.0 then .ok false else if x == 1.0 then .ok true else notATruth v
  | .bytes octets => match decode? octets with
    | some s => ofWord s v
    | none => uninterpretable v
  | _ => match v.text? with
    | some s => ofWord s v
    | none => notATruth v
where
  ofWord (s : String) (v : Value) : Checked Bool :=
    let word := String.ofList (s.toList.map Char.toLower)
    if truths.contains word then .ok true
    else if falsehoods.contains word then .ok false
    else uninterpretable v

/-! ## Choices -/

inductive NumberKey where
  | ratio (negative : Bool) (num den : Nat)
  | infinite (negative : Bool)
  | nan

def numberKey? : Value → Option NumberKey
  | .bool b => some (.ratio false (if b then 1 else 0) 1)
  | .int i | .member _ _ .number (.int i) => some (.ratio (i < 0) i.natAbs 1)
  | .float x => some <| match classify x with
    | .nan => .nan
    | .infinite negative => .infinite negative
    | .finite negative significand exponent =>
      let (up, down) := powerRatio 2 exponent
      .ratio negative (significand * up) down
  | _ => none

def NumberKey.same : NumberKey → NumberKey → Bool
  | .ratio n a b, .ratio m c d => a * d == c * b && (n == m || a == 0)
  | .infinite n, .infinite m => n == m
  | _, _ => false

/-- Two scalars that count as the same choice: equal texts, equal numbers of any kind, or nothing.
-/
def sameScalar (v w : Value) : Bool :=
  match numberKey? v, numberKey? w with
  | some a, some b => a.same b
  | none, none => match v.text?, w.text? with
    | some s, some t => s == t
    | none, none => match v, w with
      | .none, .none => true
      | .bytes a, .bytes b => a == b
      | _, _ => false
    | _, _ => false
  | _, _ => false

/-- `'a', 'b' or 'c'` -/
def alternatives : List Value → String
  | [] => ""
  | [only] => only.shown
  | vs => Value.commaSeparated (vs.dropLast.map Value.shown) ++ " or " ++
      ((vs.getLast?.map Value.shown).getD "")

/-- A choice of the same type is preferred to one that is only equal. -/
def checkLiteral (choices : List Value) : Check Value := fun v =>
  let same := choices.filter (sameScalar v)
  match (same.find? fun w => w.typeName == v.typeName).or same.head? with
  | some choice => .ok choice
  | none => reject "literal_error" ("Input should be " ++ alternatives choices) v

/-! ## Bounds -/

structure Bounds where
  atLeast : Option Value := none
  above : Option Value := none
  atMost : Option Value := none
  below : Option Value := none
  minLength : Option Nat := none
  maxLength : Option Nat := none
  deriving Inhabited

def NumberKey.le? : NumberKey → NumberKey → Option Bool
  | .ratio n a b, .ratio m c d => some <| match n, m with
    | false, false => a * d ≤ c * b
    | true, true => c * b ≤ a * d
    | true, false => true
    | false, true => a == 0 && c == 0
  | .infinite n, .infinite m => some (n || !m)
  | .infinite n, .ratio .. => some n
  | .ratio .., .infinite m => some (!m)
  | .nan, _ | _, .nan => none

/-- A bound in messages: whole numbers without a fraction, and no exponent. -/
def showBound (v : Value) : String :=
  match v with
  | .float x => match classify x with
    | .finite negative significand exponent =>
      if significand = 0 then (if negative then "-0" else "0")
      else
        let d := shortest significand exponent
        let body := positional (dropTrailingZeros d.text) d.point
        let body := if ['0', '.'].isPrefixOf body.reverse then body.dropLast.dropLast else body
        String.ofList (if negative then '-' :: body else body)
    | _ => v.form
  | _ => v.form

def isLe (x y : NumberKey) : Bool := x.le? y == some true

def isLt (x y : NumberKey) : Bool := isLe x y && !isLe y x

def checkBound (bound : Option Value) (kind words : String) (keeps : NumberKey → NumberKey → Bool)
    (input result : Value) : Checked Unit :=
  match bound with
  | none => .ok ()
  | some b => match numberKey? result, numberKey? b with
    | some x, some y =>
      if keeps x y then .ok ()
      else reject kind ("Input should be " ++ words ++ " " ++ showBound b) input
    | _, _ => .ok ()

def Bounds.checkNumber (b : Bounds) (input result : Value) : Checked Value :=
  (checkBound b.atMost "less_than_equal" "less than or equal to" isLe input result).andThen fun _ =>
  (checkBound b.below "less_than" "less than" isLt input result).andThen fun _ =>
  (checkBound b.atLeast "greater_than_equal" "greater than or equal to" (fun x y => isLe y x) input
    result).andThen fun _ =>
  (checkBound b.above "greater_than" "greater than" (fun x y => isLt y x) input result).andThen
    fun _ => .ok result

def plural (n : Nat) (noun : String) : String :=
  decimal n ++ " " ++ noun ++ (if n == 1 then "" else "s")

def Bounds.checkText (b : Bounds) (input : Value) (s : String) : Checked Value :=
  let n := s.length
  match b.minLength, b.maxLength with
  | some least, most =>
    if n < least then
      reject "string_too_short" ("String should have at least " ++ plural least "character") input
    else upper most n
  | none, most => upper most n
where
  upper (most : Option Nat) (n : Nat) : Checked Value :=
    match most with
    | some m =>
      if m < n then
        reject "string_too_long" ("String should have at most " ++ plural m "character") input
      else .ok (.text s)
    | none => .ok (.text s)

def tooLong (noun : String) (most actual : Nat) (input : Value) : Checked α :=
  reject "too_long" (noun ++ " should have at most " ++ plural most "item" ++
    " after validation, not " ++ decimal actual) input

def tooShort (noun : String) (least actual : Nat) (input : Value) : Checked α :=
  reject "too_short" (noun ++ " should have at least " ++ plural least "item" ++
    " after validation, not " ++ decimal actual) input

/-- The bounds on the size of a container: too many elements are reported before any of them is
looked at, too few after all of them. -/
def Bounds.sized (b : Bounds) (noun : String) (size : Nat) (input : Value)
    (check : Unit → Checked α) :
    Checked α :=
  match b.maxLength with
  | some most => if most < size then tooLong noun most size input else lower
  | none => lower
where
  lower : Checked α :=
    (check ()).andThen fun a =>
      match b.minLength with
      | some least => if size < least then tooShort noun least size input else .ok a
      | none => .ok a

end ChatPipeline.Validation
