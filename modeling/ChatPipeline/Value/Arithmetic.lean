import ChatPipeline.Value.Access
import ChatPipeline.Decimal.Binary
import ChatPipeline.Validation.Scalar

/-!
# Sums, products and order of values

Numbers of all kinds mix; a double on one side makes the result a double.  Texts, lists and tuples
are joined by a sum and repeated by a product with a whole number.
-/

namespace ChatPipeline.Value

open ChatPipeline.Validation

def integer? : Value → Option Int
  | .int i => some i
  | .bool b => some (if b then 1 else 0)
  | _ => Option.none

def noOperation (op : String) (a b : Value) : Failure :=
  .fault .type ("unsupported operand type(s) for " ++ op ++ ": '" ++ a.typeName ++ "' and '" ++
    b.typeName ++ "'")

def toDouble (i : Int) : Outcome Float :=
  match Decimal.ofInt? i with
  | some x => .ok x
  | Option.none => .error (.fault .overflow "int too large to convert to float")

def arithmetic (op : String) (onInt : Int → Int → Int) (onFloat : Float → Float → Float)
    (a b : Value) : Outcome Value :=
  match a, b with
  | .float x, .float y => .ok (.float (onFloat x y))
  | .float x, v => match v.integer? with
    | some j => do return .float (onFloat x (← toDouble j))
    | Option.none => .error (noOperation op a b)
  | v, .float y => match v.integer? with
    | some i => do return .float (onFloat (← toDouble i) y)
    | Option.none => .error (noOperation op a b)
  | v, w => match v.integer?, w.integer? with
    | some i, some j => .ok (.int (onInt i j))
    | _, _ => .error (noOperation op a b)

def noConcatenation (a b : Value) : Failure :=
  .fault .type ("can only concatenate " ++ a.typeName ++ " (not \"" ++ b.typeName ++ "\") to " ++
    a.typeName)

def add (a b : Value) : Outcome Value :=
  match a, b with
  | .text s, .text t => .ok (.text (s ++ t))
  | .list s, .list t => .ok (.list (s ++ t))
  | .tuple s, .tuple t => .ok (.tuple (s ++ t))
  | .bytes s, .bytes t => .ok (.bytes (s ++ t))
  | .text _, _ | .list _, _ | .tuple _, _ => .error (noConcatenation a b)
  | .bytes _, _ => .error (.fault .type ("can't concat " ++ b.typeName ++ " to bytes"))
  | _, _ => arithmetic "+" (· + ·) (· + ·) a b

def sum (vs : List Value) : Outcome Value := vs.foldlM add (.int 0)

def repeated (n : Nat) : Value → Option Value
  | .text s => some (.text ("".intercalate (List.replicate n s)))
  | .list items => some (.list (List.replicate n items).flatten)
  | .tuple items => some (.tuple (List.replicate n items).flatten)
  | .bytes octets => some (.bytes (List.replicate n octets).flatten)
  | _ => Option.none

def isSequence (v : Value) : Bool := (repeated 0 v).isSome

def multiply (a b : Value) : Outcome Value :=
  let (sequence, count) := if isSequence a then (a, b) else (b, a)
  if isSequence sequence then
    match count.integer?.bind fun i => repeated i.toNat sequence with
    | some v => .ok v
    | Option.none => .error (.fault .type ("can't multiply sequence by non-int of type '" ++
        count.typeName ++ "'"))
  else arithmetic "*" (· * ·) (· * ·) a b

def notOrdered (a b : Value) : Failure :=
  .fault .type ("'<' not supported between instances of '" ++ a.typeName ++ "' and '" ++ b.typeName ++ "'")

def lessThan (a b : Value) : Outcome Bool :=
  match a.text?, b.text? with
  | some s, some t => .ok (decide (s < t))
  | _, _ => match numberKey? a, numberKey? b with
    | some x, some y => .ok (isLt x y)
    | _, _ => .error (notOrdered a b)

end ChatPipeline.Value
