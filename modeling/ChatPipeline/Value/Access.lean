import ChatPipeline.Failure

/-!
# Reading inside values

Attributes by name, entries by key and elements by position, each with the failure that tells what
kind of value does not have them.
-/

namespace ChatPipeline.Value

def noAttribute (v : Value) (name : String) : Failure :=
  .fault .attribute ("'" ++ v.typeName ++ "' object has no attribute '" ++ name ++ "'")

def integerAttribute? (i : Int) : String → Option Value
  | "real" | "numerator" => some (.int i)
  | "imag" => some (.int 0)
  | "denominator" => some (.int 1)
  | _ => Option.none

def attribute? (v : Value) (name : String) : Option Value :=
  match v with
  | .bool b => integerAttribute? (if b then 1 else 0) name
  | .int i => integerAttribute? i name
  | .float x =>
    if name = "real" then some (.float x)
    else if name = "imag" then some (.float 0.0)
    else Option.none
  | .message m =>
    if name = "has_tool_calls" then some (.bool m.hasToolCalls) else Entries.get? (messageFields m) name
  | .toolCall c => Entries.get? (toolCallFields c) name
  | .member _ memberName _ value =>
    if name = "value" then some value
    else if name = "name" then some (.text memberName)
    else Option.none
  | .record _ fields extra => Entries.get? (fields ++ extra) name
  | _ => Option.none

def getAttribute (v : Value) (name : String) : Outcome Value :=
  match v.attribute? name with
  | some found => .ok found
  | Option.none => .error (noAttribute v name)

/-! ## Elements -/

def notSubscriptable (v : Value) : Failure :=
  .fault .type ("'" ++ v.typeName ++ "' object is not subscriptable")

def outOfRange (v : Value) : Failure :=
  .fault .index <| match v with
    | .bytes _ => "index out of range"
    | .member .. => "string index out of range"
    | .text _ => "string index out of range"
    | _ => v.typeName ++ " index out of range"

def ofElement (v : Value) : Option Value → Outcome Value
  | some found => .ok found
  | Option.none => .error (outOfRange v)

def element (v : Value) (i : Nat) : Outcome Value :=
  match v with
  | .list items | .tuple items => ofElement v items[i]?
  | .bytes octets => ofElement v (octets[i]?.map fun b => .int b.toNat)
  | .dict _ => .error (.raised .key [.int i])
  | _ => match v.text? with
    | some s => ofElement v (s.toList[i]?.map fun c => .text c.toString)
    | Option.none => .error (notSubscriptable v)

def entry (v : Value) (key : String) : Outcome Value :=
  match v with
  | .dict entries => match Entries.get? entries key with
    | some found => .ok found
    | Option.none => .error (.raised .key [.text key])
  | .list _ | .tuple _ =>
    .error (.fault .type (v.typeName ++ " indices must be integers or slices, not str"))
  | .bytes _ => .error (.fault .type "byte indices must be integers or slices, not str")
  | _ => match v.text? with
    | some _ => .error (.fault .type "string indices must be integers, not 'str'")
    | Option.none => .error (notSubscriptable v)

/-! ## Loose data -/

def part (v : Value) (key : String) : Value :=
  match v with
  | .dict entries => (Entries.get? entries key).getD .none
  | _ => .none

def parts (v : Value) (key : String) : List Value :=
  match v.part key with
  | .list items => items
  | _ => []

def partText (v : Value) (key : String) : String := (v.part key).text?.getD ""

/-! ## Going through -/

def pairs (entries : Entries) : List Value := entries.map fun (k, v) => .tuple [.text k, v]

/-- The elements of a value that is gone through one by one: those of a container, the keys of a
dictionary, the characters of a text, the fields of a record with their names. -/
def iterate (v : Value) : Outcome (List Value) :=
  match v with
  | .list items | .tuple items | .set items => .ok items
  | .dict entries => .ok (entries.map fun (k, _) => .text k)
  | .message m => .ok (pairs (messageFields m))
  | .toolCall c => .ok (pairs (toolCallFields c))
  | .record _ fields extra => .ok (pairs (fields ++ extra))
  | _ => match v.text? with
    | some s => .ok (s.toList.map fun c => .text c.toString)
    | Option.none => .error (.fault .type ("'" ++ v.typeName ++ "' object is not iterable"))

end ChatPipeline.Value
