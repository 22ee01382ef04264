import ChatPipeline.Value.Arithmetic
import ChatPipeline.Message.Validation
import ChatPipeline.Work

/-!
# Transforms

What a lambda node applies to a value, and what a branch decides by.  The ready-made ones collapse
lists, read and change entries, and wrap values.
-/

namespace ChatPipeline

open ChatPipeline.Validation

/-- A transform of values.  One that consumes its argument says what is left of it. -/
structure Transform (σ : Type) where
  apply : Value → Work σ Value
  leaves : Value → Value := id

namespace Transform

def ofFunction (f : Value → Outcome Value) : Transform σ where
  apply v := Work.ofOutcome (f v)

def delayed (duration : Nat) (t : Transform σ) : Transform σ :=
  { t with apply := fun v => do Work.sleep duration; t.apply v }

/-! ## Lists -/

def takeFirst : Transform σ := ofFunction fun v =>
  if v.truthy then v.element 0 else .error (.emptyInput "no messages to take")

def lastOf (v : Value) : Outcome Value :=
  match v with
  | .list items | .tuple items => Value.ofElement v items.getLast?
  | .text s => Value.ofElement v (s.toList.getLast?.map fun c => .text c.toString)
  | .bytes octets => Value.ofElement v (octets.getLast?.map fun b => .int b.toNat)
  | .dict _ => .error (.raised .key [.int (-1)])
  | _ => .error v.notSubscriptable

def last : Transform σ := ofFunction lastOf

def headOf (v : Value) : Outcome Value :=
  match v with
  | .list (head :: _) => .ok head
  | .list [] => .error (.fault .index "pop from empty list")
  | .dict _ => .error (.raised .key [.int 0])
  | _ => .error (v.noAttribute "pop")

def pop : Transform σ where
  apply v := Work.ofOutcome (headOf v)
  leaves v := match v with
    | .list (_ :: rest) => .list rest
    | v => v

def reversed (v : Value) : Outcome Value :=
  match v with
  | .list items => .ok (.list items.reverse)
  | .tuple items => .ok (.tuple items.reverse)
  | .text s => .ok (.text (String.ofList s.toList.reverse))
  | .bytes octets => .ok (.bytes octets.reverse)
  | .dict _ => .error (.fault .type "unhashable type: 'slice'")
  | _ => .error v.notSubscriptable

def reverse : Transform σ := ofFunction reversed

def join (separator : String) : Transform σ := ofFunction fun v => do
  let contents ← (← v.iterate).mapM fun m => m.getAttribute "content"
  return .message (.assistant (separator.intercalate (contents.map fun c => c.text?.getD "")))

/-! ## Entries -/

def lookUp (key v : Value) : Outcome Value :=
  match key with
  | .int i => v.element i.toNat
  | _ => v.entry (key.text?.getD "")

def get (key : Value) : Transform σ := ofFunction (lookUp key)

def mapping (v : Value) : Outcome Entries :=
  match v with
  | .dict entries => .ok entries
  | _ => .error (.fault .type ("'" ++ v.typeName ++ "' object is not a mapping"))

def set (key : String) (value : Value) : Transform σ := ofFunction fun v => do
  let entries ← mapping v
  return .dict (Entries.insert key value entries)

def increase (key : String) (amount : Value) : Transform σ := ofFunction fun v => do
  let entries ← mapping v
  let sum ← ((Entries.get? entries key).getD (.int 0)).add amount
  return .dict (Entries.insert key sum entries)

/-! ## Wrapping -/

def identity : Transform σ := ofFunction .ok

def const (value : Value) : Transform σ := ofFunction fun _ => .ok value

def fail (f : Failure) : Transform σ := ofFunction fun _ => .error f

def singleton : Transform σ := ofFunction fun v => .ok (.list [v])

def wrap (key : String) : Transform σ := ofFunction fun v => .ok (.dict [(key, v)])

def field (name : String) : Transform σ := ofFunction fun v => v.getAttribute name

def ask : Transform σ := ofFunction fun v => do
  let content ← v.getAttribute "content"
  let m ← Message.compose .user [content] []
  return .list [.message m]

/-! ## Decisions -/

def choose (yes no : Value) (test : Value → Outcome Bool) : Transform σ := ofFunction fun v => do
  return if ← test v then yes else no

def asksForTools (v : Value) : Outcome Bool := (v.getAttribute "tool_calls").map Value.truthy

def isBelow (key limit v : Value) : Outcome Bool := do
  let found ← lookUp key v
  found.lessThan limit

end Transform

end ChatPipeline
