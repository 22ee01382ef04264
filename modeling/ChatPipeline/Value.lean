import ChatPipeline.Message
import ChatPipeline.Table

/-!
# Values

What flows from node to node, into templates, and in and out of tools: JSON-like data, messages, and
instances of declared records and enumerations.  Dictionaries, and the fields of a record, keep the
order in which their entries were put; `insert` overwrites in place and appends otherwise.
-/

namespace ChatPipeline

inductive Mixin where
  | plain
  | text
  | number
  deriving DecidableEq, Repr

inductive Value where
  | none
  | bool (b : Bool)
  | int (i : Int)
  | float (x : Float)
  | text (s : String)
  | bytes (octets : List UInt8)
  | list (items : List Value)
  | tuple (items : List Value)
  | set (items : List Value)
  | dict (entries : List (String × Value))
  | message (m : Message)
  | toolCall (c : ToolCall)
  | member (enumeration name : String) (mixin : Mixin) (value : Value)
  | record (type : String) (fields extra : List (String × Value))
  deriving Inhabited

/-! ## Ordered entries -/

abbrev Entries := List (String × Value)

namespace Entries

def get? (entries : Entries) (key : String) : Option Value := entries.lookup key

def contains (entries : Entries) (key : String) : Bool := (get? entries key).isSome

def keys (entries : Entries) : List String := entries.map Prod.fst

def insert (key : String) (v : Value) (entries : Entries) : Entries := Table.put key v entries

def override (entries newer : Entries) : Entries :=
  newer.foldl (fun acc (k, v) => insert k v acc) entries

theorem get?_insert (entries : Entries) (key other : String) (v : Value) :
    get? (insert key v entries) other = if other == key then some v else get? entries other :=
  Table.lookup_put entries key other v

end Entries

/-! ## Types and messages among values -/

namespace Value

def ofRole (r : Role) : Value := .member "Role" r.memberName .text (.text r.text)

def ofOption (f : α → Value) : Option α → Value
  | Option.none => .none
  | some a => f a

def typeName : Value → String
  | .none => "NoneType"
  | .bool _ => "bool"
  | .int _ => "int"
  | .float _ => "float"
  | .text _ => "str"
  | .bytes _ => "bytes"
  | .list _ => "list"
  | .tuple _ => "tuple"
  | .set _ => "set"
  | .dict _ => "dict"
  | .message _ => "Message"
  | .toolCall _ => "ToolCall"
  | .member enumeration .. => enumeration
  | .record type .. => type

/-- The text of a value that is a text, or a member of an enumeration of texts. -/
def text? : Value → Option String
  | .text s => some s
  | .member _ _ .text (.text s) => some s
  | _ => Option.none

def message? : Value → Option Message
  | .message m => some m
  | _ => Option.none

def messages? : Value → Option (List Message)
  | .list items | .tuple items => items.mapM message?
  | _ => Option.none

def ofMessages (ms : List Message) : Value := .list (ms.map .message)

@[simp] theorem messages?_ofMessages (ms : List Message) : messages? (ofMessages ms) = some ms := by
  simp only [messages?, ofMessages]
  induction ms with
  | nil => rfl
  | cons m ms ih => simp [List.mapM_cons, message?, ih]

def messageFields (m : Message) : Entries :=
  [("role", ofRole m.role), ("content", .text m.content),
    ("tool_calls", .tuple (m.toolCalls.map .toolCall)),
    ("tool_call_id", ofOption .text m.toolCallId), ("name", ofOption .text m.name)]

def toolCallFields (c : ToolCall) : Entries :=
  [("id", .text c.id), ("name", .text c.name), ("arguments", .text c.arguments),
    ("type", .text "function")]

def truthy : Value → Bool
  | .none => false
  | .bool b => b
  | .int i => i != 0
  | .float x => x != 0.0
  | .text s => !s.isEmpty
  | .bytes octets => !octets.isEmpty
  | .list items | .tuple items | .set items => !items.isEmpty
  | .dict entries => !entries.isEmpty
  | .message _ | .toolCall _ | .record .. => true
  | .member _ _ .plain _ => true
  | .member _ _ .text v | .member _ _ .number v => truthy v

end Value

end ChatPipeline
