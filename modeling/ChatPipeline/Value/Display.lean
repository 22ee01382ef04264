import ChatPipeline.Value
import ChatPipeline.Text.Quoted
import ChatPipeline.Decimal.Notation

/-!
# Displayed values

`Value.form` is the form of a value inside messages and containers: texts quoted, containers in
brackets, records as `Name(field=…)`.  `Value.plainForm` is the form that a reader sees when a value
is written on its own: texts as they are, messages as a line of transcript, records as their fields.

A value with an integer in it that is too long to be written has neither.  `Value.display` and
`Value.plain` are the two forms where there is one, and `Value.shown` is what a report puts in the
place of the first where there is none.
-/

namespace ChatPipeline.Value

open ChatPipeline.Text ChatPipeline.Decimal

def displayBool (b : Bool) : String := if b then "True" else "False"

def commaSeparated (parts : List String) : String := ", ".intercalate parts

def displayTuple : List String → String
  | [only] => "(" ++ only ++ ",)"
  | parts => "(" ++ commaSeparated parts ++ ")"

def displaySet : List String → String
  | [] => "set()"
  | parts => "\x7b" ++ commaSeparated parts ++ "\x7d"

/-! ## Messages -/

def displayOption : Option String → String
  | Option.none => "None"
  | some s => quoted s

def toolCallTexts (c : ToolCall) : List String :=
  ["id=" ++ quoted c.id, "name=" ++ quoted c.name, "arguments=" ++ quoted c.arguments,
    "type=" ++ quoted "function"]

def displayToolCall (c : ToolCall) : String :=
  "ToolCall(" ++ commaSeparated (toolCallTexts c) ++ ")"

def displayRole (r : Role) : String := "<Role." ++ r.memberName ++ ": " ++ quoted r.text ++ ">"

def displayMessage (m : Message) : String :=
  "Message(" ++ commaSeparated
    ["role=" ++ displayRole m.role, "content=" ++ quoted m.content,
      "tool_calls=" ++ displayTuple (m.toolCalls.map displayToolCall),
      "tool_call_id=" ++ displayOption m.toolCallId, "name=" ++ displayOption m.name] ++ ")"

/-! ## All values -/

mutual

def form : Value → String
  | .none => "None"
  | .bool b => displayBool b
  | .int i => signedDecimal i
  | .float x => Decimal.display x
  | .text s => quoted s
  | .bytes octets => quotedBytes octets
  | .list items => "[" ++ commaSeparated (formItems items) ++ "]"
  | .tuple items => displayTuple (formItems items)
  | .set items => displaySet (formItems items)
  | .dict entries => "\x7b" ++ commaSeparated (formEntries entries) ++ "\x7d"
  | .message m => displayMessage m
  | .toolCall c => displayToolCall c
  | .member enumeration name _ value =>
    "<" ++ enumeration ++ "." ++ name ++ ": " ++ form value ++ ">"
  | .record type fields extra =>
    type ++ "(" ++ commaSeparated (formFields fields ++ formFields extra) ++ ")"

def formItems : List Value → List String
  | [] => []
  | v :: rest => form v :: formItems rest

def formEntries : List (String × Value) → List String
  | [] => []
  | (k, v) :: rest => (quoted k ++ ": " ++ form v) :: formEntries rest

def formFields : List (String × Value) → List String
  | [] => []
  | (k, v) :: rest => (k ++ "=" ++ form v) :: formFields rest

end

def plainForm : Value → String
  | .text s => s
  | .message m => m.transcript
  | .toolCall c => " ".intercalate (toolCallTexts c)
  | .member enumeration name _ _ => enumeration ++ "." ++ name
  | .record _ fields extra => " ".intercalate (formFields fields ++ formFields extra)
  | v => form v

/-! ## Values that cannot be written -/

mutual

/-- Whether an integer that is too long to be written stands anywhere in the form of a value. -/
def holdsLong : Value → Bool
  | .int i => isLong i
  | .list items | .tuple items | .set items => anyLong items
  | .dict entries => anyLongIn entries
  | .member _ _ _ value => holdsLong value
  | .record _ fields extra => anyLongIn fields || anyLongIn extra
  | _ => false

def anyLong : List Value → Bool
  | [] => false
  | v :: rest => holdsLong v || anyLong rest

def anyLongIn : List (String × Value) → Bool
  | [] => false
  | (_, v) :: rest => holdsLong v || anyLongIn rest

end

theorem anyLong_eq_false {items : List Value} :
    anyLong items = false ↔ ∀ v ∈ items, v.holdsLong = false := by
  induction items with
  | nil => simp [anyLong]
  | cons v items ih => simp [anyLong, ih]

theorem anyLongIn_eq_false {entries : List (String × Value)} :
    anyLongIn entries = false ↔ ∀ entry ∈ entries, entry.2.holdsLong = false := by
  induction entries with
  | nil => simp [anyLongIn]
  | cons entry entries ih => simp [anyLongIn, ih]

def display (v : Value) : Option String := if v.holdsLong then Option.none else some v.form

/-- A member of an enumeration is written by its name alone. -/
def plain : Value → Option String
  | .member enumeration name _ _ => some (enumeration ++ "." ++ name)
  | v => if v.holdsLong then Option.none else some v.plainForm

def unprintable (v : Value) : String := "<unprintable " ++ v.typeName ++ " object>"

def shown (v : Value) : String := v.display.getD v.unprintable

end ChatPipeline.Value
