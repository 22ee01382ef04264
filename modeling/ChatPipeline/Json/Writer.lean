import ChatPipeline.Text.Bytes
import ChatPipeline.Value.Display

/-!
# JSON text of a value

Two notations.  `loose` is for any value: a blank after each comma and colon, the number texts of
displayed values, and for what JSON does not know the text that the value has when written on its
own.  `compact` is for records: no blanks, no number that is not finite, octets as the text that
they encode, and each record inside written as an object of its fields.
-/

namespace ChatPipeline.Json

open ChatPipeline.Text ChatPipeline.Decimal

def escapeChar (c : Char) : List Char :=
  if c = '"' ∨ c = '\\' then ['\\', c]
  else if c = '\n' then ['\\', 'n']
  else if c = '\r' then ['\\', 'r']
  else if c = '\t' then ['\\', 't']
  else if c = '\x0c' then ['\\', 'f']
  else if c = '\x08' then ['\\', 'b']
  else if c.toNat < 0x20 then '\\' :: 'u' :: paddedDigits 16 4 c.toNat
  else [c]

def quote (s : String) : String :=
  String.ofList ('"' :: s.toList.flatMap escapeChar ++ ['"'])

def looseNumber : NumberStyle :=
  { plainNumber with nan := "NaN", positiveInfinity := "Infinity", negativeInfinity := "-Infinity" }

def array (separator : String) (items : List String) : String :=
  "[" ++ separator.intercalate items ++ "]"

def object (comma colon : String) (members : List (String × String)) : String :=
  "\x7b" ++ comma.intercalate (members.map fun (k, v) => quote k ++ colon ++ v) ++ "\x7d"

def writeBool (b : Bool) : String := if b then "true" else "false"

/-! ## Loose text -/

mutual

def loose : Value → String
  | .none => "null"
  | .bool b => writeBool b
  | .int i => signedDecimal i
  | .float x => looseNumber.format x
  | .text s => quote s
  | .list items | .tuple items => array ", " (looseItems items)
  | .dict entries => object ", " ": " (looseEntries entries)
  | .member enumeration name mixin value => match mixin with
    | .plain => quote (enumeration ++ "." ++ name)
    | _ => loose value
  | v => quote v.plainForm

def looseItems : List Value → List String
  | [] => []
  | v :: rest => loose v :: looseItems rest

def looseEntries : List (String × Value) → List (String × String)
  | [] => []
  | (k, v) :: rest => (k, loose v) :: looseEntries rest

end

/-! ## Compact text -/

def compactOption : Option String → String
  | none => "null"
  | some s => quote s

def compactObject (members : List (String × String)) : String := object "," ":" members

def compactToolCall (c : ToolCall) : String :=
  compactObject [("id", quote c.id), ("name", quote c.name), ("arguments", quote c.arguments),
    ("type", quote "function")]

def compactMessage (m : Message) : String :=
  compactObject [("role", quote m.role.text), ("content", quote m.content),
    ("tool_calls", array "," (m.toolCalls.map compactToolCall)),
    ("tool_call_id", compactOption m.toolCallId), ("name", compactOption m.name)]

mutual

def compact : Value → String
  | .none => "null"
  | .bool b => writeBool b
  | .int i => signedDecimal i
  | .float x => compactNumber.format x
  | .text s => quote s
  | .bytes octets => quote (decodeLossy octets)
  | .list items | .tuple items | .set items => array "," (compactItems items)
  | .dict entries => compactObject (compactEntries entries)
  | .message m => compactMessage m
  | .toolCall c => compactToolCall c
  | .member _ _ _ value => compact value
  | .record _ fields extra => compactObject (compactEntries fields ++ compactEntries extra)

def compactItems : List Value → List String
  | [] => []
  | v :: rest => compact v :: compactItems rest

def compactEntries : List (String × Value) → List (String × String)
  | [] => []
  | (k, v) :: rest => (k, compact v) :: compactEntries rest

end

/-! ## Octets that are no text -/

def octetsFault? (octets : List UInt8) : Option String :=
  (firstFault 0 octets).map fun (position, count, reason) =>
    if reason = unfinished then "incomplete utf-8 byte sequence from index " ++ decimal position
    else "invalid utf-8 sequence of " ++ decimal count ++ " bytes from index " ++ decimal position

mutual

def undecodable? : Value → Option String
  | .bytes octets => octetsFault? octets
  | .list items | .tuple items | .set items => undecodableAmong? items
  | .dict entries => undecodableIn? entries
  | .member _ _ _ value => undecodable? value
  | .record _ fields extra => (undecodableIn? fields).or (undecodableIn? extra)
  | _ => none

def undecodableAmong? : List Value → Option String
  | [] => none
  | v :: rest => (undecodable? v).or (undecodableAmong? rest)

def undecodableIn? : List (String × Value) → Option String
  | [] => none
  | (_, v) :: rest => (undecodable? v).or (undecodableIn? rest)

end

theorem undecodableAmong?_eq_none {items : List Value} :
    undecodableAmong? items = none ↔ ∀ v ∈ items, undecodable? v = none := by
  induction items with
  | nil => simp [undecodableAmong?]
  | cons v items ih => simp [undecodableAmong?, ih]

theorem undecodableIn?_eq_none {entries : List (String × Value)} :
    undecodableIn? entries = none ↔ ∀ entry ∈ entries, undecodable? entry.2 = none := by
  induction entries with
  | nil => simp [undecodableIn?]
  | cons entry entries ih => simp [undecodableIn?, ih]

end ChatPipeline.Json
