import ChatPipeline.Validation.Shape
import ChatPipeline.Signature

/-!
# Messages from data

A message is read from an object: the role is required, everything else may be left out.  A message
that is already one is taken as it is.
-/

namespace ChatPipeline

open ChatPipeline.Validation

/-! ## Roles -/

def Role.enumeration : Enumeration where
  name := "Role"
  members := Role.all.map fun r => (r.memberName, .text r.text)
  mixin := .text

def Role.check : Check Role := fun v =>
  (Role.enumeration.check v).andThen fun member =>
    match member.text?.bind Role.ofText? with
    | some role => .ok role
    | none => reject "enum" ("Input should be " ++ alternatives (Role.enumeration.members.map Prod.snd)) v

/-! ## Tool calls -/

namespace ToolCall

/-- The identifier of a call that came without one.  It stands for twelve hexadecimal digits drawn
at random, of which it is assumed that nothing depends on them and that no draw repeats. -/
def unnamedId : String := "call_000000000000"

def checkName : Check String := fun v =>
  (checkText v).andThen fun s =>
    if s.isEmpty then reject "string_too_short" "String should have at least 1 character" v else .ok s

def checkFields (entries : Entries) : Checked ToolCall :=
  (fun id name arguments (_ : Value) => { id, name, arguments })
    <$> optional entries "id" unnamedId checkText
    <*> required entries "name" checkName
    <*> optional entries "arguments" "\x7b\x7d" checkText
    <*> optional entries "type" (.text "function") (checkLiteral [.text "function"])

def check : Check ToolCall := fun v =>
  match v with
  | .toolCall c => .ok c
  | .dict entries => checkFields entries
  | _ => notAnObject "ToolCall" v

def validate (v : Value) : Outcome ToolCall := (check v).toOutcome "ToolCall"

end ToolCall

/-! ## Messages -/

namespace Message

def checkOptionalText : Check (Option String) := fun v =>
  match v with
  | .none => .ok none
  | _ => some <$> checkText v

def checkToolCalls : Check (List ToolCall) := fun v =>
  match elements? v with
  | some items => checkItems ToolCall.check items
  | none => reject "tuple_type" "Input should be a valid tuple" v

def checkFields (entries : Entries) : Checked Message :=
  (fun role content toolCalls toolCallId name => { role, content, toolCalls, toolCallId, name })
    <$> required entries "role" Role.check
    <*> optional entries "content" "" checkText
    <*> optional entries "tool_calls" [] checkToolCalls
    <*> optional entries "tool_call_id" none checkOptionalText
    <*> optional entries "name" none checkOptionalText

def check : Check Message := fun v =>
  match v with
  | .message m => .ok m
  | .dict entries => checkFields entries
  | _ => notAnObject "Message" v

def validate (v : Value) : Outcome Message := (check v).toOutcome "Message"

@[simp] theorem validate_message (m : Message) : validate (.message m) = .ok m := rfl

/-! ## Composing -/

def signature : Role → Signature
  | .system => { name := "system_message", required := ["content"] }
  | .user => { name := "user_message", required := ["content"] }
  | .assistant => { name := "assistant_message", optional := [("content", .text ""), ("tool_calls", .tuple [])] }
  | .tool => { name := "tool_message", required := ["content", "tool_call_id"], optional := [("name", .none)] }

def compose (role : Role) (values : List Value) (named : Entries) : Outcome Message := do
  let (fields, _) ← (signature role).bind values named
  validate (.dict (("role", Value.ofRole role) :: fields))

end Message

/-! ## Frozen objects -/

def frozenInstance (type attributeName : String) (v : Value) : Failure :=
  .invalid ⟨type, [⟨[attributeName], "Instance is frozen", "frozen_instance", v⟩]⟩

end ChatPipeline
