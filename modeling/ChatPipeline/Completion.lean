import ChatPipeline.ChatModel

/-!
# Chat completions

How a conversation is put to a completion service, and how the first choice of its answer becomes a
message.  The service sends loose data: any field of a choice may have any type.
-/

namespace ChatPipeline

open ChatPipeline.Text ChatPipeline.Validation

structure OfferedCall where
  id : Value
  type : Value := .text "function"
  name : Value
  arguments : Value

structure Choice where
  content : Value := .none
  toolCalls : List OfferedCall := []

abbrev Completion := List Choice

namespace Completion

/-! ## Requests -/

def encodeCall (c : ToolCall) : Value :=
  .dict [("id", .text c.id), ("type", .text "function"),
    ("function", .dict [("name", .text c.name), ("arguments", .text c.arguments)])]

/-- A message as the service reads it.  A message that only asks for tools has null for content. -/
def encodeMessage (m : Message) : Value :=
  let plain : Entries := [("role", .text m.role.text), ("content", .text m.content)]
  match m.role with
  | .tool => .dict (plain ++ [("tool_call_id", Value.ofOption .text m.toolCallId)])
  | .assistant =>
    if m.hasToolCalls then
      .dict [("role", .text m.role.text),
        ("content", if m.content.isEmpty then .none else .text m.content),
        ("tool_calls", .list (m.toolCalls.map encodeCall))]
    else .dict plain
  | _ => .dict plain

def request (model : String) (tools : List ToolInfo) (messages : List Message) : Value :=
  .dict ([("model", .text model), ("messages", .list (messages.map encodeMessage))] ++
    (if tools.isEmpty then [] else [("tools", .list (tools.map ToolInfo.declaration))]))

/-! ## Answers -/

/-- Calls of anything but functions are left out. -/
def isFunction (c : OfferedCall) : Bool := sameScalar c.type (.text "function")

def orText (v : Value) (default : String) : Value := if v.truthy then v else .text default

def decodeCall (c : OfferedCall) : Outcome ToolCall :=
  ToolCall.validate (.dict [("id", c.id), ("name", c.name),
    ("arguments", orText c.arguments "\x7b\x7d")])

def decodeChoice (c : Choice) : Outcome Message := do
  let calls ← (c.toolCalls.filter isFunction).mapM decodeCall
  Message.compose .assistant [orText c.content "", .tuple (calls.map .toolCall)] []

def decode (model : String) (c : Completion) : Outcome Message :=
  match c with
  | choice :: _ => decodeChoice choice
  | [] => .error (.emptyResponse ("no choices returned from " ++ model))

/-! ## Completions from data -/

def callOfData (v : Value) : OfferedCall where
  id := v.part "id"
  type := match v.part "type" with
    | .none => .text "function"
    | type => type
  name := v.part "name"
  arguments := v.part "arguments"

def choiceOfData (v : Value) : Choice where
  content := v.part "content"
  toolCalls := (v.parts "tool_calls").map callOfData

def ofData (v : Value) : Completion := (v.parts "choices").map choiceOfData

end Completion

/-! ## Models -/

namespace ChatModel

def ofService (model : String) (complete : Value → Work σ Completion)
    (tools : List ToolInfo := []) :
    ChatModel σ where
  tools := tools
  ask tools messages := do
    let completion ← complete (Completion.request model tools messages)
    let reply ← Completion.decode model completion
    return .message reply

def displayService (model : String) (tools : List ToolInfo) : String :=
  "<OpenAIChatModel " ++ model ++ " tools=" ++ Failure.displayNames (tools.map (·.name)) ++ ">"

end ChatModel

end ChatPipeline
