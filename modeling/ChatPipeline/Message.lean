/-!
# Chat messages

A conversation is a list of messages.  An assistant message may carry tool calls; a tool message
answers one of them and names it by its identifier.
-/

namespace ChatPipeline

inductive Role where
  | system
  | user
  | assistant
  | tool
  deriving DecidableEq, Repr

namespace Role

def all : List Role := [.system, .user, .assistant, .tool]

def text : Role → String
  | .system => "system"
  | .user => "user"
  | .assistant => "assistant"
  | .tool => "tool"

def memberName : Role → String
  | .system => "SYSTEM"
  | .user => "USER"
  | .assistant => "ASSISTANT"
  | .tool => "TOOL"

def ofText? (s : String) : Option Role := all.find? (·.text == s)

@[simp] theorem ofText?_text (r : Role) : ofText? r.text = some r := by
  cases r <;> decide

end Role

/-- A tool invocation that a model asks for.  The arguments stay the JSON text that was sent; only
the tool reads it. -/
structure ToolCall where
  id : String
  name : String
  arguments : String := "\x7b\x7d"
  deriving DecidableEq, Repr

structure Message where
  role : Role
  content : String := ""
  toolCalls : List ToolCall := []
  toolCallId : Option String := none
  name : Option String := none
  deriving DecidableEq, Repr

namespace Message

def system (content : String) : Message := { role := .system, content }

def user (content : String) : Message := { role := .user, content }

def assistant (content : String) (toolCalls : List ToolCall := []) : Message :=
  { role := .assistant, content, toolCalls }

def tool (content toolCallId : String) (name : Option String := none) : Message :=
  { role := .tool, content, toolCallId := some toolCallId, name }

def hasToolCalls (m : Message) : Bool := !m.toolCalls.isEmpty

def transcript (m : Message) : String :=
  let calls := m.toolCalls.map fun c => c.name ++ "(" ++ c.arguments ++ ")"
  let callsText :=
    if m.toolCalls.isEmpty then "" else " [tool_calls: " ++ ", ".intercalate calls ++ "]"
  let idText := match m.toolCallId with
    | some id => if id.isEmpty then "" else " [tool_call_id: " ++ id ++ "]"
    | none => ""
  m.role.text ++ ": " ++ m.content ++ callsText ++ idText

end Message

end ChatPipeline
