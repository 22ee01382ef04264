import ChatPipeline.Tool

/-!
# Chat models

A chat model answers a conversation with one message.  It is bound to tools that it may ask for; a
single request may name other tools instead.
-/

namespace ChatPipeline

/-- The answer is whatever the model gives; that it is a message is for the caller to find out.
`ask` is awaited. -/
structure ChatModel (σ : Type) where
  tools : List ToolInfo := []
  ask : List ToolInfo → List Message → Work σ Value

namespace ChatModel

def withTools (m : ChatModel σ) (tools : List ToolInfo) : ChatModel σ := { m with tools }

def generate (m : ChatModel σ) (messages : List Message) (tools : Option (List ToolInfo) := none) :
    Work σ Value :=
  m.ask (tools.getD m.tools) messages

@[simp] theorem generate_withTools (m : ChatModel σ) (tools : List ToolInfo) (messages : List Message) :
    (m.withTools tools).generate messages = m.generate messages (some tools) := rfl

def replyMessage (reply : Value) : Outcome Message :=
  match reply with
  | .message m => .ok m
  | v => .error (v.noAttribute "tool_calls")

def conversation (v : Value) : Outcome (List Message) := do
  (← v.iterate).mapM fun m => match m with
    | .message m => .ok m
    | v => .error (v.noAttribute "role")

end ChatModel

end ChatPipeline
