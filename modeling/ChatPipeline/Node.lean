import ChatPipeline.Node.Kind
import ChatPipeline.Node.Tools
import ChatPipeline.Node.Transform
import ChatPipeline.Template.Chat
import ChatPipeline.ChatModel

/-!
# Nodes

A node turns the value that reaches it into the value that leaves it.  It checks the kind of what it
gets, and declares the kind of what it gives.
-/

namespace ChatPipeline

inductive Node (σ : Type) where
  | template (t : ChatTemplate)
  | model (m : ChatModel σ)
  | tools (n : ToolsNode σ)
  | lambda (f : Transform σ) (inputKind outputKind : ValueKind)

namespace Node

def ofModel (m : ChatModel σ) (tools : Option (List ToolInfo)) : Node σ :=
  match tools with
  | some infos => .model (m.withTools infos)
  | none => .model m

def kind : Node σ → NodeKind
  | .template _ => .template
  | .model _ => .model
  | .tools _ => .tools
  | .lambda .. => .lambda

def inputKind : Node σ → ValueKind
  | .template _ => .bindings
  | .model _ => .messages
  | .tools _ => .message
  | .lambda _ input _ => input

def outputKind : Node σ → ValueKind
  | .template _ => .messages
  | .model _ => .message
  | .tools _ => .messages
  | .lambda _ _ output => output

def display (n : Node σ) : String :=
  "<" ++ n.kind.typeName ++ " " ++ n.inputKind.name ++ "→" ++ n.outputKind.name ++ ">"

/-- The value a transform is handed: of messages, a list of its own that is not empty. -/
def handed (inputKind : ValueKind) (v : Value) : Outcome Value :=
  match inputKind with
  | .messages => do
    let items ← v.iterate
    if items.isEmpty then throw (.emptyInput "lambda node received no messages")
    return .list items
  | _ => .ok v

def run (n : Node σ) (v : Value) : Work σ Value :=
  match n with
  | .template t => do
    let values ← ChatTemplate.variableEntries v
    let messages ← t.format values
    return .ofMessages messages
  | .model m => do
    let messages ← ChatModel.conversation v
    let reply ← m.generate messages
    let message ← ChatModel.replyMessage reply
    return .message message
  | .tools n => do
    let message ← ChatModel.replyMessage v
    let messages ← n.run message
    return .ofMessages messages
  | .lambda f input _ => do
    let v ← handed input v
    Work.coroutine (f.apply v)

def unexpected (n : Node σ) (v : Value) : Failure :=
  .fault .type (n.kind.name ++ " node expects " ++ n.inputKind.name ++ ", got " ++ v.typeName)

def call (n : Node σ) (v : Value) : Work σ Value :=
  if n.inputKind.holds v then n.run v else Work.fail (n.unexpected v)

def leaves (n : Node σ) (v : Value) : Value :=
  match n with
  | .lambda f input _ =>
    if input = .messages ∨ input.holds v = false then v else f.leaves v
  | _ => v

end Node

end ChatPipeline
