import ChatPipeline.Node

/-!
# Tool-calling agents

An agent keeps the whole conversation and alternates between its model and its tools, until the
model answers without asking for a tool or the number of requests is used up.
-/

namespace ChatPipeline

open ChatPipeline.Text

structure Agent (σ : Type) where
  model : ChatModel σ
  tools : ToolsNode σ
  maxSteps : Nat

namespace Agent

def defaultMaxSteps : Int := 12

def make (model : ChatModel σ) (tools : Outcome (ToolsNode σ)) (maxSteps : Int := defaultMaxSteps) :
    Outcome (Agent σ) := do
  if maxSteps < 1 then
    throw (.telling .value
      ((Value.int maxSteps).display.map fun text => "max_steps must be at least 1, got " ++ text))
  let tools ← tools
  return { model := model.withTools tools.toolInfos, tools, maxSteps := maxSteps.toNat }

def rounds (a : Agent σ) : Nat → List Message → Work σ Message
  | 0, _ => Work.fail (.stepLimit a.maxSteps)
  | left + 1, history => do
    let reply ← a.model.generate history
    let message ← ChatModel.replyMessage reply
    if message.hasToolCalls then
      let results ← a.tools.run message
      rounds a left (history ++ [message] ++ results)
    else return message

def generate (a : Agent σ) (messages : List Message) : Work σ Message :=
  if messages.isEmpty then Work.fail (.emptyInput "agent received no messages")
  else a.rounds a.maxSteps messages

def stream (a : Agent σ) (messages : List Message) : Work σ (List Message) := do
  let reply ← a.generate messages
  return [reply]

def transform (a : Agent σ) : Transform σ where
  apply v := do
    let messages ← ChatModel.conversation v
    let reply ← a.generate messages
    return .message reply

def display (a : Agent σ) : String :=
  "<ReactAgent tools=" ++ Failure.displayNames (a.tools.toolInfos.map (·.name)) ++ " max_steps=" ++
    decimal a.maxSteps ++ ">"

end Agent

end ChatPipeline
