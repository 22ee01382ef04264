import ChatPipeline.Tool.Execution

/-!
# Answering tool calls

A tools node answers the tool calls of a message with one tool message each.  Calls of tools that it
does not have are found before any tool runs.
-/

namespace ChatPipeline

open ChatPipeline.Text ChatPipeline.Validation

structure ToolsConfig where
  raiseOnError : Bool := false
  timeout : Option Float := none

namespace ToolsConfig

def checkFields (entries : Entries) : Checked ToolsConfig :=
  (fun raiseOnError timeout => { raiseOnError, timeout })
    <$> optional entries "raise_on_error" false checkBool
    <*> optional entries "timeout" none checkOptionalSeconds

def make (entries : Entries) : Outcome ToolsConfig :=
  (checkFields entries).toOutcome "ToolsNodeConfig"

end ToolsConfig

structure ToolsNode (σ : Type) where
  config : ToolsConfig := {}
  registry : Registry σ

namespace ToolsNode

def make (tools : List (Tool σ)) (config : ToolsConfig := {}) : Outcome (ToolsNode σ) := do
  let registry ← Registry.ofTools tools
  return { config, registry }

def toolInfos (n : ToolsNode σ) : List ToolInfo := n.registry.infos

def firstUnknown? (n : ToolsNode σ) (calls : List ToolCall) : Option ToolCall :=
  calls.find? fun c => !n.registry.contains c.name

def execute (n : ToolsNode σ) : Strategy σ :=
  Execution.inProcess n.registry (n.config.timeout.map .real)

def answer (config : ToolsConfig) (call : ToolCall) (r : ToolResult) : Outcome Message :=
  match r.error with
  | none => .ok (.tool (r.result.text?.getD "") call.id (some call.name))
  | some error =>
    if config.raiseOnError then .error (.toolFailed call.name (some call.id) error)
    else .ok (.tool ("tool " ++ quoted call.name ++ " failed: " ++ error) call.id (some call.name))

def answers (config : ToolsConfig) : List ToolCall → List ToolResult → Outcome (List Message)
  | call :: calls, r :: results => do
    let m ← answer config call r
    let ms ← answers config calls results
    return m :: ms
  | _, _ => .ok []

def run (n : ToolsNode σ) (m : Message) : Work σ (List Message) :=
  match n.firstUnknown? m.toolCalls with
  | some call => Work.fail (.unknownTool call.name)
  | none => do
    let results ← n.execute m.toolCalls none
    answers n.config m.toolCalls results

end ToolsNode

end ChatPipeline
