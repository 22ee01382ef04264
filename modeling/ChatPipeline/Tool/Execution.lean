import ChatPipeline.Tool.Registry
import ChatPipeline.Time

/-!
# Executing tool calls

A batch of calls is executed one by one.  Every call gets a result of its own: what the tool
answered, or why it did not.  A tool ends the batch only by a cancellation or by a failure that has
no text, which leaves nothing to put into a result.
-/

namespace ChatPipeline

structure ToolResult where
  tool : String
  callId : Option String := none
  result : Value := .none
  error : Option String := none
  startTime : Timestamp := .epoch
  endTime : Timestamp := .epoch

namespace ToolResult

def isOk (r : ToolResult) : Bool := r.error.isNone

def duration (r : ToolResult) : Outcome Float := r.endTime.secondsSince r.startTime

open Validation

def checkFields (now : Timestamp) (entries : Entries) : Checked ToolResult :=
  (fun tool callId result error startTime endTime (_ : String) (_ : Int) =>
      { tool, callId, result, error, startTime, endTime })
    <$> required entries "tool" checkText
    <*> optional entries "call_id" none Message.checkOptionalText
    <*> optional entries "result" .none .ok
    <*> optional entries "error" none Message.checkOptionalText
    <*> optional entries "start_time" now Timestamp.check
    <*> optional entries "end_time" now Timestamp.check
    <*> optional entries "machine" "" checkText
    <*> optional entries "pid" 0 checkInt

/-- A result from data; times that are not given are now. -/
def validate (now : Timestamp) (v : Value) : Outcome ToolResult :=
  (match v with
    | .dict entries => checkFields now entries
    | _ => notAnObject "ToolResult" v).toOutcome "ToolResult"

end ToolResult

abbrev Strategy (σ : Type) := List ToolCall → Option Limit → Work σ (List ToolResult)

namespace Execution

/-- What came of a call: the text of the answer, or the error. -/
abbrev Verdict := Except String String

def toolNotFound : String := "Tool not found"

def limitText (limit : Option Limit) : String :=
  "Timeout after " ++ (limit.map Limit.text).getD "None" ++ "s"

def limited (limit : Option Limit) (w : Work σ α) : Work σ (Option α) :=
  match limit with
  | some l => if l.isSet then l.apply w else some <$> w
  | none => some <$> w

/-- What is said about a failure of a tool: any timeout is taken for the limit. -/
def errorOf (limit : Option Limit) (f : Failure) : Option String :=
  if f.isTimeout then some (limitText limit) else f.message

def verdictOf (limit : Option Limit) : Outcome (Option String) → Outcome Verdict
  | .ok (some text) => .ok (.ok text)
  | .ok none => .ok (.error (limitText limit))
  | .error f => .error <$> Failure.written (errorOf limit f)

def judge (registry : Registry σ) (limit : Option Limit) (call : ToolCall) : Work σ Verdict :=
  match registry.get? call.name with
  | none => Work.pure (.error toolNotFound)
  | some tool => do
    let ending ← Work.attempt (limited limit (tool.invoke call.arguments))
    verdictOf limit ending

def resultOf (call : ToolCall) (startTime endTime : Timestamp) : Verdict → ToolResult
  | .ok text => { tool := call.name, callId := some call.id, result := .text text, startTime, endTime }
  | .error text => { tool := call.name, callId := some call.id, error := some text, startTime, endTime }

def execute (registry : Registry σ) (limit : Option Limit) (call : ToolCall) :
    Work σ ToolResult := do
  let started ← Work.clock
  let verdict ← judge registry limit call
  let ended ← Work.clock
  return resultOf call (.ofInstant started) (.ofInstant ended) verdict

/-- One call after the other; a limit for the batch wins over the default. -/
def inProcess (registry : Registry σ) (default : Option Limit) : Strategy σ := fun calls limit =>
  Work.each (execute registry (limit.or default)) calls

end Execution

end ChatPipeline
