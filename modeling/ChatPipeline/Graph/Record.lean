import ChatPipeline.Time
import ChatPipeline.Message.Validation
import ChatPipeline.Schema.Param

/-!
# Run records

What is kept of one run of a graph: how far it came, through which nodes, what came out, and what
ended it if it failed.
-/

namespace ChatPipeline

open ChatPipeline.Validation

inductive RunStatus where
  | pending
  | running
  | completed
  | failed
  | cancelled
  deriving DecidableEq, Repr

namespace RunStatus

def all : List RunStatus := [.pending, .running, .completed, .failed, .cancelled]

def name : RunStatus → String
  | .pending => "pending"
  | .running => "running"
  | .completed => "completed"
  | .failed => "failed"
  | .cancelled => "cancelled"

def enumeration : Enumeration where
  name := "RunStatus"
  members := all.map fun s => (String.ofList (s.name.toList.map Char.toUpper), .text s.name)
  mixin := .text

def check : Check RunStatus := fun v =>
  (enumeration.check v).andThen fun member =>
    .ok ((all.find? fun s => member.text? == some s.name).getD .pending)

end RunStatus

structure RunRecord where
  status : RunStatus := .pending
  path : List String := []
  output : Value := .none
  error : Option String := none
  exception : Option Failure := none
  metadata : Entries := []
  startedAt : Timestamp := .epoch
  endedAt : Option Timestamp := none

namespace RunRecord

def started (r : RunRecord) (now : Timestamp) : RunRecord :=
  { r with status := .running, startedAt := now }

def completed (r : RunRecord) (now : Timestamp) (output : Value) : RunRecord :=
  { r with status := .completed, output, endedAt := some now }

def failed (r : RunRecord) (now : Timestamp) (cause : Option Failure) : Outcome RunRecord :=
  match cause with
  | some f => do
    let text ← f.told
    return { r with status := .failed, exception := some f, error := some text, endedAt := some now }
  | none => .ok { r with status := .failed, endedAt := some now }

def cancelled (r : RunRecord) (now : Timestamp) : RunRecord :=
  { r with status := .cancelled, endedAt := some now }

def enter (r : RunRecord) (node : String) : RunRecord := { r with path := r.path ++ [node] }

def duration (r : RunRecord) : Outcome (Option Float) :=
  match r.endedAt with
  | some t => (t.secondsSince r.startedAt).map some
  | none => .ok none

def dataFields : List String :=
  ["id", "started_at", "ended_at", "status", "path", "output", "error", "metadata"]

/-! ## Records from data -/

def checkMetadata : Check Entries := fun v =>
  match v with
  | .dict entries => .ok entries
  | _ => reject "dict_type" "Input should be a valid dictionary" v

def checkEnd : Check (Option Timestamp) := fun v =>
  match v with
  | .none => .ok none
  | _ => some <$> Timestamp.check v

def checkException : Check Unit := fun v =>
  match v with
  | .none => .ok ()
  | _ => reject "is_instance_of" "Input should be an instance of BaseException" v

def checkFields (now : Timestamp) (entries : Entries) : Checked RunRecord :=
  (fun (_ : String) startedAt endedAt status path output error (_ : Unit) metadata =>
      { status, path, output, error, metadata, startedAt, endedAt })
    <$> optional entries "id" "" checkText
    <*> optional entries "started_at" now Timestamp.check
    <*> optional entries "ended_at" none checkEnd
    <*> optional entries "status" .pending RunStatus.check
    <*> optional entries "path" [] Param.checkTexts
    <*> optional entries "output" .none .ok
    <*> optional entries "error" none Message.checkOptionalText
    <*> optional entries "exception" () checkException
    <*> optional entries "metadata" [] checkMetadata

def make (now : Timestamp) (entries : Entries) : Outcome RunRecord :=
  (checkFields now entries).toOutcome "GraphRun"

end RunRecord

end ChatPipeline
