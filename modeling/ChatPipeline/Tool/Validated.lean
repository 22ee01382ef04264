import ChatPipeline.Tool

/-!
# Tools that declare arguments and result

Such a tool checks the payload against its arguments, runs on them, and checks what comes out
against its result, so it always answers with the fields of the declared result.
-/

namespace ChatPipeline

open ChatPipeline.Text ChatPipeline.Validation

/-- The declaration of a tool.  A tool without a body cannot be used. -/
structure ToolDeclaration (σ : Type) where
  typeName : String
  name : String := ""
  description : String := ""
  doc : Option String := none
  arguments : RecordType := { name := "Arguments", policy := .forbid }
  result : RecordType := { name := "Result" }
  body : Option (Callable σ Entries)
  room : Nat := Json.usualDepth

namespace ToolDeclaration

def unspecifiedDoc : String :=
  "Base class for tools declaring nested ``Arguments`` / ``Result`` models."

def describe (d : ToolDeclaration σ) : String :=
  if d.description.isEmpty then dedent (d.doc.getD unspecifiedDoc) else d.description

def notAMapping (type : RecordType) (v : Value) : Failure :=
  .fault .type (type.name ++ "() argument after ** must be a mapping, not " ++ v.typeName)

def build (type : RecordType) (v : Value) : Outcome Value :=
  match v with
  | .dict _ => type.validate v
  | _ => .error (notAMapping type v)

def isInstance (type : RecordType) : Value → Bool
  | .record name .. => name == type.name
  | _ => false

def finish (type : RecordType) (raw : Value) : Outcome Value :=
  if isInstance type raw then .ok (dump raw) else (build type raw).map dump

def run (d : ToolDeclaration σ) (body : Callable σ Entries) (payload : Value) : Work σ Value := do
  let arguments ← build d.arguments payload
  let entries := match dump arguments with
    | .dict entries => entries
    | _ => []
  let raw ← body.call entries
  finish d.result raw

def info? (d : ToolDeclaration σ) : Outcome (Option ToolInfo) :=
  if d.name.isEmpty then .ok none
  else do
    let parameters ← Schema.parametersOf d.arguments
    let info ← ToolInfo.make d.name d.describe parameters
    return some info

def toTool (d : ToolDeclaration σ) : Outcome (Tool σ) := do
  let info? ← d.info?
  match d.body with
  | none => throw (.fault .type ("Can't instantiate abstract class " ++ d.typeName ++
      " with abstract method _execute"))
  | some body => return { typeName := d.typeName, name := d.name, info?, run := d.run body, room := d.room }

end ToolDeclaration

end ChatPipeline
