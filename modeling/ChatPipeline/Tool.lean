import ChatPipeline.Tool.Info
import ChatPipeline.Tool.Payload
import ChatPipeline.Work

/-!
# Tools

A tool has a description and runs on a payload.  `Tool.invoke` is how it is called from outside:
with a JSON text, giving a JSON text.  A tool is always there for whoever holds it: none counts as
false.
-/

namespace ChatPipeline

/-- A tool that lacks a description can be called, but not be offered to a model.  `run` is awaited,
and `room` is how deep the arguments that it is called with may nest. -/
structure Tool (σ : Type) where
  typeName : String
  name : String
  info? : Option ToolInfo
  run : Value → Work σ Value
  room : Nat := Json.usualDepth

namespace Tool

def info (t : Tool σ) : Outcome ToolInfo :=
  match t.info? with
  | some info => .ok info
  | none => .error (.fault .attribute ("'" ++ t.typeName ++ "' object has no attribute 'info'"))

def display (t : Tool σ) : String := "<" ++ t.typeName ++ " " ++ t.name ++ ">"

def invoke (t : Tool σ) (arguments : String) : Work σ String := do
  let payload ← decodeArguments t.room t.name arguments
  let result ← t.run (.dict payload)
  encodeResult result

end Tool

end ChatPipeline
