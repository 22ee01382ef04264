import ChatPipeline.Tool

/-!
# Functions as tools

A function of one parameter, which is declared with a record type, becomes a tool: the record type
gives the parameters, and a payload is brought into it before the function sees it.
-/

namespace ChatPipeline

open ChatPipeline.Text ChatPipeline.Validation

structure Parameter where
  name : String
  shape : Option Shape := none

def inputType (function : String) (parameters : List Parameter) : Outcome RecordType :=
  match parameters with
  | [{ name, shape }] => match shape with
    | some (.record type doc policy fields) => .ok { name := type, doc, policy, fields }
    | _ => .error (.fault .type ("parameter " ++ quoted name ++ " of " ++ quoted function ++
        " must be annotated with a pydantic model"))
  | _ => .error (.fault .type (quoted function ++
      " must take exactly one argument (a pydantic model), got " ++ decimal parameters.length))

def Tool.ofFunction (name description : String) (input : RecordType) (f : Callable σ Value)
    (room : Nat := Json.usualDepth) : Outcome (Tool σ) := do
  let parameters ← Schema.parametersOf input
  let info ← ToolInfo.make name description parameters
  return {
    typeName := "FunctionTool"
    name := info.name
    info? := some info
    run := fun payload => do
      let request ← input.validate payload
      f.call request
    room }

end ChatPipeline
