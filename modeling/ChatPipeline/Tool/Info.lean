import ChatPipeline.Schema.Convert
import ChatPipeline.Message.Validation

/-!
# Descriptions of tools

What a chat model is told about a tool: its name, what it does, and the tree of its parameters.
-/

namespace ChatPipeline

open ChatPipeline.Validation

structure ToolInfo where
  name : String
  description : String := ""
  parameters : ObjectParam := {}

namespace ToolInfo

def toSchema (info : ToolInfo) : Value := info.parameters.toParam.toSchema

def declaration (info : ToolInfo) : Value :=
  .dict [("type", .text "function"),
    ("function", .dict [("name", .text info.name), ("description", .text info.description),
      ("parameters", info.toSchema)])]

def checkParameters : Check ObjectParam := fun v =>
  (Param.checkAs .object v).andThen fun p => .ok (p.object?.getD {})

def checkFields (entries : Entries) : Checked ToolInfo :=
  (fun name description parameters => { name, description, parameters })
    <$> required entries "name" ToolCall.checkName
    <*> optional entries "description" "" checkText
    <*> optional entries "parameters" {} checkParameters

def check : Check ToolInfo := fun v =>
  match v with
  | .dict entries => checkFields entries
  | _ => notAnObject "ToolInfo" v

def validate (v : Value) : Outcome ToolInfo := (check v).toOutcome "ToolInfo"

def make (name description : String) (parameters : ObjectParam) : Outcome ToolInfo :=
  ((fun name => { name, description, parameters }) <$> (ToolCall.checkName (.text name)).under "name").toOutcome
    "ToolInfo"

theorem name_of_make {name description : String} {parameters : ObjectParam} {info : ToolInfo}
    (h : make name description parameters = .ok info) : info.name = name := by
  by_cases hn : name.isEmpty
  · simp [make, ToolCall.checkName, checkText, Value.text?, Checked.andThen, Checked.ok, hn, reject,
      Checked.issue, Checked.issues, Checked.under, Functor.map, Checked.map, Checked.toOutcome] at h
  · simp [make, ToolCall.checkName, checkText, Value.text?, Checked.andThen, Checked.ok, hn,
      Checked.under, Functor.map, Checked.map, Checked.toOutcome] at h
    rw [← h]

end ToolInfo

end ChatPipeline
