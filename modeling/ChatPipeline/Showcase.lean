import ChatPipeline.Graph.Run
import ChatPipeline.Tool.Function

/-!
# Showcase

Two small graphs that need no service.  In one, a model asks for the weather of whatever the
question ends with, a tool makes the weather up, and the answer of the tool is the output; the other
goes round until it has taken too many steps.  `report` runs both and tells what became of it.
-/

namespace ChatPipeline.Showcase

open ChatPipeline.Text ChatPipeline.Validation

/-! ## An eager model -/

def lastWord (question : String) : Outcome String :=
  let stem := String.ofList (question.toList.reverse.dropWhile (· == '?')).reverse
  match (words stem).getLast? with
  | some word => .ok word
  | none => .error (Value.outOfRange (.list []))

def weatherCall (messages : List Message) : Outcome Message :=
  match messages.getLast? with
  | some m => do
    let city ← lastWord m.content
    let call : ToolCall := {
      id := ToolCall.unnamedId, name := "get_weather"
      arguments := Json.loose (.dict [("city", .text city)]) }
    return .assistant "" [call]
  | none => .error (Value.outOfRange (.list []))

def eagerModel : ChatModel σ where
  ask _ messages := do
    let m ← weatherCall messages
    return .message m

/-! ## Made-up weather -/

def weatherRequest : RecordType where
  name := "WeatherReq"
  fields := [({ name := "city", description := some "City name" }, .text)]

def sunny (request : Value) : Outcome Value := do
  return .dict [("weather", .text "sunny"), ("temp", .int 20), ("city", ← request.getAttribute "city")]

def weatherTool : Outcome (Tool σ) :=
  Tool.ofFunction "get_weather" "current weather for a city" weatherRequest
    (.plain fun r => do sunny r)

/-! ## Graphs -/

def toTools : Value → Work σ Value :=
  (Transform.choose (.text "node_tools") (.text endName) Transform.asksForTools).apply

def weatherTemplate : ChatTemplate where
  parts := [.message (.system "you can look up the weather."), .message (.user "\x7bquestion\x7d")]

def weatherGraph : Outcome (CompiledGraph σ) := do
  let tool ← weatherTool
  let info ← tool.info
  let tools ← ToolsNode.make [tool]
  let g : Graph σ := { name := "offline_weather" }
  let g ← g.addNode "node_template" (.template weatherTemplate)
  let g ← g.addNode "node_model" (Node.ofModel eagerModel (some [info]))
  let g ← g.addNode "node_tools" (.tools tools)
  let g ← g.addNode "node_converter" (.lambda Transform.takeFirst .messages .message)
  let g ← g.addEdge startName "node_template"
  let g ← g.addEdge "node_template" "node_model"
  let g ← g.addBranch "node_model" (some toTools) ["node_tools", endName]
  let g ← g.addEdge "node_tools" "node_converter"
  let g ← g.addEdge "node_converter" endName
  g.compile none

/-- A graph of one node that takes anything, and a branch after it that always goes one way. -/
def circle (name node : String) (f : Transform σ) (route : String) (targets : List String)
    (maxSteps : Option Int) : Outcome (CompiledGraph σ) := do
  let g : Graph σ := { name }
  let g ← g.addNode node (.lambda f .any .any)
  let g ← g.addEdge startName node
  let g ← g.addBranch node (some (Transform.const (.text route)).apply) targets
  g.compile maxSteps

def loopingGraph : Outcome (CompiledGraph σ) :=
  circle "loop" "node_count" (Transform.ofFunction fun v => v.add (.int 1)) "node_count"
    ["node_count", endName] (some 5)

def strayGraph : Outcome (CompiledGraph σ) :=
  circle "bad_route" "node_echo" Transform.identity "node_unknown" [endName] none

/-! ## The report -/

def heading (title rule : String) : String := "\n── " ++ title ++ " " ++ rule ++ "\n"

def temperature (output : Value) : Outcome Value := do
  let content ← output.getAttribute "content"
  let entries ← decodeArguments Json.usualDepth "get_weather" (content.text?.getD "")
  (Value.dict entries).entry "temp"

def errorText (r : RunRecord) : String := r.error.getD "None"

def pathText (names : List String) : String := " → ".intercalate names

def answeredSection (r : RunRecord) : Outcome String := do
  let t ← temperature r.output
  let output ← Failure.written r.output.plain
  let t ← Failure.written t.plain
  return heading "weather question" "─────────────────────────────" ++
    "path:   " ++ pathText r.path ++ "\noutput: " ++ output ++ "\ntemp:   " ++ t ++ "\n"

def unansweredSection (r : RunRecord) : String :=
  heading "missing template variable" "────────────────────" ++
    "status: " ++ r.status.name ++ "\nerror:  " ++ errorText r ++ "\n"

def loopSection (r : RunRecord) : String :=
  heading "runaway cycle" "────────────────────────────────" ++
    "status: " ++ r.status.name ++ " after " ++ decimal r.path.length ++ " steps\nerror:  " ++
    errorText r ++ "\n"

def straySection (outcome : Outcome Value) : Outcome String := do
  let raised ← match outcome with
    | .ok _ => .ok ""
    | .error f => (fun text => "raised: " ++ text ++ "\n") <$> f.told
  return heading "bad route" "────────────────────────────────────" ++ raised

def report : Work σ String := do
  let weather ← weatherGraph
  let answered ← weather.run (.dict [("question", .text "how is the weather in Paris?")])
  let first ← answeredSection answered
  let unanswered ← weather.run (.dict [("not_question", .text "?")])
  let loop ← loopingGraph
  let looped ← loop.run (.int 0)
  let stray ← strayGraph
  let strayed ← Work.attempt (stray.invoke (.dict []))
  let last ← straySection strayed
  return first ++ unansweredSection unanswered ++ loopSection looped ++ last

end ChatPipeline.Showcase
