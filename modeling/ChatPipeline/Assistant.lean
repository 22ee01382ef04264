import ChatPipeline.Graph.Run
import ChatPipeline.Completion

/-!
# The assistant

A graph that answers a question: the question goes into a template, a model answers it or asks for
tools, and in the second case the answer of the first tool is the output.
-/

namespace ChatPipeline.Assistant

open ChatPipeline.Text ChatPipeline.Validation

def systemPrompt : String :=
  "You are a helpful assistant with these tools:\n" ++
  "1. get_weather: look up the current weather of a city\n" ++
  "2. find_file: search a directory for files matching a pattern\n" ++
  "3. cat_file: read a file\n" ++
  "Pick the right tool for the user's question."

def template : ChatTemplate where
  parts := [.message (.system systemPrompt), .placeholder "chat_history" true,
    .message (.user "question: \x7bquestion\x7d")]

def toTools : Value → Work σ Value :=
  (Transform.choose (.text "node_tools") (.text endName) Transform.asksForTools).apply

def graph (model : ChatModel σ) (tools : List (Tool σ)) : Outcome (CompiledGraph σ) := do
  let tools ← ToolsNode.make tools
  let g : Graph σ := { name := "ask" }
  let g ← g.addNode "node_template" (.template template)
  let g ← g.addNode "node_model" (Node.ofModel model (some tools.toolInfos))
  let g ← g.addNode "node_tools" (.tools tools)
  let g ← g.addNode "node_converter" (.lambda Transform.takeFirst .messages .message)
  let g ← g.addEdge startName "node_template"
  let g ← g.addEdge "node_template" "node_model"
  let g ← g.addBranch "node_model" (some toTools) ["node_tools", endName]
  let g ← g.addEdge "node_tools" "node_converter"
  let g ← g.addEdge "node_converter" endName
  g.compile none

structure Report where
  code : Nat
  output : String := ""
  errors : String := ""
  deriving DecidableEq, Repr

def pathLine (path : List String) : String :=
  "path: START → " ++ " → ".intercalate path ++ " → END\n"

def reportOf (r : RunRecord) : Outcome Report := do
  if r.status = .completed then
    let output ← Failure.written r.output.plain
    return { code := 0, output := pathLine r.path ++ "\n" ++ output ++ "\n\n" }
  else
    return { code := 1, output := pathLine r.path, errors := "\nfailed: " ++ r.error.getD "None" ++ "\n" }

def ask (model : ChatModel σ) (tools : List (Tool σ)) (question : Value) : Work σ Report := do
  let g ← graph model tools
  let r ← g.run (.dict [("question", question)])
  reportOf r

end ChatPipeline.Assistant
