import ChatPipeline.Assistant
import ChatPipeline.CommandLine.Arguments
import ChatPipeline.Settings.Environment
import ChatPipeline.Tool.Stock

/-!
# The command

Answers one question from the command line.  The settings come from the environment and a file of
assignments; the assistant has the stock tools.
-/

namespace ChatPipeline.CommandLine

open ChatPipeline.Files ChatPipeline.Assistant

def program : String := "multi_tool_graph.py"

def usage : String := "usage: " ++ program ++ " [-h] [--env-file ENV_FILE] [--debug] question\n"

def helpText : String :=
  usage ++
  "\nAsk the multi-tool agent a question\n" ++
  "\npositional arguments:\n" ++
  "  question             user question / task\n" ++
  "\noptions:\n" ++
  "  -h, --help           show this help message and exit\n" ++
  "  --env-file ENV_FILE  explicit .env file to load\n" ++
  "  --debug              log node entry and routing\n"

def refusal (text : String) : Report :=
  { code := 2, errors := usage ++ program ++ ": error: " ++ text ++ "\n" }

structure Surroundings (σ : Type) where
  place : Place := { here := .empty }
  environment : Environment := []
  link : Web.Link σ
  complete : Value → Work σ Completion

def answer (s : Surroundings σ) (settings : Settings) (question : String) : Work σ Report := do
  let tools ← stockTools s.link s.place
  Assistant.ask (ChatModel.ofService settings.model s.complete) tools (.text question)

/-- Settings that lack a key are the user's to mend; any other failure is not caught. -/
def runArguments (s : Surroundings σ) (a : Arguments) : Work σ Report :=
  match (Settings.load s.place s.environment a.envFile).2 with
  | .ok settings => answer s settings a.question
  | .error (.configuration text) => return refusal text
  | .error f => Work.fail f

def Surroundings.run (s : Surroundings σ) (arguments : List String) : Work σ Report :=
  match parse arguments with
  | .run a => runArguments s a
  | .help => return { code := 0, output := helpText }
  | .refused text => return refusal text

end ChatPipeline.CommandLine
