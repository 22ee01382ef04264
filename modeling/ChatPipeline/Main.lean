import ChatPipeline.CommandLine
import ChatPipeline.Files.Listing

/-!
# The program

Runs the command in the process.  Standard input holds one JSON object with what the command finds
around it: the files of the working directory under `tree`, and under `responses` the answers of the
completion service, the last of which is repeated.
-/

namespace ChatPipeline.CommandLine

def replay (responses : List Completion) (_ : Value) : Work Nat Completion := do
  Work.change (· + 1)
  let n ← Work.inspect id
  return (responses[min n responses.length - 1]?).getD []

def noConnection : Failure := .fault (.other "ConnectError") "All connection attempts failed"

def surroundingsOf (data : Value) (environment : Environment) : Surroundings Nat where
  place := .beneath "work" (.ofListing (data.parts "tree"))
  environment
  link := .shared fun _ => Work.fail noConnection
  complete := replay ((data.parts "responses").map Completion.ofData)

def settingsEnvironment : IO Environment :=
  Settings.names.filterMapM fun name => do
    let value ← IO.getEnv name
    return value.map (name, ·)

def serve (arguments : List String) : IO UInt32 := do
  let input ← (← IO.getStdin).readToEnd
  let data := match Json.read Json.usualDepth input with
    | .ok v => v
    | .error _ => .none
  let (ending, _) := (surroundingsOf data (← settingsEnvironment)).run arguments none { world := 0 }
  match ending with
  | .done r =>
    IO.print r.output
    IO.eprint r.errors
    return r.code.toUInt32
  | .failed f =>
    IO.eprintln (f.kind ++ ": " ++ f.message.getD "<exception str() failed>")
    return 1
  | .expired => return 1

end ChatPipeline.CommandLine

def main (arguments : List String) : IO UInt32 := ChatPipeline.CommandLine.serve arguments
