import ChatPipeline.Tool.Validated
import ChatPipeline.Value.Access
import ChatPipeline.Web.Address

/-!
# The weather tool

A tool that asks a weather service for the current weather of a city.  The service answers with
loose data, of which the first condition counts.
-/

namespace ChatPipeline

open ChatPipeline.Text ChatPipeline.Validation

namespace Web

structure Request where
  address : String
  agent : String
  deriving DecidableEq, Repr

structure Response where
  status : Int
  body : String
  deriving DecidableEq, Repr

/-- How requests are sent: over a connection that is there already, or over one that is opened for
each request with a limit on its time. -/
inductive Link (σ : Type) where
  | shared (send : Request → Work σ Response)
  | own (connect : Value → Work σ (Request → Work σ Response))

end Web

namespace Weather

def defaultAgent : String := "agent-graph-weather-tool/0.1"

/-- Seconds. -/
def defaultTimeout : Value := .float 10.0

def host : String := "wttr.in"

def address (city : String) : String :=
  "https://" ++ host ++ "/" ++ Web.escape Web.isPathName city ++ "?format=j1"

/-! ## The answer of the service -/

def lookUp (v : Value) (key : String) (default : Value) : Outcome Value :=
  match v with
  | .dict entries => .ok ((Entries.get? entries key).getD default)
  | _ => .error (v.noAttribute "get")

def truncate (x : Float) : Outcome Int :=
  match Decimal.classify x with
  | .finite negative significand exponent =>
    let (up, down) := Decimal.powerRatio 2 exponent
    let n : Int := (significand * up / down : Nat)
    .ok (if negative then -n else n)
  | .infinite _ => .error (.fault .overflow "cannot convert float infinity to integer")
  | .nan => .ok 0

def denoted (v : Value) : Outcome Int :=
  match v with
  | .int i => .ok i
  | .bool b => .ok (if b then 1 else 0)
  | .float x => truncate x
  | .text s => .ok ((Decimal.anyScriptInteger s).getD 0)
  | _ => .ok 0

def descriptionOf (condition : Value) : Outcome Value := do
  let descriptions ← lookUp condition "weatherDesc" .none
  if descriptions.truthy then
    let first ← descriptions.element 0
    lookUp first "value" (.text "")
  else return .text ""

def current (city : String) (answer : Value) : Outcome Value := do
  let conditions ← lookUp answer "current_condition" .none
  if conditions.truthy then
    let condition ← conditions.element 0
    let temperature ← denoted (← lookUp condition "temp_C" (.text ""))
    let description ← descriptionOf condition
    return .dict [("weather", description), ("temp", .int temperature)]
  else throw (.weatherLookup ("no weather data for " ++ quoted city))

def withoutMark (s : String) : String :=
  match s.toList with
  | '\ufeff' :: rest => String.ofList rest
  | _ => s

def readBody (depth : Nat) (body : String) : Outcome Value :=
  let text := withoutMark body
  match Json.read depth text with
  | .ok v => .ok v
  | .error (.unmet expected left) => .error (.fault .json (Json.syntaxMessage text expected left))
  | .error (.longInteger n) => .error (.fault .value (Json.longIntegerMessage n))
  | .error (.tooDeep container) => .error (.fault .recursion (Json.depthMessage container))

def readResponse (depth : Nat) (city : String) (r : Web.Response) : Outcome Value := do
  if r.status ≠ 200 then
    throw (.weatherLookup (host ++ " returned status " ++ signedDecimal r.status))
  current city (← readBody depth r.body)

/-! ## The tool -/

/-- `room` is how deep an answer of the service may nest. -/
structure Options where
  agent : String := defaultAgent
  timeout : Value := defaultTimeout
  room : Nat := Json.usualDepth

def send (link : Web.Link σ) (timeout : Value) (r : Web.Request) : Work σ Web.Response :=
  match link with
  | .shared send => send r
  | .own connect => do
    let send ← connect timeout
    send r

def lookUpCity (link : Web.Link σ) (options : Options) (city : String) : Work σ Value := do
  let response ← send link options.timeout { address := address city, agent := options.agent }
  readResponse options.room city response

def declaration (link : Web.Link σ) (options : Options) : ToolDeclaration σ where
  typeName := "WeatherTool"
  name := "get_weather"
  doc := some "Look up the current weather of a city; returns its temperature (°C) and conditions."
  arguments := {
    name := "Arguments"
    policy := .forbid
    fields := [({ name := "city", description := some "City name, e.g. Beijing or Paris" }, .text)] }
  result := { name := "Result", fields := [({ name := "weather" }, .text), ({ name := "temp" }, .int)] }
  body := some (.coroutine fun entries =>
    lookUpCity link options (((Entries.get? entries "city").bind Value.text?).getD ""))

def tool (link : Web.Link σ) (options : Options := {}) : Outcome (Tool σ) :=
  (declaration link options).toTool

end Weather

end ChatPipeline
