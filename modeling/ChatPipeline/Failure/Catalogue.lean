import ChatPipeline.Signature
import ChatPipeline.Value.Access

/-!
# Catalogue of failures

Failures by the name of their kind: what each is made from, and which more general kinds it belongs
to.  A kind of which nothing is known takes any details.
-/

namespace ChatPipeline.Failure

open ChatPipeline.Text

inductive Given where
  | value (v : Value)
  | failure (f : Failure)

def Given.toValue : Given → Outcome Value
  | .value v => .ok v
  | .failure f => Value.text <$> f.told

def parameters (kind : String) : Option (List String × Entries) :=
  match kind with
  | "DuplicateNameError" => some (["name"], [])
  | "UnknownNodeError" => some (["name"], [("context", .text "")])
  | "GraphCompiledError" => some ([], [])
  | "NodeExecutionError" | "RoutingError" => some (["node_name", "cause"], [])
  | "InvalidRouteError" => some (["node_name", "route", "targets"], [])
  | "MaxStepsExceededError" => some (["max_steps"], [])
  | "MissingVariableError" => some (["variable"], [])
  | "UnknownToolError" => some (["tool_name"], [])
  | "ToolExecutionError" => some (["tool_name", "call_id", "message"], [])
  | "CommandFailedError" => some (["command", "returncode", "stderr"], [])
  | _ => none

def signature (kind : String) (required : List String) (named : Entries) : Signature :=
  { name := kind ++ ".__init__", receiver := true, required, named }

def ofParts (kind : String) (cause : Option Failure) (parts : List Value) : Option Failure :=
  match kind, parts, cause with
  | "DuplicateNameError", [.text name], _ => some (.duplicateName name)
  | "UnknownNodeError", [.text name, .text context], _ => some (.unknownNode name context)
  | "GraphCompiledError", [], _ => some .compiled
  | "NodeExecutionError", [.text node, _], some cause => some (.nodeFailed node cause)
  | "RoutingError", [.text node, _], some cause => some (.branchFailed node cause)
  | "MaxStepsExceededError", [.int bound], _ => if isLong bound then none else some (.stepLimit bound)
  | "MissingVariableError", [.text name], _ => some (.missingVariable name)
  | "UnknownToolError", [.text tool], _ => some (.unknownTool tool)
  | "ToolExecutionError", [.text tool, .none, .text error], _ => some (.toolFailed tool none error)
  | "ToolExecutionError", [.text tool, .text id, .text error], _ =>
    some (.toolFailed tool (some id) error)
  | "CommandFailedError", [.text command, .int status, .text errorText], _ =>
    if isLong status then none else some (.commandFailed command status errorText)
  | _, _, _ => none

def ofDetails (kind : String) (details : List Value) : Failure :=
  match kind, detailsMessage .type details with
  | "EmptyInputError", some text => .emptyInput text
  | "EmptyResponseError", some text => .emptyResponse text
  | "ConfigurationError", some text => .configuration text
  | "WeatherLookupError", some text => .weatherLookup text
  | _, _ => .raised (.ofName kind) details

/-- The message of a failure of a known kind whose parts have unusual types. -/
def looseMessage (kind : String) (parts : List Value) : Option String :=
  match kind, parts with
  | "DuplicateNameError", [name] => do return "node " ++ (← name.display) ++ " is already registered"
  | "UnknownNodeError", [name, context] => do
    let place ← if context.truthy then context.plain.map fun text => " (" ++ text ++ ")" else some ""
    return "unknown node " ++ (← name.display) ++ place
  | "MaxStepsExceededError", [bound] => do return "run exceeded " ++ (← bound.plain) ++ " steps"
  | "MissingVariableError", [name] => do
    return "template variable " ++ (← name.display) ++ " not provided"
  | "UnknownToolError", [tool] => do return "no tool registered under " ++ (← tool.display)
  | "ToolExecutionError", [tool, id, error] => do
    return "tool " ++ (← tool.display) ++ " (call " ++ (← id.plain) ++ ") failed: " ++ (← error.plain)
  | "NodeExecutionError", [node, cause] => do
    return "node " ++ (← node.display) ++ " failed: " ++ cause.typeName ++ ": " ++ (← cause.plain)
  | "RoutingError", [node, cause] => do
    return "branch after " ++ (← node.display) ++ " failed: " ++ cause.typeName ++ ": " ++ (← cause.plain)
  | _, _ => detailsMessage .type parts

def described (f : Failure) : Outcome Failure := (fun _ => f) <$> f.told

def construct (kind : String) (given : List Given) (named : Entries) : Outcome Failure := do
  let values ← given.mapM Given.toValue
  match parameters kind with
  | none => match named with
    | [] => return ofDetails kind values
    | _ => throw (.fault .type (kind ++ "() takes no keyword arguments"))
  | some (required, byName) =>
    let s := signature kind required byName
    let (bound, _) ← s.bind values named
    let parts := (required ++ byName.map Prod.fst).filterMap (Entries.get? bound)
    match kind, parts with
    | "InvalidRouteError", [.text node, route, targets] =>
      let names := (← targets.iterate).filterMap Value.text?
      described (.invalidRoute node route names)
    | _, _ =>
      let cause := given.findSome? fun g => match g with
        | .failure f => some f
        | .value _ => none
      match ofParts kind cause parts with
      | some f => described f
      | none => return .raised (.other kind) [.text (← written (looseMessage kind parts))]

def deliberate (kind : String) (text : Option String) : Failure :=
  match construct kind (text.toList.map fun s => .value (.text s)) [] with
  | .ok f => f
  | .error f => f

/-! ## Ancestry -/

def parents (kind : String) : List String :=
  match kind with
  | "GraphValidationError" | "GraphRunError" | "NodeError" | "ConfigurationError" => ["GraphError"]
  | "DuplicateNameError" | "UnknownNodeError" | "GraphCompiledError" =>
    ["GraphValidationError", "GraphError"]
  | "NodeExecutionError" | "RoutingError" | "InvalidRouteError" | "MaxStepsExceededError" =>
    ["GraphRunError", "GraphError"]
  | "MissingVariableError" => ["NodeError", "GraphError", "KeyError", "LookupError"]
  | "UnknownToolError" | "ToolExecutionError" | "EmptyResponseError" => ["NodeError", "GraphError"]
  | "EmptyInputError" => ["NodeError", "GraphError", "ValueError"]
  | "KeyError" | "IndexError" => ["LookupError"]
  | "ZeroDivisionError" | "OverflowError" => ["ArithmeticError"]
  | "RecursionError" | "NotImplementedError" | "CommandFailedError" | "WeatherLookupError" =>
    ["RuntimeError"]
  | "TimeoutError" | "FileNotFoundError" | "PermissionError" => ["OSError"]
  | "JSONDecodeError" | "ValidationError" => ["ValueError"]
  | _ => []

def ancestry (kind : String) : List String :=
  if (FaultKind.ofName kind).isExit then [kind] else kind :: (parents kind ++ ["Exception"])

def isA (f : Failure) (kind : String) : Bool := (ancestry f.kind).contains kind

end ChatPipeline.Failure
