import ChatPipeline.Validation.Report
import ChatPipeline.Text.Blank

/-!
# Failures

Every way in which building a graph, running it, calling a tool or reading the settings can go
wrong, as its cause.  `kind` is the name under which a failure is reported, `message` its text.  A
failure that carries an integer too long to be written has no text, and one that is described by
such a text when it is made cannot be made at all: what comes up instead is `unwritable`.
-/

namespace ChatPipeline

open ChatPipeline.Text

/-! ## Kinds of general failures -/

inductive FaultKind where
  | type
  | value
  | key
  | index
  | attribute
  | overflow
  | recursion
  | timeout
  | missingFile
  | json
  | stopIteration
  | cancelled
  | keyboardInterrupt
  | systemExit
  | generatorExit
  | base
  | other (name : String)
  deriving DecidableEq, Repr

namespace FaultKind

def name : FaultKind → String
  | .type => "TypeError"
  | .value => "ValueError"
  | .key => "KeyError"
  | .index => "IndexError"
  | .attribute => "AttributeError"
  | .overflow => "OverflowError"
  | .recursion => "RecursionError"
  | .timeout => "TimeoutError"
  | .missingFile => "FileNotFoundError"
  | .json => "JSONDecodeError"
  | .stopIteration => "StopIteration"
  | .cancelled => "CancelledError"
  | .keyboardInterrupt => "KeyboardInterrupt"
  | .systemExit => "SystemExit"
  | .generatorExit => "GeneratorExit"
  | .base => "BaseException"
  | .other n => n

def named : List FaultKind :=
  [.type, .value, .key, .index, .attribute, .overflow, .recursion, .timeout, .missingFile, .json,
    .stopIteration, .cancelled, .keyboardInterrupt, .systemExit, .generatorExit, .base]

/-- The kinds that ask for the end of the work as such. -/
def isExit : FaultKind → Bool
  | .cancelled | .keyboardInterrupt | .systemExit | .generatorExit | .base => true
  | _ => false

def ofName (n : String) : FaultKind := (named.find? (·.name == n)).getD (.other n)

end FaultKind

/-! ## Malformed graphs -/

inductive WiringDefect where
  | edgeFromEnd
  | branchFromEnd
  | edgeToStart
  | branchToStart
  | branchWithoutTargets (src : String)
  | noEntry
  | noExit
  | twoEdges (src : String)
  | edgeAndBranch (src : String)
  | twoBranches (src : String)
  | noSuccessor (node : String)
  | unreachable (node : String)
  | endUnreachable
  | incompatible (src produced dst expected : String)
  | boundTooSmall
  deriving DecidableEq, Repr

def WiringDefect.message : WiringDefect → String
  | .edgeFromEnd => "END cannot be the source of an edge"
  | .branchFromEnd => "END cannot be the source of a branch"
  | .edgeToStart => "START cannot be the target of an edge"
  | .branchToStart => "START cannot be a branch target"
  | .branchWithoutTargets src => "branch after " ++ quoted src ++ " declares no targets"
  | .noEntry => "no edge or branch starts at START"
  | .noExit => "no edge or branch leads to END"
  | .twoEdges src => quoted src ++ " has more than one outgoing edge"
  | .edgeAndBranch src => quoted src ++ " has both an edge and a branch"
  | .twoBranches src => quoted src ++ " has more than one branch"
  | .noSuccessor node => "node " ++ quoted node ++ " has no outgoing edge or branch"
  | .unreachable node => "node " ++ quoted node ++ " is not reachable from START"
  | .endUnreachable => "END is not reachable from START"
  | .incompatible src produced dst expected =>
    quoted src ++ " produces " ++ produced ++ " but " ++ quoted dst ++ " expects " ++ expected
  | .boundTooSmall => "max_steps must be at least 1"

/-! ## All failures -/

inductive Failure where
  | duplicateName (name : String)
  | unknownNode (name context : String)
  | compiled
  | wiring (defect : WiringDefect)
  | nodeFailed (node : String) (cause : Failure)
  | branchFailed (node : String) (cause : Failure)
  | invalidRoute (node : String) (route : Value) (targets : List String)
  | stepLimit (bound : Int)
  | missingVariable (name : String)
  | unknownTool (tool : String)
  | toolFailed (tool : String) (callId : Option String) (error : String)
  | emptyInput (text : String)
  | emptyResponse (text : String)
  | configuration (text : String)
  | commandFailed (command : String) (status : Int) (errorText : String)
  | weatherLookup (text : String)
  | invalid (report : Validation.Report)
  | raised (kind : FaultKind) (details : List Value)

namespace Failure

def fault (kind : FaultKind) (text : String) : Failure := .raised kind [.text text]

def kind : Failure → String
  | .duplicateName _ => "DuplicateNameError"
  | .unknownNode .. => "UnknownNodeError"
  | .compiled => "GraphCompiledError"
  | .wiring _ => "GraphValidationError"
  | .nodeFailed .. => "NodeExecutionError"
  | .branchFailed .. => "RoutingError"
  | .invalidRoute .. => "InvalidRouteError"
  | .stepLimit _ => "MaxStepsExceededError"
  | .missingVariable _ => "MissingVariableError"
  | .unknownTool _ => "UnknownToolError"
  | .toolFailed .. => "ToolExecutionError"
  | .emptyInput _ => "EmptyInputError"
  | .emptyResponse _ => "EmptyResponseError"
  | .configuration _ => "ConfigurationError"
  | .commandFailed .. => "CommandFailedError"
  | .weatherLookup _ => "WeatherLookupError"
  | .invalid _ => "ValidationError"
  | .raised k _ => k.name

/-- The text of a failure that only carries details: nothing for none, the detail itself for one.
A missing key is shown quoted. -/
def detailsMessage (kind : FaultKind) : List Value → Option String
  | [] => some ""
  | [only] => if kind = .key then only.display else only.plain
  | details => (details.mapM Value.display).map Value.displayTuple

def sortNames (names : List String) : List String :=
  (names.mergeSort fun a b => decide (a ≤ b)).eraseDups

def displayNames (names : List String) : String :=
  "[" ++ Value.commaSeparated (names.map quoted) ++ "]"

/-- The text of a failure, if it has one.  No run takes so many steps, and no command ends with such
a code, that the number could not be written. -/
def message : Failure → Option String
  | .duplicateName name => some ("node " ++ quoted name ++ " is already registered")
  | .unknownNode name context =>
    some ("unknown node " ++ quoted name ++ (if context.isEmpty then "" else " (" ++ context ++ ")"))
  | .compiled => some "graph has been compiled and can no longer be modified"
  | .wiring defect => some defect.message
  | .nodeFailed node cause =>
    (message cause).map fun text => "node " ++ quoted node ++ " failed: " ++ cause.kind ++ ": " ++ text
  | .branchFailed node cause =>
    (message cause).map fun text =>
      "branch after " ++ quoted node ++ " failed: " ++ cause.kind ++ ": " ++ text
  | .invalidRoute node route targets =>
    route.display.map fun text =>
      "branch after " ++ quoted node ++ " chose " ++ text ++ ", expected one of " ++
        displayNames (sortNames targets)
  | .stepLimit bound => some ("run exceeded " ++ signedDecimal bound ++ " steps")
  | .missingVariable name => some ("template variable " ++ quoted name ++ " not provided")
  | .unknownTool tool => some ("no tool registered under " ++ quoted tool)
  | .toolFailed tool callId error =>
    some ("tool " ++ quoted tool ++ " (call " ++ callId.getD "None" ++ ") failed: " ++ error)
  | .emptyInput text | .emptyResponse text | .configuration text | .weatherLookup text => some text
  | .commandFailed command status errorText =>
    some (command ++ " exited with " ++ signedDecimal status ++ ": " ++ trim errorText)
  | .invalid report => some report.text
  | .raised kind details => detailsMessage kind details

/-! ## Failures without a text -/

def unwritable : Failure :=
  fault .value ("Exceeds the limit (" ++ decimal maxIntegerDigits ++
    " digits) for integer string conversion; use sys.set_int_max_str_digits() to increase the limit")

def written : Option String → Except Failure String
  | some text => .ok text
  | none => .error unwritable

def told (f : Failure) : Except Failure String := written f.message

/-- What comes up where a failure is made that is described when it is made. -/
def made (f : Failure) : Failure := if f.message.isSome then f else unwritable

/-- A fault that is described by a text, where the text can be written. -/
def telling (kind : FaultKind) (text : Option String) : Failure :=
  (text.map (fault kind)).getD unwritable

/-! ## Failures that are told apart -/

/-- A cancellation and the like are no errors of the work itself: nothing that reports errors
catches them. -/
def isExit : Failure → Bool
  | .raised kind _ => kind.isExit
  | _ => false

def isTimeout : Failure → Bool
  | .raised .timeout _ => true
  | _ => false

def isStopIteration : Failure → Bool
  | .raised .stopIteration _ => true
  | _ => false

end Failure

abbrev Outcome (α : Type) := Except Failure α

end ChatPipeline
