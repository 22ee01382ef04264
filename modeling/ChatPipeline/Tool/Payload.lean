import ChatPipeline.Json.Reader
import ChatPipeline.Json.Writer
import ChatPipeline.Failure

/-!
# What goes into a tool and comes out

Tools are called with a JSON text and answer with one.  Blank arguments stand for none at all.  How
deep arguments may nest depends on what is under way where they are read, so the depth is given.
-/

namespace ChatPipeline

open ChatPipeline.Text

def decodeArguments (depth : Nat) (tool arguments : String) : Outcome Entries :=
  if isAllBlank arguments then .ok []
  else
    match Json.read depth arguments with
    | .ok (.dict entries) => .ok entries
    | .ok _ => .error (.fault .value (tool ++ ": arguments must be a JSON object"))
    | .error (.unmet expected left) =>
      .error (.fault .value (tool ++ ": arguments are not valid JSON (" ++
        Json.syntaxMessage arguments expected left ++ ")"))
    | .error (.longInteger n) => .error (.fault .value (Json.longIntegerMessage n))
    | .error (.tooDeep container) => .error (.fault .recursion (Json.depthMessage container))

/-! ## Answers -/

mutual

/-- Whether a value has no loose text, for an integer in it that is too long to be written.  What
JSON does not know is written by its form. -/
def holdsLongInteger : Value → Bool
  | .int i => isLong i
  | .list items | .tuple items => anyLongInteger items
  | .dict entries => anyLongIntegerIn entries
  | .member _ _ .number value => holdsLongInteger value
  | .member .. => false
  | v => v.holdsLong

def anyLongInteger : List Value → Bool
  | [] => false
  | v :: rest => holdsLongInteger v || anyLongInteger rest

def anyLongIntegerIn : List (String × Value) → Bool
  | [] => false
  | (_, v) :: rest => holdsLongInteger v || anyLongIntegerIn rest

end

def unserializable (fault : String) : Failure :=
  .fault (.other "PydanticSerializationError") ("Error serializing to JSON: " ++ fault)

/-- The answer of a tool as text.  A record on its own is written compactly; inside other values it
counts as a text. -/
def encodeResult (v : Value) : Outcome String :=
  match v with
  | .record .. | .message _ | .toolCall _ =>
    match Json.undecodable? v with
    | some fault => .error (unserializable fault)
    | none => .ok (Json.compact v)
  | _ => if holdsLongInteger v then .error .unwritable else .ok (Json.loose v)

end ChatPipeline
