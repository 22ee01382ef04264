import ChatPipeline.Settings
import ChatPipeline.Settings.Assignments
import ChatPipeline.Files.Tree

/-!
# Settings from the environment

An environment gives values to names.  Settings are read from three of its names, after the
assignments of a file were added to it; a name that has a value keeps it.  Values in the file may
refer to other names, those of the environment first.
-/

namespace ChatPipeline

open ChatPipeline.Text ChatPipeline.Files

abbrev Environment := List (String × String)

namespace Environment

def get? (env : Environment) (name : String) : Option String := env.lookup name

def getD (env : Environment) (name default : String) : String := (get? env name).getD default

/-! ## References -/

def reference? (cs : List Char) : Option (List Char × List Char × List Char) :=
  let name := cs.takeWhile fun c => c != '\x7d' && c != ':'
  match cs.drop name.length with
  | '\x7d' :: rest => some (name, [], rest)
  | ':' :: '-' :: after =>
    let default := after.takeWhile (· != '\x7d')
    match after.drop default.length with
    | _ :: rest => some (name, default, rest)
    | [] => none
  | _ => none

def expandWithin (value? : String → Option String) : Nat → List Char → List Char
  | 0, cs => cs
  | _, [] => []
  | fuel + 1, '$' :: '\x7b' :: rest =>
    match reference? rest with
    | some (name, default, after) =>
      ((value? (String.ofList name)).map String.toList).getD default ++ expandWithin value? fuel after
    | none => '$' :: expandWithin value? fuel ('\x7b' :: rest)
  | fuel + 1, c :: rest => c :: expandWithin value? fuel rest

def expand (value? : String → Option String) (s : String) : String :=
  String.ofList (expandWithin value? s.length s.toList)

/-- What a name stands for among the assignments so far; the environment comes first, and a name
that was assigned nothing is empty. -/
def known (env : Environment) (assigned : List (String × Option String)) (name : String) :
    Option String :=
  (get? env name).or ((assigned.lookup name).map (·.getD ""))

/-- The values of assignments, each seeing those before it. -/
def resolve (env : Environment) (assignments : List Assignment) : List (String × Option String) :=
  assignments.foldl (fun assigned a => Table.put a.name (a.value.map (expand (known env assigned))) assigned) []

/-! ## Adding -/

def refusal? (name value : String) : Option Failure :=
  if name.toList.contains '\x00' || value.toList.contains '\x00' then
    some (.fault .value "embedded null byte")
  else if name.toList.contains '=' then some (.fault .value "illegal environment variable name")
  else none

/-- Adds the values of names that have none; stops at the first that cannot be added. -/
def addMissing (env : Environment) : List (String × Option String) → Environment × Outcome Unit
  | [] => (env, .ok ())
  | (_, none) :: rest => addMissing env rest
  | (name, some value) :: rest =>
    if (get? env name).isSome then addMissing env rest
    else
      match refusal? name value with
      | some f => (env, .error f)
      | none => addMissing (env ++ [(name, value)]) rest

def readText (octets : List UInt8) : Outcome String :=
  match decode? octets with
  | some s => .ok s
  | none => .error (.fault (.other "UnicodeDecodeError") (decodingFault octets))

def load (env : Environment) (octets : List UInt8) : Environment × Outcome Unit :=
  match readText octets with
  | .ok s => addMissing env (resolve env (Assignment.parse s))
  | .error f => (env, .error f)

end Environment

/-! ## Reading settings -/

namespace Settings

def apiKeyName : String := "DEEPSEEK_API_KEY"

def baseUrlName : String := "DEEPSEEK_BASE_URL"

def modelName : String := "DEEPSEEK_MODEL"

def names : List String := [apiKeyName, baseUrlName, modelName]

def valueOr (env : Environment) (name default : String) : String :=
  let v := env.getD name ""
  if v.isEmpty then default else v

def ofEnvironment (env : Environment) : Outcome Settings :=
  let key := env.getD apiKeyName ""
  if isAllBlank key then .error (.configuration (apiKeyName ++ " is not set"))
  else make [("api_key", .text key), ("base_url", .text (valueOr env baseUrlName defaultBaseUrl)),
    ("model", .text (valueOr env modelName defaultModel))]

def fileName : String := ".env"

/-- The file of assignments: the one at a path, or the nearest one here or further up.  There need
not be one. -/
def assignmentFile? (place : Place) (path : Option String) : Option (List UInt8) :=
  match path with
  | some path => place.read? path
  | none => place.nearest? fileName

def load (place : Place) (env : Environment) (path : Option String) :
    Environment × Outcome Settings :=
  match assignmentFile? place path with
  | none => (env, ofEnvironment env)
  | some octets =>
    match env.load octets with
    | (env, .ok ()) => (env, ofEnvironment env)
    | (env, .error f) => (env, .error f)

end Settings

end ChatPipeline
