import ChatPipeline.Failure
import ChatPipeline.Text.Split

/-!
# Arguments of the command

One question, and options that may stand anywhere around it: two dashes in front of a name, which
may be cut short as long as it is clear, and a value after an equals sign or as the next argument.
Two dashes alone end the options.
-/

namespace ChatPipeline.CommandLine

open ChatPipeline.Text

inductive Flag where
  | help
  | envFile
  | debug
  deriving DecidableEq, Repr

def spellings : List (String × Flag) :=
  [("-h", .help), ("--help", .help), ("--env-file", .envFile), ("--debug", .debug)]

def Flag.title : Flag → String
  | .help => "-h/--help"
  | .envFile => "--env-file"
  | .debug => "--debug"

def Flag.takesValue : Flag → Bool
  | .envFile => true
  | .help | .debug => false

structure Arguments where
  question : String
  envFile : Option String := none
  debug : Bool := false
  deriving DecidableEq, Repr

inductive Parsed where
  | run (a : Arguments)
  | help
  | refused (text : String)
  deriving DecidableEq, Repr

/-! ## Kinds of arguments -/

/-- One argument: plain, the end of options, an option with the value that it carries, or something
that looks like an option and is none. -/
inductive Item where
  | plain (text : String)
  | separator
  | option (flag : Flag) (spelling : String) (value : Option String)
  | unknown (text : String)
  deriving DecidableEq, Repr

def isNegativeNumber (s : String) : Bool :=
  let cs := s.toList
  let cs := if cs.getLast? = some '\n' then cs.dropLast else cs
  match cs with
  | '-' :: rest =>
    let (whole, fraction) := cut '.' rest
    let digits (ds : List Char) := !ds.isEmpty && ds.all isDigit
    match fraction with
    | none => digits whole
    | some ds => whole.all isDigit && digits ds
  | _ => false

def cutText (separator : Char) (s : String) : String × Option String :=
  let (first, rest) := cut separator s.toList
  (String.ofList first, rest.map String.ofList)

def candidates (s : String) : List (Flag × String × Option String) :=
  if s.startsWith "--" then
    let (name, value) := cutText '=' s
    (spellings.filter fun (spelling, _) => spelling.startsWith name).map fun (spelling, f) =>
      (f, spelling, value)
  else
    let (short, rest) := (String.ofList (s.toList.take 2), String.ofList (s.toList.drop 2))
    spellings.filterMap fun (spelling, f) =>
      if spelling == short then some (f, spelling, some rest)
      else if spelling.startsWith s then some (f, spelling, none)
      else none

def exactly? (s : String) : Option Item :=
  match spellings.lookup s with
  | some f => some (.option f s none)
  | none =>
    let (name, value) := cutText '=' s
    match value, spellings.lookup name with
    | some v, some f => some (.option f name (some v))
    | _, _ => none

def ambiguous (s : String) (found : List (Flag × String × Option String)) : String :=
  "ambiguous option: " ++ s ++ " could match " ++ ", ".intercalate (found.map (·.2.1))

def Item.ofText (s : String) : Except String Item :=
  if !s.startsWith "-" || (s.length = 1) then .ok (.plain s)
  else
    match exactly? s with
    | some item => .ok item
    | none =>
      match candidates s with
      | [(f, spelling, value)] => .ok (.option f spelling value)
      | [] => .ok (if isNegativeNumber s || s.toList.contains ' ' then .plain s else .unknown s)
      | found => .error (ambiguous s found)

def items : List String → Except String (List Item)
  | [] => .ok []
  | s :: rest =>
    if s == "--" then .ok (.separator :: rest.map .plain)
    else do
      let item ← Item.ofText s
      let more ← items rest
      return item :: more

/-! ## Reading -/

structure Reading where
  question : Option String := none
  envFile : Option String := none
  debug : Bool := false
  surplus : List String := []

def faultOf (f : Flag) (text : String) : Parsed := .refused ("argument " ++ f.title ++ ": " ++ text)

def ignoredValue (f : Flag) (value : String) : Parsed :=
  faultOf f ("ignored explicit argument " ++ quoted value)

/-- An option with a value attached that it does not take.  Letters after a short option are short
options again. -/
def attached (f : Flag) (spelling value : String) : Parsed :=
  if spelling.startsWith "--" then ignoredValue f value
  else
    match value.toList.dropWhile (· == 'h') with
    | [] => if value.isEmpty then ignoredValue f value else .help
    | rest => ignoredValue f (String.ofList rest)

def Reading.takePlain (r : Reading) (text : String) : Reading :=
  match r.question with
  | none => { r with question := some text }
  | some _ => { r with surplus := r.surplus ++ [text] }

/-- The end of the options goes with a question right before it or after it, and else is surplus. -/
def Reading.takeSeparator (r : Reading) (followsQuestion : Bool) : Reading :=
  if r.question.isNone || followsQuestion then r else { r with surplus := r.surplus ++ ["--"] }

def Reading.finish (r : Reading) : Parsed :=
  match r.question with
  | none => .refused "the following arguments are required: question"
  | some question =>
    if r.surplus.isEmpty then .run { question, envFile := r.envFile, debug := r.debug }
    else .refused ("unrecognized arguments: " ++ " ".intercalate r.surplus)

def readItems (r : Reading) (followsQuestion : Bool) : List Item → Parsed
  | [] => r.finish
  | .plain text :: rest => readItems (r.takePlain text) r.question.isNone rest
  | .separator :: rest => readItems (r.takeSeparator followsQuestion) false rest
  | .unknown text :: rest => readItems { r with surplus := r.surplus ++ [text] } false rest
  | .option .help spelling value :: _ =>
    match value with
    | none => .help
    | some v => attached .help spelling v
  | .option .debug spelling value :: rest =>
    match value with
    | none => readItems { r with debug := true } false rest
    | some v => attached .debug spelling v
  | .option .envFile _ (some v) :: rest => readItems { r with envFile := some v } false rest
  | .option .envFile _ none :: .plain v :: rest => readItems { r with envFile := some v } false rest
  | .option .envFile _ none :: _ => faultOf .envFile "expected one argument"

def parse (arguments : List String) : Parsed :=
  match items arguments with
  | .ok is => readItems {} false is
  | .error text => .refused text

end ChatPipeline.CommandLine
