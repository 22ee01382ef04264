import ChatPipeline.Template.Markup
import ChatPipeline.Template.Layout
import ChatPipeline.Value.Access

/-!
# Variables and rendering

A field name is a variable followed by a path of attributes and elements.  `variableNames` lists the
variables that a text reads, those inside specs included, in order of first use.  `expand` replaces
every field by its value; `render` first makes sure that every variable is there.
-/

namespace ChatPipeline.Template

open ChatPipeline.Text

/-! ## Variables -/

def rootName (name : List Char) : List Char :=
  (name.takeWhile (· != '.')).takeWhile (· != '[')

def unsupportedPositional (cs : List Char) : Failure :=
  valueFault ("positional fields are not supported: " ++ quoted (String.ofList cs))

def addNames (names found : List String) : List String :=
  found.foldl (fun acc n => if acc.contains n then acc else acc ++ [n]) names

def collect (ofSpec : List Char → Outcome (List String)) (cs : List Char)
    (fault : Option MarkupFault) :
    List Piece → List String → Outcome (List String)
  | [], names => match fault with
    | some f => .error (valueFault f.message)
    | none => .ok names
  | .literal _ :: rest, names => collect ofSpec cs fault rest names
  | .field f :: rest, names =>
    let root := rootName f.name
    if root.isEmpty then .error (unsupportedPositional cs)
    else
      match (if f.spec.isEmpty then .ok [] else ofSpec f.spec) with
      | .error e => .error e
      | .ok inner => collect ofSpec cs fault rest (addNames names (String.ofList root :: inner))

/-- Specs are shorter than the text that holds them, so a depth of the text's length is enough. -/
def variablesWithin : Nat → List Char → Outcome (List String)
  | 0, _ => .ok []
  | depth + 1, cs =>
    let (ps, fault) := pieces cs
    collect (variablesWithin depth) cs fault ps []

def variableNames (text : String) : Outcome (List String) :=
  variablesWithin (text.toList.length + 1) text.toList

/-! ## Field paths -/

def positionalField : Failure := valueFault "Format string contains positional fields"

/-- A name of decimal digits only denotes a position.  Too many digits at its start are refused
before it is known whether anything else follows them. -/
def position? (name : List Char) : Outcome (Option Nat) :=
  (readNumber name).map fun (n, count, rest) => if count = 0 || !rest.isEmpty then none else some n

def pathStep (v : Value) : List Char → Outcome (Value × List Char)
  | '.' :: rest =>
    let name := rest.takeWhile fun c => c != '.' && c != '['
    if name.isEmpty then .error (valueFault "Empty attribute in format string")
    else do
      let next ← v.getAttribute (String.ofList name)
      return (next, rest.drop name.length)
  | '[' :: rest =>
    let name := rest.takeWhile (· != ']')
    if name.length = rest.length then .error (valueFault "Missing ']' in format string")
    else do
      let index ← position? name
      if name.isEmpty then throw (valueFault "Empty attribute in format string")
      let next ← match index with
        | some i => v.element i
        | none => v.entry (String.ofList name)
      return (next, rest.drop (name.length + 1))
  | _ => .error (valueFault "Only '.' or '[' may follow ']' in format field specifier")

def followPath : Nat → Value → List Char → Outcome Value
  | _, v, [] => .ok v
  | 0, v, _ => .ok v
  | fuel + 1, v, path => do
    let (next, rest) ← pathStep v path
    followPath fuel next rest

def fieldValue (values : Entries) (name : List Char) : Outcome Value := do
  let root := name.takeWhile fun c => c != '.' && c != '['
  let path := name.drop root.length
  if (← position? root).isSome || root.isEmpty then throw positionalField
  match values.get? (String.ofList root) with
  | none => throw (.raised .key [.text (String.ofList root)])
  | some v => followPath path.length v path

/-! ## Conversions and layout -/

/-- The null character as a conversion is the same as none. -/
def convert (v : Value) : Option Char → Outcome Value
  | none | some '\x00' => .ok v
  | some 's' => (Failure.written v.plain).map .text
  | some 'r' => (Failure.written v.display).map .text
  | some 'a' => (Failure.written v.display).map fun text => .text (asciiOnly text)
  | some c =>
    let shown := if 32 < c.toNat ∧ c.toNat < 127 then c.toString
      else "\\x" ++ String.ofList (digits 16 c.toNat)
    .error (valueFault ("Unknown conversion specifier " ++ shown))

def layout (spec : List Char) (v : Value) : Outcome String :=
  match v with
  | .text s => layoutText spec s
  | .int i => if spec.isEmpty then Failure.written v.plain else layoutInt "int" spec i
  | .bool b => if spec.isEmpty then Failure.written v.plain else layoutInt "bool" spec (if b then 1 else 0)
  | .float x => layoutFloat spec x
  | .member .. => layoutText spec v.plainForm
  | _ =>
    if spec.isEmpty then Failure.written v.plain
    else .error (.fault .type ("unsupported format string passed to " ++ v.typeName ++ ".__format__"))

/-! ## Rendering -/

def tooDeep : Failure := valueFault "Max string recursion exceeded"

def expandField (ofSpec : List Char → Outcome String) (values : Entries) (f : Field) :
    Outcome String := do
  let v ← fieldValue values f.name
  let v ← convert v f.conversion
  let spec ← if f.spec.contains '{' then ofSpec f.spec else .ok (String.ofList f.spec)
  layout spec.toList v

def expandPieces (ofField : Field → Outcome String) (fault : Option MarkupFault) :
    List Piece → Outcome (List Char)
  | [] => match fault with
    | some f => .error (valueFault f.message)
    | none => .ok []
  | .literal c :: rest => do
    let tail ← expandPieces ofField fault rest
    return c :: tail
  | .field f :: rest => do
    let head ← ofField f
    let tail ← expandPieces ofField fault rest
    return head.toList ++ tail

def expandWithin (values : Entries) : Nat → List Char → Outcome String
  | 0, _ => .error tooDeep
  | depth + 1, cs => do
    let (ps, fault) := pieces cs
    let out ← expandPieces (expandField (expandWithin values depth) values) fault ps
    return String.ofList out

/-- A spec may hold fields, and their specs none. -/
def expand (values : Entries) (text : String) : Outcome String := expandWithin values 2 text.toList

def firstMissing? (values : Entries) (names : List String) : Option String :=
  names.find? fun n => !values.contains n

def render (values : Entries) (text : String) : Outcome String := do
  let names ← variableNames text
  match firstMissing? values names with
  | some n => throw (.missingVariable n)
  | none => expand values text

end ChatPipeline.Template
