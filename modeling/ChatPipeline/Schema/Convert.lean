import ChatPipeline.Schema.Param
import ChatPipeline.Schema.Fragment
import ChatPipeline.Value.Access

/-!
# From JSON schemas to parameter trees

`convert` reads the part of JSON schema that record types give: references into `$defs`, a single
`allOf`, an optional written as `anyOf` with null, enumerations without a type, arrays without item
schema.  A description stands for the whole way down to the fragment that ends it, the innermost one
winning.  Every step that follows a reference or enters a fragment uses up depth, of which there is
enough for every way that follows no reference twice, so only a schema that refers to itself ends in
a failure for lack of it.
-/

namespace ChatPipeline.Schema

open ChatPipeline.Validation

def unsupportedUnion (alternatives : Value) : Failure :=
  .telling .value (alternatives.display.map fun text => "Unsupported union in tool schema: " ++ text)

def unsupportedFragment (entries : Entries) : Failure :=
  .telling .value
    ((Value.dict entries).display.map fun text => "Unsupported schema fragment: " ++ text)

def endlessReference : Failure := .fault .recursion "maximum recursion depth exceeded"

def referenceName (s : String) : String :=
  String.ofList (s.toList.reverse.takeWhile (· != '/')).reverse

def noMethod (v : Value) (name : String) : Failure := v.noAttribute name

def fragmentEntries (v : Value) : Outcome Entries :=
  match v with
  | .dict entries => .ok entries
  | _ => .error (noMethod v "get")

def size (v : Value) : Outcome Nat :=
  match v with
  | .list items | .tuple items | .set items => .ok items.length
  | .dict entries => .ok entries.length
  | .bytes octets => .ok octets.length
  | _ => match v.text? with
    | some s => .ok s.length
    | none => .error (.fault .type ("object of type '" ++ v.typeName ++ "' has no len()"))

def onlyPart (v : Value) : Outcome (Option Value) := do
  if (← size v) = 1 then
    let only ← v.element 0
    return some only
  else return none

def nonNull (v : Value) : Outcome (List Value) := do
  let alternatives ← v.iterate
  alternatives.filterM fun a => do
    let entries ← fragmentEntries a
    return match entries.get? "type" with
      | some (.text "null") => false
      | _ => true

def followReference (defs : Value) (target : Value) : Outcome Value :=
  match target.text? with
  | some s => defs.entry (referenceName s)
  | none => .error (noMethod target "rsplit")

def fragmentType (entries : Entries) : Value :=
  match entries.get? "type" with
  | some .none | none => if entries.contains "enum" then .text "string" else .none
  | some t => t

def entryOr (entries : Entries) (key : String) (default : Value) : Value :=
  (entries.get? key).getD default

def optionalText (v : Value) : Checked (Option String) := Param.checkOptionalText v

def checkedDescription (d : Value) : Checked (Option String) := (optionalText d).under "description"

def primitiveOf (type : PrimitiveType) (description choices : Value) : Outcome Param :=
  ((fun d c => Param.primitive d type c) <$> checkedDescription description
    <*> (Param.checkChoices choices).under "enum").toOutcome "PrimitiveParam"

def arrayOf (description : Value) (items : Param) : Outcome Param :=
  ((fun d => Param.array d items) <$> checkedDescription description).toOutcome "ArrayParam"

def objectOf (description : Value) (properties : List (String × Param)) (required : List Value) :
    Outcome Param :=
  ((fun d rs => Param.object d properties rs) <$> checkedDescription description
    <*> (checkItems checkText required).under "required").toOutcome "ObjectParam"

def convertEach (step : Value → Outcome Param) : Entries → Outcome (List (String × Param))
  | [] => .ok []
  | (k, v) :: rest => do
    let p ← step v
    let ps ← convertEach step rest
    return (k, p) :: ps

def convertTyped (step : Value → Outcome Param) (entries : Entries) (description : Value) :
    Outcome Param :=
  match fragmentType entries with
  | .text "object" => do
    let properties ← match entryOr entries "properties" (.dict []) with
      | .dict ps => .ok ps
      | v => .error (noMethod v "items")
    let properties ← convertEach step properties
    let required ← Value.iterate (entryOr entries "required" (.list []))
    objectOf description properties required
  | .text "array" => do
    let items ← step (entryOr entries "items" (.dict [("type", .text "string")]))
    arrayOf description items
  | .list _ => .error (.fault .type "unhashable type: 'list'")
  | .dict _ => .error (.fault .type "unhashable type: 'dict'")
  | .set _ => .error (.fault .type "unhashable type: 'set'")
  | t => match t.text?.bind PrimitiveType.ofName? with
    | some type => primitiveOf type description (entryOr entries "enum" .none)
    | none => .error (unsupportedFragment entries)

/-- Reads a fragment under a description from further out. -/
def convertWithin (defs : Value) : Nat → Value → Value → Outcome Param
  | 0, _, _ => .error endlessReference
  | depth + 1, outer, node => do
    let entries ← fragmentEntries node
    let description := entryOr entries "description" outer
    match entries.get? "$ref" with
    | some target => do
      let target ← followReference defs target
      convertWithin defs depth description target
    | none =>
      let part ← match entries.get? "allOf" with
        | some parts => onlyPart parts
        | none => .ok none
      match part with
      | some only => convertWithin defs depth description only
      | none =>
        match entries.get? "anyOf" with
        | some alternatives =>
          match ← nonNull alternatives with
          | [only] => convertWithin defs depth description only
          | _ => throw (unsupportedUnion alternatives)
        | none => convertTyped (convertWithin defs depth .none) entries description

def total (weight : α → Nat) : List α → Nat
  | [] => 0
  | a :: rest => weight a + total weight rest

/-- The most steps on a way that follows no reference twice: those inside the fragment, and those
inside each of the definitions. -/
def stepBound (defs node : Value) : Nat :=
  let within := match defs with
    | .dict entries => total (fun e => Param.depth e.2 + 1) entries
    | _ => 0
  Param.depth node + 1 + within

theorem depth_lt_stepBound (defs node : Value) : Param.depth node < stepBound defs node :=
  Nat.lt_of_lt_of_le (Nat.lt_succ_self _) (Nat.le_add_right _ _)

theorem exists_stepBound_dict (defs : Value) (entries : Entries) :
    ∃ depth, stepBound defs (.dict entries) = depth + 2 := by
  simp only [stepBound, Param.depth]
  exact ⟨_, Nat.add_right_comm _ 2 _⟩

def convert (defs node : Value) : Outcome Param :=
  convertWithin defs (stepBound defs node) .none node

def toParameters (name : String) (schema : Entries) : Outcome ObjectParam := do
  let p ← convert (entryOr schema "$defs" (.dict [])) (.dict schema)
  match p.object? with
  | some o => return o
  | none => throw (.fault .value (name ++ " does not describe an object"))

def parametersOf (t : RecordType) : Outcome ObjectParam := toParameters t.name (ofRecordType t)

end ChatPipeline.Schema
