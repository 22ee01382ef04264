import ChatPipeline.Validation.Shape
import ChatPipeline.Text.Dedent

/-!
# JSON schema of a record type

Each shape has a fragment; records and enumerations stand in `$defs` and are referred to.  The keys
of a fragment are in alphabetical order, the properties of a record in the order of its fields.
-/

namespace ChatPipeline.Schema

open ChatPipeline.Validation

def sorted (entries : Entries) : Value :=
  .dict (entries.mergeSort fun a b => decide (a.1 ≤ b.1))

def typed (type : String) (more : Entries := []) : Value := sorted (("type", .text type) :: more)

def referTo (name : String) : Value := .dict [("$ref", .text ("#/$defs/" ++ name))]

/-! ## Choices -/

def scalarType? : Value → Option String
  | .text _ => some "string"
  | .int _ => some "integer"
  | .float _ => some "number"
  | .bool _ => some "boolean"
  | .list _ => some "array"
  | .none => some "null"
  | _ => none

def commonType (vs : List Value) : Entries :=
  match vs with
  | [] => []
  | v :: rest =>
    match scalarType? v with
    | some t => if rest.all fun w => scalarType? w == some t then [("type", .text t)] else []
    | none => []

def literalFragment : List Value → Value
  | [only] => sorted (("const", only) :: commonType [only])
  | vs => sorted (("enum", .list vs) :: commonType vs)

def enumerationFragment (e : Enumeration) : Value :=
  let values := e.members.map Prod.snd
  let description := match e.doc with
    | some d => if d.isEmpty then [] else [("description", .text (Text.dedent d))]
    | none => []
  sorted ([("title", .text e.name), ("enum", .list values)] ++ description ++ commonType values)

/-! ## Bounds -/

def boundEntries (names : List (String × Option Value)) : Entries :=
  names.filterMap fun (n, v) => v.map (n, ·)

def numberBounds (b : Bounds) : Entries :=
  boundEntries [("minimum", b.atLeast), ("exclusiveMinimum", b.above), ("maximum", b.atMost),
    ("exclusiveMaximum", b.below)]

def lengthBounds (b : Bounds) (least most : String) : Entries :=
  boundEntries [(least, b.minLength.map fun n => .int n), (most, b.maxLength.map fun n => .int n)]

/-! ## Fragments -/

def alternativesOf (v : Value) : List Value :=
  match v with
  | .dict [("anyOf", .list vs)] => vs
  | _ => [v]

def isNullFragment : Value → Bool
  | .dict [("type", .text "null")] => true
  | _ => false

def anyOf (vs : List Value) : Value :=
  let flat := vs.flatMap alternativesOf
  let nulls := flat.filter isNullFragment
  let kept := flat.filter (!isNullFragment ·) ++ nulls.take 1
  match kept with
  | [only] => only
  | _ => .dict [("anyOf", .list kept)]

mutual

def fragment : Shape → Bounds → Value
  | .any, _ => .dict []
  | .null, _ => typed "null"
  | .text, b => typed "string" (lengthBounds b "minLength" "maxLength")
  | .int, b => typed "integer" (numberBounds b)
  | .float, b => typed "number" (numberBounds b)
  | .bool, _ => typed "boolean"
  | .object, b => typed "object" (("additionalProperties", .bool true) ::
      lengthBounds b "minProperties" "maxProperties")
  | .array, b => typed "array" (("items", .dict []) :: lengthBounds b "minItems" "maxItems")
  | .listOf s, b => typed "array" (("items", fragment s {}) :: lengthBounds b "minItems" "maxItems")
  | .setOf s, b => typed "array" (("items", fragment s {}) :: ("uniqueItems", .bool true) ::
      lengthBounds b "minItems" "maxItems")
  | .optional s, b => anyOf [fragment s b, typed "null"]
  | .dictOf s, b => typed "object" (("additionalProperties", fragment s {}) ::
      lengthBounds b "minProperties" "maxProperties")
  | .tupleOf shapes, _ => typed "array" [("maxItems", .int shapes.length),
      ("minItems", .int shapes.length), ("prefixItems", .list (fragments shapes))]
  | .union shapes, _ => anyOf (fragments shapes)
  | .literal vs, _ => literalFragment vs
  | .enumeration e, _ => referTo e.name
  | .record name .., _ => referTo name

def fragments : List Shape → List Value
  | [] => []
  | s :: rest => fragment s {} :: fragments rest

end

/-! ## Objects -/

def heading (name : String) : String :=
  let step (acc : List Char × Bool) (c : Char) : List Char × Bool :=
    let isLetter := c.isAlpha
    let shown := if isLetter then (if acc.2 then c.toLower else c.toUpper) else c
    ((if shown = '_' then ' ' else shown) :: acc.1, isLetter)
  Text.trim (String.ofList (name.toList.foldl step ([], false)).1.reverse)

def isReference : Value → Bool
  | .dict (("$ref", _) :: _) => true
  | _ => false

def fieldFragment (f : FieldInfo) (s : Shape) : Value :=
  let base := fragment s f.bounds
  let entries := match base with
    | .dict es => es
    | _ => []
  let title := match f.title with
    | some t => [("title", Value.text t)]
    | none => if isReference base then [] else [("title", .text (heading f.name))]
  let default := match f.default with
    | some d => [("default", dump d)]
    | none => []
  let description := match f.description with
    | some d => [("description", Value.text d)]
    | none => []
  sorted (entries ++ default ++ description ++ title)

def objectFragment (name : String) (doc : Option String) (fields : List (FieldInfo × Shape)) :
    Entries :=
  let properties := fields.map fun (f, s) => (f.key, fieldFragment f s)
  let needed := (fields.filter fun (f, _) => f.default.isNone).map fun (f, _) => Value.text f.key
  let description := match doc with
    | some d => if d.isEmpty then [] else [("description", Value.text (Text.dedent d))]
    | none => []
  description ++ [("properties", .dict properties)] ++
    (if needed.isEmpty then [] else [("required", .list needed)]) ++
    [("title", .text name), ("type", .text "object")]

/-! ## Definitions -/

mutual

def definitions : Shape → Entries
  | .listOf s | .setOf s | .optional s | .dictOf s => definitions s
  | .tupleOf shapes | .union shapes => definitionsOf shapes
  | .enumeration e => [(e.name, enumerationFragment e)]
  | .record name doc _ fields =>
    (name, .dict (objectFragment name doc fields)) :: definitionsIn fields
  | _ => []

def definitionsOf : List Shape → Entries
  | [] => []
  | s :: rest => definitions s ++ definitionsOf rest

def definitionsIn : List (FieldInfo × Shape) → Entries
  | [] => []
  | (_, s) :: rest => definitions s ++ definitionsIn rest

end

def ofRecordType (t : RecordType) : Entries :=
  let defs := definitionsIn t.fields
  (if defs.isEmpty then [] else [("$defs", .dict (Entries.override [] defs))]) ++
    objectFragment t.name t.doc t.fields

end ChatPipeline.Schema
