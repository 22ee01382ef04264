import ChatPipeline.Validation.Scalar
import ChatPipeline.Json.Writer

/-!
# Parameter schemas

The parameters of a tool as an explicit tree of primitive, array and object descriptors.
`Param.toSchema` writes a tree as a JSON schema; `Param.check` reads a tree that is given as data.
-/

namespace ChatPipeline

inductive PrimitiveType where
  | string
  | integer
  | number
  | boolean
  deriving DecidableEq, Repr

namespace PrimitiveType

def all : List PrimitiveType := [.string, .integer, .number, .boolean]

def name : PrimitiveType → String
  | .string => "string"
  | .integer => "integer"
  | .number => "number"
  | .boolean => "boolean"

def ofName? (s : String) : Option PrimitiveType := all.find? (·.name == s)

@[simp] theorem ofName?_name (t : PrimitiveType) : ofName? t.name = some t := by
  cases t <;> decide

end PrimitiveType

inductive Param where
  | primitive (description : Option String) (type : PrimitiveType) (choices : Option (List Value))
  | array (description : Option String) (items : Param)
  | object (description : Option String) (properties : List (String × Param))
      (required : List String)

structure ObjectParam where
  description : Option String := none
  properties : List (String × Param) := []
  required : List String := []

def ObjectParam.toParam (p : ObjectParam) : Param := .object p.description p.properties p.required

def Param.object? : Param → Option ObjectParam
  | .object description properties required => some { description, properties, required }
  | _ => none

@[simp] theorem ObjectParam.object?_toParam (p : ObjectParam) : p.toParam.object? = some p := rfl

namespace Param

/-! ## Writing -/

/-- An empty description is left out. -/
def descriptionEntry : Option String → Entries
  | some d => if d.isEmpty then [] else [("description", .text d)]
  | none => []

def choicesEntry : Option (List Value) → Entries
  | some vs => if vs.isEmpty then [] else [("enum", .list vs)]
  | none => []

def requiredEntry (names : List String) : Entries :=
  if names.isEmpty then [] else [("required", .list (names.map .text))]

mutual

def toSchema : Param → Value
  | .primitive description type choices =>
    .dict (("type", .text type.name) :: (descriptionEntry description ++ choicesEntry choices))
  | .array description items =>
    .dict ([("type", .text "array"), ("items", toSchema items)] ++ descriptionEntry description)
  | .object description properties required =>
    .dict ([("type", .text "object"), ("properties", .dict (toSchemas properties))] ++
      requiredEntry required ++ descriptionEntry description)

def toSchemas : List (String × Param) → List (String × Value)
  | [] => []
  | (k, p) :: rest => (k, toSchema p) :: toSchemas rest

end

mutual

def toData : Param → Value
  | .primitive description type choices =>
    .dict [("description", Value.ofOption .text description), ("kind", .text "primitive"),
      ("type", .text type.name), ("enum", Value.ofOption .list choices)]
  | .array description items =>
    .dict [("description", Value.ofOption .text description), ("kind", .text "array"),
      ("items", toData items)]
  | .object description properties required =>
    .dict [("description", Value.ofOption .text description), ("kind", .text "object"),
      ("properties", .dict (toDatas properties)), ("required", .list (required.map .text))]

def toDatas : List (String × Param) → List (String × Value)
  | [] => []
  | (k, p) :: rest => (k, toData p) :: toDatas rest

end

/-! ## Reading -/

open Validation

inductive Kind where
  | primitive
  | array
  | object
  deriving DecidableEq, Repr

def Kind.name : Kind → String
  | .primitive => "primitive"
  | .array => "array"
  | .object => "object"

def Kind.typeName : Kind → String
  | .primitive => "PrimitiveParam"
  | .array => "ArrayParam"
  | .object => "ObjectParam"

def Kind.ofName? (s : String) : Option Kind :=
  [Kind.primitive, .array, .object].find? (·.name == s)

def checkOptionalText : Check (Option String) := fun v =>
  match v with
  | .none => .ok none
  | _ => some <$> checkText v

def checkTexts : Check (List String) := fun v =>
  match v with
  | .list items | .tuple items | .set items => checkItems checkText items
  | _ => reject "list_type" "Input should be a valid list" v

def checkChoices : Check (Option (List Value)) := fun v =>
  match v with
  | .none => .ok none
  | .list items | .tuple items | .set items => .ok (some items)
  | _ => reject "list_type" "Input should be a valid list" v

def checkPrimitiveType : Check PrimitiveType := fun v =>
  (checkLiteral (PrimitiveType.all.map fun t => .text t.name) v).andThen fun choice =>
    .ok ((choice.text?.bind PrimitiveType.ofName?).getD .string)

def checkKind (kind : Kind) : Check Unit := fun v =>
  (fun _ => ()) <$> checkLiteral [.text kind.name] v

def checkTag (v : Value) : Checked (Kind × Entries) :=
  match v with
  | .dict entries =>
    match Entries.get? entries "kind" with
    | none =>
      reject "union_tag_not_found" "Unable to extract tag using discriminator 'kind'" v
    | some tag =>
      match tag.text?.bind Kind.ofName? with
      | some kind => .ok (kind, entries)
      | none => reject "union_tag_invalid" ("Input tag '" ++ tag.plain.getD tag.unprintable ++
          "' found using 'kind' does not match any of the expected tags: 'primitive', 'array', 'object'") v
  | _ => reject "model_attributes_type"
      "Input should be a valid dictionary or object to extract fields from" v

/-- The fields of a descriptor of a given kind; nesting uses up fuel. -/
def checkEntriesAs : Nat → Kind → Entries → Checked Param
  | 0, _, entries => reject "recursion_loop" "Recursion error - cyclic reference detected" (.dict entries)
  | fuel + 1, kind, entries =>
    let nested : Check Param := fun v =>
      (checkTag v).andThen fun (kind, entries) =>
        (checkEntriesAs fuel kind entries).under kind.name
    let description := optional entries "description" none checkOptionalText
    let ownKind (_ : Unit) := optional entries "kind" () (checkKind kind)
    match kind with
    | .primitive =>
      (fun d _ t c => .primitive d t c) <$> description <*> ownKind ()
        <*> optional entries "type" .string checkPrimitiveType
        <*> optional entries "enum" none checkChoices
    | .array =>
      (fun d _ i => .array d i) <$> description <*> ownKind () <*> required entries "items" nested
    | .object =>
      (fun d _ ps rs => .object d ps rs) <$> description <*> ownKind ()
        <*> optional entries "properties" [] (fun v =>
          match v with
          | .dict properties => checkEntries nested properties
          | _ => reject "dict_type" "Input should be a valid dictionary" v)
        <*> optional entries "required" [] checkTexts

mutual

def depth : Value → Nat
  | .dict entries => depthEntries entries + 1
  | .list items | .tuple items | .set items => depthItems items + 1
  | _ => 0

def depthItems : List Value → Nat
  | [] => 0
  | v :: rest => max (depth v) (depthItems rest)

def depthEntries : List (String × Value) → Nat
  | [] => 0
  | (_, v) :: rest => max (depth v) (depthEntries rest)

end

def checkAs (kind : Kind) : Check Param := fun v =>
  match v with
  | .dict entries => checkEntriesAs (depth v + 1) kind entries
  | _ => notAnObject kind.typeName v

def validate (kind : Kind) (v : Value) : Outcome Param := (checkAs kind v).toOutcome kind.typeName

end Param

end ChatPipeline
