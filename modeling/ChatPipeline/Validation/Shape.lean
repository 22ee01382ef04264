import ChatPipeline.Validation.Scalar

/-!
# Shapes

A shape says which values a field takes.  A record type is a named list of fields with their shapes;
`Shape.check` brings a value into a shape, leniently: texts of numbers become numbers, tuples and
sets become lists, and what a record does not declare is dropped, kept or refused by its policy.
-/

namespace ChatPipeline.Validation

structure Enumeration where
  name : String
  members : List (String × Value)
  mixin : Mixin := .plain
  doc : Option String := none

/-- What becomes of entries that a record type does not declare. -/
inductive ExtraPolicy where
  | ignore
  | allow
  | forbid
  deriving DecidableEq, Repr

structure FieldInfo where
  name : String
  inputName : Option String := none
  default : Option Value := none
  description : Option String := none
  title : Option String := none
  bounds : Bounds := {}

def FieldInfo.key (f : FieldInfo) : String := f.inputName.getD f.name

inductive Shape where
  | any
  | null
  | text
  | int
  | float
  | bool
  | object
  | array
  | listOf (element : Shape)
  | setOf (element : Shape)
  | optional (inner : Shape)
  | dictOf (element : Shape)
  | tupleOf (elements : List Shape)
  | union (members : List Shape)
  | literal (choices : List Value)
  | enumeration (e : Enumeration)
  | record (name : String) (doc : Option String) (policy : ExtraPolicy)
      (fields : List (FieldInfo × Shape))

structure RecordType where
  name : String
  doc : Option String := none
  policy : ExtraPolicy := .ignore
  fields : List (FieldInfo × Shape) := []

def RecordType.shape (t : RecordType) : Shape := .record t.name t.doc t.policy t.fields

/-! ## Enumerations -/

def Enumeration.member (e : Enumeration) (name : String) (value : Value) : Value :=
  .member e.name name e.mixin value

/-- The value that is looked up among the members; those with a mixin are brought to its type. -/
def Enumeration.lookupKey (e : Enumeration) (v : Value) : Option Value :=
  match e.mixin with
  | .plain => some v
  | .text => match checkText v with
    | .ok s => some (.text s)
    | .error _ => none
  | .number => match checkInt v with
    | .ok i => some (.int i)
    | .error _ => none

def Enumeration.check (e : Enumeration) : Check Value := fun v =>
  let isOwn := match v with
    | .member name .. => name == e.name
    | _ => false
  if isOwn then .ok v
  else
    let found := (e.lookupKey v).bind fun key => e.members.find? fun (_, w) => sameScalar key w
    match found with
    | some (name, value) => .ok (e.member name value)
    | none => reject "enum" ("Input should be " ++ alternatives (e.members.map Prod.snd)) v

/-! ## Containers -/

def elements? : Value → Option (List Value)
  | .list items | .tuple items | .set items => some items
  | _ => none

def insertOrdered (v : Value) : List Value → List Value
  | [] => [v]
  | w :: rest =>
    match v, w with
    | .int i, .int j => if i < j then v :: w :: rest else w :: insertOrdered v rest
    | _, _ => w :: insertOrdered v rest

def insertDistinct (items : List Value) (v : Value) : List Value :=
  if items.any (sameScalar v) then items else insertOrdered v items

/-- The elements of a set, each once: whole numbers ascending, all else in order of arrival. -/
def distinct (items : List Value) : List Value := items.foldl insertDistinct []

def Shape.label : Shape → String
  | .any => "any"
  | .null => "none"
  | .text => "str"
  | .int => "int"
  | .float => "float"
  | .bool => "bool"
  | .object => "dict[any,any]"
  | .array => "list[any]"
  | .listOf s => "list[" ++ s.label ++ "]"
  | .setOf s => "set[" ++ s.label ++ "]"
  | .optional s => "nullable[" ++ s.label ++ "]"
  | .dictOf s => "dict[str," ++ s.label ++ "]"
  | .tupleOf _ => "tuple"
  | .union _ => "union"
  | .literal vs => "literal[" ++ ",".intercalate (vs.map Value.shown) ++ "]"
  | .enumeration e => e.name
  | .record name .. => name

def Shape.members : Shape → List Shape
  | .union shapes => shapes
  | .optional s => .null :: s.members
  | s => [s]

def Shape.isNull : Shape → Bool
  | .null => true
  | _ => false

/-- A choice between shapes.  Choices among the members count as members themselves, and null makes
the whole choice optional. -/
def Shape.oneOf (shapes : List Shape) : Shape :=
  let all := shapes.flatMap Shape.members
  match all.filter (!·.isNull) with
  | [] => .null
  | [only] => if all.any Shape.isNull then .optional only else only
  | kept => if all.any Shape.isNull then .optional (.union kept) else .union kept

/-! ## Closeness -/

/-- How close a value is to a shape that takes it: it has to be converted, it counts as one, or it
is one. -/
inductive Closeness where
  | converted
  | counted
  | exact
  deriving DecidableEq, Repr

namespace Closeness

def worse : Closeness → Closeness → Closeness
  | .exact, c | c, .exact => c
  | .counted, .counted => .counted
  | _, _ => .converted

def better : Closeness → Closeness → Closeness
  | .converted, c | c, .converted => c
  | .counted, .counted => .counted
  | _, _ => .exact

def ofAll (cs : List Closeness) : Closeness := cs.foldr worse .exact

def ofAny (cs : List Closeness) : Closeness := cs.foldr better .converted

end Closeness

mutual

def Shape.closeness : Shape → Value → Closeness
  | .any, _ => .counted
  | .text, .text _ | .int, .int _ | .float, .float _ | .bool, .bool _ => .exact
  | .text, .member _ _ .text _ | .int, .member _ _ .number _ => .counted
  | .float, .int _ | .float, .member _ _ .number _ => .counted
  | .null, _ | .object, _ | .literal _, _ => .exact
  | .array, .list _ => .exact
  | .listOf s, .list items => .ofAll (items.map s.closeness)
  | .setOf s, .set items => .ofAll (items.map s.closeness)
  | .dictOf s, .dict entries => .ofAll (entries.map fun (_, v) => s.closeness v)
  | .tupleOf shapes, .tuple items => closenessOfTuple shapes items
  | .optional _, .none => .exact
  | .optional s, v => s.closeness v
  | .union shapes, v => .ofAny (closenessToEach v shapes)
  | .enumeration e, .member name .. => if name == e.name then .exact else .converted
  | _, _ => .converted

def closenessOfTuple : List Shape → List Value → Closeness
  | s :: shapes, v :: items => (s.closeness v).worse (closenessOfTuple shapes items)
  | _, _ => .exact

def closenessToEach (v : Value) : List Shape → List Closeness
  | [] => []
  | s :: shapes => s.closeness v :: closenessToEach v shapes

end

/-- The result of the alternative that the value is closest to; the first of equally close ones. -/
def firstResult (results : List (Closeness × Checked Value)) : Option Value :=
  let pick (least : Closeness) := results.findSome? fun (closeness, r) =>
    if closeness = least then
      match r with
      | .ok v => some v
      | .error _ => none
    else none
  (pick .exact).or ((pick .counted).or (pick .converted))

def allIssues (results : List (Closeness × Checked Value)) : List Issue :=
  results.flatMap fun (_, r) =>
    match r with
    | .ok _ => []
    | .error is => is

/-! ## Checking -/

mutual

def Shape.check : Shape → Bounds → Check Value
  | .any, _ => fun v => .ok v
  | .null, _ => fun v =>
    match v with
    | .none => .ok .none
    | _ => reject "none_required" "Input should be None" v
  | .text, b => fun v => (checkText v).andThen (b.checkText v)
  | .int, b => fun v => (checkInt v).andThen fun i => b.checkNumber v (.int i)
  | .float, b => fun v => (checkFloat v).andThen fun x => b.checkNumber v (.float x)
  | .bool, _ => fun v => .bool <$> checkBool v
  | .object, b => fun v =>
    match v with
    | .dict entries => b.sized "Dictionary" entries.length v fun _ => .ok v
    | _ => reject "dict_type" "Input should be a valid dictionary" v
  | .array, b => fun v =>
    match elements? v with
    | some items => b.sized "List" items.length v fun _ => .ok (.list items)
    | none => reject "list_type" "Input should be a valid list" v
  | .listOf s, b => fun v =>
    match elements? v with
    | some items => b.sized "List" items.length v fun _ => .list <$> checkItems (s.check {}) items
    | none => reject "list_type" "Input should be a valid list" v
  | .setOf s, b => fun v =>
    match elements? v with
    | some items =>
      b.sized "Set" items.length v fun _ => (.set ∘ distinct) <$> checkItems (s.check {}) items
    | none => reject "set_type" "Input should be a valid set" v
  | .optional s, b => fun v =>
    match v with
    | .none => .ok .none
    | _ => s.check b v
  | .dictOf s, b => fun v =>
    match v with
    | .dict entries =>
      b.sized "Dictionary" entries.length v fun _ => .dict <$> checkEntries (s.check {}) entries
    | _ => reject "dict_type" "Input should be a valid dictionary" v
  | .tupleOf shapes, _ => fun v =>
    match elements? v with
    | some items =>
      if shapes.length < items.length then tooLong "Tuple" shapes.length items.length v
      else .tuple <$> checkTuple v 0 shapes items
    | none => reject "tuple_type" "Input should be a valid tuple" v
  | .union shapes, b => fun v =>
    let results := checkUnion v b shapes
    match firstResult results with
    | some found => .ok found
    | none => .issues (allIssues results)
  | .literal choices, _ => checkLiteral choices
  | .enumeration e, _ => e.check
  | .record name _ policy fields, _ => fun v =>
    match v with
    | .dict entries =>
      let declared := fields.map fun (f, _) => f.key
      let extra := entries.filter fun (k, _) => !declared.contains k
      let checked := checkFields entries fields
      match policy with
      | .ignore => (fun fs => .record name fs []) <$> checked
      | .allow => (fun fs => .record name fs extra) <$> checked
      | .forbid => (fun fs _ => .record name fs []) <$> checked <*> noExtra entries declared
    | _ => notAnObject name v

/-- The positions of a tuple; the whole input is shown for one that is missing. -/
def checkTuple (input : Value) : Nat → List Shape → List Value → Checked (List Value)
  | _, [], _ => .ok []
  | i, s :: shapes, items =>
    let here : Checked Value := match items with
      | v :: _ => (s.check {} v).under (Text.decimal i)
      | [] => .issue ⟨[Text.decimal i], "Field required", "missing", input⟩
    List.cons <$> here <*> checkTuple input (i + 1) shapes items.tail

def checkUnion (input : Value) (b : Bounds) : List Shape → List (Closeness × Checked Value)
  | [] => []
  | s :: shapes =>
    (s.closeness input, (s.check b input).under s.label) :: checkUnion input b shapes

/-- The declared fields in order; one with a default may be absent, and defaults are not checked. -/
def checkFields (entries : Entries) : List (FieldInfo × Shape) → Checked Entries
  | [] => .ok []
  | (f, s) :: fields =>
    let here : Checked Value := match f.default with
      | some d => optional entries f.key d (s.check f.bounds)
      | none => required entries f.key (s.check f.bounds)
    (fun v vs => (f.name, v) :: vs) <$> here <*> checkFields entries fields

end

def RecordType.check (t : RecordType) : Check Value := t.shape.check {}

def checkOptionalSeconds : Check (Option Float) := fun v =>
  ((Shape.optional .float).check { above := some (.int 0) } v).andThen fun r =>
    match r with
    | .float x => .ok (some x)
    | _ => .ok none

def RecordType.validate (t : RecordType) (v : Value) : Outcome Value := (t.check v).toOutcome t.name

/-! ## Records as data -/

def dumpMessage (m : Message) : Entries :=
  [("role", Value.ofRole m.role), ("content", .text m.content),
    ("tool_calls", .tuple (m.toolCalls.map fun c => .dict (Value.toolCallFields c))),
    ("tool_call_id", Value.ofOption .text m.toolCallId), ("name", Value.ofOption .text m.name)]

mutual

def dump : Value → Value
  | .record _ fields extra => .dict (dumpEntries fields ++ dumpEntries extra)
  | .list items => .list (dumpItems items)
  | .tuple items => .tuple (dumpItems items)
  | .set items => .set (dumpItems items)
  | .dict entries => .dict (dumpEntries entries)
  | .message m => .dict (dumpMessage m)
  | .toolCall c => .dict (Value.toolCallFields c)
  | v => v

def dumpItems : List Value → List Value
  | [] => []
  | v :: rest => dump v :: dumpItems rest

def dumpEntries : List (String × Value) → List (String × Value)
  | [] => []
  | (k, v) :: rest => (k, dump v) :: dumpEntries rest

end

end ChatPipeline.Validation
