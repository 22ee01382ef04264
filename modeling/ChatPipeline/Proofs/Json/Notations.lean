import ChatPipeline.Proofs.Json.Doubles

/-!
# What the two notations say

`looseData` and `compactData` are the data as which the two texts of a value are read.  They differ
where a notation has no words for a value: the loose one gives the displayed text of it, the compact
one what it is made of.
-/

namespace ChatPipeline.Json

open ChatPipeline.Text

/-! ## Lists of texts -/

theorem looseItems_eq_map (items : List Value) : looseItems items = items.map loose := by
  induction items with
  | nil => rfl
  | cons v items ih => rw [looseItems, ih, List.map_cons]

private theorem looseEntries_eq_map (entries : Entries) :
    looseEntries entries = entries.map fun (k, v) => (k, loose v) := by
  induction entries with
  | nil => rfl
  | cons entry entries ih => rw [looseEntries, ih, List.map_cons]

private theorem compactItems_eq_map (items : List Value) :
    compactItems items = items.map compact := by
  induction items with
  | nil => rfl
  | cons v items ih => rw [compactItems, ih, List.map_cons]

private theorem compactEntries_eq_map (entries : Entries) :
    compactEntries entries = entries.map fun (k, v) => (k, compact v) := by
  induction entries with
  | nil => rfl
  | cons entry entries ih => rw [compactEntries, ih, List.map_cons]

/-! ## Values within the limits of a text -/

/-- No dictionary or record has a key twice, no whole number is too long, and the value of a member
is of the type that is mixed in. -/
inductive Writable : Value → Prop where
  | none : Writable .none
  | bool (b : Bool) : Writable (.bool b)
  | int (hshort : i.natAbs < 10 ^ maxIntegerDigits) : Writable (.int i)
  | float (x : Float) : Writable (.float x)
  | text (s : String) : Writable (.text s)
  | bytes (octets : List UInt8) : Writable (.bytes octets)
  | list (hitems : ∀ v ∈ items, Writable v) : Writable (.list items)
  | tuple (hitems : ∀ v ∈ items, Writable v) : Writable (.tuple items)
  | set (hitems : ∀ v ∈ items, Writable v) : Writable (.set items)
  | dict (hnames : (entries.map Prod.fst).Nodup) (hentries : ∀ entry ∈ entries, Writable entry.2) :
      Writable (.dict entries)
  | message (m : Message) : Writable (.message m)
  | toolCall (c : ToolCall) : Writable (.toolCall c)
  | textMember (enumeration name s : String) : Writable (.member enumeration name .text (.text s))
  | numberMember (enumeration name : String) (hshort : i.natAbs < 10 ^ maxIntegerDigits) :
      Writable (.member enumeration name .number (.int i))
  | plainMember (enumeration name : String) (hvalue : Writable value) :
      Writable (.member enumeration name .plain value)
  | record (type : String) (hnames : ((fields ++ extra).map Prod.fst).Nodup)
      (hentries : ∀ entry ∈ fields ++ extra, Writable entry.2) : Writable (.record type fields extra)

/-! ## The loose notation -/

mutual

def looseData : Value → Value
  | .none => .none
  | .bool b => .bool b
  | .int i => .int i
  | .float x => looseDouble x
  | .text s => .text s
  | .list items | .tuple items => .list (looseDataOf items)
  | .dict entries => .dict (looseDataIn entries)
  | .member enumeration name mixin value => match mixin with
    | .plain => .text (enumeration ++ "." ++ name)
    | _ => looseData value
  | v => .text v.plainForm

def looseDataOf : List Value → List Value
  | [] => []
  | v :: rest => looseData v :: looseDataOf rest

def looseDataIn : List (String × Value) → List (String × Value)
  | [] => []
  | (k, v) :: rest => (k, looseData v) :: looseDataIn rest

end

theorem looseDataOf_eq_map (items : List Value) : looseDataOf items = items.map looseData := by
  induction items with
  | nil => rfl
  | cons v items ih => rw [looseDataOf, ih, List.map_cons]

theorem looseDataIn_eq_map (entries : Entries) :
    looseDataIn entries = entries.map fun (k, v) => (k, looseData v) := by
  induction entries with
  | nil => rfl
  | cons entry entries ih => rw [looseDataIn, ih, List.map_cons]

theorem keys_map (f : Value → β) (entries : Entries) :
    (entries.map fun (k, v) => (k, f v)).map Prod.fst = entries.map Prod.fst := by
  rw [List.map_map]
  rfl

theorem separates_loose : Separates ',' ", ".toList ∧ Separates ':' ": ".toList :=
  ⟨⟨[' '], rfl, List.forall_mem_singleton.2 rfl⟩, ⟨[' '], rfl, List.forall_mem_singleton.2 rfl⟩⟩

private theorem spells_items {write : Value → String} {data : Value → Value} {items : List Value}
    (h : ∀ v ∈ items, Spells (write v).toList (data v)) :
    List.Forall₂ (fun text v => Spells text.toList v) (items.map write) (items.map data) :=
  List.forall₂_map_left_iff.2 (List.forall₂_map_right_iff.2 (List.forall₂_same.2 h))

private theorem spells_entries {write : Value → String} {data : Value → Value} {entries : Entries}
    (h : ∀ entry ∈ entries, Spells (write entry.2).toList (data entry.2)) :
    List.Forall₂ (fun member entry => member.1 = entry.1 ∧ Spells member.2.toList entry.2)
      (entries.map fun (k, v) => (k, write v)) (entries.map fun (k, v) => (k, data v)) :=
  List.forall₂_map_left_iff.2 (List.forall₂_map_right_iff.2
    (List.forall₂_same.2 fun entry hentry => ⟨rfl, h entry hentry⟩))

theorem spells_loose {v : Value} (h : Writable v) : Spells (loose v).toList (looseData v) := by
  obtain ⟨hcomma, hcolon⟩ := separates_loose
  induction h with
  | none => exact spells_none
  | bool b => exact spells_bool b
  | int hshort => exact spells_int hshort
  | float x => exact spells_looseNumber x
  | text s => exact spells_text s
  | list _ ih =>
      rw [loose, looseData, looseItems_eq_map, looseDataOf_eq_map]
      exact spells_array hcomma (spells_items ih)
  | tuple _ ih =>
      rw [loose, looseData, looseItems_eq_map, looseDataOf_eq_map]
      exact spells_array hcomma (spells_items ih)
  | @dict entries hnames _ ih =>
      rw [loose, looseData, looseEntries_eq_map, looseDataIn_eq_map]
      exact spells_object hcomma hcolon (spells_entries ih) (by rwa [keys_map])
  | textMember _ _ s => exact spells_text s
  | numberMember _ _ hshort => exact spells_int hshort
  | plainMember => exact spells_text _
  | bytes => exact spells_text _
  | set => exact spells_text _
  | message => exact spells_text _
  | toolCall => exact spells_text _
  | record => exact spells_text _

/-! ## The compact notation -/

def messageData (m : Message) : Value :=
  .dict [("role", .text m.role.text), ("content", .text m.content),
    ("tool_calls", .list (m.toolCalls.map fun c => .dict (Value.toolCallFields c))),
    ("tool_call_id", Value.ofOption .text m.toolCallId), ("name", Value.ofOption .text m.name)]

mutual

def compactData : Value → Value
  | .none => .none
  | .bool b => .bool b
  | .int i => .int i
  | .float x => compactDouble x
  | .text s => .text s
  | .bytes octets => .text (decodeLossy octets)
  | .list items | .tuple items | .set items => .list (compactDataOf items)
  | .dict entries => .dict (compactDataIn entries)
  | .message m => messageData m
  | .toolCall c => .dict (Value.toolCallFields c)
  | .member _ _ _ value => compactData value
  | .record _ fields extra => .dict (compactDataIn fields ++ compactDataIn extra)

def compactDataOf : List Value → List Value
  | [] => []
  | v :: rest => compactData v :: compactDataOf rest

def compactDataIn : List (String × Value) → List (String × Value)
  | [] => []
  | (k, v) :: rest => (k, compactData v) :: compactDataIn rest

end

theorem compactDataOf_eq_map (items : List Value) :
    compactDataOf items = items.map compactData := by
  induction items with
  | nil => rfl
  | cons v items ih => rw [compactDataOf, ih, List.map_cons]

theorem compactDataIn_eq_map (entries : Entries) :
    compactDataIn entries = entries.map fun (k, v) => (k, compactData v) := by
  induction entries with
  | nil => rfl
  | cons entry entries ih => rw [compactDataIn, ih, List.map_cons]

private theorem separates_compact : Separates ',' ",".toList ∧ Separates ':' ":".toList :=
  ⟨⟨[], rfl, List.forall_mem_nil _⟩, ⟨[], rfl, List.forall_mem_nil _⟩⟩

private theorem spells_compactObject {entries : Entries} (hnames : (entries.map Prod.fst).Nodup)
    (h : ∀ entry ∈ entries, Spells (compact entry.2).toList (compactData entry.2)) :
    Spells (compactObject (entries.map fun (k, v) => (k, compact v))).toList
      (.dict (entries.map fun (k, v) => (k, compactData v))) := by
  obtain ⟨hcomma, hcolon⟩ := separates_compact
  exact spells_object hcomma hcolon (spells_entries h) (by rwa [keys_map])

private theorem spells_compactToolCall (c : ToolCall) :
    Spells (compactToolCall c).toList (.dict (Value.toolCallFields c)) := by
  obtain ⟨hcomma, hcolon⟩ := separates_compact
  have hnames : ["id", "name", "arguments", "type"].Nodup := by decide
  exact spells_object hcomma hcolon
    (.cons ⟨rfl, spells_text c.id⟩ (.cons ⟨rfl, spells_text c.name⟩
      (.cons ⟨rfl, spells_text c.arguments⟩ (.cons ⟨rfl, spells_text "function"⟩ .nil)))) hnames

private theorem spells_compactOption (o : Option String) :
    Spells (compactOption o).toList (Value.ofOption .text o) := by
  cases o with
  | none => exact spells_none
  | some s => exact spells_text s

private theorem spells_compactMessage (m : Message) :
    Spells (compactMessage m).toList (messageData m) := by
  obtain ⟨hcomma, hcolon⟩ := separates_compact
  have hnames : ["role", "content", "tool_calls", "tool_call_id", "name"].Nodup := by decide
  have hcalls : Spells (array "," (m.toolCalls.map compactToolCall)).toList
      (.list (m.toolCalls.map fun c => .dict (Value.toolCallFields c))) :=
    spells_array hcomma (List.forall₂_map_left_iff.2 (List.forall₂_map_right_iff.2
      (List.forall₂_same.2 fun c _ => spells_compactToolCall c)))
  exact spells_object hcomma hcolon
    (.cons ⟨rfl, spells_text m.role.text⟩ (.cons ⟨rfl, spells_text m.content⟩
      (.cons ⟨rfl, hcalls⟩ (.cons ⟨rfl, spells_compactOption m.toolCallId⟩
        (.cons ⟨rfl, spells_compactOption m.name⟩ .nil))))) hnames

theorem spells_compact {v : Value} (h : Writable v) :
    Spells (compact v).toList (compactData v) := by
  obtain ⟨hcomma, hcolon⟩ := separates_compact
  induction h with
  | none => exact spells_none
  | bool b => exact spells_bool b
  | int hshort => exact spells_int hshort
  | float x => exact spells_compactNumber x
  | text s => exact spells_text s
  | bytes => exact spells_text _
  | list _ ih | tuple _ ih | set _ ih =>
      rw [compact, compactData, compactItems_eq_map, compactDataOf_eq_map]
      exact spells_array hcomma (spells_items ih)
  | @dict entries hnames _ ih =>
      rw [compact, compactData, compactEntries_eq_map, compactDataIn_eq_map]
      exact spells_compactObject hnames ih
  | message m => exact spells_compactMessage m
  | toolCall c => exact spells_compactToolCall c
  | textMember _ _ s => exact spells_text s
  | numberMember _ _ hshort => exact spells_int hshort
  | plainMember _ _ _ ih => exact ih
  | record _ hnames _ ih =>
      rw [compact, compactData, compactEntries_eq_map, compactEntries_eq_map, compactDataIn_eq_map,
        compactDataIn_eq_map, ← List.map_append, ← List.map_append]
      exact spells_compactObject hnames ih

end ChatPipeline.Json
