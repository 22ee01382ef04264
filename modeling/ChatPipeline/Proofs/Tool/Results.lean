import ChatPipeline.Proofs.Json.RoundTrip
import ChatPipeline.Proofs.Text.Octets
import ChatPipeline.Proofs.Tool.Judgement
import ChatPipeline.Tool.Function
import ChatPipeline.Tool.Validated

/-!
# Results of two kinds of tools

A function's result is written as a record, compactly; a declared tool dumps its result first and
the dump is written loosely.  The two texts are read as the same data exactly where the result holds
no value that the loose notation has no words for, however deep inside (`answers_agree_iff`).  A
set, a byte string, a member of an enumeration without a mixin, or a double that is not finite is
such a value (`set_tags_differ`).  Octets that are no text have no compact notation at all.
-/

namespace ChatPipeline

open ChatPipeline.Text ChatPipeline.Validation

/-! ## Dumps -/

namespace Json

private theorem dumpItems_eq_map (items : List Value) : dumpItems items = items.map dump := by
  induction items with
  | nil => rfl
  | cons v items ih => rw [dumpItems, ih, List.map_cons]

private theorem dumpEntries_eq_map (entries : Entries) :
    dumpEntries entries = entries.map fun (k, v) => (k, dump v) := by
  induction entries with
  | nil => rfl
  | cons entry entries ih => rw [dumpEntries, ih, List.map_cons]

private theorem writable_toolCallFields (c : ToolCall) :
    Writable (.dict (Value.toolCallFields c)) := by
  have hnames : ["id", "name", "arguments", "type"].Nodup := by decide
  refine .dict hnames ?_
  simp only [Value.toolCallFields, List.forall_mem_cons]
  exact ⟨.text _, .text _, .text _, .text _, by simp⟩

private theorem writable_ofOption (o : Option String) : Writable (Value.ofOption .text o) := by
  cases o with
  | none => exact .none
  | some s => exact .text s

private theorem writable_dumpMessage (m : Message) : Writable (.dict (dumpMessage m)) := by
  have hnames : ["role", "content", "tool_calls", "tool_call_id", "name"].Nodup := by decide
  refine .dict hnames ?_
  simp only [dumpMessage, List.forall_mem_cons]
  refine ⟨.textMember _ _ _, .text _, .tuple ?_, writable_ofOption _, writable_ofOption _, by simp⟩
  intro v hv
  obtain ⟨c, -, rfl⟩ := List.mem_map.1 hv
  exact writable_toolCallFields c

private theorem writable_dumpItems {items : List Value} (h : ∀ v ∈ items, Writable (dump v)) :
    ∀ v ∈ dumpItems items, Writable v := by
  rw [dumpItems_eq_map]
  exact List.forall_mem_map.2 h

private theorem writable_dumpEntries {entries : Entries}
    (h : ∀ entry ∈ entries, Writable (dump entry.2)) :
    ∀ entry ∈ dumpEntries entries, Writable entry.2 := by
  rw [dumpEntries_eq_map]
  exact List.forall_mem_map.2 h

private theorem dumpEntries_append (fields extra : Entries) :
    dumpEntries fields ++ dumpEntries extra = dumpEntries (fields ++ extra) := by
  rw [dumpEntries_eq_map, dumpEntries_eq_map, dumpEntries_eq_map, List.map_append]

private theorem keys_dumpEntries (entries : Entries) :
    (dumpEntries entries).map Prod.fst = entries.map Prod.fst := by
  rw [dumpEntries_eq_map, keys_map]

private theorem writable_dump {v : Value} (h : Writable v) : Writable (dump v) := by
  induction h with
  | list _ ih => exact .list (writable_dumpItems ih)
  | tuple _ ih => exact .tuple (writable_dumpItems ih)
  | set _ ih => exact .set (writable_dumpItems ih)
  | dict hnames _ ih => exact .dict (by rwa [keys_dumpEntries]) (writable_dumpEntries ih)
  | message m => exact writable_dumpMessage m
  | toolCall c => exact writable_toolCallFields c
  | record _ hnames _ ih =>
      rw [dump, dumpEntries_append]
      exact .dict (by rwa [keys_dumpEntries]) (writable_dumpEntries ih)
  | none => exact .none
  | bool b => exact .bool b
  | int hshort => exact .int hshort
  | float x => exact .float x
  | text s => exact .text s
  | bytes octets => exact .bytes octets
  | textMember => exact .textMember _ _ _
  | numberMember _ _ hshort => exact .numberMember _ _ hshort
  | plainMember _ _ hvalue => exact .plainMember _ _ hvalue

/-! ## Values that both notations know -/

/-- Every value inside has words in both notations.  A member without a mixin is known by its name
alone, which may happen to be its value too. -/
inductive IsKnown : Value → Prop where
  | none : IsKnown .none
  | bool (b : Bool) : IsKnown (.bool b)
  | int (i : Int) : IsKnown (.int i)
  | float (hfinite : IsFinite x) : IsKnown (.float x)
  | text (s : String) : IsKnown (.text s)
  | list (hitems : ∀ v ∈ items, IsKnown v) : IsKnown (.list items)
  | tuple (hitems : ∀ v ∈ items, IsKnown v) : IsKnown (.tuple items)
  | dict (hentries : ∀ entry ∈ entries, IsKnown entry.2) : IsKnown (.dict entries)
  | message (m : Message) : IsKnown (.message m)
  | toolCall (c : ToolCall) : IsKnown (.toolCall c)
  | textMember (enumeration name s : String) : IsKnown (.member enumeration name .text (.text s))
  | numberMember (enumeration name : String) (i : Int) :
      IsKnown (.member enumeration name .number (.int i))
  | namesake (hvalue : compactData value = .text (enumeration ++ "." ++ name)) :
      IsKnown (.member enumeration name .plain value)
  | record (type : String) (hentries : ∀ entry ∈ fields ++ extra, IsKnown entry.2) :
      IsKnown (.record type fields extra)

private theorem isKnown_list {items : List Value} :
    IsKnown (.list items) ↔ ∀ v ∈ items, IsKnown v :=
  ⟨fun h => by cases h; assumption, .list⟩

private theorem isKnown_tuple {items : List Value} :
    IsKnown (.tuple items) ↔ ∀ v ∈ items, IsKnown v :=
  ⟨fun h => by cases h; assumption, .tuple⟩

private theorem isKnown_dict {entries : Entries} :
    IsKnown (.dict entries) ↔ ∀ entry ∈ entries, IsKnown entry.2 :=
  ⟨fun h => by cases h; assumption, .dict⟩

private theorem isKnown_record {type : String} {fields extra : Entries} :
    IsKnown (.record type fields extra) ↔ ∀ entry ∈ fields ++ extra, IsKnown entry.2 :=
  ⟨fun h => by cases h; assumption, .record type⟩

private theorem isKnown_float {x : Float} : IsKnown (.float x) ↔ IsFinite x :=
  ⟨fun h => by cases h; assumption, .float⟩

private theorem isKnown_plainMember {enumeration name : String} {value : Value} :
    IsKnown (.member enumeration name .plain value) ↔
      compactData value = .text (enumeration ++ "." ++ name) :=
  ⟨fun h => by cases h; assumption, .namesake⟩

private theorem dumpedItems_eq_iff {items : List Value} :
    looseDataOf (dumpItems items) = compactDataOf items ↔
      ∀ v ∈ items, looseData (dump v) = compactData v := by
  rw [looseDataOf_eq_map, dumpItems_eq_map, compactDataOf_eq_map, List.map_map, List.map_inj_left]
  rfl

private theorem dumpedEntries_eq_iff {entries : Entries} :
    looseDataIn (dumpEntries entries) = compactDataIn entries ↔
      ∀ entry ∈ entries, looseData (dump entry.2) = compactData entry.2 := by
  rw [looseDataIn_eq_map, dumpEntries_eq_map, compactDataIn_eq_map, List.map_map, List.map_inj_left]
  simp

private theorem length_lt_length_quotedBytes (octets : List UInt8) :
    octets.length < (quotedBytes octets).toList.length := by
  have hchar : ∀ quote c : Char, 1 ≤ (if c.toNat < 0x7f then Text.escapeChar quote c
      else numericEscape c).length := by
    intro quote c
    unfold Text.escapeChar numericEscape
    dsimp only
    repeat' split
    all_goals simp
  have hbody := length_le_length_flatMap (hchar (delimiter (octets.map fun b => Char.ofNat b.toNat)))
    (octets.map fun b => Char.ofNat b.toNat)
  rw [List.length_map] at hbody
  simp only [quotedBytes, String.toList_ofList, List.length_append, List.length_cons]
  omega

private theorem looseData_dumpMessage (m : Message) :
    looseData (.dict (dumpMessage m)) = messageData m := by
  have hcalls : looseDataOf (m.toolCalls.map fun c => .dict (Value.toolCallFields c)) =
      m.toolCalls.map fun c => .dict (Value.toolCallFields c) := by
    rw [looseDataOf_eq_map, List.map_map]
    rfl
  have hoption : ∀ o : Option String,
      looseData (Value.ofOption .text o) = Value.ofOption .text o := by
    intro o
    cases o <;> rfl
  simp only [dumpMessage, messageData, looseData, looseDataIn, hcalls, hoption, Value.ofRole]

private theorem compactDataIn_append (fields extra : Entries) :
    compactDataIn (fields ++ extra) = compactDataIn fields ++ compactDataIn extra := by
  rw [compactDataIn_eq_map, compactDataIn_eq_map, compactDataIn_eq_map, List.map_append]

private theorem dumped_eq_iff {v : Value} (h : Writable v) :
    looseData (dump v) = compactData v ↔ IsKnown v := by
  induction h with
  | none => exact iff_of_true rfl .none
  | bool b => exact iff_of_true rfl (.bool b)
  | int => exact iff_of_true rfl (.int _)
  | text s => exact iff_of_true rfl (.text s)
  | float x => exact (doubles_eq_iff x).trans isKnown_float.symm
  | bytes octets =>
      refine iff_of_false (fun h => ?_) (fun h => by cases h)
      have hlonger := length_lt_length_quotedBytes octets
      have hshorter := length_decodeLossy_le octets
      have hsame : quotedBytes octets = decodeLossy octets := Value.text.inj h
      rw [hsame] at hlonger
      omega
  | list _ ih =>
      rw [isKnown_list, dump, looseData, compactData, Value.list.injEq, dumpedItems_eq_iff]
      exact forall₂_congr ih
  | tuple _ ih =>
      rw [isKnown_tuple, dump, looseData, compactData, Value.list.injEq, dumpedItems_eq_iff]
      exact forall₂_congr ih
  | set => exact iff_of_false (fun h => by cases h) (fun h => by cases h)
  | dict _ _ ih =>
      rw [isKnown_dict, dump, looseData, compactData, Value.dict.injEq, dumpedEntries_eq_iff]
      exact forall₂_congr ih
  | message m => exact iff_of_true (looseData_dumpMessage m) (.message m)
  | toolCall c => exact iff_of_true rfl (.toolCall c)
  | textMember _ _ s => exact iff_of_true rfl (.textMember _ _ s)
  | numberMember => exact iff_of_true rfl (.numberMember _ _ _)
  | plainMember =>
      rw [isKnown_plainMember]
      exact ⟨fun h => h.symm, fun h => h.symm⟩
  | record _ _ _ ih =>
      rw [isKnown_record, dump, looseData, compactData, Value.dict.injEq, dumpEntries_append,
        ← compactDataIn_append, dumpedEntries_eq_iff]
      exact forall₂_congr ih

private theorem not_holdsLong {v : Value} (h : Writable v) : v.holdsLong = false := by
  induction h with
  | int hshort => exact holdsLongInteger_int.2 hshort
  | numberMember _ _ hshort => exact holdsLongInteger_int.2 hshort
  | list _ ih | tuple _ ih | set _ ih => rwa [Value.holdsLong, Value.anyLong_eq_false]
  | dict _ _ ih => rwa [Value.holdsLong, Value.anyLongIn_eq_false]
  | plainMember _ _ _ ih => exact ih
  | record _ _ _ ih =>
      rw [List.forall_mem_append] at ih
      rw [Value.holdsLong, Value.anyLongIn_eq_false.2 ih.1, Value.anyLongIn_eq_false.2 ih.2]
      rfl
  | _ => rfl

private theorem not_holdsLongInteger {v : Value} (h : Writable v) : holdsLongInteger v = false := by
  induction h with
  | int hshort | numberMember _ _ hshort => exact holdsLongInteger_int.2 hshort
  | list _ ih | tuple _ ih => rwa [holdsLongInteger, anyLongInteger_eq_false]
  | dict _ _ ih => rwa [holdsLongInteger, anyLongIntegerIn_eq_false]
  | set hitems => exact not_holdsLong (.set hitems)
  | record type hnames hentries => exact not_holdsLong (.record type hnames hentries)
  | _ => rfl

private theorem read_dumped_eq_iff {v : Value} (h : Writable v) (depth : Nat) :
    (IsKnown v → Json.read depth (loose (dump v)) = Json.read depth (compact v)) ∧
      (nesting (compactData v) ≤ depth →
        Json.read depth (loose (dump v)) = Json.read depth (compact v) → IsKnown v) := by
  have hloose := (spells_loose (writable_dump h)).read depth
  have hcompact := (spells_compact h).read depth
  constructor
  · intro hknown
    rw [hloose, hcompact, (dumped_eq_iff h).2 hknown]
  · intro hnesting heq
    rw [hloose, hcompact, tooDeep?_eq_none _ hnesting] at heq
    refine (dumped_eq_iff h).1 ?_
    unfold unlessTooDeep at heq
    split at heq
    · cases heq
    · exact Except.ok.inj heq

end Json

/-! ## Tools of two kinds -/

/-- The body of a declared tool gives a value on the arguments of a call. -/
def ToolDeclaration.Gives (d : ToolDeclaration σ) (arguments : String) (deadline : Option Instant)
    (s : Scene σ) (v : Value) (s' : Scene σ) : Prop :=
  ∃ perform payload accepted entries, d.body = some perform ∧
    decodeArguments d.room d.name arguments = .ok payload ∧
    d.arguments.validate (.dict payload) = .ok accepted ∧ dump accepted = .dict entries ∧
    perform.call entries deadline s = (.done v, s')

/-- A function on the records of a type gives a value on the arguments of a call. -/
def FunctionGives (name : String) (input : RecordType) (f : Callable σ Value) (room : Nat)
    (arguments : String) (deadline : Option Instant) (s : Scene σ) (v : Value) (s' : Scene σ) : Prop :=
  ∃ payload request, decodeArguments room name arguments = .ok payload ∧
    input.validate (.dict payload) = .ok request ∧ f.call request deadline s = (.done v, s')

theorem ToolDeclaration.toTool_eq_ok {d : ToolDeclaration σ} {tool : Tool σ}
    (h : d.toTool = .ok tool) :
    ∃ perform, d.body = some perform ∧ tool.name = d.name ∧ tool.run = d.run perform ∧
      tool.room = d.room := by
  unfold toTool at h
  obtain ⟨info?, -, h⟩ := Outcome.bind_eq_ok.1 h
  cases hbody : d.body with
  | none =>
      rw [hbody] at h
      cases h
  | some perform =>
      rw [hbody] at h
      cases h
      exact ⟨perform, rfl, rfl, rfl, rfl⟩

variable {arguments : String} {deadline : Option Instant} {s s' : Scene σ} {v : Value}

private theorem invoke_of_gives {d : ToolDeclaration σ} {tool : Tool σ}
    (htool : d.toTool = .ok tool)
    (h : d.Gives arguments deadline s v s')
    (hinstance : ToolDeclaration.isInstance d.result v = true) :
    tool.invoke arguments deadline s = Tool.encoded (.done (dump v), s') := by
  obtain ⟨perform, payload, accepted, entries, hbody, hdecode, haccept, hentries, hgives⟩ := h
  obtain ⟨own, hown, hname, hrun, hroom⟩ := ToolDeclaration.toTool_eq_ok htool
  rw [hbody] at hown
  cases hown
  have hfinish : tool.run (.dict payload) deadline s = (.done (dump v), s') := by
    rw [hrun]
    refine Work.bind_eq_done.2 ⟨accepted, s, Work.ofOutcome_eq_done.2 ⟨haccept, rfl⟩, ?_⟩
    rw [hentries]
    refine Work.bind_eq_done.2 ⟨v, s', hgives, ?_⟩
    rw [ToolDeclaration.finish, if_pos hinstance]
    rfl
  rw [Tool.invoke_of_decoded (by rwa [hroom, hname]), hfinish]

private theorem invoke_of_functionGives {name description : String} {input : RecordType}
    {f : Callable σ Value} {room : Nat} {tool : Tool σ}
    (htool : Tool.ofFunction name description input f room = .ok tool)
    (h : FunctionGives name input f room arguments deadline s v s') :
    tool.invoke arguments deadline s = Tool.encoded (.done v, s') := by
  obtain ⟨payload, request, hdecode, hvalidate, hgives⟩ := h
  obtain ⟨parameters, -, hrest⟩ := Outcome.bind_eq_ok.1 htool
  obtain ⟨info, hinfo, hrest⟩ := Outcome.bind_eq_ok.1 hrest
  cases hrest
  have hname : info.name = name := ToolInfo.name_of_make hinfo
  rw [Tool.invoke_of_decoded (by rwa [hname])]
  congr 1
  exact Work.bind_eq_done.2 ⟨request, s, Work.ofOutcome_eq_done.2 ⟨hvalidate, rfl⟩, hgives⟩

private theorem exists_record_of_isInstance {type : RecordType}
    (h : ToolDeclaration.isInstance type v = true) :
    ∃ fields extra, v = .record type.name fields extra := by
  cases v with
  | record name fields extra =>
      rw [ToolDeclaration.isInstance, beq_iff_eq] at h
      exact ⟨fields, extra, by rw [h]⟩
  | _ => cases h

/-- The answers of a declared tool and of a function to the same result are read as the same data
where both notations know all of it.  Of data that the reader takes, that is the only case.  The
function has no answer where the result holds octets that are no text. -/
theorem answers_agree_iff {d : ToolDeclaration σ} {declared : Tool σ} {arguments : String}
    {deadline : Option Instant} {s s' : Scene σ} (hdeclared : d.toTool = .ok declared)
    (hgives : d.Gives arguments deadline s v s')
    {name description : String} {input : RecordType} {f : Callable τ Value} {room : Nat}
    {function : Tool τ} {arguments' : String} {deadline' : Option Instant} {t t' : Scene τ}
    (hfunction : Tool.ofFunction name description input f room = .ok function)
    (hfunctionGives : FunctionGives name input f room arguments' deadline' t v t')
    (hinstance : ToolDeclaration.isInstance d.result v = true) (hwritable : Json.Writable v) :
    ∃ answer, declared.invoke arguments deadline s = (.done answer, s') ∧
      function.invoke arguments' deadline' t =
        ((match Json.undecodable? v with
          | none => .done (Json.compact v)
          | some fault => .failed (unserializable fault)), t') ∧
      ∀ depth, (Json.IsKnown v → Json.read depth answer = Json.read depth (Json.compact v)) ∧
        (Json.nesting (Json.compactData v) ≤ depth →
          Json.read depth answer = Json.read depth (Json.compact v) → Json.IsKnown v) := by
  have hshort := Json.not_holdsLongInteger (Json.writable_dump hwritable)
  have hanswer := invoke_of_gives hdeclared hgives hinstance
  have hfunctionAnswer := invoke_of_functionGives hfunction hfunctionGives
  obtain ⟨fields, extra, hrecord⟩ := exists_record_of_isInstance hinstance
  refine ⟨Json.loose (dump v), ?_, ?_, Json.read_dumped_eq_iff hwritable⟩
  · rw [hanswer]
    subst hrecord
    simp only [dump] at hshort ⊢
    simp only [Tool.encoded, encodeResult, hshort, Bool.false_eq_true, if_false]
  · rw [hfunctionAnswer]
    subst hrecord
    simp only [Tool.encoded, encodeResult]
    cases Json.undecodable? (.record d.result.name fields extra) <;> rfl

/-! ### Red tags, kept in a list and in a set -/

def tagged (name : String) (policy : ExtraPolicy) (s : Shape) : RecordType where
  name := name
  policy := policy
  fields := [({ name := "tags", title := some "Tags" }, s)]

def tagger (s : Shape) : ToolDeclaration Unit where
  typeName := "Tagger"
  name := "tagger"
  arguments := tagged "Arguments" .forbid s
  result := tagged "Result" .ignore s
  body := some (.plain fun entries =>
    Work.ofOutcome ((tagged "Result" .ignore s).validate (.dict entries)))

def tagFunction (s : Shape) : Callable Unit Value :=
  .plain fun request => Work.ofOutcome ((tagged "Result" .ignore s).validate (dump request))

def tagging (s : Shape) : Outcome (Tool Unit) :=
  Tool.ofFunction "tagging" "" (tagged "Arguments" .ignore s) (tagFunction s)

def redTags : String := "\x7b\"tags\": [\"red\"]\x7d"

def kept (v : Value) : Value := .record "Result" [("tags", v)] []

private theorem decodeArguments_redTags (tool : String) :
    decodeArguments Json.usualDepth tool redTags = .ok [("tags", .list [.text "red"])] := by
  have hdata : Json.IsData (.dict [("tags", .list [.text "red"])]) :=
    .dict (by decide) (List.forall_mem_singleton.2 (.list (List.forall_mem_singleton.2 (.text _))))
  have hspells := Json.spells_loose (Json.writable_of_isData hdata rfl)
  have htext : Json.loose (.dict [("tags", .list [.text "red"])]) = redTags := by decide +kernel
  rw [Json.looseData_of_isData hdata, htext] at hspells
  exact Json.decodeArguments_of_read (by decide +kernel) (hspells.read_eq_ok (by decide))

def tagsParameters : ObjectParam :=
  ⟨none, [("tags", .array none (.primitive none .string none))], ["tags"]⟩

private theorem parametersOf_tagged {s : Shape} (name : String) (policy : ExtraPolicy)
    (hs : s = .listOf .text ∨ s = .setOf .text) :
    Schema.parametersOf (tagged name policy s) = .ok tagsParameters := by
  have hlist : Schema.fieldFragment { name := "tags", title := some "Tags" } (.listOf .text) =
      .dict [("items", .dict [("type", .text "string")]), ("title", .text "Tags"),
        ("type", .text "array")] := by
    simp [Schema.fieldFragment, Schema.fragment, Schema.lengthBounds, Schema.boundEntries,
      Schema.typed, Schema.sorted, List.mergeSort]
  have hset : Schema.fieldFragment { name := "tags", title := some "Tags" } (.setOf .text) =
      .dict [("items", .dict [("type", .text "string")]), ("title", .text "Tags"),
        ("type", .text "array"), ("uniqueItems", .bool true)] := by
    simp [Schema.fieldFragment, Schema.fragment, Schema.lengthBounds, Schema.boundEntries,
      Schema.typed, Schema.sorted, List.mergeSort]
  rcases hs with rfl | rfl
  · simp only [Schema.parametersOf, tagged, Schema.ofRecordType, Schema.objectFragment,
      List.map_cons, hlist]
    rfl
  · simp only [Schema.parametersOf, tagged, Schema.ofRecordType, Schema.objectFragment,
      List.map_cons, hset]
    rfl

private theorem exists_taggers {s : Shape} (hs : s = .listOf .text ∨ s = .setOf .text) :
    (∃ tool, (tagger s).toTool = .ok tool) ∧ ∃ tool, tagging s = .ok tool := by
  have hinfo : ∃ info, (tagger s).info? = .ok info := by
    refine ⟨some { name := "tagger"
                   description := (tagger s).describe
                   parameters := tagsParameters },
      Outcome.bind_eq_ok.2 ⟨_, parametersOf_tagged "Arguments" .forbid hs, ?_⟩⟩
    exact Outcome.bind_eq_ok.2 ⟨_, rfl, rfl⟩
  obtain ⟨info, hinfo⟩ := hinfo
  exact ⟨⟨_, Outcome.bind_eq_ok.2 ⟨info, hinfo, rfl⟩⟩, _, Outcome.bind_eq_ok.2
    ⟨_, parametersOf_tagged "Arguments" .ignore hs, Outcome.bind_eq_ok.2 ⟨_, rfl, rfl⟩⟩⟩

private theorem call_plain {f : α → Outcome Value} {a : α} (h : f a = .ok v) (scene : Scene σ) :
    (Callable.plain fun a => Work.ofOutcome (f a)).call a none scene = (.done v, scene) := by
  simp only [Callable.call, Work.aside, h]
  rfl

private theorem tagger_gives {s : Shape} {v : Value}
    (haccept : (tagged "Arguments" .forbid s).validate (.dict [("tags", .list [.text "red"])]) =
      .ok (.record "Arguments" [("tags", v)] []))
    (hresult : (tagged "Result" .ignore s).validate (.dict [("tags", dump v)]) = .ok (kept v))
    (scene : Scene Unit) : (tagger s).Gives redTags none scene (kept v) scene :=
  ⟨_, _, _, _, rfl, decodeArguments_redTags "tagger", haccept, rfl, call_plain hresult scene⟩

private theorem tagging_gives {s : Shape} {v : Value}
    (haccept : (tagged "Arguments" .ignore s).validate (.dict [("tags", .list [.text "red"])]) =
      .ok (.record "Arguments" [("tags", v)] []))
    (hresult : (tagged "Result" .ignore s).validate (.dict [("tags", dump v)]) = .ok (kept v))
    (scene : Scene Unit) :
    FunctionGives "tagging" (tagged "Arguments" .ignore s) (tagFunction s) Json.usualDepth
      redTags none scene (kept v) scene :=
  ⟨_, _, decodeArguments_redTags "tagging", haccept, call_plain hresult scene⟩

private theorem writable_kept {v : Value} (h : Json.Writable v) : Json.Writable (kept v) :=
  .record "Result" (List.nodup_singleton _) (List.forall_mem_singleton.2 h)

/-- The list is answered alike. -/
theorem listed_tags_agree : ∃ declared function answer,
    (tagger (.listOf .text)).toTool = .ok declared ∧ tagging (.listOf .text) = .ok function ∧
      declared.invoke redTags none { world := () } = (.done answer, { world := () }) ∧
      function.invoke redTags none { world := () } =
        (.done (Json.compact (kept (.list [.text "red"]))), { world := () }) ∧
      Json.read Json.usualDepth answer =
        Json.read Json.usualDepth (Json.compact (kept (.list [.text "red"]))) := by
  obtain ⟨⟨declared, hdeclared⟩, function, hfunction⟩ := exists_taggers (.inl rfl)
  have hlist : Json.Writable (.list [.text "red"]) := .list (List.forall_mem_singleton.2 (.text _))
  obtain ⟨answer, hanswer, hfunctionAnswer, hagree⟩ :=
    answers_agree_iff hdeclared (tagger_gives rfl rfl { world := () }) hfunction
      (tagging_gives rfl rfl { world := () }) rfl (writable_kept hlist)
  have hknown : Json.IsKnown (kept (.list [.text "red"])) :=
    .record "Result" (List.forall_mem_singleton.2 (.list (List.forall_mem_singleton.2 (.text _))))
  exact ⟨declared, function, answer, hdeclared, hfunction, hanswer, hfunctionAnswer,
    (hagree _).1 hknown⟩

/-- The set is answered as the text by which it is displayed. -/
theorem set_tags_differ : ∃ declared, (tagger (.setOf .text)).toTool = .ok declared ∧
    (tagger (.setOf .text)).Gives redTags none { world := () } (kept (.set [.text "red"]))
      { world := () } ∧
    ToolDeclaration.isInstance (tagger (.setOf .text)).result (kept (.set [.text "red"])) = true ∧
    declared.invoke redTags none { world := () } =
      (.done "\x7b\"tags\": \"\x7b'red'\x7d\"\x7d", { world := () }) ∧
    Json.compact (kept (.set [.text "red"])) = "\x7b\"tags\":[\"red\"]\x7d" ∧
    Json.read Json.usualDepth "\x7b\"tags\": \"\x7b'red'\x7d\"\x7d" ≠
      Json.read Json.usualDepth "\x7b\"tags\":[\"red\"]\x7d" := by
  obtain ⟨⟨declared, hdeclared⟩, -⟩ := exists_taggers (.inr rfl)
  have hgives := @tagger_gives (.setOf .text) (.set [.text "red"]) rfl rfl { world := () }
  have hinvoke := invoke_of_gives hdeclared hgives rfl
  have hloose : Json.loose (dump (kept (.set [.text "red"]))) =
      "\x7b\"tags\": \"\x7b'red'\x7d\"\x7d" := by decide +kernel
  have hcompact : Json.compact (kept (.set [.text "red"])) = "\x7b\"tags\":[\"red\"]\x7d" := by
    decide +kernel
  have hwritable : Json.Writable (kept (.set [.text "red"])) :=
    writable_kept (.set (List.forall_mem_singleton.2 (.text _)))
  have hreadLoose := (Json.spells_loose (Json.writable_dump hwritable)).read_eq_ok
    (by decide : _ ≤ Json.usualDepth)
  have hreadCompact := (Json.spells_compact hwritable).read_eq_ok (by decide : _ ≤ Json.usualDepth)
  refine ⟨declared, hdeclared, hgives, rfl, ?_, hcompact, ?_⟩
  · rw [hinvoke, ← hloose]
    rfl
  · rw [← hloose, ← hcompact, hreadLoose, hreadCompact]
    intro h
    injection h with h
    injection h with h
    injection h with h
    cases h

end ChatPipeline
