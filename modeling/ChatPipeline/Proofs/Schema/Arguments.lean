import ChatPipeline.Proofs.Schema.PlainShapes

/-!
# Arguments of tools

A tool whose arguments are plain advertises a schema that accepts whatever the schema of its
arguments accepts.  For a tuple of whole numbers it does not.
-/

namespace ChatPipeline.Schema

open Validation

/-! ## What a record takes -/

section

variable {defs : Value} {name : String} {doc : Option String} {fields : List (FieldInfo × Shape)}
  {members : Entries}

private theorem condition_objectFragment (hparts : ∀ field ∈ fields, ∀ w,
      members.get? field.1.key = some w →
      Fragment.Accepts defs (fieldFragment field.1 field.2) w)
    (hneeded : ∀ field ∈ fields, field.1.default.isNone = true →
      members.contains field.1.key = true)
    {entries : Entries} {e : String × Value} (he : e ∈ objectFragment name doc fields) :
    Condition (Fragment.Accepts defs) defs entries (.dict members) e.1 e.2 := by
  rcases mem_objectFragment he with rfl | rfl | rfl | hother
  · refine ⟨_, rfl, ?_⟩
    rintro _ ⟨⟩ part hpart w hw
    obtain ⟨field, hfield, rfl⟩ := List.mem_map.1 hpart
    exact hparts field hfield w hw
  · exact ⟨"object", rfl, members, rfl⟩
  · refine ⟨_, rfl, ?_⟩
    rintro _ ⟨⟩ key hkey
    obtain ⟨field, hfield, rfl⟩ := List.mem_map.1 hkey
    obtain ⟨hfield, hnone⟩ := List.mem_filter.1 hfield
    exact ⟨field.1.key, rfl, hneeded field hfield hnone⟩
  · simp only [List.mem_cons, List.not_mem_nil, or_false] at hother
    rcases hother with hother | hother <;> rw [hother] <;> trivial

private theorem accepts_objectFragment (hparts : ∀ field ∈ fields, ∀ w,
      members.get? field.1.key = some w →
      Fragment.Accepts defs (fieldFragment field.1 field.2) w)
    (hneeded : ∀ field ∈ fields, field.1.default.isNone = true →
      members.contains field.1.key = true) :
    Fragment.Accepts defs (.dict (objectFragment name doc fields)) (.dict members) :=
  Fragment.accepts_of_conditions fun _ => condition_objectFragment hparts hneeded

end

private theorem accepts_ofRecordType {t : RecordType} {members : Entries}
    (hparts : ∀ field ∈ t.fields, ∀ w, members.get? field.1.key = some w →
      Fragment.Accepts (ownDefinitions (.dict (ofRecordType t))) (fieldFragment field.1 field.2) w)
    (hneeded : ∀ field ∈ t.fields, field.1.default.isNone = true →
      members.contains field.1.key = true) :
    Accepts (.dict (ofRecordType t)) (.dict members) := by
  refine Fragment.accepts_of_conditions fun e he => ?_
  rcases List.mem_append.1 he with he | he
  · split at he
    · cases he
    · rw [List.mem_singleton.1 he]
      trivial
  · exact condition_objectFragment hparts hneeded he

def pair (part : Value) (title : String) : Value :=
  .dict [("maxItems", .int 2), ("minItems", .int 2), ("prefixItems", .list [part, part]),
    ("title", .text title), ("type", .text "array")]

private theorem pair_accepts {defs part v w : Value} {title : String}
    (hv : Fragment.Accepts defs part v)
    (hw : Fragment.Accepts defs part w) :
    Fragment.Accepts defs (pair part title) (.list [v, w]) := by
  refine Fragment.accepts_of_conditions fun e he => ?_
  simp only [List.mem_cons, List.not_mem_nil, or_false] at he
  rcases he with rfl | rfl | rfl | rfl | rfl
  · rintro _ ⟨⟩
    exact ⟨2, rfl, Int.le_refl 2⟩
  · rintro _ ⟨⟩
    exact ⟨2, rfl, Int.le_refl 2⟩
  · refine ⟨_, rfl, ?_⟩
    rintro _ ⟨⟩ own hown
    simp only [List.zip_cons_cons, List.zip_nil_right, List.mem_cons, List.not_mem_nil,
      or_false] at hown
    rcases hown with rfl | rfl
    · exact hv
    · exact hw
  · trivial
  · exact ⟨"array", rfl, _, rfl⟩

private theorem fieldFragment_pair (name title : String) (s : Shape) :
    fieldFragment { name, title := some title } (.tupleOf [s, s]) = pair (fragment s {}) title := by
  simp [fieldFragment, fragment, fragments, typed, sorted, List.mergeSort, pair]

def deck : FieldInfo × Shape :=
  ({ name := "deck", title := some "Deck" }, .literal [.text "upper", .text "lower"])

def voyage : RecordType where
  name := "Voyage"
  fields := [({ name := "ends", title := some "Ends" }, .tupleOf [.text, .text]),
    ({ name := "berth" }, .record "Berth" none .ignore [deck])]

def crossing : Entries :=
  [("ends", .list [.text "Oban", .text "Barra"]), ("berth", .dict [("deck", .text "upper")])]

private theorem deck_fragment : fieldFragment deck.1 deck.2 = .dict [("enum", .list [.text "upper",
    .text "lower"]), ("title", .text "Deck"), ("type", .text "string")] := by
  simp [deck, fieldFragment, fragment, literalFragment, commonType, scalarType?, sorted,
    List.mergeSort]

private theorem berth_fragment :
    fieldFragment { name := "berth" } (.record "Berth" none .ignore [deck]) = referTo "Berth" := by
  simp [fieldFragment, fragment, referTo, isReference, sorted]

private theorem voyage_takes_crossing : Accepts (.dict (ofRecordType voyage)) (.dict crossing) := by
  refine accepts_ofRecordType (List.forall_mem_cons.2 ⟨?_, List.forall_mem_singleton.2 ?_⟩)
    (List.forall_mem_cons.2 ⟨fun _ => rfl, List.forall_mem_singleton.2 fun _ => rfl⟩)
  · rintro _ ⟨⟩
    rw [fieldFragment_pair, fragment_text]
    exact pair_accepts (Fragment.accepts_typed.2 ⟨_, rfl⟩) (Fragment.accepts_typed.2 ⟨_, rfl⟩)
  · rintro _ ⟨⟩
    rw [berth_fragment]
    refine Fragment.accepts_of_conditions (List.forall_mem_singleton.2
      ⟨"Berth", .dict (objectFragment "Berth" none [deck]), rfl, by decide, rfl, ?_⟩)
    refine accepts_objectFragment (List.forall_mem_singleton.2 ?_)
      (List.forall_mem_singleton.2 fun _ => rfl)
    rintro _ ⟨⟩
    rw [deck_fragment]
    refine Fragment.accepts_of_conditions fun e he => ?_
    simp only [List.mem_cons, List.not_mem_nil, or_false] at he
    rcases he with rfl | rfl | rfl
    · exact ⟨_, rfl, .text "upper", List.mem_cons_self, by decide⟩
    · trivial
    · exact ⟨"string", rfl, "upper", rfl⟩

/-! ## What a tool says that it takes -/

/-- The advertised schema refuses no argument without null that the record's own schema accepts. -/
theorem accepts_of_parametersOf {t : RecordType} (hplain : isPlain t.shape = true) {o : ObjectParam}
    (h : parametersOf t = .ok o) {v : Value} (hv : NullFree v)
    (ha : Accepts (.dict (ofRecordType t)) v) : Accepts o.toParam.toSchema v := by
  have hroot : Tidy (.dict (ofRecordType t)) := by
    refine tidy_objectFragment t.name t.doc hplain _ fun e he => ?_
    split at he
    · cases he
    · rw [List.mem_singleton.1 he]
      exact (by decide : "$defs" ∉ tellingKeys)
  have hdefs (name : String) (node : Value)
      (hnode : (ownDefinitions (.dict (ofRecordType t))).entry name = .ok node) : Tidy node :=
    tidy_definitionsIn t.fields hplain _ (ownDefinitions_ofRecordType t hnode)
  exact accepts_of_toParameters h (fun entries hin => (hroot.inside hdefs hin).fillable) hv ha

theorem voyage_advertised : ∃ o, parametersOf voyage = .ok o ∧
    Accepts o.toParam.toSchema (.dict crossing) := by
  obtain ⟨o, ho⟩ : ∃ o, parametersOf voyage = .ok o := by
    refine ⟨⟨none, [("ends", .array none (.primitive none .string none)),
      ("berth", .object none [("deck", .primitive none .string (some [.text "upper",
        .text "lower"]))] ["deck"])], ["ends", "berth"]⟩, ?_⟩
    simp only [parametersOf, voyage, ofRecordType, definitionsIn, definitions, objectFragment,
      List.map_cons, List.map_nil, fieldFragment_pair, berth_fragment, deck_fragment]
    rfl
  have hcrossing : NullFree (.dict crossing) := by
    refine .dict (List.forall_mem_cons.2 ⟨.list ?_, List.forall_mem_singleton.2 (.dict ?_)⟩)
    · exact List.forall_mem_cons.2 ⟨.text _, List.forall_mem_singleton.2 (.text _)⟩
    · exact List.forall_mem_singleton.2 (.text _)
  exact ⟨o, ho, accepts_of_parametersOf rfl ho hcrossing voyage_takes_crossing⟩

def segment : RecordType where
  name := "Segment"
  fields := [({ name := "ends", title := some "Ends" }, .tupleOf [.int, .int])]

/-- The record takes a pair of whole numbers, the advertised schema only texts. -/
theorem segment_refuses_its_ends : ∃ o, parametersOf segment = .ok o ∧
    NullFree (.dict [("ends", .list [.int 1, .int 2])]) ∧
    Accepts (.dict (ofRecordType segment)) (.dict [("ends", .list [.int 1, .int 2])]) ∧
    ¬ Accepts o.toParam.toSchema (.dict [("ends", .list [.int 1, .int 2])]) := by
  have hint : fragment .int {} = .dict [("type", .text "integer")] := by
    simp [fragment, numberBounds, boundEntries, typed, sorted]
  refine ⟨⟨none, [("ends", .array none (.primitive none .string none))], ["ends"]⟩, ?_, ?_, ?_, ?_⟩
  · simp only [parametersOf, segment, ofRecordType, objectFragment, List.map_cons,
      fieldFragment_pair]
    rfl
  · exact .dict (List.forall_mem_singleton.2 (.list
      (List.forall_mem_cons.2 ⟨.int 1, List.forall_mem_singleton.2 (.int 2)⟩)))
  · refine accepts_ofRecordType (List.forall_mem_singleton.2 ?_)
      (List.forall_mem_singleton.2 fun _ => rfl)
    rintro _ ⟨⟩
    rw [fieldFragment_pair, hint]
    exact pair_accepts (Fragment.accepts_typed.2 (.inl ⟨1, rfl⟩))
      (Fragment.accepts_typed.2 (.inl ⟨2, rfl⟩))
  · intro h
    have hends := h.property rfl (List.mem_singleton_self _) rfl
    have hfirst := hends.item rfl rfl List.mem_cons_self
    obtain ⟨_, ⟨⟩⟩ := hfirst.hasType rfl

end ChatPipeline.Schema
