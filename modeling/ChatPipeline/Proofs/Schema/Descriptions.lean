import ChatPipeline.Proofs.Schema.Mapping
import ChatPipeline.Proofs.Schema.PlainShapes
import ChatPipeline.Proofs.Schema.RoundTrip

/-!
# Descriptions of fields

What a field says about itself is shown in the descriptor that is made of it, at any depth
(`parametersOf_keeps`), unless the field is of a record or an enumeration, perhaps optional, that
has a text of its own: the innermost description wins, and then that text takes the place of the
field's.
-/

namespace ChatPipeline

open Validation

def Param.description : Param → Option String
  | .primitive description _ _ => description
  | .array description _ => description
  | .object description _ _ => description

namespace Schema

/-! ## What is kept -/

def docText (s : Shape) : Option String := (atoms s).findSome? ownDoc

/-- A descriptor has a description, which is written unless it is empty. -/
structure DescribedBy (p : Param) (d : String) : Prop where
  held : p.description = some d
  written : d ≠ "" → p.toSchema.part "description" = .text d

/-- A descriptor shows what the field says about itself, or the text of what the field is of. -/
def Carries (f : FieldInfo) (s : Shape) (p : Param) : Prop :=
  ∀ d, f.description = some d → DescribedBy p ((docText s).getD d)

mutual

/-- Every field inside a shape is carried by its descriptor.  The fields inside the values of a
mapping and the parts of a tuple have none. -/
def Keeps : Shape → Param → Prop
  | .listOf s, p | .setOf s, p => ∃ description items, p = .array description items ∧ Keeps s items
  | .optional s, p => Keeps s p
  | .union shapes, p => KeepsEach shapes p
  | .record _ _ _ fields, p => ∃ description properties required,
      p = .object description properties required ∧ KeepsFields fields properties
  | _, _ => True

def KeepsEach : List Shape → Param → Prop
  | [], _ => True
  | s :: rest, p => Keeps s p ∧ KeepsEach rest p

def KeepsFields : List (FieldInfo × Shape) → List (String × Param) → Prop
  | [], [] => True
  | (f, s) :: fields, (key, p) :: properties =>
    key = f.key ∧ Carries f s p ∧ Keeps s p ∧ KeepsFields fields properties
  | _, _ => False

end

/-- Records and enumerations of one name are the same, and no name is a path. -/
structure WellNamed (t : RecordType) : Prop where
  unique : ∀ e ∈ definitionsIn t.fields, ∀ e' ∈ definitionsIn t.fields, e.1 = e'.1 → e = e'
  plain : ∀ e ∈ definitionsIn t.fields, '/' ∉ e.1.toList

/-! ## Conversion -/

section

variable {defs outer : Value} {depth : Nat} {p : Param} {step : Value → Outcome Param}
  {entries : Entries} {shown : Value}

theorem Reads.checked (h : Reads step entries shown p) :
    checkedDescription shown = .ok p.description := by
  cases h with
  | object _ _ _ _ _ hshown => exact hshown
  | array _ _ hshown => exact hshown
  | primitive _ _ hshown => exact hshown

private theorem reads_of_quiet {v : Value} (h : Quiet v)
    (hp : convertWithin defs (depth + 1) outer v = .ok p) :
    ∃ entries : Entries, v = .dict entries ∧
      Reads (convertWithin defs depth .none) entries outer p := by
  obtain ⟨entries, rfl, hnone⟩ := h
  have hreads := reads_of_get? (fun key hkey => hnone key (List.mem_cons_of_mem _ hkey)) hp
  rw [entryOr, hnone _ (by decide)] at hreads
  exact ⟨entries, rfl, hreads⟩

theorem Reads.eq_array (h : Reads step entries shown p)
    (htype : entries.get? "type" = some (.text "array")) :
    ∃ description items, p = .array description items ∧
      step (entryOr entries "items" textFragment) = .ok items := by
  have hname := h.typeName_eq htype
  cases h with
  | object => exact absurd hname (by decide : "object" ≠ "array")
  | array _ hitems _ => exact ⟨_, _, rfl, hitems⟩
  | @primitive type => exact absurd hname (type.name_ne _ (by decide))

theorem Reads.eq_object (h : Reads step entries shown p)
    (htype : entries.get? "type" = some (.text "object")) :
    ∃ description properties required, p = .object description properties required ∧
      ∃ parts, entryOr entries "properties" (.dict []) = .dict parts ∧
        convertEach step parts = .ok properties := by
  have hname := h.typeName_eq htype
  cases h with
  | object _ hproperties hparts _ _ _ => exact ⟨_, _, _, rfl, _, hproperties, hparts⟩
  | array => exact absurd hname (by decide : "array" ≠ "object")
  | @primitive type => exact absurd hname (type.name_ne _ (by decide))

private theorem convertWithin_referTo {name : String} (hname : '/' ∉ name.toList)
    (hp : convertWithin defs (depth + 1) outer (referTo name) = .ok p) :
    ∃ target, defs.entry name = .ok target ∧ convertWithin defs depth outer target = .ok p := by
  rcases convertWithin_eq_ok_iff.1 hp with ⟨target, hnext, hp⟩ | ⟨hitself, -⟩
  · cases hnext with
    | reference hkey hnext =>
        cases hkey
        rw [followReference_append hname] at hnext
        exact ⟨target, hnext, hp⟩
    | part hown => cases hown
    | branch hown => cases hown
  · cases hitself with
    | itself hown => cases hown

private theorem convertWithin_anyOf {vs : List Value}
    (hp : convertWithin defs (depth + 1) outer (.dict [("anyOf", .list vs)]) = .ok p) :
    ∃ next, nonNull (.list vs) = .ok [next] ∧ convertWithin defs depth outer next = .ok p := by
  rcases convertWithin_eq_ok_iff.1 hp with ⟨next, hnext, hp⟩ | ⟨hitself, -⟩
  · cases hnext with
    | reference hkey => cases hkey
    | part _ hkey => cases hkey
    | branch _ _ hkey honly =>
        cases hkey
        exact ⟨next, honly, hp⟩
  · cases hitself with
    | itself _ _ hbranches => cases hbranches

private theorem convertWithin_alternatives {s : Shape} {v : Value} (h : Alternates s v)
    (hp : convertWithin defs depth outer v = .ok p) : ∃ depth' ≤ depth,
      (∃ a ∈ atoms s, ∃ b, convertWithin defs depth' outer (fragment a b) = .ok p) ∧
      ∀ a ∈ atoms s, ∃ b, typesNull (fragment a b) = true ∨
        convertWithin defs depth' outer (fragment a b) = .ok p := by
  rcases alternativesOf_cases v with ⟨vs, rfl, heq⟩ | heq
  · cases depth with
    | zero => cases hp
    | succ depth =>
        obtain ⟨next, honly, hp⟩ := convertWithin_anyOf hp
        obtain ⟨_, ⟨⟩, -, hkept⟩ := nonNull_eq_ok_iff.1 honly
        refine ⟨depth, Nat.le_succ depth, ?_, fun a ha => ?_⟩
        · have hnext : next ∈ vs := (List.mem_filter.1 (hkept ▸ List.mem_singleton_self next)).1
          obtain ⟨a, ha, b, rfl⟩ := h.of_alternative next hnext
          exact ⟨a, ha, b, hp⟩
        · obtain ⟨b, hb⟩ := h.of_atom a ha
          refine ⟨b, ?_⟩
          cases hnull : typesNull (fragment a b) with
          | true => exact .inl rfl
          | false =>
              have hmem : fragment a b ∈ vs.filter fun a => !typesNull a :=
                List.mem_filter.2 ⟨hb, by rw [hnull]; rfl⟩
              rw [hkept, List.mem_singleton] at hmem
              exact .inr (hmem ▸ hp)
  · refine ⟨depth, Nat.le_refl depth, ?_, fun a ha => ?_⟩
    · obtain ⟨a, ha, b, rfl⟩ := h.of_alternative v (heq ▸ List.mem_singleton_self v)
      exact ⟨a, ha, b, hp⟩
    · obtain ⟨b, hb⟩ := h.of_atom a ha
      rw [heq, List.mem_singleton] at hb
      exact ⟨b, .inr (hb ▸ hp)⟩

private theorem convertWithin_fieldFragment {f : FieldInfo} {s : Shape}
    (hp : convertWithin defs depth .none (fieldFragment f s) = .ok p) :
    convertWithin defs depth ((f.description.map Value.text).getD .none) (fragment s f.bounds) =
      .ok p := by
  obtain ⟨entries, heq, hown⟩ := fragment_undescribed s f.bounds
  obtain ⟨more, hfield, hkeys, hdescription⟩ := fieldFragment_eq heq
  rw [hfield] at hp
  rw [heq]
  cases depth with
  | zero => cases hp
  | succ depth =>
      have hother : ∀ key ∈ ["default", "description", "title"], key ∉ readKeys := by decide
      have hmaps := maps_append entries fun e he => hother e.1 (hkeys e he)
      refine Maps.convertWithin (maps_of_get? fun key hkey => ?_) ?_ hp
      · rw [get?_mergeSort, hmaps.get?_eq hkey]
      · rw [entryOr, entryOr, get?_mergeSort, get?_append, hown, hdescription]
        rfl

end

/-! ## Definitions -/

structure Defines (defs : Value) (listed : Entries) : Prop where
  found : ∀ name node, defs.entry name = .ok node → (name, node) ∈ listed
  unique : ∀ e ∈ listed, ∀ e' ∈ listed, e.1 = e'.1 → e = e'
  plain : ∀ e ∈ listed, '/' ∉ e.1.toList

theorem Defines.convertWithin {defs : Value} {listed : Entries} (h : Defines defs listed)
    {name : String} {node : Value} (hlisted : (name, node) ∈ listed) {depth : Nat} {outer : Value}
    {p : Param}
    (hp : ChatPipeline.Schema.convertWithin defs (depth + 1) outer (referTo name) = .ok p) :
    ChatPipeline.Schema.convertWithin defs depth outer node = .ok p := by
  obtain ⟨target, hentry, hp⟩ := convertWithin_referTo (h.plain _ hlisted) hp
  have hsame := h.unique _ (h.found name target hentry) _ hlisted rfl
  cases hsame
  exact hp

private theorem definitions_subset_definitionsIn {fields : List (FieldInfo × Shape)}
    {field : FieldInfo × Shape} (h : field ∈ fields) :
    definitions field.2 ⊆ definitionsIn fields := by
  induction fields with
  | nil => cases h
  | cons first rest ih =>
      rcases List.mem_cons.1 h with rfl | h
      · exact List.subset_append_left _ _
      · exact List.Subset.trans (ih h) (List.subset_append_right _ _)

mutual

private theorem definitions_subset_of_mem_atoms :
    ∀ s : Shape, ∀ a ∈ atoms s, definitions a ⊆ definitions s
  | .optional s => List.forall_mem_append.2
      ⟨definitions_subset_of_mem_atoms s, List.forall_mem_singleton.2 (List.nil_subset _)⟩
  | .union shapes => definitions_subset_of_mem_atomsOf shapes
  | .any | .null | .text | .int | .float | .bool | .object | .array | .listOf _ | .setOf _
  | .dictOf _ | .tupleOf _ | .literal _ | .enumeration _ | .record .. =>
    List.forall_mem_singleton.2 (List.Subset.refl _)

private theorem definitions_subset_of_mem_atomsOf :
    ∀ shapes : List Shape, ∀ a ∈ atomsOf shapes, definitions a ⊆ definitionsOf shapes
  | [] => nofun
  | s :: rest => List.forall_mem_append.2
      ⟨fun a ha => List.Subset.trans (definitions_subset_of_mem_atoms s a ha)
          (List.subset_append_left _ _),
        fun a ha => List.Subset.trans (definitions_subset_of_mem_atomsOf rest a ha)
          (List.subset_append_right _ _)⟩

end

/-! ## Keeping -/

mutual

private theorem keeps_of_atoms {p : Param} : ∀ s : Shape, (∀ a ∈ atoms s, Keeps a p) → Keeps s p
  | .optional s, h => keeps_of_atoms s (List.forall_mem_append.1 h).1
  | .union shapes, h => keepsEach_of_atoms shapes h
  | .any, h | .null, h | .text, h | .int, h | .float, h | .bool, h | .object, h | .array, h
  | .listOf _, h | .setOf _, h | .dictOf _, h | .tupleOf _, h | .literal _, h | .enumeration _, h
  | .record .., h => h _ (List.mem_singleton_self _)

private theorem keepsEach_of_atoms {p : Param} :
    ∀ shapes : List Shape, (∀ a ∈ atomsOf shapes, Keeps a p) → KeepsEach shapes p
  | [], _ => trivial
  | s :: rest, h =>
    ⟨keeps_of_atoms s (List.forall_mem_append.1 h).1,
      keepsEach_of_atoms rest (List.forall_mem_append.1 h).2⟩

end

section

variable {defs : Value} {listed : Entries} {depth : Nat}

def Shows (s : Shape) (outer : Value) (p : Param) : Prop :=
  checkedDescription (((docText s).map Value.text).getD outer) = .ok p.description

/-- Whatever is converted from the fragment of a shape keeps the fields inside the shape. -/
def KeepsTo (defs : Value) (listed : Entries) (depth : Nat) : Prop :=
  ∀ s b, definitions s ⊆ listed → ∀ outer p,
    convertWithin defs depth outer (fragment s b) = .ok p → Keeps s p ∧ Shows s outer p

private theorem describedBy_of_description {p : Param} {d : String} (h : p.description = some d) :
    DescribedBy p d := by
  refine ⟨h, fun hne => ?_⟩
  have hkept : (some d).filter (!·.isEmpty) = some d := by
    rw [Option.filter_some, String.isEmpty_eq_false_iff.2 hne]
    rfl
  cases p with
  | primitive description type choices =>
      cases h
      rw [Param.toSchema, Param.descriptionEntry_eq, hkept]
      rfl
  | array description items =>
      cases h
      rw [Param.toSchema, Param.descriptionEntry_eq, hkept]
      rfl
  | object description properties required =>
      cases h
      rw [Param.toSchema, Param.descriptionEntry_eq, hkept]
      rcases Param.requiredEntry_cases required with ⟨-, hneeded⟩ | hneeded
      · rw [hneeded]
        rfl
      · rw [hneeded]
        rfl

private theorem carries_of_shows {f : FieldInfo} {s : Shape} {p : Param}
    (h : Shows s ((f.description.map Value.text).getD .none) p) : Carries f s p := by
  intro d hd
  rw [Shows, hd] at h
  refine describedBy_of_description ?_
  cases hdoc : docText s with
  | none =>
      rw [hdoc] at h
      exact (Except.ok.inj h).symm
  | some x =>
      rw [hdoc] at h
      exact (Except.ok.inj h).symm

private theorem keepsFields_of_convertEach {fields : List (FieldInfo × Shape)}
    {properties : List (String × Param)}
    (hkeeps : KeepsTo defs listed depth) (hin : definitionsIn fields ⊆ listed)
    (h : convertEach (convertWithin defs depth .none)
      (fields.map fun field => (field.1.key, fieldFragment field.1 field.2)) = .ok properties) :
    KeepsFields fields properties := by
  induction fields generalizing properties with
  | nil =>
      cases h
      trivial
  | cons field rest ih =>
      obtain ⟨q, hq, h⟩ := Outcome.bind_eq_ok.1 h
      obtain ⟨qs, hqs, h⟩ := Outcome.bind_eq_ok.1 h
      cases h
      have hfield : definitions field.2 ⊆ listed :=
        List.Subset.trans (definitions_subset_definitionsIn List.mem_cons_self) hin
      obtain ⟨hkept, hshown⟩ := hkeeps field.2 _ hfield _ _ (convertWithin_fieldFragment hq)
      exact ⟨rfl, carries_of_shows hshown, hkept,
        ih (List.Subset.trans (List.subset_append_right _ _) hin) hqs⟩

private theorem keeps_of_items {s : Shape} {more : Entries} {outer : Value} {p : Param}
    (hkeeps : KeepsTo defs listed depth) (hin : definitions s ⊆ listed)
    (hquiet : Quiet (typed "array" (("items", fragment s {}) :: more)))
    (hp : convertWithin defs (depth + 1) outer (typed "array" (("items", fragment s {}) :: more)) =
      .ok p) :
    (∃ description items, p = .array description items ∧ Keeps s items) ∧
      checkedDescription outer = .ok p.description := by
  obtain ⟨entries, heq, hreads⟩ := reads_of_quiet hquiet hp
  obtain ⟨htype, hother⟩ := get?_of_typed heq
  obtain ⟨description, items, rfl, hitems⟩ := hreads.eq_array htype
  have hown : entryOr entries "items" textFragment = fragment s {} := by
    rw [entryOr, hother "items" (by decide)]
    rfl
  rw [hown] at hitems
  exact ⟨⟨description, items, rfl, (hkeeps s {} hin _ _ hitems).1⟩, hreads.checked⟩

private theorem keeps_of_isAtom (hdefs : Defines defs listed)
    (ih : ∀ depth' < depth, KeepsTo defs listed depth') {a : Shape} {b : Bounds}
    (hatom : isAtom a = true) (hin : definitions a ⊆ listed) {outer : Value} {p : Param}
    (hp : convertWithin defs depth outer (fragment a b) = .ok p) :
    Keeps a p ∧
      checkedDescription (((ownDoc a).map Value.text).getD outer) = .ok p.description := by
  cases depth with
  | zero => cases hp
  | succ depth =>
      cases a with
      | optional => cases hatom
      | union => cases hatom
      | listOf s =>
          have hquiet : Quiet (fragment (.listOf s) b) := quiet_fragment b rfl
          rw [fragment] at hquiet hp
          exact keeps_of_items (ih depth (Nat.lt_succ_self depth)) hin hquiet hp
      | setOf s =>
          have hquiet : Quiet (fragment (.setOf s) b) := quiet_fragment b rfl
          rw [fragment] at hquiet hp
          exact keeps_of_items (ih depth (Nat.lt_succ_self depth)) hin hquiet hp
      | enumeration e =>
          have htarget := hdefs.convertWithin (hin (List.mem_singleton_self _)) hp
          obtain ⟨entries, heq, hnone, hdescription⟩ := enumerationFragment_entries e
          rw [heq] at htarget
          cases depth with
          | zero => cases htarget
          | succ depth =>
              have hshown := (reads_of_get? hnone htarget).checked
              rw [entryOr, hdescription] at hshown
              exact ⟨trivial, hshown⟩
      | record name doc policy fields =>
          have htarget := hdefs.convertWithin (hin List.mem_cons_self) hp
          obtain ⟨hnone, hdescription, htype, hproperties⟩ :=
            objectFragment_entries name doc policy fields
          cases depth with
          | zero => cases htarget
          | succ depth =>
              have hreads := reads_of_get? hnone htarget
              have hshown := hreads.checked
              rw [entryOr, hdescription] at hshown
              obtain ⟨description, properties, required, rfl, parts, hparts, heach⟩ :=
                hreads.eq_object htype
              rw [entryOr, hproperties] at hparts
              cases hparts
              refine ⟨⟨description, properties, required, rfl, ?_⟩, hshown⟩
              exact keepsFields_of_convertEach (ih depth (by omega))
                (List.Subset.trans (List.subset_cons_self _ _) hin) heach
      | _ =>
          obtain ⟨_, -, hreads⟩ := reads_of_quiet (quiet_fragment b rfl) hp
          exact ⟨trivial, hreads.checked⟩

private theorem undocumented_of_typesNull {a : Shape} {b : Bounds} (hatom : isAtom a = true)
    (hnull : typesNull (fragment a b) = true) : (∀ p, Keeps a p) ∧ ownDoc a = none := by
  have harray (more : Entries) : typesNull (typed "array" more) ≠ true := by
    intro h
    obtain ⟨entries, heq, htype⟩ := typesNull_eq_true_iff.1 h
    rw [(get?_of_typed heq).1] at htype
    exact absurd (Value.text.inj (Option.some.inj htype)) (by decide)
  cases a with
  | optional => cases hatom
  | union => cases hatom
  | listOf s => exact absurd hnull (harray _)
  | setOf s => exact absurd hnull (harray _)
  | enumeration e => cases hnull
  | record name doc policy fields => cases hnull
  | _ => exact ⟨fun _ => trivial, rfl⟩

private theorem keepsTo (hdefs : Defines defs listed) (depth : Nat) :
    KeepsTo defs listed depth := by
  induction depth using Nat.strongRecOn with
  | _ depth ih =>
      intro s b hin outer p hp
      obtain ⟨depth', hle, ⟨a, ha, b', hconverted⟩, hall⟩ :=
        convertWithin_alternatives (alternates_fragment s b) hp
      have hatom {a : Shape} {b : Bounds} (ha : a ∈ atoms s)
          (hp : convertWithin defs depth' outer (fragment a b) = .ok p) :=
        keeps_of_isAtom hdefs (fun depth'' hlt => ih depth'' (Nat.lt_of_lt_of_le hlt hle))
          (isAtom_of_mem_atoms s a ha)
          (List.Subset.trans (definitions_subset_of_mem_atoms s a ha) hin) hp
      refine ⟨keeps_of_atoms s fun a ha => ?_, ?_⟩
      · obtain ⟨b, hnull | hp⟩ := hall a ha
        · exact (undocumented_of_typesNull (isAtom_of_mem_atoms s a ha) hnull).1 p
        · exact (hatom ha hp).1
      · rw [Shows]
        cases hdoc : docText s with
        | none =>
            -- the shape that is converted has no text either
            have hnone := List.findSome?_eq_none_iff.1 hdoc a ha
            have hshown := (hatom ha hconverted).2
            rw [hnone] at hshown
            exact hshown
        | some x =>
            obtain ⟨a, ha, hown⟩ := List.exists_of_findSome?_eq_some hdoc
            obtain ⟨b, hnull | hp⟩ := hall a ha
            · have hnone := (undocumented_of_typesNull (isAtom_of_mem_atoms s a ha) hnull).2
              rw [hown] at hnone
              cases hnone
            · have hshown := (hatom ha hp).2
              rw [hown] at hshown
              exact hshown

end

/-! ## Parameters of a record type -/

theorem ofRecordType_entries (t : RecordType) {key : String} (hkey : key ≠ "$defs") :
    Entries.get? (ofRecordType t) key =
      Entries.get? (objectFragment t.name t.doc t.fields) key := by
  rw [ofRecordType]
  split
  · rfl
  · rw [get?_append]
    have hother : Entries.get?
        [("$defs", Value.dict (Entries.override [] (definitionsIn t.fields)))] key = none := by
      simp [Entries.get?, hkey]
    rw [hother, Option.none_or]

theorem WellNamed.defines {t : RecordType} (h : WellNamed t) :
    Defines (ownDefinitions (.dict (ofRecordType t))) (definitionsIn t.fields) where
  found _ _ := ownDefinitions_ofRecordType t
  unique := h.unique
  plain := h.plain

/-- Every field of a record type shows what it says about itself in its descriptor, and so do the
fields of the records inside, however deep; only the text of a record or an enumeration itself takes
its place. -/
theorem parametersOf_keeps {t : RecordType} (hnames : WellNamed t) {o : ObjectParam}
    (h : parametersOf t = .ok o) : KeepsFields t.fields o.properties := by
  obtain ⟨p, hp, h⟩ := Outcome.bind_eq_ok.1 h
  obtain ⟨depth, hdepth⟩ := exists_stepBound_dict (ownDefinitions (.dict (ofRecordType t)))
    (ofRecordType t)
  have hconverted : convertWithin (ownDefinitions (.dict (ofRecordType t))) (depth + 2) .none
      (.dict (ofRecordType t)) = .ok p := by
    rw [← hdepth]
    exact hp
  obtain ⟨hnone, -, htype, hproperties⟩ := objectFragment_entries t.name t.doc .ignore t.fields
  have hreads := reads_of_get? (fun key hkey => by
    rw [ofRecordType_entries t (by rintro rfl; exact absurd hkey (by decide))]
    exact hnone key hkey) hconverted
  rw [← ofRecordType_entries t (by decide)] at htype hproperties
  obtain ⟨description, properties, required, rfl, parts, hparts, heach⟩ := hreads.eq_object htype
  rw [entryOr, hproperties] at hparts
  cases hparts
  cases h
  exact keepsFields_of_convertEach (keepsTo hnames.defines (depth + 1)) (List.Subset.refl _) heach

def placeName : FieldInfo × Shape :=
  ({ name := "name", title := some "Name", description := some "As the locals say" }, .text)

def trip (doc : Option String) : RecordType where
  name := "Trip"
  fields := [({ name := "place", description := some "Where to look" },
    .record "Place" doc .ignore [placeName])]

private theorem placeName_fragment : fieldFragment placeName.1 placeName.2 = .dict
    [("description", .text "As the locals say"), ("title", .text "Name"),
      ("type", .text "string")] := by
  simp [placeName, fieldFragment, fragment_text, textFragment, sorted, List.mergeSort]

private theorem place_fragment (doc : Option String) : fieldFragment
    { name := "place", description := some "Where to look" }
    (.record "Place" doc .ignore [placeName]) =
    .dict [("$ref", .text "#/$defs/Place"), ("description", .text "Where to look")] := by
  simp [fieldFragment, fragment, referTo, isReference, sorted, List.mergeSort]

theorem trip_keeps : ∃ o, parametersOf (trip none) = .ok o ∧
    KeepsFields (trip none).fields o.properties := by
  obtain ⟨o, ho⟩ : ∃ o, parametersOf (trip none) = .ok o := by
    refine ⟨⟨none, [("place", .object (some "Where to look")
      [("name", .primitive (some "As the locals say") .string none)] ["name"])], ["place"]⟩, ?_⟩
    simp only [parametersOf, trip, ofRecordType, definitionsIn, definitions, objectFragment,
      List.map_cons, List.map_nil, place_fragment, placeName_fragment]
    rfl
  have hnames : WellNamed (trip none) :=
    { unique := List.forall_mem_singleton.2 (List.forall_mem_singleton.2 fun _ => rfl)
      plain := List.forall_mem_singleton.2 (by decide : '/' ∉ "Place".toList) }
  exact ⟨o, ho, parametersOf_keeps hnames ho⟩

/-- The place shows what its record says, not what the field says. -/
theorem trip_hides_place : ∃ o, parametersOf (trip (some "A place on the map.")) = .ok o ∧
    o.properties.map (fun property => property.2.description) = [some "A place on the map."] := by
  refine ⟨⟨none, [("place", .object (some "A place on the map.")
    [("name", .primitive (some "As the locals say") .string none)] ["name"])], ["place"]⟩, ?_, rfl⟩
  simp only [parametersOf, trip, ofRecordType, definitionsIn, definitions, objectFragment,
    List.map_cons, List.map_nil, place_fragment, placeName_fragment]
  rfl

end Schema

end ChatPipeline
