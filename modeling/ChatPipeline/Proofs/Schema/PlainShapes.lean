import ChatPipeline.Proofs.Schema.Fragments
import ChatPipeline.Proofs.Schema.Weakening

/-!
# Plain shapes

The schema of a record type leaves the type of an enumeration open only where its choices are of
different types, and the items of an array only where a tuple has its own fragment for each of them.
In a plain shape (`isPlain`) such choices are texts, and so are the elements of tuples.  That makes
its fragments tidy (`Tidy`): what is filled in for them, and for the fragments inside them, fits.
-/

namespace ChatPipeline.Schema

open Validation

/-! ## Plain shapes -/

def isTextOrNull : Value → Bool
  | .text _ | .none => true
  | _ => false

def arePlainChoices (choices : List Value) : Bool :=
  choices.all isTextOrNull ||
    PrimitiveType.all.any fun type => choices.all fun v => scalarType? v == some type.name

def isTextShape : Shape → Bool
  | .text => true
  | _ => false

mutual

def isPlain : Shape → Bool
  | .listOf s | .setOf s | .optional s | .dictOf s => isPlain s
  | .tupleOf shapes => shapes.all isTextShape
  | .union shapes => arePlain shapes
  | .literal choices => arePlainChoices choices
  | .enumeration e => arePlainChoices (e.members.map Prod.snd)
  | .record _ _ _ fields => areFieldsPlain fields
  | _ => true

def arePlain : List Shape → Bool
  | [] => true
  | s :: rest => isPlain s && arePlain rest

def areFieldsPlain : List (FieldInfo × Shape) → Bool
  | [] => true
  | (_, s) :: rest => isPlain s && areFieldsPlain rest

end

private theorem isPlain_of_mem_fields {fields : List (FieldInfo × Shape)}
    (h : areFieldsPlain fields = true)
    {field : FieldInfo × Shape} (hfield : field ∈ fields) : isPlain field.2 = true := by
  induction fields with
  | nil => cases hfield
  | cons first rest ih =>
      simp only [areFieldsPlain, Bool.and_eq_true] at h
      rcases List.mem_cons.1 hfield with rfl | hfield
      · exact h.1
      · exact ih h.2 hfield

private theorem arePlain_of_all_isTextShape {shapes : List Shape}
    (h : shapes.all isTextShape = true) :
    arePlain shapes = true := by
  induction shapes with
  | nil => rfl
  | cons s shapes ih =>
      simp only [List.all_cons, Bool.and_eq_true] at h
      cases s <;> cases h.1
      exact ih h.2

/-! ## Tidy fragments -/

inductive Holds (entries : Entries) : Value → Prop where
  | part (hkey : ("allOf", .list parts) ∈ entries) (hpart : node ∈ parts) : Holds entries node
  | branch (hkey : ("anyOf", .list branches) ∈ entries) (hbranch : node ∈ branches) :
      Holds entries node
  | property (hkey : ("properties", .dict parts) ∈ entries) (hpart : (name, node) ∈ parts) :
      Holds entries node
  | item (hkey : ("items", node) ∈ entries) : Holds entries node

/-- One fragment for all elements of an array, or for each of them the fragment of texts. -/
inductive UniformItems (entries : Entries) : Prop where
  | single (hitems : ("items", node) ∈ entries) (hown : ∀ parts, ("prefixItems", parts) ∉ entries)
  | texts (hitems : ∀ node, ("items", node) ∉ entries)
      (hown : ("prefixItems", .list parts) ∈ entries) (htexts : ∀ part ∈ parts, part = textFragment)
      (hmost : ("maxItems", .int parts.length) ∈ entries)

/-- Wherever something is filled in, in a fragment or further inside, it fits. -/
inductive Tidy : Value → Prop where
  | mk (htype : (∃ type, ("type", type) ∈ entries) ∨
        ∀ choices, ("enum", .list choices) ∈ entries → choices.all isTextOrNull = true)
      (hitems : ("type", .text "array") ∈ entries → UniformItems entries)
      (hheld : ∀ node, Holds entries node → Tidy node) : Tidy (.dict entries)

private theorem exists_text_of_sameData {choice v : Value} (h : sameData choice v = true)
    (hv : NullFree v)
    (hchoice : isTextOrNull choice = true) : ∃ s, v = .text s := by
  cases choice <;> cases hchoice <;> cases hv <;>
    first
    | exact ⟨_, rfl⟩
    | simp [sameData, sameScalar, numberKey?, Value.text?] at h

theorem Tidy.fillable {defs : Value} {entries : Entries} (h : Tidy (.dict entries)) :
    Fillable defs entries := by
  cases h with | mk htype hitems hheld
  constructor
  case type =>
    intro huntyped henum v hv ha
    rcases htype with ⟨type, htype⟩ | htexts
    · exact absurd huntyped (get?_ne_none htype)
    · obtain ⟨k, hk⟩ := Option.isSome_iff_exists.1 henum
      obtain ⟨choices, rfl, choice, hchoice, hsame⟩ := ha.condition hk 0
      have htext := List.all_eq_true.1 (htexts choices (Table.mem_of_lookup hk)) choice hchoice
      exact exists_text_of_sameData hsame hv htext
  case items =>
    intro hkey items hv ha w hw
    cases hitems (Table.mem_of_lookup hkey) with
    | single hitems hown =>
        obtain ⟨node, hnode⟩ := Option.ne_none_iff_exists'.1 (get?_ne_none hitems)
        rw [entryOr, hnode]
        exact ha.item hnode (get?_eq_none hown) hw
    | texts hitems hown htexts hmost =>
        obtain ⟨part, hpart, haccepts⟩ := ha.ownItem hown hmost hw
        rw [entryOr, get?_eq_none hitems]
        rw [htexts part hpart] at haccepts
        exact haccepts

theorem Tidy.inside {defs root : Value} {entries : Entries} (h : Tidy root)
    (hdefs : ∀ name node, defs.entry name = .ok node → Tidy node)
    (hinside : Inside defs root entries) : Tidy (.dict entries) := by
  induction hinside with
  | here => exact h
  | further hleads _ ih =>
      refine ih ?_
      cases h with | mk _ _ hheld
      cases hleads with
      | reference hkey htarget =>
          unfold followReference at htarget
          split at htarget
          · exact hdefs _ _ htarget
          · cases htarget
      | part hkey hpart => exact hheld _ (.part (Table.mem_of_lookup hkey) hpart)
      | branch hkey hbranch => exact hheld _ (.branch (Table.mem_of_lookup hkey) hbranch)
      | property hkey hpart => exact hheld _ (.property (Table.mem_of_lookup hkey) hpart)
      | item hkey => exact hheld _ (.item (Table.mem_of_lookup hkey))

/-! ## Further entries -/

def tellingKeys : List String :=
  ["type", "enum", "allOf", "anyOf", "properties", "items", "prefixItems"]

theorem Tidy.of_core {core entries : Entries} (h : Tidy (.dict core))
    (hcore : ∀ e ∈ core, e ∈ entries) (hrest : ∀ e ∈ entries, e ∈ core ∨ e.1 ∉ tellingKeys) :
    Tidy (.dict entries) := by
  cases h with | mk htype hitems hheld
  have hback : ∀ key k, key ∈ tellingKeys → (key, k) ∈ entries → (key, k) ∈ core :=
    fun key k hkey hk => (hrest _ hk).resolve_right fun hother => hother hkey
  -- On the keys that tell, both lists have the same entries.
  refine .mk ?_ ?_ ?_
  · refine htype.imp (fun ⟨type, htype⟩ => ⟨type, hcore _ htype⟩) fun htexts choices hk => ?_
    exact htexts choices (hback _ _ (by decide) hk)
  · intro harray
    cases hitems (hback _ _ (by decide) harray) with
    | single hnode hown =>
        exact .single (hcore _ hnode) fun parts hk => hown parts (hback _ _ (by decide) hk)
    | texts hnone hown htexts hmost =>
        exact .texts (fun node hk => hnone node (hback _ _ (by decide) hk)) (hcore _ hown) htexts
          (hcore _ hmost)
  · intro node hnode
    refine hheld node ?_
    cases hnode with
    | part hkey hpart => exact .part (hback _ _ (by decide) hkey) hpart
    | branch hkey hbranch => exact .branch (hback _ _ (by decide) hkey) hbranch
    | property hkey hpart => exact .property (hback _ _ (by decide) hkey) hpart
    | item hkey => exact .item (hback _ _ (by decide) hkey)

private theorem tidy_sorted {core : Entries} (h : Tidy (.dict core)) (more : Entries)
    (hmore : ∀ e ∈ more, e.1 ∉ tellingKeys) : Tidy (sorted (core ++ more)) := by
  refine h.of_core (fun e he => ?_) fun e he => ?_
  · rw [List.mem_mergeSort]
    exact List.mem_append_left more he
  · rw [List.mem_mergeSort] at he
    exact (List.mem_append.1 he).imp_right (hmore e)

/-! ## Fragments of plain shapes -/

theorem tidy_empty : Tidy (.dict []) :=
  .mk (.inr nofun) nofun fun _ h => by cases h <;> contradiction

private theorem tidy_typed {type : String} (h : type ≠ "array") {more : Entries}
    (hmore : ∀ e ∈ more, e.1 ∉ tellingKeys) : Tidy (typed type more) := by
  have hcore : Tidy (.dict [("type", .text type)]) := by
    refine .mk (.inl ⟨_, List.mem_singleton_self _⟩) ?_ ?_
    · intro harray
      simp [Ne.symm h] at harray
    · intro node hnode
      cases hnode <;> simp_all
  exact tidy_sorted hcore more hmore

private theorem tidy_array {node : Value} (h : Tidy node) {more : Entries}
    (hmore : ∀ e ∈ more, e.1 ∉ tellingKeys) : Tidy (typed "array" (("items", node) :: more)) := by
  have hcore : Tidy (.dict [("type", .text "array"), ("items", node)]) := by
    have hitems : ("items", node) ∈ [("type", .text "array"), ("items", node)] := by simp
    refine .mk (.inl ⟨.text "array", by simp⟩) (fun _ => .single hitems (by simp)) ?_
    intro held hheld
    cases hheld <;> simp_all
  exact tidy_sorted hcore more hmore

private theorem tidy_tuple {parts : List Value} (h : ∀ part ∈ parts, part = textFragment) :
    Tidy (typed "array" [("maxItems", .int parts.length), ("minItems", .int parts.length),
      ("prefixItems", .list parts)]) := by
  have hcore : Tidy (.dict [("type", .text "array"), ("maxItems", .int parts.length),
      ("minItems", .int parts.length), ("prefixItems", .list parts)]) := by
    refine .mk (.inl ⟨.text "array", by simp⟩) (fun _ => .texts (by simp) ?_ h ?_) ?_
    · simp
    · simp
    · intro held hheld
      cases hheld <;> simp_all
  exact tidy_sorted hcore [] nofun

private theorem tidy_referTo (name : String) : Tidy (referTo name) := by
  refine .mk (.inr ?_) ?_ ?_
  · simp
  · simp
  · intro held hheld
    cases hheld <;> simp_all

private theorem commonType_of_all {choices : List Value} {type : String} (hne : choices ≠ [])
    (h : ∀ v ∈ choices, scalarType? v = some type) :
    commonType choices = [("type", .text type)] := by
  cases choices with
  | nil => contradiction
  | cons v rest =>
      obtain ⟨hv, hrest⟩ := List.forall_mem_cons.1 h
      have hall : rest.all (fun w => scalarType? w == some type) = true := by
        simpa [List.all_eq_true] using hrest
      simp only [commonType, hv, hall, if_true]

private theorem arePlainChoices_cases {choices : List Value} (h : arePlainChoices choices = true) :
    choices.all isTextOrNull = true ∨
      ∃ type : PrimitiveType, ∀ v ∈ choices, scalarType? v = some type.name := by
  rcases Bool.or_eq_true_iff.1 h with htexts | htyped
  · exact .inl htexts
  · obtain ⟨type, -, hall⟩ := List.any_eq_true.1 htyped
    exact .inr ⟨type, fun v hv => eq_of_beq (List.all_eq_true.1 hall v hv)⟩

private theorem scalarType?_ne_array {choices : List Value} (h : arePlainChoices choices = true)
    {v : Value}
    (hv : v ∈ choices) : scalarType? v ≠ some "array" := by
  rcases arePlainChoices_cases h with htexts | ⟨type, hall⟩
  · have htext := List.all_eq_true.1 htexts v hv
    cases v <;> simp [scalarType?, isTextOrNull] at htext ⊢
  · rw [hall v hv]
    cases type <;> decide

private theorem tidy_choices {choices : List Value} {entries : Entries}
    (h : arePlainChoices choices = true)
    (hcommon : ∀ e ∈ commonType choices, e ∈ entries)
    (hentries : ∀ e ∈ entries, e = ("enum", .list choices) ∨ e ∈ commonType choices ∨
      e.1 ∉ tellingKeys) : Tidy (.dict entries) := by
  have htelling : ∀ key k, key ∈ tellingKeys → (key, k) ∈ entries →
      key = "enum" ∧ k = .list choices ∨
      key = "type" ∧ ∃ v ∈ choices, ∃ type, scalarType? v = some type ∧ k = .text type := by
    intro key k hkey hk
    rcases hentries _ hk with heq | hk | hother
    · cases heq
      exact .inl ⟨rfl, rfl⟩
    · obtain ⟨v, hv, type, hscalar, heq⟩ := mem_commonType hk
      cases heq
      exact .inr ⟨rfl, v, hv, type, hscalar, rfl⟩
    · exact absurd hkey hother
  have henum : ∀ others, ("enum", .list others) ∈ entries → others = choices := by
    intro others hk
    simpa using htelling _ _ (by decide) hk
  refine .mk ?_ ?_ ?_
  · rcases arePlainChoices_cases h with htexts | ⟨type, hall⟩
    · exact .inr fun others hk => henum others hk ▸ htexts
    · by_cases hne : choices = []
      · refine .inr fun others hk => ?_
        rw [henum others hk, hne]
        rfl
      · exact .inl ⟨_, hcommon _ (commonType_of_all hne hall ▸ List.mem_singleton_self _)⟩
  · intro harray
    obtain ⟨v, hv, hscalar⟩ : ∃ v ∈ choices, scalarType? v = some "array" := by
      simpa using htelling _ _ (by decide) harray
    exact absurd hscalar (scalarType?_ne_array h hv)
  · intro held hheld
    cases hheld with
    | part hkey _ => simpa using htelling _ _ (by decide) hkey
    | branch hkey _ => simpa using htelling _ _ (by decide) hkey
    | property hkey _ => simpa using htelling _ _ (by decide) hkey
    | item hkey => simpa using htelling _ _ (by decide) hkey

private theorem tidy_anyOf {alternatives : List Value} (h : ∀ v ∈ alternatives, Tidy v) :
    Tidy (anyOf alternatives) := by
  have hflat : ∀ v ∈ alternatives.flatMap alternativesOf, Tidy v := by
    intro v hv
    obtain ⟨w, hw, hv⟩ := List.mem_flatMap.1 hv
    have htidy := h w hw
    unfold alternativesOf at hv
    split at hv
    · cases htidy with | mk _ _ hheld
      exact hheld v (.branch (List.mem_singleton_self _) hv)
    · rwa [List.mem_singleton.1 hv]
  unfold anyOf
  dsimp only
  generalize hkept : (alternatives.flatMap alternativesOf).filter (!isNullFragment ·) ++
    ((alternatives.flatMap alternativesOf).filter isNullFragment).take 1 = kept
  have htidy : ∀ v ∈ kept, Tidy v := by
    rintro v hv
    subst hkept
    refine hflat v ?_
    rcases List.mem_append.1 hv with hv | hv
    · exact (List.mem_filter.1 hv).1
    · exact (List.mem_filter.1 (List.mem_of_mem_take hv)).1
  clear hkept
  split
  · exact htidy _ (List.mem_singleton_self _)
  · refine .mk (.inr ?_) ?_ ?_
    · simp
    · simp
    · intro held hheld
      cases hheld <;> simp_all

theorem fragment_text : fragment .text {} = textFragment := by
  simp [fragment, lengthBounds, boundEntries, typed, sorted, textFragment]

private theorem eq_textFragment_of_mem {shapes : List Shape} (h : shapes.all isTextShape = true) :
    ∀ part ∈ fragments shapes, part = textFragment := by
  intro part hpart
  rw [fragments_eq_map] at hpart
  obtain ⟨s, hs, rfl⟩ := List.mem_map.1 hpart
  have htext := List.all_eq_true.1 h s hs
  cases s <;> cases htext
  exact fragment_text

private theorem tidy_sorted_choices {choices : List Value} (h : arePlainChoices choices = true)
    {first : String × Value} (hfirst : first = ("enum", .list choices) ∨ first.1 ∉ tellingKeys) :
    Tidy (sorted (first :: commonType choices)) := by
  refine tidy_choices h (fun e he => ?_) fun e he => ?_
  · rw [List.mem_mergeSort]
    exact List.mem_cons_of_mem _ he
  · rw [List.mem_mergeSort] at he
    rcases List.mem_cons.1 he with rfl | he
    · exact hfirst.imp_right .inr
    · exact .inr (.inl he)

private theorem tidy_literalFragment {choices : List Value} (h : arePlainChoices choices = true) :
    Tidy (literalFragment choices) := by
  unfold literalFragment
  split
  · exact tidy_sorted_choices h (.inr (by decide : "const" ∉ tellingKeys))
  · exact tidy_sorted_choices h (.inl rfl)

mutual

private theorem tidy_fragment : ∀ (s : Shape) (b : Bounds), isPlain s = true → Tidy (fragment s b)
  | .any, _, _ => tidy_empty
  | .null, _, _ => tidy_typed (by decide) nofun
  | .text, b, _ => tidy_typed (by decide)
      (not_mem_of_lengthBounds b (by decide) (by decide))
  | .int, b, _ => tidy_typed (by decide) (not_mem_of_numberBounds b (by decide))
  | .float, b, _ => tidy_typed (by decide) (not_mem_of_numberBounds b (by decide))
  | .bool, _, _ => tidy_typed (by decide) nofun
  | .object, b, _ => tidy_typed (by decide) (List.forall_mem_cons.2
      ⟨by decide, not_mem_of_lengthBounds b (by decide) (by decide)⟩)
  | .array, b, _ => tidy_array tidy_empty
      (not_mem_of_lengthBounds b (by decide) (by decide))
  | .listOf s, b, h => tidy_array (tidy_fragment s {} h)
      (not_mem_of_lengthBounds b (by decide) (by decide))
  | .setOf s, b, h => tidy_array (tidy_fragment s {} h) (List.forall_mem_cons.2
      ⟨by decide, not_mem_of_lengthBounds b (by decide) (by decide)⟩)
  | .optional s, b, h => tidy_anyOf (List.forall_mem_cons.2
      ⟨tidy_fragment s b h, List.forall_mem_singleton.2 (tidy_typed (by decide) nofun)⟩)
  | .dictOf _, b, _ => tidy_typed (by decide) (List.forall_mem_cons.2
      ⟨(by decide : "additionalProperties" ∉ tellingKeys),
        not_mem_of_lengthBounds b (by decide) (by decide)⟩)
  | .tupleOf shapes, _, h => by
      have hlength : (fragments shapes).length = shapes.length := by simp [fragments_eq_map]
      rw [fragment, ← hlength]
      exact tidy_tuple (eq_textFragment_of_mem h)
  | .union shapes, _, h => tidy_anyOf (tidy_fragments shapes h)
  | .literal _, _, h => tidy_literalFragment h
  | .enumeration e, _, _ => tidy_referTo e.name
  | .record name .., _, _ => tidy_referTo name

private theorem tidy_fragments : ∀ shapes : List Shape, arePlain shapes = true →
    ∀ v ∈ fragments shapes, Tidy v
  | [], _ => nofun
  | s :: rest, h => by
      rw [arePlain, Bool.and_eq_true] at h
      exact List.forall_mem_cons.2 ⟨tidy_fragment s {} h.1, tidy_fragments rest h.2⟩

end

/-! ## Definitions -/

theorem tidy_fieldFragment (f : FieldInfo) {s : Shape} (h : isPlain s = true) :
    Tidy (fieldFragment f s) := by
  have hbase := tidy_fragment s f.bounds h
  obtain ⟨entries, heq, -⟩ := fragment_undescribed s f.bounds
  obtain ⟨more, hmore, hkeys, -⟩ := fieldFragment_eq heq
  have hother : ∀ key ∈ ["default", "description", "title"], key ∉ tellingKeys := by decide
  rw [heq] at hbase
  rw [hmore]
  exact tidy_sorted hbase more fun e he => hother e.1 (hkeys e he)

theorem tidy_objectFragment (name : String) (doc : Option String)
    {fields : List (FieldInfo × Shape)} (h : areFieldsPlain fields = true) (front : Entries) (hfront : ∀ e ∈ front, e.1 ∉ tellingKeys) :
    Tidy (.dict (front ++ objectFragment name doc fields)) := by
  have hcore : Tidy (.dict [("properties",
      .dict (fields.map fun field => (field.1.key, fieldFragment field.1 field.2))),
      ("type", .text "object")]) := by
    refine .mk (.inl ⟨.text "object", by simp⟩) (by simp) fun held hheld => ?_
    cases hheld with
    | property hkey hpart =>
        obtain rfl := by simpa using hkey
        obtain ⟨field, hfield, heq⟩ := List.mem_map.1 hpart
        cases heq
        exact tidy_fieldFragment field.1 (isPlain_of_mem_fields h hfield)
    | part hkey _ => simp at hkey
    | branch hkey _ => simp at hkey
    | item hkey => simp at hkey
  refine hcore.of_core (fun e he => ?_) fun e he => ?_
  · refine List.mem_append_right front ?_
    simp only [List.mem_cons, List.not_mem_nil, or_false] at he
    rcases he with rfl | rfl <;> simp [objectFragment]
  · rcases List.mem_append.1 he with he | he
    · exact .inr (hfront e he)
    · rcases mem_objectFragment he with rfl | rfl | rfl | hother
      · simp
      · simp
      · exact .inr (by decide : "required" ∉ tellingKeys)
      · refine .inr ?_
        simp only [List.mem_cons, List.not_mem_nil, or_false] at hother
        rcases hother with hother | hother <;> rw [hother] <;> decide

private theorem tidy_enumerationFragment {e : Enumeration}
    (h : arePlainChoices (e.members.map Prod.snd) = true) : Tidy (enumerationFragment e) := by
  refine tidy_choices h (fun entry he => ?_) fun entry he => ?_
  · rw [List.mem_mergeSort]
    exact List.mem_append_right _ he
  · rw [List.mem_mergeSort] at he
    simp only [List.mem_append, List.mem_cons, List.not_mem_nil, or_false] at he
    rcases he with ((rfl | rfl) | he) | he
    · exact .inr (.inr (by decide : "title" ∉ tellingKeys))
    · exact .inl rfl
    · refine .inr (.inr ?_)
      rw [key_of_mem_docEntry he]
      decide
    · exact .inr (.inl he)

mutual

private theorem tidy_definitions : ∀ s : Shape, isPlain s = true → ∀ e ∈ definitions s, Tidy e.2
  | .listOf s, h | .setOf s, h | .optional s, h | .dictOf s, h => tidy_definitions s h
  | .tupleOf shapes, h => tidy_definitionsOf shapes (arePlain_of_all_isTextShape h)
  | .union shapes, h => tidy_definitionsOf shapes h
  | .enumeration _, h => List.forall_mem_singleton.2 (tidy_enumerationFragment h)
  | .record name doc _ fields, h => List.forall_mem_cons.2
      ⟨tidy_objectFragment name doc h [] nofun, tidy_definitionsIn fields h⟩
  | .any, _ | .null, _ | .text, _ | .int, _ | .float, _ | .bool, _ | .object, _ | .array, _
  | .literal _, _ => nofun

private theorem tidy_definitionsOf : ∀ shapes : List Shape, arePlain shapes = true →
    ∀ e ∈ definitionsOf shapes, Tidy e.2
  | [], _ => nofun
  | s :: rest, h => by
      rw [arePlain, Bool.and_eq_true] at h
      exact List.forall_mem_append.2 ⟨tidy_definitions s h.1, tidy_definitionsOf rest h.2⟩

theorem tidy_definitionsIn : ∀ fields : List (FieldInfo × Shape), areFieldsPlain fields = true →
    ∀ e ∈ definitionsIn fields, Tidy e.2
  | [], _ => nofun
  | (_, s) :: rest, h => by
      rw [areFieldsPlain, Bool.and_eq_true] at h
      exact List.forall_mem_append.2 ⟨tidy_definitions s h.1, tidy_definitionsIn rest h.2⟩

end

/-! ## Whole schemas -/

theorem ownDefinitions_ofRecordType (t : RecordType) {name : String} {node : Value}
    (h : (ownDefinitions (.dict (ofRecordType t))).entry name = .ok node) :
    (name, node) ∈ definitionsIn t.fields := by
  have hown : Entries.get? (objectFragment t.name t.doc t.fields) "$defs" = none := by
    refine get?_eq_none fun k hk => ?_
    simpa using mem_objectFragment hk
  have hfound : Entries.get? (Entries.override [] (definitionsIn t.fields)) name = some node := by
    simp only [ownDefinitions, ofRecordType, entryOr] at h
    split at h
    case isTrue =>
      rw [List.nil_append, hown] at h
      cases h
    case isFalse =>
      change Value.entry (.dict (Entries.override [] (definitionsIn t.fields))) name = _ at h
      unfold Value.entry at h
      dsimp only at h
      split at h
      case h_1 found hfound =>
        cases h
        exact hfound
      case h_2 => cases h
  exact (Entries.mem_of_get?_override hfound).resolve_left nofun

end ChatPipeline.Schema
