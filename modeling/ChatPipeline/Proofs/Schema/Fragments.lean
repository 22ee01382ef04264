import ChatPipeline.Proofs.Schema.Conversion
import ChatPipeline.Schema.Fragment

/-!
# Fragments of shapes

Which entries the fragment of a shape has.  The fragment of a choice has one alternative for each of
the shapes that it is between in the end (`alternates_fragment`); the fragment of any other shape is
a reference, or stands for itself and has no description (`quiet_fragment`).  A field adds to the
fragment of its shape nothing that is read but its description (`fieldFragment_eq`).
-/

namespace ChatPipeline.Schema

open Validation

/-! ## Sorted entries -/

section

variable {entries : Entries} {key : String}

private theorem get?_eq_head? (entries : Entries) (key : String) :
    entries.get? key = ((entries.filter fun e => key == e.1).head?).map Prod.snd := by
  induction entries with
  | nil => rfl
  | cons e entries ih =>
      unfold Entries.get? at ih ⊢
      obtain ⟨k, v⟩ := e
      rw [List.lookup_cons, List.filter_cons]
      cases key == k with
      | true => rfl
      | false => exact ih

private theorem filter_mergeSort (entries : Entries) (key : String) :
    (entries.mergeSort fun a b => decide (a.1 ≤ b.1)).filter (fun e => key == e.1) =
      entries.filter fun e => key == e.1 := by
  have htrans : ∀ a b c : String × Value, decide (a.1 ≤ b.1) = true → decide (b.1 ≤ c.1) = true →
      decide (a.1 ≤ c.1) = true := by
    simp only [decide_eq_true_eq]
    exact fun _ _ _ => String.le_trans
  have htotal : ∀ a b : String × Value, (decide (a.1 ≤ b.1) || decide (b.1 ≤ a.1)) = true := by
    intro a b
    simpa using String.le_total a.1 b.1
  have hequal : (entries.filter fun e => key == e.1).Pairwise
      fun a b => decide (a.1 ≤ b.1) = true := by
    refine List.pairwise_of_forall_mem_list fun a ha b hb => ?_
    rw [← eq_of_beq (List.mem_filter.1 ha).2, ← eq_of_beq (List.mem_filter.1 hb).2]
    exact decide_eq_true (String.le_refl key)
  have hsub := (List.sublist_mergeSort htrans htotal hequal List.filter_sublist).filter
    fun e => key == e.1
  rw [List.filter_filter] at hsub
  simp only [Bool.and_self] at hsub
  refine (hsub.eq_of_length ?_).symm
  exact ((List.mergeSort_perm entries _).filter _).length_eq.symm

theorem get?_mergeSort (entries : Entries) (key : String) :
    Entries.get? (entries.mergeSort fun a b => decide (a.1 ≤ b.1)) key = entries.get? key := by
  rw [get?_eq_head?, get?_eq_head?, filter_mergeSort]

end

/-! ## Entries -/

theorem not_mem_of_boundEntries {keys : List String} {names : List (String × Option Value)}
    (h : ∀ bound ∈ names, bound.1 ∉ keys) : ∀ e ∈ boundEntries names, e.1 ∉ keys := by
  intro e he
  obtain ⟨⟨name, v⟩, hbound, he⟩ := List.mem_filterMap.1 he
  obtain ⟨k, -, rfl⟩ := Option.map_eq_some_iff.1 he
  exact h _ hbound

theorem not_mem_of_lengthBounds {keys : List String} (b : Bounds) {least most : String}
    (hleast : least ∉ keys) (hmost : most ∉ keys) :
    ∀ e ∈ lengthBounds b least most, e.1 ∉ keys := by
  refine not_mem_of_boundEntries ?_
  simp [hleast, hmost]

theorem not_mem_of_numberBounds {keys : List String} (b : Bounds)
    (h : ∀ name ∈ ["minimum", "exclusiveMinimum", "maximum", "exclusiveMaximum"], name ∉ keys) :
    ∀ e ∈ numberBounds b, e.1 ∉ keys := by
  refine not_mem_of_boundEntries ?_
  simpa using h

theorem mem_commonType {choices : List Value} {e : String × Value} (he : e ∈ commonType choices) :
    ∃ v ∈ choices, ∃ type, scalarType? v = some type ∧ e = ("type", .text type) := by
  unfold commonType at he
  split at he
  case h_1 => cases he
  case h_2 v rest =>
    split at he
    case h_1 type htype =>
      split at he
      · exact ⟨v, List.mem_cons_self, type, htype, List.mem_singleton.1 he⟩
      · cases he
    case h_2 => cases he

theorem key_of_mem_docEntry {doc : Option String} {e : String × Value}
    (he : e ∈ (match doc with
      | some d => if d.isEmpty then [] else [("description", Value.text (Text.dedent d))]
      | none => [])) : e.1 = "description" := by
  split at he
  · split at he
    · cases he
    · rw [List.mem_singleton.1 he]
  · cases he

theorem mem_objectFragment {name : String} {doc : Option String} {fields : List (FieldInfo × Shape)}
    {e : String × Value} (he : e ∈ objectFragment name doc fields) :
    e = ("properties", .dict (fields.map fun field =>
        (field.1.key, fieldFragment field.1 field.2))) ∨
      e = ("type", .text "object") ∨
      e = ("required", .list ((fields.filter fun field => field.1.default.isNone).map
        fun field => .text field.1.key)) ∨
      e.1 ∈ ["description", "title"] := by
  simp only [objectFragment, List.mem_append, List.mem_cons, List.not_mem_nil, or_false] at he
  rcases he with ((he | rfl) | he) | rfl | rfl
  · simp [key_of_mem_docEntry he]
  · exact .inl rfl
  · split at he
    · cases he
    · exact .inr (.inr (.inl (List.mem_singleton.1 he)))
  · simp
  · simp

/-! ## Fragments that stand for themselves -/

def quietKeys : List String := "description" :: passingKeys

/-- A fragment that passes on to no other and describes itself by nothing. -/
def Quiet (v : Value) : Prop :=
  ∃ entries : Entries, v = .dict entries ∧ ∀ key ∈ quietKeys, entries.get? key = none

def standsAlone : Shape → Bool
  | .optional _ | .union _ | .enumeration _ | .record .. => false
  | _ => true

private theorem quiet_sorted {entries : Entries} (h : ∀ e ∈ entries, e.1 ∉ quietKeys) :
    Quiet (sorted entries) := by
  refine ⟨_, rfl, fun key hkey => ?_⟩
  rw [get?_mergeSort]
  exact get?_eq_none fun k hk => h _ hk hkey

theorem get?_of_typed {type : String} {more entries : Entries}
    (h : typed type more = .dict entries) :
    entries.get? "type" = some (.text type) ∧
      ∀ key ≠ "type", entries.get? key = Entries.get? more key := by
  cases h
  refine ⟨get?_mergeSort _ _, fun key hkey => ?_⟩
  rw [get?_mergeSort, Entries.get?, List.lookup_cons, beq_eq_false_iff_ne.2 hkey]
  rfl

private theorem quiet_typed (type : String) {more : Entries} (hmore : ∀ e ∈ more, e.1 ∉ quietKeys) :
    Quiet (typed type more) :=
  quiet_sorted (List.forall_mem_cons.2 ⟨(by decide : "type" ∉ quietKeys), hmore⟩)

private theorem quiet_literalFragment (choices : List Value) : Quiet (literalFragment choices) := by
  have hcommon : ∀ e ∈ commonType choices, e.1 ∉ quietKeys := by
    intro e he
    obtain ⟨v, -, type, -, rfl⟩ := mem_commonType he
    exact (by decide : "type" ∉ quietKeys)
  unfold literalFragment
  split
  · exact quiet_sorted (List.forall_mem_cons.2 ⟨(by decide : "const" ∉ quietKeys), hcommon⟩)
  · exact quiet_sorted (List.forall_mem_cons.2 ⟨(by decide : "enum" ∉ quietKeys), hcommon⟩)

theorem quiet_fragment {s : Shape} (b : Bounds) (h : standsAlone s = true) :
    Quiet (fragment s b) := by
  have hlength (least most : String) (hleast : least ∉ quietKeys) (hmost : most ∉ quietKeys) :=
    not_mem_of_lengthBounds b hleast hmost
  cases s with
  | any => exact ⟨[], rfl, fun _ _ => rfl⟩
  | null => exact quiet_typed _ nofun
  | text => exact quiet_typed _ (hlength _ _ (by decide) (by decide))
  | int => exact quiet_typed _ (not_mem_of_numberBounds b (by decide))
  | float => exact quiet_typed _ (not_mem_of_numberBounds b (by decide))
  | bool => exact quiet_typed _ nofun
  | object => exact quiet_typed _ (List.forall_mem_cons.2
      ⟨(by decide : "additionalProperties" ∉ quietKeys), hlength _ _ (by decide) (by decide)⟩)
  | array => exact quiet_typed _ (List.forall_mem_cons.2
      ⟨(by decide : "items" ∉ quietKeys), hlength _ _ (by decide) (by decide)⟩)
  | listOf s => exact quiet_typed _ (List.forall_mem_cons.2
      ⟨(by decide : "items" ∉ quietKeys), hlength _ _ (by decide) (by decide)⟩)
  | setOf s => exact quiet_typed _ (List.forall_mem_cons.2
      ⟨(by decide : "items" ∉ quietKeys), List.forall_mem_cons.2
        ⟨(by decide : "uniqueItems" ∉ quietKeys), hlength _ _ (by decide) (by decide)⟩⟩)
  | dictOf s => exact quiet_typed _ (List.forall_mem_cons.2
      ⟨(by decide : "additionalProperties" ∉ quietKeys), hlength _ _ (by decide) (by decide)⟩)
  | tupleOf shapes => exact quiet_typed _ (by simp [quietKeys, passingKeys])
  | literal choices => exact quiet_literalFragment choices
  | optional => cases h
  | union => cases h
  | enumeration => cases h
  | record => cases h

/-! ## Choices -/

mutual

def atoms : Shape → List Shape
  | .optional s => atoms s ++ [.null]
  | .union shapes => atomsOf shapes
  | s => [s]

def atomsOf : List Shape → List Shape
  | [] => []
  | s :: rest => atoms s ++ atomsOf rest

end

/-- The fragment of a shape has one alternative for each shape that it is a choice between. -/
structure Alternates (s : Shape) (v : Value) : Prop where
  of_alternative : ∀ w ∈ alternativesOf v, ∃ a ∈ atoms s, ∃ b, w = fragment a b
  of_atom : ∀ a ∈ atoms s, ∃ b, fragment a b ∈ alternativesOf v

def isAtom : Shape → Bool
  | .optional _ | .union _ => false
  | _ => true

mutual

theorem isAtom_of_mem_atoms : ∀ s : Shape, ∀ a ∈ atoms s, isAtom a = true
  | .optional s => List.forall_mem_append.2
      ⟨isAtom_of_mem_atoms s, List.forall_mem_singleton.2 rfl⟩
  | .union shapes => isAtom_of_mem_atomsOf shapes
  | .any | .null | .text | .int | .float | .bool | .object | .array | .listOf _ | .setOf _
  | .dictOf _ | .tupleOf _ | .literal _ | .enumeration _ | .record .. =>
    List.forall_mem_singleton.2 rfl

private theorem isAtom_of_mem_atomsOf : ∀ shapes : List Shape, ∀ a ∈ atomsOf shapes, isAtom a = true
  | [] => nofun
  | s :: rest => List.forall_mem_append.2 ⟨isAtom_of_mem_atoms s, isAtom_of_mem_atomsOf rest⟩

end

private theorem alternativesOf_fragment {a : Shape} (b : Bounds) (h : isAtom a = true) :
    alternativesOf (fragment a b) = [fragment a b] := by
  cases hstands : standsAlone a with
  | true =>
      obtain ⟨entries, heq, hquiet⟩ := quiet_fragment b hstands
      rw [heq]
      unfold alternativesOf
      split
      case h_1 vs hanyOf =>
        cases hanyOf
        exact absurd (hquiet "anyOf" (by decide)) nofun
      case h_2 => rfl
  | false =>
      cases a with
      | enumeration e => rfl
      | record name doc policy fields => rfl
      | optional => cases h
      | union => cases h
      | _ => cases hstands

theorem alternativesOf_cases (v : Value) :
    (∃ vs, v = .dict [("anyOf", .list vs)] ∧ alternativesOf v = vs) ∨ alternativesOf v = [v] := by
  unfold alternativesOf
  split
  · exact .inl ⟨_, rfl, rfl⟩
  · exact .inr rfl

private theorem eq_of_isNullFragment {v : Value} (h : isNullFragment v = true) :
    v = .dict [("type", .text "null")] := by
  unfold isNullFragment at h
  split at h
  · rfl
  · cases h

private theorem mem_alternativesOf_anyOf {vs : List Value}
    (hflat : ∀ v ∈ vs.flatMap alternativesOf, alternativesOf v = [v]) (v : Value) :
    v ∈ alternativesOf (anyOf vs) ↔ v ∈ vs.flatMap alternativesOf := by
  unfold anyOf
  dsimp only
  generalize vs.flatMap alternativesOf = flat at hflat ⊢
  have hkept : ∀ w, w ∈ flat.filter (!isNullFragment ·) ++ (flat.filter isNullFragment).take 1 ↔
      w ∈ flat := by
    intro w
    constructor
    · intro hw
      rcases List.mem_append.1 hw with hw | hw
      · exact (List.mem_filter.1 hw).1
      · exact (List.mem_filter.1 (List.mem_of_mem_take hw)).1
    · intro hw
      cases hnull : isNullFragment w with
      | false => exact List.mem_append_left _ (List.mem_filter.2 ⟨hw, by rw [hnull]; rfl⟩)
      | true =>
          -- of the null fragments, which are all the same, the first is kept
          refine List.mem_append_right _ ?_
          have hmem : w ∈ flat.filter isNullFragment := List.mem_filter.2 ⟨hw, hnull⟩
          cases hnulls : flat.filter isNullFragment with
          | nil =>
              rw [hnulls] at hmem
              cases hmem
          | cons first rest =>
              have hfirst : isNullFragment first = true :=
                (List.mem_filter.1 (hnulls ▸ List.mem_cons_self)).2
              rw [eq_of_isNullFragment hnull, eq_of_isNullFragment hfirst]
              exact List.mem_singleton_self _
  generalize flat.filter (!isNullFragment ·) ++ (flat.filter isNullFragment).take 1 = kept at hkept ⊢
  rw [← hkept v]
  split
  case h_1 only =>
    rw [hflat only ((hkept only).1 (List.mem_singleton_self only))]
  case h_2 => exact Iff.rfl

private theorem atoms_of_isAtom {a : Shape} (h : isAtom a = true) : atoms a = [a] := by
  cases a with
  | optional => cases h
  | union => cases h
  | _ => rfl

private theorem atomsOf_eq_flatMap (shapes : List Shape) :
    atomsOf shapes = shapes.flatMap atoms := by
  induction shapes with
  | nil => rfl
  | cons s rest ih => rw [atomsOf, ih, List.flatMap_cons]

private theorem alternates_of_isAtom {a : Shape} (b : Bounds) (h : isAtom a = true) :
    Alternates a (fragment a b) where
  of_alternative w hw := by
    rw [alternativesOf_fragment b h] at hw
    have hself : a ∈ atoms a := by
      rw [atoms_of_isAtom h]
      exact List.mem_singleton_self a
    exact ⟨a, hself, b, List.mem_singleton.1 hw⟩
  of_atom a' ha' := by
    rw [atoms_of_isAtom h] at ha'
    rw [List.mem_singleton.1 ha', alternativesOf_fragment b h]
    exact ⟨b, List.mem_singleton_self _⟩

theorem Alternates.anyOf {s : Shape} {parts : List (Shape × Value)}
    (hparts : ∀ part ∈ parts, Alternates part.1 part.2)
    (hatoms : ∀ a, a ∈ atoms s ↔ ∃ part ∈ parts, a ∈ atoms part.1) :
    Alternates s (ChatPipeline.Schema.anyOf (parts.map Prod.snd)) := by
  have hflat : ∀ v, v ∈ (parts.map Prod.snd).flatMap alternativesOf ↔
      ∃ part ∈ parts, v ∈ alternativesOf part.2 := by
    intro v
    rw [List.flatMap_map, List.mem_flatMap]
  have hsingle : ∀ v ∈ (parts.map Prod.snd).flatMap alternativesOf, alternativesOf v = [v] := by
    intro v hv
    obtain ⟨part, hpart, hv⟩ := (hflat v).1 hv
    obtain ⟨a, ha, b, rfl⟩ := (hparts part hpart).of_alternative v hv
    exact alternativesOf_fragment b (isAtom_of_mem_atoms part.1 a ha)
  have hmem := fun v => (mem_alternativesOf_anyOf hsingle v).trans (hflat v)
  constructor
  · intro w hw
    obtain ⟨part, hpart, hw⟩ := (hmem w).1 hw
    obtain ⟨a, ha, b, rfl⟩ := (hparts part hpart).of_alternative w hw
    exact ⟨a, (hatoms a).2 ⟨part, hpart, ha⟩, b, rfl⟩
  · intro a ha
    obtain ⟨part, hpart, ha⟩ := (hatoms a).1 ha
    obtain ⟨b, hb⟩ := (hparts part hpart).of_atom a ha
    exact ⟨b, (hmem _).2 ⟨part, hpart, hb⟩⟩

theorem fragments_eq_map (shapes : List Shape) : fragments shapes = shapes.map (fragment · {}) := by
  induction shapes with
  | nil => rfl
  | cons s shapes ih => rw [fragments, ih, List.map_cons]

mutual

theorem alternates_fragment : ∀ (s : Shape) (b : Bounds), Alternates s (fragment s b)
  | .optional s, b => by
    have hnull : Alternates .null (typed "null") := alternates_of_isAtom {} rfl
    have hparts : ∀ part ∈ [(s, fragment s b), (.null, typed "null")], Alternates part.1 part.2 :=
      List.forall_mem_cons.2 ⟨alternates_fragment s b, List.forall_mem_singleton.2 hnull⟩
    exact Alternates.anyOf hparts fun a => by simp [atoms]
  | .union shapes, _ => by
    have hparts : ∀ part ∈ shapes.map fun s => (s, fragment s {}), Alternates part.1 part.2 :=
      List.forall_mem_map.2 (alternates_fragments shapes)
    have hfragments : (shapes.map fun s => (s, fragment s {})).map Prod.snd = fragments shapes := by
      rw [fragments_eq_map, List.map_map]
      rfl
    rw [fragment, ← hfragments]
    refine Alternates.anyOf hparts fun a => ?_
    rw [atoms, atomsOf_eq_flatMap, List.mem_flatMap]
    constructor
    · rintro ⟨s, hs, ha⟩
      exact ⟨_, List.mem_map_of_mem hs, ha⟩
    · rintro ⟨_, hpart, ha⟩
      obtain ⟨s, hs, rfl⟩ := List.mem_map.1 hpart
      exact ⟨s, hs, ha⟩
  | .any, b | .null, b | .text, b | .int, b | .float, b | .bool, b | .object, b | .array, b
  | .listOf _, b | .setOf _, b | .dictOf _, b | .tupleOf _, b | .literal _, b | .enumeration _, b
  | .record .., b => alternates_of_isAtom b rfl

private theorem alternates_fragments : ∀ shapes :
    List Shape, ∀ s ∈ shapes, Alternates s (fragment s {})
  | [] => nofun
  | s :: rest => List.forall_mem_cons.2 ⟨alternates_fragment s {}, alternates_fragments rest⟩

end

/-! ## Definitions -/

def ownDoc (s : Shape) : Option String :=
  let shown (doc : Option String) := (doc.filter (!·.isEmpty)).map Text.dedent
  match s with
  | .enumeration e => shown e.doc
  | .record _ doc _ _ => shown doc
  | _ => none

theorem enumerationFragment_entries (e : Enumeration) :
    ∃ entries : Entries, enumerationFragment e = .dict entries ∧
      (∀ key ∈ passingKeys, entries.get? key = none) ∧
      entries.get? "description" = (ownDoc (.enumeration e)).map .text := by
  have hcommon (key : String) (hkey : key ≠ "type") :
      Entries.get? (commonType (e.members.map Prod.snd)) key = none := by
    refine get?_eq_none fun k hk => ?_
    obtain ⟨_, -, _, -, heq⟩ := mem_commonType hk
    exact hkey (congrArg Prod.fst heq)
  refine ⟨_, rfl, fun key hkey => ?_, ?_⟩
  · have hother : key ≠ "description" ∧ key ≠ "type" ∧
        Entries.get? [("title", .text e.name), ("enum", .list (e.members.map Prod.snd))] key =
          none := by
      simp only [passingKeys, List.mem_cons, List.not_mem_nil, or_false] at hkey
      rcases hkey with rfl | rfl | rfl
      · exact ⟨by decide, by decide, rfl⟩
      · exact ⟨by decide, by decide, rfl⟩
      · exact ⟨by decide, by decide, rfl⟩
    obtain ⟨hdoc, htype, hfirst⟩ := hother
    rw [get?_mergeSort, get?_append, get?_append, hfirst, hcommon key htype, Option.or_none,
      Option.none_or]
    exact get?_eq_none fun k hk => hdoc (key_of_mem_docEntry hk)
  · have hown : ownDoc (.enumeration e) = (e.doc.filter (!·.isEmpty)).map Text.dedent := rfl
    rw [get?_mergeSort, get?_append, get?_append, hcommon _ (by decide), hown]
    generalize e.doc = doc
    cases doc with
    | none => rfl
    | some d =>
        rw [Option.filter_some]
        dsimp only
        cases d.isEmpty <;> rfl

theorem objectFragment_entries (name : String) (doc : Option String) (policy : ExtraPolicy)
    (fields : List (FieldInfo × Shape)) :
    (∀ key ∈ passingKeys, Entries.get? (objectFragment name doc fields) key = none) ∧
      Entries.get? (objectFragment name doc fields) "description" =
        (ownDoc (.record name doc policy fields)).map .text ∧
      Entries.get? (objectFragment name doc fields) "type" = some (.text "object") ∧
      Entries.get? (objectFragment name doc fields) "properties" =
        some (.dict (fields.map fun field => (field.1.key, fieldFragment field.1 field.2))) := by
  have hmem (key : String) (k : Value) (hk : (key, k) ∈ objectFragment name doc fields) :
      key ∈ ["properties", "type", "required", "description", "title"] := by
    rcases mem_objectFragment hk with heq | heq | heq | hother
    · cases heq; decide
    · cases heq; decide
    · cases heq; decide
    · simp only [List.mem_cons, List.not_mem_nil, or_false] at hother
      rcases hother with rfl | rfl <;> decide
  refine ⟨fun key hkey => get?_eq_none fun k hk => ?_, ?_, ?_, ?_⟩
  · have hnot : ∀ key ∈ passingKeys,
        key ∉ ["properties", "type", "required", "description", "title"] := by decide
    exact hnot key hkey (hmem key k hk)
  · have hown : ownDoc (.record name doc policy fields) =
        (doc.filter (!·.isEmpty)).map Text.dedent := rfl
    rw [hown]
    unfold objectFragment
    generalize (fields.filter _).map _ = needed
    cases doc with
    | none => cases needed <;> rfl
    | some d =>
        rw [Option.filter_some]
        dsimp only
        cases d.isEmpty <;> cases needed <;> rfl
  · refine get?_eq_some_of_unique (by simp [objectFragment]) fun w hw => ?_
    simpa using mem_objectFragment hw
  · refine get?_eq_some_of_unique (by simp [objectFragment]) fun w hw => ?_
    simpa using mem_objectFragment hw

/-! ## Fields -/

theorem fragment_undescribed (s : Shape) (b : Bounds) :
    ∃ entries : Entries, fragment s b = .dict entries ∧ entries.get? "description" = none := by
  rcases alternativesOf_cases (fragment s b) with ⟨vs, heq, -⟩ | heq
  · exact ⟨_, heq, rfl⟩
  · have hself : fragment s b ∈ alternativesOf (fragment s b) := heq ▸ List.mem_singleton_self _
    obtain ⟨a, ha, b', heq'⟩ := (alternates_fragment s b).of_alternative _ hself
    have hatom := isAtom_of_mem_atoms s a ha
    rw [heq']
    cases hstands : standsAlone a with
    | true =>
        obtain ⟨entries, hentries, hquiet⟩ := quiet_fragment b' hstands
        exact ⟨entries, hentries, hquiet _ (by decide)⟩
    | false =>
        cases a with
        | enumeration e => exact ⟨_, rfl, rfl⟩
        | record name doc policy fields => exact ⟨_, rfl, rfl⟩
        | optional => cases hatom
        | union => cases hatom
        | _ => cases hstands

theorem fieldFragment_eq {f : FieldInfo} {s : Shape} {entries : Entries}
    (h : fragment s f.bounds = .dict entries) : ∃ more : Entries,
      fieldFragment f s = sorted (entries ++ more) ∧
      (∀ e ∈ more, e.1 ∈ ["default", "description", "title"]) ∧
      more.get? "description" = f.description.map .text := by
  unfold fieldFragment
  rw [h]
  dsimp only
  refine ⟨_, by rw [List.append_assoc, List.append_assoc], ?_, ?_⟩
  · cases f.default <;> cases f.description <;> cases f.title <;>
      cases isReference (.dict entries) <;> simp
  · cases f.default <;> cases f.description <;> cases f.title <;>
      cases isReference (.dict entries) <;> rfl

end ChatPipeline.Schema
