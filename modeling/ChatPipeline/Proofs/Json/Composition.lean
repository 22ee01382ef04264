import ChatPipeline.Proofs.Json.RoundTrip

/-!
# Answers and their parts

`compactData` puts a value together from its parts: a list from its elements, a dictionary from its
values, a record, wherever it stands, from its fields.  The answer of a tool is read as just that if
the value is a record itself or holds none (`answer_composes`).  A record inside a list or a
dictionary is the one thing that is not taken apart: the loose notation gives the text by which it
is displayed (`listed_total_not_composed`).
-/

namespace ChatPipeline.Json

open ChatPipeline.Text

/-! ## Composed values -/

/-- What JSON knows, and records of that, one inside the other in any way.  No dictionary or record
has a key twice. -/
inductive IsComposed : Value → Prop where
  | none : IsComposed .none
  | bool (b : Bool) : IsComposed (.bool b)
  | int (i : Int) : IsComposed (.int i)
  | float (hfinite : IsFinite x) : IsComposed (.float x)
  | text (s : String) : IsComposed (.text s)
  | list (hitems : ∀ v ∈ items, IsComposed v) : IsComposed (.list items)
  | dict (hnames : (entries.map Prod.fst).Nodup) (hentries : ∀ entry ∈ entries, IsComposed entry.2) :
      IsComposed (.dict entries)
  | message (m : Message) : IsComposed (.message m)
  | toolCall (c : ToolCall) : IsComposed (.toolCall c)
  | record (type : String) (hnames : ((fields ++ extra).map Prod.fst).Nodup)
      (hentries : ∀ entry ∈ fields ++ extra, IsComposed entry.2) :
      IsComposed (.record type fields extra)

def isRecord : Value → Bool
  | .message _ | .toolCall _ | .record .. => true
  | _ => false

/-- A record stands at the top, or inside the lists and dictionaries that lead there. -/
inductive HasRecord : Value → Prop where
  | here (hrecord : isRecord v = true) : HasRecord v
  | item (hmem : v ∈ items) (h : HasRecord v) : HasRecord (.list items)
  | entry (hmem : entry ∈ entries) (h : HasRecord entry.2) : HasRecord (.dict entries)

private theorem hasRecord_list {items : List Value} :
    HasRecord (.list items) ↔ ∃ v ∈ items, HasRecord v := by
  constructor
  · rintro (hrecord | ⟨hmem, h⟩)
    · cases hrecord
    · exact ⟨_, hmem, h⟩
  · rintro ⟨v, hmem, h⟩
    exact .item hmem h

private theorem hasRecord_dict {entries : Entries} :
    HasRecord (.dict entries) ↔ ∃ entry ∈ entries, HasRecord entry.2 := by
  constructor
  · rintro (hrecord | - | ⟨hmem, h⟩)
    · cases hrecord
    · exact ⟨_, hmem, h⟩
  · rintro ⟨entry, hmem, h⟩
    exact .entry hmem h

private theorem not_hasRecord_of_scalar {v : Value} (hrecord : isRecord v = false)
    (hlist : ∀ items, v ≠ .list items) (hdict : ∀ entries, v ≠ .dict entries) : ¬ HasRecord v := by
  rintro (h | - | -)
  · rw [hrecord] at h
    cases h
  · exact hlist _ rfl
  · exact hdict _ rfl

/-! ## What the answer is read as -/

theorem holdsLong_eq_false_iff {v : Value} (h : IsComposed v) :
    v.holdsLong = false ↔ holdsLongInteger v = false := by
  induction h with
  | list _ ih =>
      rw [Value.holdsLong, holdsLongInteger, Value.anyLong_eq_false, anyLongInteger_eq_false]
      exact forall₂_congr ih
  | dict _ _ ih =>
      rw [Value.holdsLong, holdsLongInteger, Value.anyLongIn_eq_false, anyLongIntegerIn_eq_false]
      exact forall₂_congr ih
  | _ => exact Iff.rfl

private theorem undecodable?_of_isComposed {v : Value} (h : IsComposed v) :
    undecodable? v = none := by
  induction h with
  | list _ ih => exact undecodableAmong?_eq_none.2 ih
  | dict _ _ ih => exact undecodableIn?_eq_none.2 ih
  | record _ _ _ ih =>
      rw [List.forall_mem_append] at ih
      rw [undecodable?, undecodableIn?_eq_none.2 ih.1, undecodableIn?_eq_none.2 ih.2]
      rfl
  | _ => rfl

private theorem writable_of_isComposed {v : Value} (h : IsComposed v)
    (hshort : holdsLongInteger v = false) : Writable v := by
  induction h with
  | none => exact .none
  | bool b => exact .bool b
  | int i => exact .int (holdsLongInteger_int.1 hshort)
  | float => exact .float _
  | text s => exact .text s
  | list _ ih =>
      rw [holdsLongInteger, anyLongInteger_eq_false] at hshort
      exact .list fun v hv => ih v hv (hshort v hv)
  | dict hnames _ ih =>
      rw [holdsLongInteger, anyLongIntegerIn_eq_false] at hshort
      exact .dict hnames fun entry hentry => ih entry hentry (hshort entry hentry)
  | message m => exact .message m
  | toolCall c => exact .toolCall c
  | record type hnames hentries ih =>
      change Value.holdsLong (.record type _ _) = false at hshort
      rw [Value.holdsLong, Bool.or_eq_false_iff, Value.anyLongIn_eq_false,
        Value.anyLongIn_eq_false, ← List.forall_mem_append] at hshort
      exact .record type hnames fun entry hentry =>
        ih entry hentry ((holdsLong_eq_false_iff (hentries entry hentry)).1 (hshort entry hentry))

private theorem looseData_eq_compactData_iff {v : Value} (h : IsComposed v) :
    looseData v = compactData v ↔ ¬ HasRecord v := by
  have hscalar : ∀ {v : Value}, looseData v = compactData v → isRecord v = false →
      (∀ items, v ≠ .list items) → (∀ entries, v ≠ .dict entries) →
      (looseData v = compactData v ↔ ¬ HasRecord v) := fun heq hrecord hlist hdict =>
    iff_of_true heq (not_hasRecord_of_scalar hrecord hlist hdict)
  induction h with
  | none | bool | int | text => exact hscalar rfl rfl (by simp) (by simp)
  | float hfinite => exact hscalar ((doubles_eq_iff _).2 hfinite) rfl (by simp) (by simp)
  | list _ ih =>
      rw [looseData, compactData, Value.list.injEq, looseDataOf_eq_map, compactDataOf_eq_map,
        List.map_inj_left, hasRecord_list]
      push Not
      exact forall₂_congr ih
  | dict _ _ ih =>
      rw [looseData, compactData, Value.dict.injEq, looseDataIn_eq_map, compactDataIn_eq_map,
        List.map_inj_left, hasRecord_dict]
      push Not
      exact forall₂_congr fun entry hentry => by simpa using ih entry hentry
  | message | toolCall | record =>
      exact iff_of_false (by rintro ⟨⟩) fun h => h (.here rfl)

private theorem nestingOf_le {items items' : List Value}
    (h : List.Forall₂ (fun v w => nesting v ≤ nesting w) items items') :
    nestingOf items ≤ nestingOf items' := by
  induction h with
  | nil => exact Nat.le_refl _
  | cons hfirst _ ih => exact max_le_max hfirst ih

private theorem nestingIn_le {entries entries' : Entries}
    (h : List.Forall₂ (fun e e' => nesting e.2 ≤ nesting e'.2) entries entries') :
    nestingIn entries ≤ nestingIn entries' := by
  induction h with
  | nil => exact Nat.le_refl _
  | cons hfirst _ ih => exact max_le_max hfirst ih

private theorem nesting_looseData_le {v : Value} (h : IsComposed v) :
    nesting (looseData v) ≤ nesting (compactData v) := by
  induction h with
  | none | bool | int | text => exact Nat.le_refl _
  | float hfinite => rw [looseData, compactData, (doubles_eq_iff _).2 hfinite]
  | list _ ih =>
      rw [looseData, compactData, looseDataOf_eq_map, compactDataOf_eq_map]
      refine Nat.succ_le_succ (nestingOf_le ?_)
      exact List.forall₂_map_left_iff.2 (List.forall₂_map_right_iff.2 (List.forall₂_same.2 ih))
  | dict _ _ ih =>
      rw [looseData, compactData, looseDataIn_eq_map, compactDataIn_eq_map]
      refine Nat.succ_le_succ (nestingIn_le ?_)
      exact List.forall₂_map_left_iff.2 (List.forall₂_map_right_iff.2 (List.forall₂_same.2 ih))
  | message | toolCall | record => exact Nat.zero_le _

private theorem encodeResult_of_isRecord {v : Value} (h : isRecord v = true)
    (hoctets : undecodable? v = none) : encodeResult v = .ok (compact v) := by
  unfold isRecord at h
  split at h
  · rfl
  · rfl
  · rw [encodeResult, hoctets]
  · cases h

private theorem encodeResult_of_not_isRecord {v : Value} (h : isRecord v = false)
    (hshort : holdsLongInteger v = false) : encodeResult v = .ok (loose v) := by
  unfold encodeResult
  split
  · cases h
  · cases h
  · cases h
  · rw [hshort]
    rfl

/-- The answer is read as the value put together from its parts, if it is a record or holds none.
Else each record in it is read as the text by which it is displayed. -/
theorem answer_composes {v : Value} (hcomposed : IsComposed v)
    (hshort : holdsLongInteger v = false) {depth : Nat} (hnesting : nesting (compactData v) ≤ depth) :
    ∃ text, encodeResult v = .ok text ∧
      Json.read depth text = .ok (if isRecord v then compactData v else looseData v) ∧
      (Json.read depth text = .ok (compactData v) ↔ isRecord v = true ∨ ¬ HasRecord v) := by
  have hwritable := writable_of_isComposed hcomposed hshort
  cases hrecord : isRecord v with
  | true =>
      have hread := (spells_compact hwritable).read_eq_ok hnesting
      exact ⟨_, encodeResult_of_isRecord hrecord (undecodable?_of_isComposed hcomposed), hread, iff_of_true hread (.inl rfl)⟩
  | false =>
      have hread := (spells_loose hwritable).read_eq_ok
        (Nat.le_trans (nesting_looseData_le hcomposed) hnesting)
      refine ⟨_, encodeResult_of_not_isRecord hrecord hshort, hread, ?_⟩
      rw [hread, Except.ok.injEq, looseData_eq_compactData_iff hcomposed]
      simp

/-! ### A total, alone and in a list -/

def total : Value := .record "Total" [("total", .int 3)] []

private theorem total_isComposed : IsComposed total :=
  .record "Total" (by decide) (List.forall_mem_singleton.2 (.int 3))

/-- A record of a list of records is taken apart all the way. -/
theorem total_composes :
    IsComposed (.record "Totals" [("totals", .list [total])] []) ∧
    ∃ text, encodeResult (.record "Totals" [("totals", .list [total])] []) = .ok text ∧
      Json.read usualDepth text = .ok (.dict [("totals", .list [.dict [("total", .int 3)]])]) := by
  have hcomposed : IsComposed (.record "Totals" [("totals", .list [total])] []) :=
    .record "Totals" (by decide)
      (List.forall_mem_singleton.2 (.list (List.forall_mem_singleton.2 total_isComposed)))
  obtain ⟨text, hencode, hread, -⟩ := answer_composes hcomposed (by decide +kernel)
    (by decide : nesting (compactData (.record "Totals" [("totals", .list [total])] [])) ≤ usualDepth)
  exact ⟨hcomposed, text, hencode, hread⟩

theorem listed_total_not_composed :
    IsComposed (.list [total]) ∧
    compactData (.list [total]) = .list [.dict [("total", .int 3)]] ∧
    encodeResult (.list [total]) = .ok "[\"total=3\"]" ∧
    Json.read usualDepth "[\"total=3\"]" = .ok (.list [.text "total=3"]) ∧
    Json.read usualDepth "[\"total=3\"]" ≠ .ok (compactData (.list [total])) := by
  have hcomposed : IsComposed (.list [total]) :=
    .list (List.forall_mem_singleton.2 total_isComposed)
  have hshort : holdsLongInteger (.list [total]) = false := by decide +kernel
  have hloose : loose (.list [total]) = "[\"total=3\"]" := by decide +kernel
  have hplain : total.plainForm = "total=3" := by decide +kernel
  have hdata : looseData (.list [total]) = .list [.text "total=3"] := by
    rw [← hplain]
    rfl
  have hread := (spells_loose (writable_of_isComposed hcomposed hshort)).read_eq_ok
    (by decide : _ ≤ usualDepth)
  rw [hloose, hdata] at hread
  refine ⟨hcomposed, rfl, ?_, hread, ?_⟩
  · rw [encodeResult_of_not_isRecord rfl hshort, hloose]
  · rw [hread]
    intro h
    injection h with h
    injection h with h
    injection h with h
    cases h

end ChatPipeline.Json
