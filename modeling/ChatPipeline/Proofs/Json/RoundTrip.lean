import ChatPipeline.Proofs.Json.Notations
import ChatPipeline.Tool.Payload

/-!
# Answers decoded again

What a tool answers with plain data is read back as the same data: `answer_decodes`.  The text of
the data spells it (`spells_loose`), and a text that spells a value is read as that value wherever
the value nests no deeper than there is room for.  Dictionaries keep the order of their keys, since
`insert` puts a new key at the end and no key of the text occurs twice.
-/

namespace ChatPipeline.Json

open ChatPipeline.Text

/-! ## Plain data -/

/-- Data for which JSON has a text of its own; no dictionary has a key twice. -/
inductive IsData : Value → Prop where
  | none : IsData .none
  | bool (b : Bool) : IsData (.bool b)
  | int (i : Int) : IsData (.int i)
  | text (s : String) : IsData (.text s)
  | list (hitems : ∀ v ∈ items, IsData v) : IsData (.list items)
  | dict (hnames : (entries.map Prod.fst).Nodup) (hentries : ∀ entry ∈ entries, IsData entry.2) :
      IsData (.dict entries)

theorem holdsLongInteger_int {i : Int} :
    holdsLongInteger (.int i) = false ↔ i.natAbs < 10 ^ maxIntegerDigits := by
  rw [holdsLongInteger, isLong_eq_false, Nat.pow_eq]

theorem anyLongInteger_eq_false {items : List Value} :
    anyLongInteger items = false ↔ ∀ v ∈ items, holdsLongInteger v = false := by
  induction items with
  | nil => simp [anyLongInteger]
  | cons v items ih => simp [anyLongInteger, ih]

theorem anyLongIntegerIn_eq_false {entries : Entries} :
    anyLongIntegerIn entries = false ↔ ∀ entry ∈ entries, holdsLongInteger entry.2 = false := by
  induction entries with
  | nil => simp [anyLongIntegerIn]
  | cons entry entries ih => simp [anyLongIntegerIn, ih]

theorem writable_of_isData {v : Value} (hdata : IsData v) (hshort : holdsLongInteger v = false) :
    Writable v := by
  induction hdata with
  | none => exact .none
  | bool b => exact .bool b
  | int i => exact .int (holdsLongInteger_int.1 hshort)
  | text s => exact .text s
  | list _ ih =>
      rw [holdsLongInteger, anyLongInteger_eq_false] at hshort
      exact .list fun v hv => ih v hv (hshort v hv)
  | dict hnames _ ih =>
      rw [holdsLongInteger, anyLongIntegerIn_eq_false] at hshort
      exact .dict hnames fun entry hentry => ih entry hentry (hshort entry hentry)

theorem looseData_of_isData {v : Value} (hdata : IsData v) : looseData v = v := by
  induction hdata with
  | none => rfl
  | bool => rfl
  | int => rfl
  | text => rfl
  | @list items _ ih => rw [looseData, looseDataOf_eq_map, List.map_congr_left ih, List.map_id']
  | @dict entries _ _ ih =>
      rw [looseData, looseDataIn_eq_map]
      refine congrArg Value.dict ((List.map_congr_left fun entry hentry => ?_).trans (List.map_id' _))
      exact congrArg (Prod.mk entry.1) (ih entry hentry)

private theorem encodeResult_eq_ok {v : Value} (hdata : IsData v) {text : String} :
    encodeResult v = .ok text ↔ holdsLongInteger v = false ∧ loose v = text := by
  have hencode : encodeResult v =
      if holdsLongInteger v then .error .unwritable else .ok (loose v) := by
    cases hdata <;> rfl
  rw [hencode]
  split <;> simp_all

/-! ## Answers -/

theorem decodeArguments_of_read {depth : Nat} {tool text : String} {entries : Entries}
    (hblank : isAllBlank text = false) (hread : Json.read depth text = .ok (.dict entries)) :
    decodeArguments depth tool text = .ok entries := by
  simp [decodeArguments, hblank, hread]

private theorem not_isAllBlank_of_object (comma colon : String) (members : List (String × String)) :
    isAllBlank (object comma colon members) = false := by
  have hbrace : isBlank '{' = false := by decide
  rw [isAllBlank, toList_object, List.all_cons, hbrace, Bool.false_and]

theorem answer_decodes {v : Value} (hdata : IsData v) {text : String}
    (hencode : encodeResult v = .ok text) {depth : Nat} (hnesting : nesting v ≤ depth) :
    Json.read depth text = .ok v ∧
      ∀ tool entries, v = .dict entries → decodeArguments depth tool text = .ok entries := by
  obtain ⟨hshort, rfl⟩ := (encodeResult_eq_ok hdata).1 hencode
  have hread : Json.read depth (loose v) = .ok v := by
    have hspells := spells_loose (writable_of_isData hdata hshort)
    rw [looseData_of_isData hdata] at hspells
    exact hspells.read_eq_ok hnesting
  refine ⟨hread, fun tool entries hdict => ?_⟩
  subst hdict
  exact decodeArguments_of_read (not_isAllBlank_of_object _ _ _) hread

def parcel : Entries :=
  [("to\n\"you\"", .list [.none, .bool true, .int (-70), .text "\\ \u0001 \u00a0 😀 \u2028"]),
    ("", .dict [("deep", .list [.list [], .dict []])])]

def parcelText : String :=
  "\x7b\"to\\n\\\"you\\\"\": [null, true, -70, \"\\\\ \\u0001 \u00a0 😀 \u2028\"], \"\": \x7b\"deep\": [[], \x7b\x7d]\x7d\x7d"

private theorem parcel_isData : IsData (.dict parcel) := by
  refine .dict (by decide) ?_
  simp only [parcel, List.forall_mem_cons]
  refine ⟨.list ?_, .dict (by decide) ?_, by simp⟩
  · simp only [List.forall_mem_cons]
    exact ⟨.none, .bool true, .int (-70), .text _, by simp⟩
  · simp only [List.forall_mem_cons]
    refine ⟨.list ?_, by simp⟩
    simp only [List.forall_mem_cons]
    exact ⟨.list (by simp), .dict (by decide) (by simp), by simp⟩

theorem parcel_decoded : encodeResult (.dict parcel) = .ok parcelText ∧
    Json.read usualDepth parcelText = .ok (.dict parcel) ∧
    decodeArguments usualDepth "post" parcelText = .ok parcel := by
  have hencode : encodeResult (.dict parcel) = .ok parcelText :=
    (encodeResult_eq_ok parcel_isData).2 ⟨by decide +kernel, by decide +kernel⟩
  obtain ⟨hread, hdecode⟩ := answer_decodes parcel_isData hencode
    (by decide : nesting (.dict parcel) ≤ usualDepth)
  exact ⟨hencode, hread, hdecode _ _ rfl⟩

end ChatPipeline.Json
