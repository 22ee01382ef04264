import ChatPipeline.Proofs.Sequencing
import ChatPipeline.Value.Access

/-!
# Reading inside values

A value that has no such part, or is of a kind that has no parts, makes a lookup fail with a fault
of one of four kinds, whichever way the value is read (`Looks`).  Dictionaries are only found inside
containers.
-/

namespace ChatPipeline

theorem Entries.mem_of_get?_override {entries newer : Entries} {key : String} {v : Value}
    (h : (entries.override newer).get? key = some v) :
    entries.get? key = some v ∨ (key, v) ∈ newer := by
  induction newer generalizing entries with
  | nil => exact .inl h
  | cons e newer ih =>
      rcases ih h with hold | hnew
      · rw [Entries.get?_insert] at hold
        split at hold
        case isTrue heq =>
          cases hold
          rw [eq_of_beq heq]
          exact .inr List.mem_cons_self
        case isFalse => exact .inl hold
      · exact .inr (List.mem_cons_of_mem e hnew)

namespace Value

/-! ## Failures -/

def missKinds : List FaultKind := [.type, .index, .key, .attribute]

inductive IsMiss : Failure → Prop where
  | raised (h : kind ∈ missKinds) (details : List Value) : IsMiss (.raised kind details)

abbrev Looks (x : Outcome α) : Prop := x.FailsAs IsMiss

private theorem looks_ofElement (v : Value) (found : Option Value) : Looks (v.ofElement found) := by
  cases found with
  | some w => exact .ok w
  | none => exact .error (.raised (by decide) _)

theorem looks_element (v : Value) (i : Nat) : Looks (v.element i) := by
  unfold element
  split
  · exact looks_ofElement _ _
  · exact looks_ofElement _ _
  · exact looks_ofElement _ _
  · exact .error (.raised (by decide) _)
  · split
    · exact looks_ofElement _ _
    · exact .error (.raised (by decide) _)

theorem looks_entry (v : Value) (key : String) : Looks (v.entry key) := by
  unfold entry
  split
  · split
    · exact .ok _
    · exact .error (.raised (by decide) _)
  · exact .error (.raised (by decide) _)
  · exact .error (.raised (by decide) _)
  · exact .error (.raised (by decide) _)
  · split
    · exact .error (.raised (by decide) _)
    · exact .error (.raised (by decide) _)

theorem looks_iterate (v : Value) : Looks v.iterate := by
  cases v with
  | text s => exact .ok _
  | member enumeration name mixin value =>
      unfold iterate
      dsimp only
      split
      · exact .ok _
      · exact .error (.raised (by decide) _)
  | list items => exact .ok _
  | tuple items => exact .ok _
  | set items => exact .ok _
  | dict entries => exact .ok _
  | message m => exact .ok _
  | toolCall c => exact .ok _
  | record type fields extra => exact .ok _
  | none => exact .error (.raised (by decide) _)
  | bool b => exact .error (.raised (by decide) _)
  | int i => exact .error (.raised (by decide) _)
  | float x => exact .error (.raised (by decide) _)
  | bytes octets => exact .error (.raised (by decide) _)

/-! ## Dictionaries inside -/

theorem ofElement_eq_ok {v found : Value} {w : Option Value} (h : v.ofElement w = .ok found) :
    w = some found := by
  cases w with
  | some => cases h; rfl
  | none => cases h

theorem element_eq_dict {v : Value} {i : Nat} {inner : Entries}
    (h : v.element i = .ok (.dict inner)) :
    ∃ items, (v = .list items ∨ v = .tuple items) ∧ items[i]? = some (.dict inner) := by
  unfold element at h
  split at h
  case h_1 items => exact ⟨items, .inl rfl, ofElement_eq_ok h⟩
  case h_2 items => exact ⟨items, .inr rfl, ofElement_eq_ok h⟩
  case h_3 octets =>
    have hfound := ofElement_eq_ok h
    cases hoctet : octets[i]? <;> rw [hoctet] at hfound <;> cases hfound
  case h_4 => cases h
  case h_5 =>
    split at h
    case h_1 s _ =>
      have hfound := ofElement_eq_ok h
      cases hletter : s.toList[i]? <;> rw [hletter] at hfound <;> cases hfound
    case h_2 => cases h

theorem iterate_dict {v : Value} {vs : List Value} {inner : Entries} (h : v.iterate = .ok vs)
    (hinner : .dict inner ∈ vs) : v = .list vs ∨ v = .tuple vs ∨ v = .set vs := by
  unfold iterate at h
  split at h
  case h_1 => cases h; exact .inl rfl
  case h_2 => cases h; exact .inr (.inl rfl)
  case h_3 => cases h; exact .inr (.inr rfl)
  case h_4 => cases h; simp at hinner
  case h_5 => cases h; simp [pairs] at hinner
  case h_6 => cases h; simp [pairs] at hinner
  case h_7 => cases h; simp [pairs] at hinner
  case h_8 =>
    split at h
    case h_1 => cases h; simp at hinner
    case h_2 => cases h

end Value

end ChatPipeline
