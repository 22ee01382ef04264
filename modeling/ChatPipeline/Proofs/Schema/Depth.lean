import ChatPipeline.Proofs.Schema.Conversion
import ChatPipeline.Proofs.Schema.Keywords

/-!
# Depth of conversions

A conversion that does not run out of depth comes to the same at any greater depth
(`convertWithin_deepens`).  It does not run out of depth if every step, into a fragment or along a
reference, lowers a rank that the depth covers (`convertWithin_settles`).
-/

namespace ChatPipeline.Schema

open Validation

/-! ## What is read inside -/

section

variable {entries parts : Entries} {part : String × Value}

theorem encloses_property (hparts : entryOr entries "properties" (.dict []) = .dict parts)
    (hpart : part ∈ parts) : Encloses entries part.2 :=
  .of_get? (get?_properties hparts hpart) (List.mem_map_of_mem hpart)

theorem holds_items {p : Value → Prop} (hinside : ∀ node, Encloses entries node → p node)
    (htext : p textFragment) : p (entryOr entries "items" textFragment) := by
  rcases entryOr_cases entries "items" textFragment with ⟨-, heq⟩ | hkey
  · rw [heq]
    exact htext
  · exact hinside _ (.of_get? hkey (List.mem_singleton_self _))

end

/-! ## More depth -/

/-- Unless the first outcome is for lack of depth, the second is the same. -/
def Deepens (x y : Outcome α) : Prop := x ≠ .error endlessReference → y = x

namespace Deepens

theorem refl (x : Outcome α) : Deepens x x := fun _ => rfl

theorem trans {x y z : Outcome α} (hxy : Deepens x y) (hyz : Deepens y z) : Deepens x z := by
  intro hx
  have hy := hxy hx
  rw [hyz (hy ▸ hx), hy]

theorem bind {x y : Outcome α} {k l : α → Outcome β} (hxy : Deepens x y)
    (hkl : ∀ a, Deepens (k a) (l a)) : Deepens (x >>= k) (y >>= l) := by
  intro h
  cases x with
  | error f =>
      rw [hxy fun hf => h (hf ▸ rfl)]
      rfl
  | ok a =>
      rw [hxy nofun]
      exact hkl a h

end Deepens

section

variable {step step' : Value → Outcome Param} {entries : Entries}

private theorem convertEach_deepens {parts : Entries}
    (hstep : ∀ part ∈ parts, Deepens (step part.2) (step' part.2)) :
    Deepens (convertEach step parts) (convertEach step' parts) := by
  induction parts with
  | nil => exact .refl _
  | cons part parts ih =>
      obtain ⟨hfirst, hrest⟩ := List.forall_mem_cons.1 hstep
      exact hfirst.bind fun p => (ih hrest).bind fun ps => .refl _

theorem convertTyped_deepens (hstep : ∀ node, Encloses entries node → Deepens (step node) (step' node))
    (htext : Deepens (step textFragment) (step' textFragment)) (shown : Value) :
    Deepens (convertTyped step entries shown) (convertTyped step' entries shown) := by
  unfold convertTyped
  split
  · dsimp only
    split
    case h_1 parts hparts =>
      have heach : Deepens (convertEach step parts) (convertEach step' parts) :=
        convertEach_deepens fun part hpart => hstep part.2 (encloses_property hparts hpart)
      change Deepens (convertEach step parts >>= _) (convertEach step' parts >>= _)
      exact heach.bind fun _ => .refl _
    case h_2 => exact .refl _
  · have hitems : Deepens (step (entryOr entries "items" textFragment))
        (step' (entryOr entries "items" textFragment)) := holds_items hstep htext
    exact hitems.bind fun _ => .refl _
  all_goals exact .refl _

end

theorem convertWithin_of_ne_dict (defs : Value) (depth : Nat) (outer : Value) {node : Value}
    (h : ∀ entries, node ≠ .dict entries) :
    convertWithin defs (depth + 1) outer node = .error (noMethod node "get") := by
  have hget : fragmentEntries node = .error (noMethod node "get") := by
    unfold fragmentEntries
    split
    case h_1 entries => exact absurd rfl (h entries)
    case h_2 => rfl
  rw [convertWithin, hget]
  rfl

private theorem convertWithin_deepens_succ (defs : Value) (depth : Nat) (outer node : Value) :
    Deepens (convertWithin defs depth outer node) (convertWithin defs (depth + 1) outer node) := by
  induction depth generalizing outer node with
  | zero => exact fun h => absurd rfl h
  | succ depth ih =>
      by_cases hdict : ∃ entries, node = .dict entries
      · obtain ⟨entries, rfl⟩ := hdict
        rw [convertWithin_dict, convertWithin_dict]
        refine (Deepens.refl _).bind fun next => ?_
        cases next with
        | some node => exact ih _ node
        | none => exact convertTyped_deepens (fun node _ => ih .none node) (ih .none _) _
      · rw [not_exists] at hdict
        rw [convertWithin_of_ne_dict _ _ _ hdict, convertWithin_of_ne_dict _ _ _ hdict]
        exact .refl _

theorem convertWithin_deepens (defs : Value) {depth depth' : Nat} (hle : depth ≤ depth')
    (outer node : Value) :
    Deepens (convertWithin defs depth outer node) (convertWithin defs depth' outer node) := by
  induction hle with
  | refl => exact .refl _
  | step _ ih => exact ih.trans (convertWithin_deepens_succ _ _ _ _)

theorem convertWithin_eq_ok_of_le {defs : Value} {depth depth' : Nat} (hle : depth ≤ depth')
    {outer node : Value} {p : Param} (h : convertWithin defs depth outer node = .ok p) :
    convertWithin defs depth' outer node = .ok p := by
  rw [convertWithin_deepens defs hle outer node (h ▸ nofun), h]

/-! ## Enough depth -/

abbrev Settles (x : Outcome α) : Prop := x.FailsAs fun f => f ≠ endlessReference

theorem Settles.ne {x : Outcome α} (h : Settles x) : x ≠ .error endlessReference :=
  fun hx => h.of_error hx rfl

theorem telling_value_ne_endless (text : Option String) :
    Failure.telling .value text ≠ endlessReference := by
  cases text with
  | none => simp [Failure.telling, Failure.unwritable, Failure.fault, endlessReference]
  | some text => simp [Failure.telling, Failure.fault, endlessReference]

private theorem settles_of_looks {x : Outcome α} (h : Value.Looks x) : Settles x := by
  refine h.mono fun f hf heq => ?_
  cases hf with | raised hkind details
  cases heq
  simp [Value.missKinds] at hkind

private theorem settles_onlyPart (v : Value) : Settles (onlyPart v) := by
  have hsize : Value.Looks (size v) := by
    unfold size
    split
    case h_6 =>
      split
      · exact .ok _
      · exact .error (.raised (by decide) _)
    all_goals exact .ok _
  refine (settles_of_looks hsize).bind fun n => ?_
  split
  · exact (settles_of_looks (Value.looks_element v 0)).bind fun only => .ok _
  · exact .ok _

private theorem settles_fragmentEntries (v : Value) : Settles (fragmentEntries v) := by
  unfold fragmentEntries
  split
  · exact .ok _
  · exact settles_of_looks (.error (.raised (by decide) _))

private theorem settles_nonNull (v : Value) : Settles (nonNull v) :=
  (settles_of_looks v.looks_iterate).bind fun _ =>
    .filterM fun a _ => (settles_fragmentEntries a).bind fun _ => .ok _

private theorem settles_standsFor (defs : Value) (entries : Entries) :
    Settles (standsFor defs entries) := by
  unfold standsFor
  split
  · unfold followReference
    split
    · exact (settles_of_looks (defs.looks_entry _)).map _
    · exact settles_of_looks (.error (.raised (by decide) _))
  · refine Outcome.FailsAs.bind ?_ fun part => ?_
    · unfold partOf
      split
      · exact settles_onlyPart _
      · exact .ok none
    · split
      · exact .ok _
      · unfold branchOf
        split
        · refine (settles_nonNull _).bind fun kept => ?_
          split
          · exact .ok _
          · exact .error (telling_value_ne_endless _)
        · exact .ok none

theorem Checked.settles (c : Checked α) (subject : String) : Settles (c.toOutcome subject) :=
  Checked.failsAs_toOutcome (fun _ => nofun) subject c

section

variable {step : Value → Outcome Param} {entries : Entries}

theorem failsAs_convertEach {p : Failure → Prop} {parts : Entries}
    (hstep : ∀ part ∈ parts, (step part.2).FailsAs p) : (convertEach step parts).FailsAs p := by
  induction parts with
  | nil => exact .ok []
  | cons part parts ih =>
      obtain ⟨hfirst, hrest⟩ := List.forall_mem_cons.1 hstep
      exact hfirst.bind fun p => (ih hrest).bind fun ps => .ok _

private theorem settles_convertTyped (hstep : ∀ node, Encloses entries node → Settles (step node))
    (htext : Settles (step textFragment)) (shown : Value) :
    Settles (convertTyped step entries shown) := by
  unfold convertTyped
  split
  · dsimp only
    split
    case h_1 parts hparts =>
      have heach : Settles (convertEach step parts) := failsAs_convertEach fun part hpart =>
        hstep part.2 (encloses_property hparts hpart)
      exact heach.bind fun properties =>
        (settles_of_looks (Value.looks_iterate _)).bind fun needed => Checked.settles _ _
    case h_2 => exact settles_of_looks (.error (.raised (by decide) _))
  · have hitems : Settles (step (entryOr entries "items" textFragment)) := holds_items hstep htext
    exact hitems.bind fun items => Checked.settles _ _
  · exact .error nofun
  · exact .error nofun
  · exact .error nofun
  · split
    · exact Checked.settles _ _
    · exact .error (telling_value_ne_endless _)

end

/-! ## Ranks -/

theorem alternatives_of_nonNull {v : Value} {inner : Entries}
    (h : nonNull v = .ok [.dict inner]) :
    (∀ f, (mapHeld f "anyOf" v).iterate = .ok ((held "anyOf" v).map f)) ∧
      (∀ a ∈ held "anyOf" v, ∃ entries, a = .dict entries) ∧
      ((held "anyOf" v).filter fun a => !typesNull a) = [.dict inner] := by
  obtain ⟨alternatives, halternatives, hall, hkept⟩ := nonNull_eq_ok_iff.1 h
  have hinner : .dict inner ∈ alternatives :=
    (List.mem_filter.1 (hkept ▸ List.mem_singleton_self _)).1
  rcases Value.iterate_dict halternatives hinner with rfl | rfl | rfl
  · exact ⟨fun _ => rfl, hall, hkept⟩
  · exact ⟨fun _ => rfl, hall, hkept⟩
  · exact ⟨fun _ => rfl, hall, hkept⟩

theorem StandsFor.follows_or_encloses {defs : Value} {entries inner : Entries}
    (h : StandsFor defs entries (some (.dict inner))) :
    (∃ target, entries.get? "$ref" = some target ∧
      followReference defs target = .ok (.dict inner)) ∨ Encloses entries (.dict inner) := by
  cases h with
  | reference hkey hnext => exact .inl ⟨_, hkey, hnext⟩
  | part _ hkey honly =>
      refine .inr (.of_get? hkey ?_)
      rcases onlyPart_dict honly with rfl | rfl <;> exact List.mem_singleton_self _
  | branch _ _ hkey honly =>
      obtain ⟨-, -, hkept⟩ := alternatives_of_nonNull honly
      exact .inr (.of_get? hkey (List.mem_filter.1 (hkept ▸ List.mem_singleton_self _)).1)

/-- A rank of fragments that every step of a conversion lowers. -/
structure Ranked (defs : Value) (inside : Value → Prop) (rank : Value → Nat) : Prop where
  dict_pos : inside (.dict entries) → 0 < rank (.dict entries)
  of_encloses : inside (.dict entries) → Encloses entries node →
    inside node ∧ rank node < rank (.dict entries)
  of_reference {entries : Entries} : inside (.dict entries) → entries.get? "$ref" = some target →
    followReference defs target = .ok node → inside node ∧ rank node < rank (.dict entries)

theorem Ranked.of_standsFor {defs : Value} {inside : Value → Prop} {rank : Value → Nat}
    (hranked : Ranked defs inside rank) {entries inner : Entries} (hinside : inside (.dict entries))
    (h : StandsFor defs entries (some (.dict inner))) :
    inside (.dict inner) ∧ rank (.dict inner) < rank (.dict entries) := by
  rcases h.follows_or_encloses with ⟨target, hkey, hnext⟩ | hinner
  · exact hranked.of_reference hinside hkey hnext
  · exact hranked.of_encloses hinside hinner

private theorem settles_of_ne_dict (defs : Value) (depth : Nat) (outer : Value) {node : Value}
    (h : ∀ entries, node ≠ .dict entries) :
    Settles (convertWithin defs (depth + 1) outer node) := by
  rw [convertWithin_of_ne_dict _ _ _ h]
  exact settles_of_looks (.error (.raised (by decide) _))

theorem convertWithin_textFragment (defs : Value) (depth : Nat) :
    convertWithin defs (depth + 1) .none textFragment = .ok (.primitive none .string none) := by
  exact convertWithin_eq_ok_iff.2 (.inr ⟨.itself rfl nofun rfl, .primitive rfl rfl rfl⟩)

/-- A depth above the rank suffices. -/
theorem convertWithin_settles {defs : Value} {inside : Value → Prop} {rank : Value → Nat}
    (hranked : Ranked defs inside rank) {depth : Nat} (outer : Value) {node : Value}
    (hinside : inside node) (hrank : rank node < depth) :
    Settles (convertWithin defs depth outer node) := by
  induction depth generalizing outer node with
  | zero => exact absurd hrank (Nat.not_lt_zero _)
  | succ depth ih =>
      by_cases hdict : ∃ entries, node = .dict entries
      · obtain ⟨entries, rfl⟩ := hdict
        have hpos := hranked.dict_pos hinside
        obtain ⟨more, rfl⟩ := Nat.exists_eq_succ_of_ne_zero (show depth ≠ 0 by omega)
        rw [convertWithin_dict]
        cases hstands : standsFor defs entries with
        | error f => exact .error ((settles_standsFor defs entries).of_error hstands)
        | ok next =>
            cases next with
            | none =>
                refine settles_convertTyped (fun node hnode => ?_) ?_ _
                · obtain ⟨hnode, hlower⟩ := hranked.of_encloses hinside hnode
                  exact ih _ hnode (by omega)
                · rw [convertWithin_textFragment]
                  exact .ok _
            | some next =>
                by_cases hnext : ∃ inner, next = .dict inner
                · obtain ⟨inner, rfl⟩ := hnext
                  obtain ⟨hnode, hlower⟩ :=
                    hranked.of_standsFor hinside (standsFor_eq_ok_iff.1 hstands)
                  exact ih _ hnode (by omega)
                · rw [not_exists] at hnext
                  exact settles_of_ne_dict _ _ _ hnext
      · rw [not_exists] at hdict
        exact settles_of_ne_dict _ _ _ hdict

end ChatPipeline.Schema
