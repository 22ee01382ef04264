import ChatPipeline.Failure.Catalogue
import ChatPipeline.Proofs.Schema.Acceptance
import ChatPipeline.Proofs.Schema.Endless

/-!
# How a schema is refused

A schema that has the form of a JSON schema, and whose references all name one of its definitions,
gives parameters or is refused for a value that is not supported.  There are three ways out of this:
a reference that leads back to itself, a list of types, and a fragment that is a truth value
(`toParameters_returns_or_refuses`).
-/

namespace ChatPipeline.Schema

open Validation

/-! ## The form of a schema -/

/-- The keywords that are read have values of the form that JSON schema asks for. -/
structure WellFormed (entries : Entries) : Prop where
  reference {v : Value} : entries.get? "$ref" = some v → ∃ s, v = .text s
  parts {v : Value} : entries.get? "allOf" = some v → ∃ vs, v = .list vs
  alternatives {v : Value} : entries.get? "anyOf" = some v → ∃ vs, v = .list vs
  type {v : Value} : entries.get? "type" = some v → (∃ s, v = .text s) ∨ ∃ names, v = .list names
  properties {v : Value} : entries.get? "properties" = some v → ∃ parts, v = .dict parts
  needed {v : Value} : entries.get? "required" = some v → ∃ names, v = .list names
  definitions {v : Value} : entries.get? "$defs" = some v → ∃ definitions, v = .dict definitions

inductive IsFragment : Value → Prop where
  | object {entries : Entries} (h : WellFormed entries) : IsFragment (.dict entries)
  | truth (b : Bool) : IsFragment (.bool b)

structure IsSchema (schema : Entries) : Prop where
  formed : ∀ node, Contains (.dict schema) node → IsFragment node
  resolved : ∀ name, Mentions (.dict schema) name →
    ∃ node, (ownDefinitions (.dict schema)).entry name = .ok node

/-- Why a schema is refused.  A conversion without an end has none at any depth. -/
inductive Refuses (schema : Entries) : Failure → Prop where
  | value {f : Failure} (h : f.isA "ValueError" = true) : Refuses schema f
  | endless (hcycle : Relation.TransGen (Refers (ownDefinitions (.dict schema))) name name)
      (hdepth : ∀ depth, convertWithin (ownDefinitions (.dict schema)) depth .none (.dict schema) =
        .error endlessReference) : Refuses schema endlessReference
  | types {entries : Entries} (h : Contains (.dict schema) (.dict entries))
      (htype : entries.get? "type" = some (.list names)) :
      Refuses schema (.fault .type "unhashable type: 'list'")
  | truth {b : Bool} (h : Contains (.dict schema) (.bool b)) :
      Refuses schema (noMethod (.bool b) "get")

abbrev Blames (schema : Entries) (x : Outcome α) : Prop :=
  x.FailsAs fun f => f ≠ endlessReference → Refuses schema f

section

variable {schema entries : Entries} {node : Value}

theorem Blames.value {f : Failure} (h : f.isA "ValueError" = true) :
    Blames schema (.error f : Outcome α) :=
  .error fun _ => .value h

theorem Blames.telling (text : Option String) :
    Blames schema (.error (.telling .value text) : Outcome α) := by
  cases text with
  | none => exact .value rfl
  | some text => exact .value rfl

theorem Blames.checked (c : Checked α) (subject : String) : Blames schema (c.toOutcome subject) :=
  Checked.failsAs_toOutcome (fun _ _ => .value rfl) subject c

theorem IsSchema.wellFormed (h : IsSchema schema)
    (hnode : Contains (.dict schema) (.dict entries)) :
    WellFormed entries := by
  cases h.formed _ hnode with | object h
  exact h

theorem IsSchema.contains_definition (h : IsSchema schema) {name : String}
    (hentry : (ownDefinitions (.dict schema)).entry name = .ok node) :
    Contains (.dict schema) node := by
  have hlisted := mem_listed hentry
  rcases entryOr_cases schema "$defs" (.dict []) with ⟨-, hnone⟩ | hkey
  · rw [ownDefinitions, hnone] at hlisted
    cases hlisted
  · obtain ⟨definitions, hdict⟩ := (h.wellFormed (.here _)).definitions hkey
    rw [hdict] at hkey
    rw [ownDefinitions, hdict] at hlisted
    exact .further (.of_get? hkey (List.mem_map_of_mem hlisted)) (.here _)

/-! ## Passing on -/

theorem blames_fragmentEntries (h : IsSchema schema) (hnode : Contains (.dict schema) node) :
    Blames schema (fragmentEntries node) := by
  cases h.formed _ hnode with
  | object => exact .ok _
  | truth b => exact .error fun _ => .truth hnode

private theorem blames_partOf (h : IsSchema schema)
    (hnode : Contains (.dict schema) (.dict entries)) :
    Blames schema (partOf entries) := by
  unfold partOf
  split
  case h_1 parts hkey =>
    obtain ⟨vs, rfl⟩ := (h.wellFormed hnode).parts hkey
    unfold onlyPart
    change Blames schema (if vs.length = 1 then _ else _)
    split
    case isTrue hlength =>
      obtain ⟨only, rfl⟩ := List.length_eq_one_iff.1 hlength
      exact .ok _
    case isFalse => exact .ok _
  case h_2 => exact .ok _

private theorem blames_branchOf (h : IsSchema schema)
    (hnode : Contains (.dict schema) (.dict entries)) :
    Blames schema (branchOf entries) := by
  unfold branchOf
  split
  case h_1 branches hkey =>
    obtain ⟨vs, rfl⟩ := (h.wellFormed hnode).alternatives hkey
    refine Outcome.FailsAs.bind (Outcome.FailsAs.filterM fun a ha => ?_) fun kept => ?_
    · exact (blames_fragmentEntries h (hnode.of_encloses rfl (.of_get? hkey ha))).bind fun _ => .ok _
    · split
      · exact .ok _
      · exact Blames.telling _
  case h_2 => exact .ok _

private theorem blames_standsFor (h : IsSchema schema)
    (hnode : Contains (.dict schema) (.dict entries)) :
    Blames schema (standsFor (ownDefinitions (.dict schema)) entries) := by
  unfold standsFor
  split
  case h_1 target hkey =>
    obtain ⟨s, rfl⟩ := (h.wellFormed hnode).reference hkey
    obtain ⟨next, hnext⟩ := h.resolved _ (.reference hnode hkey rfl)
    rw [followReference_eq_ok_iff.2 ⟨s, rfl, hnext⟩]
    exact .ok _
  case h_2 hown =>
    refine (blames_partOf h hnode).bind fun part => ?_
    cases part with
    | some only => exact .ok _
    | none => exact blames_branchOf h hnode

theorem StandsFor.contains (h : IsSchema schema) (hnode : Contains (.dict schema) (.dict entries))
    {next : Value} (hstands : StandsFor (ownDefinitions (.dict schema)) entries (some next)) :
    Contains (.dict schema) next := by
  cases hstands with
  | reference hkey hnext =>
      obtain ⟨s, -, hentry⟩ := followReference_eq_ok_iff.1 hnext
      exact h.contains_definition hentry
  | part _ hkey honly =>
      obtain ⟨vs, rfl⟩ := (h.wellFormed hnode).parts hkey
      obtain rfl := onlyPart_list honly
      exact hnode.of_encloses rfl (.of_get? hkey (List.mem_singleton_self _))
  | branch _ _ hkey honly =>
      obtain ⟨vs, rfl⟩ := (h.wellFormed hnode).alternatives hkey
      have hmem := (nonNull_list honly).1 next (List.mem_singleton_self _)
      exact hnode.of_encloses rfl (.of_get? hkey hmem)

/-! ## Reading -/

theorem WellFormed.fragmentType_cases (h : WellFormed entries) :
    fragmentType entries = .none ∨ (∃ s, fragmentType entries = .text s) ∨
      ∃ names, fragmentType entries = .list names ∧ entries.get? "type" = some (.list names) := by
  unfold fragmentType
  cases htype : entries.get? "type" with
  | none =>
      dsimp only
      split
      · exact .inr (.inl ⟨_, rfl⟩)
      · exact .inl rfl
  | some t =>
      rcases h.type htype with ⟨s, rfl⟩ | ⟨names, rfl⟩
      · exact .inr (.inl ⟨s, rfl⟩)
      · exact .inr (.inr ⟨names, rfl, rfl⟩)

private theorem blames_convertTyped (h : IsSchema schema)
    (hnode : Contains (.dict schema) (.dict entries))
    {step : Value → Outcome Param} (hstep : ∀ node, Encloses entries node → Blames schema (step node))
    (htext : Blames schema (step textFragment)) (shown : Value) :
    Blames schema (convertTyped step entries shown) := by
  have hformed := h.wellFormed hnode
  have htype := hformed.fragmentType_cases
  unfold convertTyped
  split
  case h_1 =>
    dsimp only
    split
    case h_1 parts hparts =>
      change Blames schema (convertEach step parts >>= _)
      have heach : Blames schema (convertEach step parts) := failsAs_convertEach fun part hpart =>
        hstep part.2 (encloses_property hparts hpart)
      refine heach.bind fun properties => ?_
      rcases entryOr_cases entries "required" (.list []) with ⟨-, hnone⟩ | hkey
      · rw [hnone]
        exact Blames.checked _ _
      · obtain ⟨names, hlist⟩ := hformed.needed hkey
        rw [hlist]
        exact Blames.checked _ _
    case h_2 hother =>
      rcases entryOr_cases entries "properties" (.dict []) with ⟨-, hnone⟩ | hkey
      · exact absurd hnone (hother _)
      · obtain ⟨parts, hdict⟩ := hformed.properties hkey
        exact absurd hdict (hother _)
  case h_2 =>
    have hitems : Blames schema (step (entryOr entries "items" textFragment)) :=
      holds_items hstep htext
    exact hitems.bind fun items => Blames.checked _ _
  case h_3 ht =>
    rw [ht] at htype
    rcases htype with heq | ⟨_, heq⟩ | ⟨_, heq, hkey⟩ <;> cases heq
    exact .error fun _ => .types hnode hkey
  case h_4 ht =>
    rw [ht] at htype
    rcases htype with heq | ⟨_, heq⟩ | ⟨_, heq, -⟩ <;> cases heq
  case h_5 ht =>
    rw [ht] at htype
    rcases htype with heq | ⟨_, heq⟩ | ⟨_, heq, -⟩ <;> cases heq
  case h_6 =>
    split
    · exact Blames.checked _ _
    · exact Blames.telling _

private theorem convertWithin_blames (h : IsSchema schema) (depth : Nat) (outer : Value)
    (hnode : Contains (.dict schema) node) :
    Blames schema (convertWithin (ownDefinitions (.dict schema)) depth outer node) := by
  induction depth generalizing outer node with
  | zero => exact .error fun hne => absurd rfl hne
  | succ depth ih =>
      cases h.formed _ hnode with
      | truth b => exact .error fun _ => .truth hnode
      | @object entries =>
          rw [convertWithin_dict]
          cases hstands : standsFor (ownDefinitions (.dict schema)) entries with
          | error f => exact .error ((blames_standsFor h hnode).of_error hstands)
          | ok next =>
              cases next with
              | some next => exact ih _ (StandsFor.contains h hnode (standsFor_eq_ok_iff.1 hstands))
              | none =>
                  refine blames_convertTyped h hnode (fun inner hinner => ?_) ?_ _
                  · exact ih _ (hnode.of_encloses rfl hinner)
                  · cases depth with
                    | zero => exact .error fun hne => absurd rfl hne
                    | succ depth =>
                        rw [convertWithin_textFragment]
                        exact .ok _

end

/-- Parameters, a value that is not supported, or one of the three ways out of this. -/
theorem toParameters_returns_or_refuses (name : String) {schema : Entries} (h : IsSchema schema) :
    (∃ parameters, toParameters name schema = .ok parameters) ∨
      ∃ f, toParameters name schema = .error f ∧ Refuses schema f := by
  have hblames := convertWithin_blames h (stepBound (ownDefinitions (.dict schema)) (.dict schema))
    .none (.here _)
  unfold toParameters
  cases hconvert : convert (entryOr schema "$defs" (.dict [])) (.dict schema) with
  | error f =>
      refine .inr ⟨f, rfl, ?_⟩
      by_cases hendless : f = endlessReference
      · subst hendless
        obtain ⟨definition, hcycle⟩ := exists_cycle_of_endless hconvert
        exact .endless hcycle fun depth => convert_endless_iff.1 hconvert depth .none
      · exact hblames.of_error hconvert hendless
  | ok p =>
      cases p with
      | object description properties required => exact .inl ⟨_, rfl⟩
      | _ => exact .inr ⟨_, rfl, .value rfl⟩

/-! ### Lists inside lists -/

def nestedLists : Entries :=
  [("items", referTo "Nested"), ("title", .text "Nested"), ("type", .text "array")]

def box : Entries :=
  [("$defs", .dict [("Nested", .dict nestedLists)]),
    ("properties", .dict [("value", referTo "Nested")]), ("required", .list [.text "value"]),
    ("title", .text "Box"), ("type", .text "object")]

private theorem contains_box {node : Value} (h : Contains (.dict box) node) :
    node = .dict box ∨ node = .dict nestedLists ∨ node = referTo "Nested" := by
  refine h.closed (p := fun node => node = .dict box ∨ node = .dict nestedLists ∨
    node = referTo "Nested") (.inl rfl) ?_
  rintro entries inner (heq | heq | heq) ⟨e, he, hinner⟩ <;> cases heq
  · simp only [box, List.mem_cons, List.not_mem_nil, or_false] at he
    rcases he with rfl | rfl | rfl | rfl | rfl
    · exact .inr (.inl (List.mem_singleton.1 hinner))
    · exact .inr (.inr (List.mem_singleton.1 hinner))
    all_goals cases hinner
  · simp only [nestedLists, List.mem_cons, List.not_mem_nil, or_false] at he
    rcases he with rfl | rfl | rfl
    · exact .inr (.inr (List.mem_singleton.1 hinner))
    all_goals cases hinner
  · obtain rfl := List.mem_singleton.1 he
    cases hinner

private theorem box_isSchema : IsSchema box where
  formed node hnode := by
    rcases contains_box hnode with rfl | rfl | rfl
    · refine .object ⟨nofun, nofun, nofun, ?_, ?_, ?_, ?_⟩
      all_goals rintro v ⟨⟩
      · exact .inl ⟨_, rfl⟩
      · exact ⟨_, rfl⟩
      · exact ⟨_, rfl⟩
      · exact ⟨_, rfl⟩
    · refine .object ⟨nofun, nofun, nofun, ?_, nofun, nofun, nofun⟩
      rintro v ⟨⟩
      exact .inl ⟨_, rfl⟩
    · refine .object ⟨?_, nofun, nofun, nofun, nofun, nofun, nofun⟩
      rintro v ⟨⟩
      exact ⟨_, rfl⟩
  resolved name hmentions := by
    cases hmentions with
    | reference hnode hkey htext =>
        rcases contains_box hnode with heq | heq | heq <;> cases heq <;> cases hkey
        cases htext
        refine ⟨.dict nestedLists, ?_⟩
        rw [referenceName_append (by decide)]
        rfl

theorem box_returns_or_refuses :
    IsSchema box ∧ ((∃ parameters, toParameters "Box" box = .ok parameters) ∨
      ∃ f, toParameters "Box" box = .error f ∧ Refuses box f) :=
  ⟨box_isSchema, toParameters_returns_or_refuses "Box" box_isSchema⟩

/-- The references of the box are all defined, but reading it neither gives parameters nor is
refused for a value. -/
theorem box_endless : IsSchema box ∧ toParameters "Box" box = .error endlessReference ∧
    endlessReference.isA "ValueError" = false :=
  ⟨box_isSchema, rfl, by decide⟩

end ChatPipeline.Schema
