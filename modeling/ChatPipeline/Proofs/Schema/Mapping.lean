import ChatPipeline.Proofs.Schema.Depth

/-!
# Conversions with other fragments inside

What is read from a fragment depends on the fragments inside it only through what they are read as
(`Reads.maps`), and what it passes on to is replaced with the others
(`StandsFor.mapFragments_some`). A description that it is read under may as well stand in it
(`convertWithin_describe`).
-/

namespace ChatPipeline.Schema

open Validation

/-! ## Reading with other fragments inside -/

def readKeys : List String :=
  ["$ref", "allOf", "anyOf", "type", "enum", "properties", "required", "items"]

/-- What is read of the entries is the same except for the fragments in them. -/
def Maps (f : Value → Value) (entries entries' : Entries) : Prop :=
  ∀ key ∈ readKeys, entries'.get? key = (entries.get? key).map (mapHeld f key)

section

variable {defs defs' : Value} {f : Value → Value} {entries entries' parts : Entries}
  {step step' : Value → Outcome Param}

theorem maps_mapFragments (f : Value → Value) (entries : Entries) :
    Maps f entries (mapFragments f entries) := fun key _ => get?_mapFragments f entries key

theorem Maps.entryOr_eq (h : Maps f entries entries') {key : String} (hkey : key ∈ readKeys)
    (hheld : holding key = .nothing) (default : Value) :
    entryOr entries' key default = entryOr entries key default := by
  unfold entryOr
  rw [h key hkey]
  cases entries.get? key with
  | none => rfl
  | some v => rw [Option.map_some, mapHeld_of_nothing hheld]

theorem Maps.fragmentType_eq (h : Maps f entries entries') :
    fragmentType entries' = fragmentType entries := by
  have htype : entries'.get? "type" = entries.get? "type" := by
    rw [h "type" (by decide)]
    cases entries.get? "type" with
    | none => rfl
    | some v => rw [Option.map_some, mapHeld_of_nothing (by decide)]
  have henum : entries'.contains "enum" = entries.contains "enum" := by
    unfold Entries.contains
    rw [h "enum" (by decide), Option.isSome_map]
  unfold fragmentType
  rw [htype, henum]

theorem Maps.properties_eq (h : Maps f entries entries')
    (hproperties : entryOr entries "properties" (.dict []) = .dict parts) :
    entryOr entries' "properties" (.dict []) =
      .dict (parts.map fun part => (part.1, f part.2)) := by
  have hmapped := h "properties" (by decide)
  rcases entryOr_cases entries "properties" (.dict []) with ⟨hkey, heq⟩ | hkey
  · rw [heq] at hproperties
    cases hproperties
    rw [entryOr, hmapped, hkey]
    rfl
  · rw [entryOr, hmapped, hkey, hproperties]
    rfl

theorem Maps.items_eq (h : Maps f entries entries') :
    entries.get? "items" = none ∧ entryOr entries' "items" textFragment = textFragment ∨
      ∃ node, entries.get? "items" = some node ∧ entryOr entries' "items" textFragment = f node := by
  unfold entryOr
  rw [h "items" (by decide)]
  cases entries.get? "items" with
  | none => exact .inl ⟨rfl, rfl⟩
  | some node => exact .inr ⟨node, rfl, rfl⟩

theorem Maps.get?_eq (h : Maps id entries entries') {key : String} (hkey : key ∈ readKeys) :
    entries'.get? key = entries.get? key := by
  rw [h key hkey]
  cases entries.get? key with
  | none => rfl
  | some v => rw [Option.map_some, mapHeld_id]

private theorem convertEach_map {properties : List (String × Param)}
    (hstep : ∀ part ∈ parts, ∀ p, step part.2 = .ok p → step' (f part.2) = .ok p)
    (h : convertEach step parts = .ok properties) :
    convertEach step' (parts.map fun part => (part.1, f part.2)) = .ok properties := by
  induction parts generalizing properties with
  | nil => exact h
  | cons part parts ih =>
      obtain ⟨hfirst, hrest⟩ := List.forall_mem_cons.1 hstep
      obtain ⟨p, hp, h⟩ := Outcome.bind_eq_ok.1 h
      obtain ⟨ps, hps, h⟩ := Outcome.bind_eq_ok.1 h
      exact Outcome.bind_eq_ok.2 ⟨p, hfirst p hp, Outcome.bind_eq_ok.2 ⟨ps, ih hrest hps, h⟩⟩

theorem Reads.maps {shown : Value} {p : Param} (h : Reads step entries shown p)
    (hmaps : Maps f entries entries')
    (hstep : ∀ node, Encloses entries node → ∀ q, step node = .ok q → step' (f node) = .ok q)
    (htext : ∀ q, step textFragment = .ok q → step' textFragment = .ok q) :
    Reads step' entries' shown p := by
  cases h with
  | object htype hproperties hparts hneeded hnames hshown =>
      refine .object (hmaps.fragmentType_eq.trans htype) (hmaps.properties_eq hproperties) ?_ ?_ hnames
        hshown
      · refine convertEach_map (fun part hpart => hstep part.2 ?_) hparts
        exact encloses_property hproperties hpart
      · rw [hmaps.entryOr_eq (by decide) (by decide), hneeded]
  | array htype hitems hshown =>
      refine .array (hmaps.fragmentType_eq.trans htype) ?_ hshown
      rcases hmaps.items_eq with ⟨hkey, heq⟩ | ⟨node, hkey, heq⟩
      · rw [entryOr, hkey] at hitems
        exact heq ▸ htext _ hitems
      · rw [entryOr, hkey] at hitems
        exact heq ▸ hstep node (.of_get? hkey (List.mem_singleton_self node)) _ hitems
  | primitive htype hchoices hshown =>
      refine .primitive ?_ ?_ hshown
      · rw [hmaps.fragmentType_eq, htype]
      · rw [hmaps.entryOr_eq (by decide) (by decide), hchoices]

end

/-! ## Passing on to other fragments inside -/

section

variable {defs defs' v : Value} {f : Value → Value} {entries inner : Entries}

private theorem size_mapHeld (f : Value → Value) (v : Value) :
    size (mapHeld f "allOf" v) = size v := by
  cases v with
  | list vs => exact congrArg Except.ok (List.length_map f)
  | tuple vs => exact congrArg Except.ok (List.length_map f)
  | set vs => exact congrArg Except.ok (List.length_map f)
  | _ => rfl

private theorem onlyPart_mapHeld (h : onlyPart v = .ok none) :
    onlyPart (mapHeld f "allOf" v) = .ok none := by
  obtain ⟨n, hn, h⟩ := Outcome.bind_eq_ok.1 h
  refine Outcome.bind_eq_ok.2 ⟨n, (size_mapHeld f v).trans hn, ?_⟩
  split at h
  case isTrue =>
    obtain ⟨_, -, h⟩ := Outcome.bind_eq_ok.1 h
    cases h
  case isFalse hlength => rw [if_neg hlength]; rfl

theorem nonNull_mapHeld (h : nonNull v = .ok [.dict inner])
    (hdict : ∀ a ∈ held "anyOf" v, ∃ entries, f a = .dict entries)
    (hnull : ∀ a ∈ held "anyOf" v, typesNull (f a) = typesNull a) :
    nonNull (mapHeld f "anyOf" v) = .ok [f (.dict inner)] := by
  obtain ⟨hiterate, -, hkept⟩ := alternatives_of_nonNull h
  refine nonNull_eq_ok_iff.2 ⟨_, hiterate f, ?_, ?_⟩
  · intro a ha
    obtain ⟨b, hb, rfl⟩ := List.mem_map.1 ha
    exact hdict b hb
  · have hsame : ((held "anyOf" v).filter ((fun a => !typesNull a) ∘ f)) = [.dict inner] := by
      rw [← hkept]
      exact List.filter_congr fun a ha => congrArg _ (hnull a ha)
    rw [List.filter_map, hsame]
    rfl

private theorem get?_mapFragments_eq_some {key : String} (hkey : entries.get? key = some v) :
    (mapFragments f entries).get? key = some (mapHeld f key v) := by
  rw [get?_mapFragments, hkey]
  rfl

theorem get?_mapFragments_eq_none {key : String} (hkey : entries.get? key = none) :
    (mapFragments f entries).get? key = none := by
  rw [get?_mapFragments, hkey]
  rfl

theorem get?_mapFragments_of_nothing {key : String} (h : holding key = .nothing) :
    (mapFragments f entries).get? key = entries.get? key := by
  rw [get?_mapFragments]
  cases entries.get? key with
  | none => rfl
  | some v => rw [Option.map_some, mapHeld_of_nothing h]

private theorem onlyPart_mapFragments
    (h : ∀ parts, entries.get? "allOf" = some parts → onlyPart parts = .ok none) :
    ∀ parts, (mapFragments f entries).get? "allOf" = some parts → onlyPart parts = .ok none := by
  intro _ hkey
  rw [get?_mapFragments] at hkey
  obtain ⟨parts, hparts, rfl⟩ := Option.map_eq_some_iff.1 hkey
  exact onlyPart_mapHeld (h parts hparts)

theorem StandsFor.mapFragments_none (h : StandsFor defs entries none) :
    StandsFor defs' (mapFragments f entries) none := by
  cases h with
  | itself hown hparts hbranches =>
      exact .itself (get?_mapFragments_eq_none hown) (onlyPart_mapFragments hparts)
        (get?_mapFragments_eq_none hbranches)

theorem StandsFor.mapFragments_some (h : StandsFor defs entries (some (.dict inner)))
    (hown : entries.get? "$ref" = none)
    (hbranches : ∀ branches, entries.get? "anyOf" = some branches →
      nonNull branches = .ok [.dict inner] →
        nonNull (mapHeld f "anyOf" branches) = .ok [f (.dict inner)]) :
    StandsFor defs' (mapFragments f entries) (some (f (.dict inner))) := by
  have hown' := get?_mapFragments_eq_none (f := f) hown
  cases h with
  | reference hkey _ =>
      rw [hown] at hkey
      cases hkey
  | part _ hkey honly =>
      refine .part hown' (get?_mapFragments_eq_some hkey) ?_
      rcases onlyPart_dict honly with rfl | rfl
      · rfl
      · rfl
  | branch _ hparts hkey honly =>
      exact .branch hown' (onlyPart_mapFragments hparts) (get?_mapFragments_eq_some hkey)
        (hbranches _ hkey honly)

end

/-! ## Descriptions -/

def describe (description : Option Value) (node : Value) : Value :=
  match description, node with
  | some d, .dict entries =>
    if Entries.contains entries "description" then node
    else .dict (entries ++ [("description", d)])
  | _, _ => node

section

variable {defs : Value} {entries entries' : Entries}

theorem maps_of_get? (h : ∀ key ∈ readKeys, entries'.get? key = entries.get? key) :
    Maps id entries entries' := by
  intro key hkey
  rw [h key hkey]
  cases entries.get? key with
  | none => rfl
  | some v => rw [Option.map_some, mapHeld_id]

theorem maps_append (entries : Entries) {more : Entries} (hmore : ∀ e ∈ more, e.1 ∉ readKeys) :
    Maps id entries (entries ++ more) := by
  refine maps_of_get? fun key hkey => ?_
  have hnone : more.get? key = none := get?_eq_none fun k hk => hmore _ hk hkey
  rw [get?_append, hnone, Option.or_none]

theorem maps_description (entries : Entries) (d : Value) :
    Maps id entries (entries ++ [("description", d)]) :=
  maps_append entries (List.forall_mem_singleton.2 (by decide : "description" ∉ readKeys))

theorem maps_describe (description : Option Value) (entries : Entries) :
    ∃ entries', describe description (.dict entries) = .dict entries' ∧
      Maps id entries entries' := by
  have hsame : Maps id entries entries := maps_of_get? fun _ _ => rfl
  cases description with
  | none => exact ⟨entries, rfl, hsame⟩
  | some d =>
      unfold describe
      dsimp only
      split
      · exact ⟨entries, rfl, hsame⟩
      · exact ⟨_, rfl, maps_description entries d⟩

theorem Maps.standsFor (h : Maps id entries entries') {next : Option Value}
    (hnext : StandsFor defs entries next) : StandsFor defs entries' next := by
  rw [← standsFor_eq_ok_iff] at hnext ⊢
  unfold ChatPipeline.Schema.standsFor partOf branchOf at hnext ⊢
  rwa [h.get?_eq (by decide), h.get?_eq (by decide), h.get?_eq (by decide)]

/-- What a fragment is read as depends on what is read of it and on the description it is shown
with. -/
theorem Maps.convertWithin (h : Maps id entries entries') {depth : Nat} {outer outer' : Value}
    (hshown : entryOr entries' "description" outer' = entryOr entries "description" outer)
    {p : Param} (hp : convertWithin defs (depth + 1) outer (.dict entries) = .ok p) :
    ChatPipeline.Schema.convertWithin defs (depth + 1) outer' (.dict entries') = .ok p := by
  rw [convertWithin_eq_ok_iff] at hp ⊢
  rw [hshown]
  rcases hp with ⟨next, hnext, hp⟩ | ⟨hnone, hreads⟩
  · exact .inl ⟨next, h.standsFor hnext, hp⟩
  · exact .inr ⟨h.standsFor hnone, hreads.maps h (fun _ _ _ => id) fun _ => id⟩

theorem convertWithin_describe {depth : Nat} {description : Option Value} {outer node : Value}
    {p : Param} (h : convertWithin defs depth (description.getD outer) node = .ok p) :
    convertWithin defs depth outer (describe description node) = .ok p := by
  rcases description with _ | d
  · exact h
  cases depth with
  | zero => cases h
  | succ depth =>
      obtain ⟨entries, rfl⟩ := eq_dict_of_convertWithin h
      unfold describe
      dsimp only
      split
      case isTrue hown =>
        have hsame : entryOr entries "description" outer = entryOr entries "description" d := by
          obtain ⟨own, hown⟩ := Option.isSome_iff_exists.1 hown
          rw [entryOr, entryOr, hown]
          rfl
        rw [convertWithin_dict, hsame, ← convertWithin_dict]
        exact h
      case isFalse hown =>
        rw [Entries.contains, Bool.not_eq_true, Option.isSome_eq_false_iff, Option.isNone_iff_eq_none]
          at hown
        refine (maps_description entries d).convertWithin ?_ h
        rw [entryOr, entryOr, get?_append, hown]
        rfl

end

end ChatPipeline.Schema
