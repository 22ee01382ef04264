import ChatPipeline.Proofs.Schema.Acceptance
import ChatPipeline.Proofs.Schema.Conversion

/-!
# Weakening by conversion

The parameters read from a JSON schema accept everything without null that the schema accepts, as
long as nothing is filled in that refuses more than what it stands for.  Two things are filled in:
the type of an enumeration that has none, and the items of an array that has none.
-/

namespace ChatPipeline

namespace Schema

open Validation

/-! ## Fragments inside a fragment -/

inductive Leads (defs : Value) (entries : Entries) : Value → Prop where
  | reference (hkey : entries.get? "$ref" = some target)
      (htarget : followReference defs target = .ok node) : Leads defs entries node
  | part (hkey : entries.get? "allOf" = some (.list parts)) (hpart : node ∈ parts) :
      Leads defs entries node
  | branch (hkey : entries.get? "anyOf" = some (.list branches)) (hbranch : node ∈ branches) :
      Leads defs entries node
  | property (hkey : entries.get? "properties" = some (.dict parts))
      (hpart : (name, node) ∈ parts) : Leads defs entries node
  | item (hkey : entries.get? "items" = some node) : Leads defs entries node

inductive Inside (defs : Value) : Value → Entries → Prop where
  | here : Inside defs (.dict entries) entries
  | further (h : Leads defs entries node) (hinside : Inside defs node reached) :
      Inside defs (.dict entries) reached

/-- What is filled in where a fragment says nothing refuses none of the data that the fragment
accepts. -/
structure Fillable (defs : Value) (entries : Entries) : Prop where
  type : entries.get? "type" = none → entries.contains "enum" = true →
    ∀ v, NullFree v → Fragment.Accepts defs (.dict entries) v → HasType "string" v
  items : entries.get? "type" = some (.text "array") → ∀ items, NullFree (.list items) →
    Fragment.Accepts defs (.dict entries) (.list items) →
    ∀ w ∈ items, Fragment.Accepts defs (entryOr entries "items" textFragment) w

/-! ## What an accepted fragment passes on -/

namespace Fragment

variable {defs v node : Value} {entries : Entries}

theorem Accepts.reference (h : Accepts defs (.dict entries) v) {target : Value}
    (hkey : entries.get? "$ref" = some target) (htarget : followReference defs target = .ok node) :
    Accepts defs node v := by
  intro depth
  obtain ⟨name, node', htext, hname, hentry, hv⟩ := h.condition hkey depth
  rw [followReference, htext] at htarget
  simp only [referenceName_append hname, hentry] at htarget
  cases htarget
  exact hv

theorem Accepts.part (h : Accepts defs (.dict entries) v) {parts : List Value}
    (hkey : entries.get? "allOf" = some (.list parts)) (hpart : node ∈ parts) :
    Accepts defs node v := by
  intro depth
  obtain ⟨_, ⟨⟩, hparts⟩ := h.condition hkey depth
  exact hparts node hpart

theorem Accepts.branch (h : Accepts defs (.dict entries) v) {branches : List Value}
    (hkey : entries.get? "anyOf" = some (.list branches))
    (honly : nonNull (.list branches) = .ok [node]) (hv : v ≠ .none) : Accepts defs node v := by
  rintro (_ | depth)
  · trivial
  obtain ⟨_, ⟨⟩, branch, hbranch, haccepts⟩ := h.condition hkey (depth + 1)
  rcases (nonNull_list honly).2 branch hbranch with hkept | ⟨inner, rfl, hnull⟩
  · rw [← List.mem_singleton.1 hkept]
    exact haccepts
  · -- Only null is accepted by an alternative that was not kept.
    obtain ⟨_, ⟨⟩, htype⟩ := haccepts ("type", .text "null") (Table.mem_of_lookup hnull)
    exact absurd htype hv

theorem Accepts.property {members : Entries} (h : Accepts defs (.dict entries) (.dict members))
    {parts : Entries} (hkey : entries.get? "properties" = some (.dict parts)) {name : String}
    (hpart : (name, node) ∈ parts) {w : Value} (hw : members.get? name = some w) :
    Accepts defs node w := by
  intro depth
  obtain ⟨_, ⟨⟩, hparts⟩ := h.condition hkey depth
  exact hparts members rfl _ hpart w hw

theorem Accepts.needs {members : Entries} (h : Accepts defs (.dict entries) (.dict members))
    {needed : List Value} (hkey : entries.get? "required" = some (.list needed)) :
    ∀ key ∈ needed, ∃ name, key.text? = some name ∧ members.contains name = true := by
  obtain ⟨_, ⟨⟩, hneeded⟩ := h.condition hkey 0
  exact hneeded members rfl

theorem Accepts.item {items : List Value} (h : Accepts defs (.dict entries) (.list items))
    (hkey : entries.get? "items" = some node) (hown : entries.get? "prefixItems" = none) {w : Value}
    (hw : w ∈ items) : Accepts defs node w := by
  intro depth
  have hrest := h.condition hkey depth items rfl
  rw [prefixLength, hown] at hrest
  exact hrest w hw

theorem Accepts.ownItem {items parts : List Value} (h : Accepts defs (.dict entries) (.list items))
    (hkey : ("prefixItems", .list parts) ∈ entries)
    (hmost : ("maxItems", .int parts.length) ∈ entries) {w : Value} (hw : w ∈ items) :
    ∃ part ∈ parts, Accepts defs part w := by
  obtain ⟨_, ⟨⟩, hlength⟩ := accepts_dict.1 h _ hmost 0 items rfl
  obtain ⟨i, hi, rfl⟩ := List.getElem_of_mem hw
  have hpart : i < parts.length := by omega
  have hzip : i < (parts.zip items).length := by
    rw [List.length_zip]
    omega
  have hpair := List.getElem_mem hzip
  rw [List.getElem_zip] at hpair
  refine ⟨parts[i], List.getElem_mem hpart, fun depth => ?_⟩
  obtain ⟨_, ⟨⟩, howned⟩ := accepts_dict.1 h _ hkey depth
  exact howned items rfl _ hpair

theorem Accepts.isChoice (h : Accepts defs (.dict entries) v) {choices : List Value}
    (hkey : entries.get? "enum" = some (.list choices)) :
    ∃ choice ∈ choices, sameData choice v = true := by
  obtain ⟨_, ⟨⟩, hchoice⟩ := h.condition hkey 0
  exact hchoice

end Fragment

theorem StandsFor.leads_and_accepts {defs v next : Value} {entries : Entries}
    (h : StandsFor defs entries (some next)) (hv : NullFree v)
    (ha : Fragment.Accepts defs (.dict entries) v) :
    Leads defs entries next ∧ Fragment.Accepts defs next v := by
  cases h with
  | reference hkey hnext => exact ⟨.reference hkey hnext, ha.reference hkey hnext⟩
  | part _ hkey honly =>
      obtain ⟨parts, rfl, -⟩ := ha.condition hkey 0
      have hpart : next ∈ parts := onlyPart_list honly ▸ List.mem_singleton_self next
      exact ⟨.part hkey hpart, ha.part hkey hpart⟩
  | branch _ _ hkey honly =>
      obtain ⟨branches, rfl, -⟩ := ha.condition hkey 0
      have hbranch := (nonNull_list honly).1 next (List.mem_singleton_self next)
      exact ⟨.branch hkey hbranch, ha.branch hkey honly hv.ne_none⟩

/-! ## What accepts a parameter's data -/

section

variable {defs v : Value} {description : Option String}

private theorem condition_descriptionEntry {accepts : Value → Value → Prop} {entries : Entries}
    {e : String × Value} (he : e ∈ Param.descriptionEntry description) :
    Condition accepts defs entries v e.1 e.2 := by
  unfold Param.descriptionEntry at he
  split at he
  · split at he
    · cases he
    · rw [List.mem_singleton.1 he]
      trivial
  · cases he

private theorem accepts_primitive {type : PrimitiveType} {choices : Option (List Value)}
    (htype : HasType type.name v)
    (hchoices : ∀ vs, choices = some vs → ∃ choice ∈ vs, sameData choice v = true) :
    Fragment.Accepts defs (Param.primitive description type choices).toSchema v := by
  refine Fragment.accepts_of_conditions fun e he => ?_
  rcases List.mem_cons.1 he with rfl | he
  · exact ⟨type.name, rfl, htype⟩
  rcases List.mem_append.1 he with he | he
  · exact condition_descriptionEntry he
  · unfold Param.choicesEntry at he
    split at he
    · split at he
      · cases he
      · rw [List.mem_singleton.1 he]
        exact ⟨_, rfl, hchoices _ rfl⟩
    · cases he

private theorem accepts_array {items : Param} {vs : List Value}
    (hitems : ∀ w ∈ vs, Fragment.Accepts defs items.toSchema w) :
    Fragment.Accepts defs (Param.array description items).toSchema (.list vs) := by
  refine Fragment.accepts_of_conditions fun e he => ?_
  rcases List.mem_append.1 he with he | he
  · simp only [List.mem_cons, List.not_mem_nil, or_false] at he
    rcases he with rfl | rfl
    · exact ⟨"array", rfl, vs, rfl⟩
    · rintro _ ⟨⟩ w hw
      exact hitems w (List.mem_of_mem_drop hw)
  · exact condition_descriptionEntry he

private theorem accepts_object {properties : List (String × Param)} {names : List String}
    {members : Entries}
    (hparts : ∀ name p, (name, p) ∈ properties → ∀ w, members.get? name = some w →
      Fragment.Accepts defs p.toSchema w)
    (hnames : ∀ name ∈ names, members.contains name = true) :
    Fragment.Accepts defs (Param.object description properties names).toSchema (.dict members) := by
  refine Fragment.accepts_of_conditions fun e he => ?_
  rcases List.mem_append.1 he with he | he
  rcases List.mem_append.1 he with he | he
  · simp only [List.mem_cons, List.not_mem_nil, or_false] at he
    rcases he with rfl | rfl
    · exact ⟨"object", rfl, members, rfl⟩
    · refine ⟨_, rfl, ?_⟩
      rintro _ ⟨⟩ part hpart w hw
      rw [Param.toSchemas_eq_map, List.mem_map] at hpart
      obtain ⟨⟨name, p⟩, hmem, rfl⟩ := hpart
      exact hparts name p hmem w hw
  · unfold Param.requiredEntry at he
    split at he
    · cases he
    · rw [List.mem_singleton.1 he]
      refine ⟨_, rfl, ?_⟩
      rintro _ ⟨⟩ key hkey
      obtain ⟨name, hname, rfl⟩ := List.mem_map.1 hkey
      exact ⟨name, rfl, hnames name hname⟩
  · exact condition_descriptionEntry he

end

/-! ## Conversion -/

theorem get?_type_of_fragmentType {entries : Entries} {type : String}
    (h : fragmentType entries = .text type) (hother : type ≠ "string") :
    entries.get? "type" = some (.text type) := by
  unfold fragmentType at h
  split at h
  case h_3 t hkey => rw [hkey, h]
  all_goals
    split at h
    · cases h
      exact absurd rfl hother
    · cases h

private theorem fillable_of_inside_textFragment {defs : Value} {entries : Entries}
    (h : Inside defs textFragment entries) : Fillable defs entries := by
  cases h with
  | here =>
      exact ⟨fun hkey => by simp [Entries.get?] at hkey,
        fun hkey => by simp [Entries.get?] at hkey⟩
  | further hleads _ => rcases hleads with hkey | hkey | hkey | hkey | hkey <;> cases hkey

section

variable {defs defs' v : Value} {entries : Entries} {step : Value → Outcome Param}

private theorem hasType_of_fragmentType (hfill : Fillable defs entries) (hv : NullFree v)
    (ha : Fragment.Accepts defs (.dict entries) v) {type : String}
    (htype : (fragmentType entries).text? = some type) : HasType type v := by
  unfold fragmentType at htype
  split at htype
  case h_1 hkey =>
    obtain ⟨_, ⟨⟩, -⟩ := ha.condition hkey 0
  case h_2 hkey =>
    split at htype
    case isTrue henum =>
      cases htype
      exact hfill.type hkey henum v hv ha
    case isFalse => cases htype
  case h_3 t hkey =>
    obtain ⟨own, hown, h⟩ := ha.condition hkey 0
    rw [hown] at htype
    cases htype
    exact h

private theorem contains_of_checked {members : Entries}
    (ha : Fragment.Accepts defs (.dict entries) (.dict members)) {needed : List Value}
    (hneeded : Value.iterate (entryOr entries "required" (.list [])) = .ok needed)
    {names : List String} (hnames : checkItems checkText needed = .ok names) :
    ∀ name ∈ names, members.contains name = true := by
  intro name hname
  obtain ⟨key, hkey, htext⟩ := exists_of_mem_checkItems hnames hname
  rcases entryOr_cases entries "required" (.list []) with ⟨-, heq⟩ | hrequired
  · rw [heq] at hneeded
    cases hneeded
    cases hkey
  · obtain ⟨own, hown, -⟩ := ha.condition hrequired 0
    rw [hown] at hneeded hrequired
    cases hneeded
    obtain ⟨name', hname', hcontains⟩ := ha.needs hrequired key hkey
    rw [checkText_eq_ok_of_text? hname' htext]
    exact hcontains

private theorem isChoice_of_checked (ha : Fragment.Accepts defs (.dict entries) v)
    {choices : List Value}
    (hchoices : Param.checkChoices (entryOr entries "enum" .none) = .ok (some choices)) :
    ∃ choice ∈ choices, sameData choice v = true := by
  rcases entryOr_cases entries "enum" .none with ⟨-, heq⟩ | hkey
  · rw [heq] at hchoices
    cases hchoices
  · obtain ⟨own, hown, -⟩ := ha.condition hkey 0
    rw [hown] at hchoices hkey
    cases hchoices
    exact ha.isChoice hkey

/-- What is read from a fragment accepts what the fragment accepts, if that holds for the fragments
inside it. -/
theorem Reads.weakens {shown : Value} {p : Param} (h : Reads step entries shown p)
    (hfill : Fillable defs entries)
    (hstep : ∀ node, Leads defs entries node ∨ node = textFragment → ∀ q, step node = .ok q →
      ∀ w, NullFree w → Fragment.Accepts defs node w → Fragment.Accepts defs' q.toSchema w)
    (hv : NullFree v) (ha : Fragment.Accepts defs (.dict entries) v) :
    Fragment.Accepts defs' p.toSchema v := by
  cases h with
  | object htype hproperties hparts hneeded hnames _ =>
      obtain ⟨members, rfl⟩ := ha.hasType (get?_type_of_fragmentType htype (by decide))
      cases hv with | dict hmembers
      refine accepts_object (fun name p hp w hw => ?_) (contains_of_checked ha hneeded hnames)
      obtain ⟨node, hnode, hstepped⟩ := exists_of_mem_convertEach hparts hp
      have hkey := get?_properties hproperties hnode
      exact hstep node (.inl (.property hkey hnode)) p hstepped w
        (hmembers _ (Table.mem_of_lookup hw)) (ha.property hkey hnode hw)
  | array htype hitems _ =>
      have htype := get?_type_of_fragmentType htype (by decide)
      obtain ⟨items, rfl⟩ := ha.hasType htype
      refine accepts_array fun w hw => ?_
      have haccepts := hfill.items htype items hv ha w hw
      have hleads : Leads defs entries (entryOr entries "items" textFragment) ∨
          entryOr entries "items" textFragment = textFragment :=
        (entryOr_cases entries "items" textFragment).symm.imp .item And.right
      cases hv with | list hvs
      exact hstep _ hleads _ hitems w (hvs w hw) haccepts
  | primitive htype hchoices _ =>
      refine accepts_primitive (hasType_of_fragmentType hfill hv ha htype) ?_
      rintro choices rfl
      exact isChoice_of_checked ha hchoices

private theorem convertWithin_weakens {depth : Nat} {outer node : Value} {p : Param}
    (h : convertWithin defs depth outer node = .ok p)
    (hfill : ∀ entries, Inside defs node entries → Fillable defs entries) (hv : NullFree v)
    (ha : Fragment.Accepts defs node v) : Fragment.Accepts defs' p.toSchema v := by
  -- Each fragment passes its data on to fragments inside it, which are converted at a lower depth.
  induction depth generalizing outer node p v with
  | zero => cases h
  | succ depth ih =>
      obtain ⟨entries, rfl, ⟨next, description, hnext, h⟩ | hreads⟩ := passes_or_reads h
      · obtain ⟨hleads, ha⟩ := hnext.leads_and_accepts hv ha
        exact ih h (fun inner hinner => hfill inner (.further hleads hinner)) hv ha
      · refine hreads.weakens (hfill entries .here) ?_ hv ha
        rintro node (hleads | rfl) q hq w hw haccepts
        · exact ih hq (fun inner hinner => hfill inner (.further hleads hinner)) hw haccepts
        · exact ih hq (fun _ => fillable_of_inside_textFragment) hw haccepts

end

theorem accepts_of_toParameters {name : String} {schema : Entries} {o : ObjectParam}
    (h : toParameters name schema = .ok o)
    (hfill : ∀ entries, Inside (ownDefinitions (.dict schema)) (.dict schema) entries →
      Fillable (ownDefinitions (.dict schema)) entries)
    {v : Value} (hv : NullFree v) (ha : Accepts (.dict schema) v) :
    Accepts o.toParam.toSchema v := by
  obtain ⟨p, hp, h⟩ := Outcome.bind_eq_ok.1 h
  cases p with
  | object description properties required =>
      cases h
      exact convertWithin_weakens hp hfill hv ha
  | _ => cases h

end Schema

end ChatPipeline
