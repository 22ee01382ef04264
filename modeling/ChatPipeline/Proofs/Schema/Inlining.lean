import ChatPipeline.Proofs.Schema.Mapping
import ChatPipeline.Proofs.Schema.References

/-!
# References replaced by their targets

A schema in which each reference is replaced by what it refers to describes the same parameters
(`convert_inlined`).  A reference passes its description on, and so does the fragment in its place,
unless it has one of its own.  What a reference in an `anyOf` refers to is left out there once it
stands in the place of the reference, if it has the type of null, and a conversion can depend on
this only where such a definition passes on to another fragment (`NullsEnd`).
-/

namespace ChatPipeline.Schema

open Validation

/-! ## Inlining -/

/-- Every reference inside a fragment is replaced by its target. -/
inductive Inlines (defs : Value) : Value → Value → Prop where
  | reference {entries : Entries} (hkey : entries.get? "$ref" = some target)
      (hnext : followReference defs target = .ok next) (h : Inlines defs next inlined) :
      Inlines defs (.dict entries) (describe (entries.get? "description") inlined)
  | fragment {entries : Entries} (hown : entries.get? "$ref" = none) (f : Value → Value)
      (h : ∀ node, Encloses entries node → Inlines defs node (f node)) :
      Inlines defs (.dict entries) (.dict (mapFragments f entries))
  | other (h : ∀ entries, node ≠ .dict entries) : Inlines defs node node

inductive Within (defs root : Value) : Value → Prop where
  | schema (h : Contains root node) : Within defs root node
  | definition (hentry : defs.entry name = .ok target) (h : Contains target node) :
      Within defs root node

/-- Each reference names a definition and carries nothing but annotations, and no definition refers
to itself. -/
structure SoundReferences (defs root : Value) : Prop where
  named {entries : Entries} : Within defs root (.dict entries) →
    entries.get? "$ref" = some target → ∃ next, followReference defs target = .ok next
  bare {entries : Entries} : Within defs root (.dict entries) → entries.contains "$ref" = true →
    ∀ e ∈ entries, e.1 ∈ ["$ref", "description", "title", "default"]
  acyclic : Acyclic defs

section

variable {defs root node next : Value} {entries inner : Entries}

theorem Within.of_encloses (h : Within defs root (.dict entries)) (hnext : Encloses entries next) :
    Within defs root next := by
  cases h with
  | schema h => exact .schema (h.of_encloses rfl hnext)
  | definition hentry h => exact .definition hentry (h.of_encloses rfl hnext)

theorem Within.of_reference {target : Value} (hnext : followReference defs target = .ok next) :
    Within defs root next := by
  obtain ⟨s, -, hentry⟩ := followReference_eq_ok_iff.1 hnext
  exact .definition hentry (.here next)

theorem SoundReferences.exists_inlines (hsound : SoundReferences defs root)
    (h : Within defs root node) : ∃ node', Inlines defs node node' := by
  induction hahead : ahead defs node using Nat.strongRecOn generalizing node with
  | _ n ih =>
      subst hahead
      by_cases hdict : ∃ entries : Entries, node = .dict entries
      · obtain ⟨entries, rfl⟩ := hdict
        cases hkey : entries.get? "$ref" with
        | some target =>
            obtain ⟨next, hnext⟩ := hsound.named h hkey
            obtain ⟨next', hnext'⟩ := ih _ (ahead_lt_of_reference hsound.acyclic hkey hnext)
              (.of_reference hnext) rfl
            exact ⟨_, .reference hkey hnext hnext'⟩
        | none =>
            have hinside : ∀ node, ∃ node', Encloses entries node → Inlines defs node node' := by
              intro node
              by_cases hnode : Encloses entries node
              · have hless : ahead defs node < ahead defs (.dict entries) :=
                  ahead_lt_of_encloses hnode
                obtain ⟨node', hnode'⟩ := ih _ hless (h.of_encloses hnode) rfl
                exact ⟨node', fun _ => hnode'⟩
              · exact ⟨node, fun henclosed => absurd henclosed hnode⟩
            obtain ⟨f, hf⟩ := Classical.axiomOfChoice hinside
            exact ⟨_, .fragment hkey f hf⟩
      · exact ⟨node, .other (not_exists.1 hdict)⟩

end

/-! ## Alternatives -/

inductive EndsAt (defs : Value) : Value → Entries → Prop where
  | here {entries : Entries} (hown : entries.get? "$ref" = none) :
      EndsAt defs (.dict entries) entries
  | further {entries : Entries} (hkey : entries.get? "$ref" = some target)
      (hnext : followReference defs target = .ok next) (h : EndsAt defs next reached) :
      EndsAt defs (.dict entries) reached

/-- Where a reference is an alternative and ends at a definition of the type of null, the definition
does not pass on to another fragment, by its only part or its only alternative. -/
def NullsEnd (defs root : Value) : Prop :=
  ∀ entries : Entries, Within defs root (.dict entries) →
    ∀ branches, entries.get? "anyOf" = some branches →
      ∀ inner : Entries, .dict inner ∈ held "anyOf" branches → inner.contains "$ref" = true →
        ∀ reached, EndsAt defs (.dict inner) reached → reached.get? "type" = some (.text "null") →
          ∀ next, ¬ StandsFor defs reached (some next)

section

variable {defs node node' : Value} {entries reached : Entries}

/-- What is put in the place of a fragment that can be converted has the type of the fragment at the
end of the references. -/
theorem Inlines.ends (h : Inlines defs node node') {depth : Nat} {outer : Value} {p : Param}
    (hconv : convertWithin defs depth outer node = .ok p) :
    ∃ reached inner : Entries, EndsAt defs node reached ∧ node' = .dict inner ∧
      inner.get? "type" = reached.get? "type" ∧
      ∃ depth outer, convertWithin defs depth outer (.dict reached) = .ok p := by
  induction h generalizing depth outer with
  | @reference _ _ _ entries hkey hnext _ ih =>
      cases depth with
      | zero => cases hconv
      | succ depth =>
          have hstands : StandsFor defs entries _ := .reference hkey hnext
          rcases convertWithin_eq_ok_iff.1 hconv with ⟨next, hother, hconv⟩ | ⟨hother, -⟩
          · cases hother.unique hstands
            obtain ⟨reached, inner, hends, rfl, htype, hreached⟩ := ih hconv
            obtain ⟨inner', hinner', hmaps⟩ := maps_describe (entries.get? "description") inner
            exact ⟨reached, inner', .further hkey hnext hends, hinner',
              (hmaps.get?_eq (by decide)).trans htype, hreached⟩
          · cases hother.unique hstands
  | @fragment entries hown f _ _ =>
      exact ⟨entries, _, .here hown, rfl, get?_mapFragments_of_nothing (by decide), depth, outer,
        hconv⟩
  | other h =>
      obtain ⟨entries, rfl⟩ := eq_dict_of_convertWithin hconv
      exact absurd rfl (h entries)

private theorem type_ne_null_of_convertWithin {depth : Nat} {outer : Value} {p : Param}
    (hconv : convertWithin defs depth outer (.dict reached) = .ok p)
    (hends : reached.get? "type" = some (.text "null") →
      ∀ next, ¬ StandsFor defs reached (some next)) :
    reached.get? "type" ≠ some (.text "null") := by
  intro hnull
  cases depth with
  | zero => cases hconv
  | succ depth =>
      rcases convertWithin_eq_ok_iff.1 hconv with ⟨next, hnext, -⟩ | ⟨-, hreads⟩
      · exact hends hnull next hnext
      · exact p.typeName_ne_null (hreads.typeName_eq hnull)

/-! ## Conversion -/

variable {root : Value} {inner : Entries}

private theorem typesNull_congr {entries' : Entries}
    (h : entries'.get? "type" = entries.get? "type") :
    typesNull (.dict entries') = typesNull (.dict entries) := by
  unfold typesNull
  dsimp only
  rw [h]

private theorem typesNull_eq_false (h : inner.get? "type" ≠ some (.text "null")) :
    typesNull (.dict inner) = false := by
  rw [← Bool.not_eq_true, typesNull_eq_true_iff]
  rintro ⟨_, ⟨⟩, hnull⟩
  exact h hnull

theorem SoundReferences.type_eq_none (hsound : SoundReferences defs root)
    (h : Within defs root (.dict inner)) (href : inner.contains "$ref" = true) :
    inner.get? "type" = none := by
  cases htype : inner.get? "type" with
  | none => rfl
  | some type =>
      have hkey := hsound.bare h href _ (Table.mem_of_lookup htype)
      simp at hkey

theorem Inlines.of_own {own : Entries} (h : Inlines defs (.dict own) node')
    (hown : own.get? "$ref" = none) :
    ∃ replaced, node' = .dict replaced ∧ typesNull (.dict replaced) = typesNull (.dict own) := by
  cases h with
  | reference hkey =>
      rw [hown] at hkey
      cases hkey
  | fragment _ g _ => exact ⟨_, rfl, typesNull_congr (get?_mapFragments_of_nothing (by decide))⟩
  | other h => exact absurd rfl (h own)

theorem Inlines.of_reference (h : Inlines defs (.dict inner) node') {depth : Nat} {outer : Value}
    {p : Param} (hconv : convertWithin defs depth outer (.dict inner) = .ok p)
    (hnulls : ∀ reached, EndsAt defs (.dict inner) reached →
      reached.get? "type" = some (.text "null") → ∀ next, ¬ StandsFor defs reached (some next)) :
    ∃ replaced, node' = .dict replaced ∧ typesNull (.dict replaced) = false := by
  obtain ⟨reached, replaced, hends, rfl, htype, _, _, hreached⟩ := h.ends hconv
  have hother := type_ne_null_of_convertWithin hreached (hnulls reached hends)
  exact ⟨replaced, rfl, typesNull_eq_false (htype ▸ hother)⟩

theorem SoundReferences.nonNull_inlines (hsound : SoundReferences defs root)
    (hnulls : NullsEnd defs root) (hwithin : Within defs root (.dict entries)) {branches : Value}
    (hkey : entries.get? "anyOf" = some branches) (honly : nonNull branches = .ok [.dict inner])
    {depth : Nat} {outer : Value} {p : Param}
    (hconv : convertWithin defs depth outer (.dict inner) = .ok p) {f : Value → Value}
    (hf : ∀ node, Encloses entries node → Inlines defs node (f node)) :
    nonNull (mapHeld f "anyOf" branches) = .ok [f (.dict inner)] := by
  obtain ⟨-, hdict, hkept⟩ := alternatives_of_nonNull honly
  have hreplaced : ∀ a ∈ held "anyOf" branches,
      ∃ replaced, f a = .dict replaced ∧ typesNull (.dict replaced) = typesNull a := by
    intro a ha
    obtain ⟨own, rfl⟩ := hdict a ha
    have hencloses : Encloses entries (.dict own) := .of_get? hkey ha
    have hin := hf _ hencloses
    cases href : Entries.get? own "$ref" with
    | none => exact hin.of_own href
    | some target =>
        -- a reference has no type, so it is the one that is kept
        have hcontains : Entries.contains own "$ref" = true :=
          Option.isSome_iff_exists.2 ⟨target, href⟩
        have htype := hsound.type_eq_none (hwithin.of_encloses hencloses) hcontains
        have hnull : typesNull (.dict own) = false := typesNull_eq_false (by rw [htype]; nofun)
        have hmem : .dict own ∈ (held "anyOf" branches).filter fun a => !typesNull a :=
          List.mem_filter.2 ⟨ha, by rw [hnull]; rfl⟩
        rw [hkept, List.mem_singleton] at hmem
        cases hmem
        rw [hnull]
        exact hin.of_reference hconv (hnulls entries hwithin branches hkey _ ha hcontains)
  refine nonNull_mapHeld honly (fun a ha => ?_) fun a ha => ?_
  · obtain ⟨replaced, heq, -⟩ := hreplaced a ha
    exact ⟨replaced, heq⟩
  · obtain ⟨replaced, heq, hsame⟩ := hreplaced a ha
    rw [heq, hsame]

private theorem convertWithin_inlines (hsound : SoundReferences defs root)
    (hnulls : NullsEnd defs root)
    (defs' : Value) {depth : Nat} {outer : Value} {p : Param} (hwithin : Within defs root node)
    (hin : Inlines defs node node') (h : convertWithin defs depth outer node = .ok p) :
    convertWithin defs' depth outer node' = .ok p := by
  -- The fragments inside, and the targets of references, are converted at a lower depth.
  induction depth generalizing outer node node' p with
  | zero => cases h
  | succ depth ih =>
      cases hin with
      | reference hkey hnext hin =>
          have hstands : StandsFor defs _ _ := .reference hkey hnext
          rcases convertWithin_eq_ok_iff.1 h with ⟨next, hother, h⟩ | ⟨hother, -⟩
          · cases hother.unique hstands
            have hinlined := ih (.of_reference hnext) hin h
            exact convertWithin_describe (convertWithin_eq_ok_of_le (Nat.le_succ depth) hinlined)
          · cases hother.unique hstands
      | @fragment entries hown f hf =>
          have hshown : entryOr (mapFragments f entries) "description" outer =
              entryOr entries "description" outer := by
            unfold entryOr
            rw [get?_mapFragments_of_nothing (by decide)]
          rw [convertWithin_eq_ok_iff, hshown]
          rcases convertWithin_eq_ok_iff.1 h with ⟨next, hnext, h⟩ | ⟨hitself, hreads⟩
          · obtain ⟨inner, rfl⟩ := eq_dict_of_convertWithin h
            have hencloses : Encloses entries (.dict inner) := by
              refine hnext.follows_or_encloses.resolve_left ?_
              rintro ⟨target, hkey, -⟩
              rw [hown] at hkey
              cases hkey
            have hnext' : StandsFor defs' (mapFragments f entries) (some (f (.dict inner))) :=
              hnext.mapFragments_some hown fun branches hkey honly =>
                hsound.nonNull_inlines hnulls hwithin hkey honly h hf
            exact .inl ⟨_, hnext', ih (hwithin.of_encloses hencloses) (hf _ hencloses) h⟩
          · refine .inr ⟨hitself.mapFragments_none, ?_⟩
            have hmaps := maps_mapFragments f entries
            refine hreads.maps hmaps (fun node hnode q hq => ?_) fun q hq => ?_
            · exact ih (hwithin.of_encloses hnode) (hf node hnode) hq
            · cases depth with
              | zero => cases hq
              | succ depth =>
                  rw [convertWithin_textFragment] at hq ⊢
                  exact hq
      | other hother =>
          obtain ⟨entries, rfl⟩ := eq_dict_of_convertWithin h
          exact absurd rfl (hother entries)

end

/-! ## No references left -/

def ReferenceFree (node : Value) : Prop :=
  ∀ entries : Entries, Contains node (.dict entries) → entries.get? "$ref" = none

section

variable {defs node node' : Value} {entries : Entries}

private theorem referenceFree_dict : ReferenceFree (.dict entries) ↔
    entries.get? "$ref" = none ∧ ∀ node, Encloses entries node → ReferenceFree node := by
  constructor
  · intro h
    exact ⟨h entries (.here _), fun node hnode inner hinner => h inner (.further hnode hinner)⟩
  · rintro ⟨hown, hinside⟩ inner h
    cases h with
    | here => exact hown
    | further hnext h => exact hinside _ hnext inner h

private theorem referenceFree_of_ne_dict (h : ∀ entries, node ≠ .dict entries) :
    ReferenceFree node := by
  intro entries hinside
  cases hinside with
  | here => exact absurd rfl (h entries)
  | further => exact absurd rfl (h _)

theorem ReferenceFree.append_description (h : ReferenceFree (.dict entries)) (d : Value) :
    ReferenceFree (.dict (entries ++ [("description", d)])) := by
  obtain ⟨hown, hinside⟩ := referenceFree_dict.1 h
  refine referenceFree_dict.2 ⟨?_, ?_⟩
  · rw [(maps_description entries d).get?_eq (by decide), hown]
  · rintro node ⟨e, he, hnode⟩
    rcases List.mem_append.1 he with he | he
    · exact hinside node ⟨e, he, hnode⟩
    · obtain rfl := List.mem_singleton.1 he
      have hnothing : holding "description" = .nothing := by decide
      rw [held_of_nothing hnothing] at hnode
      cases hnode

theorem ReferenceFree.describe (h : ReferenceFree node) (description : Option Value) :
    ReferenceFree (describe description node) := by
  unfold ChatPipeline.Schema.describe
  split
  · split
    · exact h
    · exact h.append_description _
  · exact h

theorem Inlines.referenceFree (h : Inlines defs node node') : ReferenceFree node' := by
  induction h with
  | reference _ _ _ ih => exact ih.describe _
  | fragment hown f _ ih =>
      refine referenceFree_dict.2 ⟨get?_mapFragments_eq_none hown, fun node hnode => ?_⟩
      obtain ⟨inner, hinner, rfl⟩ := hnode.of_mapFragments
      exact ih inner hinner
  | other h => exact referenceFree_of_ne_dict h

private theorem ranked_depth (defs : Value) : Ranked defs ReferenceFree Param.depth where
  dict_pos _ := Nat.succ_pos _
  of_encloses h hnext := ⟨(referenceFree_dict.1 h).2 _ hnext, hnext.depth_lt⟩
  of_reference h hkey _ := by
    rw [(referenceFree_dict.1 h).1] at hkey
    cases hkey

theorem ReferenceFree.convert_settles (h : ReferenceFree node) (defs : Value) :
    Settles (convert defs node) :=
  convertWithin_settles (ranked_depth defs) _ h (depth_lt_stepBound defs node)

theorem ReferenceFree.inlines (h : ReferenceFree node) : Inlines defs node node := by
  induction hdepth : Param.depth node using Nat.strongRecOn generalizing node with
  | _ n ih =>
      subst hdepth
      by_cases hdict : ∃ entries : Entries, node = .dict entries
      · obtain ⟨entries, rfl⟩ := hdict
        obtain ⟨hown, hinside⟩ := referenceFree_dict.1 h
        have hsame : mapFragments id entries = entries := by
          unfold mapFragments
          simp only [mapHeld_id, List.map_id']
        have hin : Inlines defs (.dict entries) (.dict (mapFragments id entries)) :=
          .fragment hown id fun node hnode => ih _ hnode.depth_lt (hinside node hnode) rfl
        rwa [hsame] at hin
      · exact .other (not_exists.1 hdict)

end

/-! ## A schema with one reference -/

def optionally (target : Value) : Entries :=
  [("$defs", .dict [("Target", target)]), ("type", .text "object"),
    ("properties", .dict [("choice", .dict [("anyOf", .list [referTo "Target"])])])]

section

variable {target node : Value} {inner : Entries}

private theorem contains_referTo {name : String} (h : Contains (referTo name) (.dict inner)) :
    inner = [("$ref", .text ("#/$defs/" ++ name))] := by
  cases h with
  | here => rfl
  | further hnext _ =>
      obtain ⟨_, he, hnode⟩ := hnext
      obtain rfl := List.mem_singleton.1 he
      cases hnode

private theorem contains_optionally (h : Contains (.dict (optionally target)) (.dict inner)) :
    inner = optionally target ∨ Contains target (.dict inner) ∨
      inner = [("anyOf", .list [referTo "Target"])] ∨
        inner = [("$ref", .text ("#/$defs/" ++ "Target"))] := by
  cases h with
  | here => exact .inl rfl
  | further hnext h =>
      obtain ⟨_, he, hnode⟩ := hnext
      simp only [optionally, List.mem_cons, List.not_mem_nil, or_false] at he
      rcases he with rfl | rfl | rfl
      · obtain rfl := List.mem_singleton.1 hnode
        exact .inr (.inl h)
      · cases hnode
      · obtain rfl := List.mem_singleton.1 hnode
        cases h with
        | here => exact .inr (.inr (.inl rfl))
        | further hnext h =>
            obtain ⟨_, he, hnode⟩ := hnext
            obtain rfl := List.mem_singleton.1 he
            obtain rfl := List.mem_singleton.1 hnode
            exact .inr (.inr (.inr (contains_referTo h)))

private theorem acyclic_of_referenceFree {defs : Value} (h : ∀ e ∈ listed defs, ReferenceFree e.2) :
    Acyclic defs := by
  have hnone : ∀ a b, ¬ Refers defs a b := by
    rintro a _ ⟨hentry, hinside, hkey, -⟩
    rw [h _ (mem_listed hentry) _ hinside] at hkey
    cases hkey
  intro name hcycle
  obtain ⟨b, hb, -⟩ := Relation.TransGen.head'_iff.1 hcycle
  exact hnone name b hb

private theorem within_optionally (htarget : ReferenceFree target)
    (h : Within (.dict [("Target", target)]) (.dict (optionally target)) (.dict inner)) :
    inner.get? "$ref" = none ∨ inner = [("$ref", .text ("#/$defs/" ++ "Target"))] := by
  cases h with
  | schema h =>
      rcases contains_optionally h with rfl | h | rfl | rfl
      · exact .inl rfl
      · exact .inl (htarget inner h)
      · exact .inl rfl
      · exact .inr rfl
  | definition hentry h =>
      have hlisted := mem_listed hentry
      obtain ⟨-, rfl⟩ := Prod.mk.inj (List.mem_singleton.1 hlisted)
      exact .inl (htarget inner h)

private theorem sound_optionally (htarget : ReferenceFree target) :
    SoundReferences (.dict [("Target", target)]) (.dict (optionally target)) where
  named h hkey := by
    rcases within_optionally htarget h with hown | rfl
    · rw [hown] at hkey
      cases hkey
    · cases hkey
      exact ⟨target, followReference_append (by decide) _⟩
  bare h hcontains := by
    rcases within_optionally htarget h with hown | rfl
    · rw [Entries.contains, hown] at hcontains
      cases hcontains
    · simp
  acyclic := acyclic_of_referenceFree (List.forall_mem_singleton.2 htarget)

def annulled : Value := .dict [("type", .text "null"), ("allOf", .list [textFragment])]

def annul (v : Value) : Value :=
  match v with
  | .dict [("anyOf", _)] => .dict [("anyOf", .list [annulled])]
  | _ => v

private theorem referenceFree_textFragment : ReferenceFree textFragment := by
  refine referenceFree_dict.2 ⟨rfl, ?_⟩
  rintro node ⟨_, he, hnode⟩
  obtain rfl := List.mem_singleton.1 he
  cases hnode

private theorem referenceFree_annulled : ReferenceFree annulled := by
  refine referenceFree_dict.2 ⟨rfl, ?_⟩
  rintro node ⟨_, he, hnode⟩
  simp only [List.mem_cons, List.not_mem_nil, or_false] at he
  rcases he with rfl | rfl
  · cases hnode
  · obtain rfl := List.mem_singleton.1 hnode
    exact referenceFree_textFragment

private theorem convertWithin_optionally {p : Param} {depth : Nat}
    (h : convertWithin (.dict [("Target", target)]) depth .none target = .ok p) :
    convertWithin (.dict [("Target", target)]) (depth + 3) .none (.dict (optionally target)) =
      .ok (.object none [("choice", p)] []) := by
  have hnext : followReference (.dict [("Target", target)]) (.text ("#/$defs/" ++ "Target")) =
      .ok target := followReference_append (by decide) _
  have href : convertWithin (.dict [("Target", target)]) (depth + 1) .none (referTo "Target") =
      .ok p := convertWithin_eq_ok_iff.2 (.inl ⟨target, .reference rfl hnext, h⟩)
  have hchoice : convertWithin (.dict [("Target", target)]) (depth + 2) .none
      (.dict [("anyOf", .list [referTo "Target"])]) = .ok p :=
    convertWithin_eq_ok_iff.2 (.inl ⟨referTo "Target", .branch rfl nofun rfl rfl, href⟩)
  refine convertWithin_eq_ok_iff.2 (.inr ⟨.itself rfl nofun rfl, .object rfl rfl ?_ rfl rfl rfl⟩)
  exact Outcome.bind_eq_ok.2 ⟨p, hchoice, rfl⟩

private theorem inlines_choice (htarget : ReferenceFree target) :
    Inlines (.dict [("Target", target)]) (.dict [("anyOf", .list [referTo "Target"])])
      (.dict [("anyOf", .list [target])]) := by
  have hnext : followReference (.dict [("Target", target)]) (.text ("#/$defs/" ++ "Target")) =
      .ok target := followReference_append (by decide) _
  refine .fragment rfl (fun _ => target) ?_
  rintro node ⟨_, he, hnode⟩
  obtain rfl := List.mem_singleton.1 he
  obtain rfl := List.mem_singleton.1 hnode
  exact .reference rfl hnext htarget.inlines

private theorem nullsEnd_optionally {own : Entries} (htarget : ReferenceFree (.dict own))
    (htype : own.get? "type" ≠ some (.text "null")) :
    NullsEnd (.dict [("Target", .dict own)]) (.dict (optionally (.dict own))) := by
  intro entries hwithin branches hkey inner hinner hcontains reached hends hnull
  rcases within_optionally htarget (hwithin.of_encloses (.of_get? hkey hinner)) with hown | rfl
  · rw [Entries.contains, hown] at hcontains
    cases hcontains
  · cases hends with
    | here hown => cases hown
    | further hkey hnext hends =>
        cases hkey
        rw [followReference_append (by decide)] at hnext
        cases hnext
        cases hends with
        | here => exact absurd hnull htype
        | further hkey =>
            rw [htarget _ (.here _)] at hkey
            cases hkey

end

/-! ## Schemas with and without references -/

/-- Without cycles of references a conversion comes to an end, all references can be replaced by
what they refer to, and then the parameters are the same. -/
theorem convert_inlined {defs node : Value} (hsound : SoundReferences defs node) :
    (convert defs node ≠ .error endlessReference ∧ ∀ depth, stepBound defs node ≤ depth →
      convertWithin defs depth .none node = convert defs node) ∧
    (∃ node', Inlines defs node node') ∧
    (NullsEnd defs node → ∀ p, convert defs node = .ok p →
      ∀ node', Inlines defs node node' → ∀ defs', convert defs' node' = .ok p) := by
  have hroot : Within defs node node := .schema (.here node)
  have hends := (convert_settles hsound.acyclic node).ne
  refine ⟨⟨hends, fun depth hle => convertWithin_deepens defs hle .none node hends⟩,
    hsound.exists_inlines hroot, ?_⟩
  intro hnulls p h node' hin defs'
  have hinlined := convertWithin_inlines hsound hnulls defs' hroot hin h
  have hdeep := convertWithin_eq_ok_of_le (Nat.le_max_left _ (stepBound defs' node')) hinlined
  have hown := (hin.referenceFree.convert_settles defs').ne
  exact (convertWithin_deepens defs' (Nat.le_max_right _ _) .none node' hown).symm.trans hdeep

/-- A text that may be missing is converted as with its definition in the place of the reference. -/
theorem text_is_inlined :
    SoundReferences (.dict [("Target", textFragment)]) (.dict (optionally textFragment)) ∧
    NullsEnd (.dict [("Target", textFragment)]) (.dict (optionally textFragment)) ∧
    ∃ inlined, Inlines (.dict [("Target", textFragment)]) (.dict (optionally textFragment)) inlined ∧
      convert (.dict []) inlined = .ok (.object none [("choice", .primitive none .string none)] []) := by
  have hsound := sound_optionally referenceFree_textFragment
  have hnulls := nullsEnd_optionally referenceFree_textFragment fun h =>
    absurd (Value.text.inj (Option.some.inj h)) (by decide)
  have h : convertWithin (.dict [("Target", textFragment)]) 1 .none textFragment =
      .ok (.primitive none .string none) := rfl
  obtain ⟨-, ⟨inlined, hin⟩, hsame⟩ := convert_inlined hsound
  refine ⟨hsound, hnulls, inlined, hin, hsame hnulls _ ?_ inlined hin (.dict [])⟩
  exact convertWithin_eq_ok_of_le (by decide) (convertWithin_optionally h)

/-- The only alternative is a reference to a definition of the type of null, which is converted for
its part; in the place of the reference it is left out. -/
theorem annulled_is_left_out :
    SoundReferences (.dict [("Target", annulled)]) (.dict (optionally annulled)) ∧
    convert (.dict [("Target", annulled)]) (.dict (optionally annulled)) =
      .ok (.object none [("choice", .primitive none .string none)] []) ∧
    ∃ inlined, Inlines (.dict [("Target", annulled)]) (.dict (optionally annulled)) inlined ∧
      ∀ defs, convert defs inlined = .error (unsupportedUnion (.list [annulled])) := by
  refine ⟨sound_optionally referenceFree_annulled, ?_, ?_⟩
  · have h : convertWithin (.dict [("Target", annulled)]) 2 .none annulled =
        .ok (.primitive none .string none) := rfl
    exact convertWithin_eq_ok_of_le (by decide) (convertWithin_optionally h)
  · refine ⟨_, .fragment rfl annul ?_, fun defs => ?_⟩
    · rintro node ⟨_, he, hnode⟩
      simp only [optionally, List.mem_cons, List.not_mem_nil, or_false] at he
      rcases he with rfl | rfl | rfl
      · obtain rfl := List.mem_singleton.1 hnode
        exact referenceFree_annulled.inlines
      · cases hnode
      · obtain rfl := List.mem_singleton.1 hnode
        exact inlines_choice referenceFree_annulled
    · have h : convertWithin defs 3 .none (.dict (mapFragments annul (optionally annulled))) =
          .error (unsupportedUnion (.list [annulled])) := rfl
      have hne : convertWithin defs 3 .none (.dict (mapFragments annul (optionally annulled))) ≠
          .error endlessReference := by
        rw [h]
        nofun
      have hdeep : 3 ≤ Param.depth (.dict (mapFragments annul (optionally annulled))) := by decide
      have hbound := depth_lt_stepBound defs (.dict (mapFragments annul (optionally annulled)))
      have hle := Nat.le_trans hdeep (Nat.le_of_lt hbound)
      exact (convertWithin_deepens defs hle .none _ hne).trans h

end ChatPipeline.Schema
