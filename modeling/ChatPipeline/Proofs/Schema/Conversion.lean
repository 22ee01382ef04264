import ChatPipeline.Proofs.Checking
import ChatPipeline.Proofs.Value.Access
import ChatPipeline.Schema.Convert

/-!
# What a conversion comes to

A fragment that is converted either passes on to one other fragment (`StandsFor`), by a reference, a
single part or the only alternative besides null, or it stands for itself and is read as one of the
three kinds of parameters (`Reads`).
-/

namespace ChatPipeline

theorem Param.toSchemas_eq_map (properties : List (String × Param)) :
    toSchemas properties = properties.map fun e => (e.1, e.2.toSchema) := by
  induction properties with
  | nil => rfl
  | cons e properties ih => rw [toSchemas, ih, List.map_cons]

theorem PrimitiveType.name_ne (type : PrimitiveType) :
    ∀ s ∈ ["array", "object", "null"], type.name ≠ s := by
  cases type <;> decide

def Param.typeName : Param → String
  | .primitive _ type _ => type.name
  | .array .. => "array"
  | .object .. => "object"

theorem Param.typeName_ne_null (p : Param) : p.typeName ≠ "null" := by
  cases p with
  | primitive description type choices => exact type.name_ne _ (by decide)
  | array description items => exact (by decide : "array" ≠ "null")
  | object description properties required => exact (by decide : "object" ≠ "null")

namespace Schema

open Validation

variable {defs : Value} {entries : Entries}

/-! ## Passing on -/

theorem onlyPart_list {parts : List Value} {next : Value}
    (h : onlyPart (.list parts) = .ok (some next)) : parts = [next] := by
  obtain ⟨n, hn, h⟩ := Outcome.bind_eq_ok.1 h
  cases hn
  split at h
  case isTrue hlength =>
    obtain ⟨only, rfl⟩ := List.length_eq_one_iff.1 hlength
    obtain ⟨_, hfound, hnext⟩ := Outcome.bind_eq_ok.1 h
    cases hfound
    cases hnext
    rfl
  case isFalse => cases h

theorem onlyPart_dict {parts : Value} {inner : Entries}
    (h : onlyPart parts = .ok (some (.dict inner))) :
    parts = .list [.dict inner] ∨ parts = .tuple [.dict inner] := by
  obtain ⟨n, hn, h⟩ := Outcome.bind_eq_ok.1 h
  split at h
  case isFalse => cases h
  case isTrue hlength =>
    obtain ⟨only, hfound, heq⟩ := Outcome.bind_eq_ok.1 h
    cases heq
    obtain ⟨items, hparts, hitem⟩ := Value.element_eq_dict hfound
    have hsingle : items = [.dict inner] := by
      rcases hparts with rfl | rfl <;> cases hn <;>
        obtain ⟨only, rfl⟩ := List.length_eq_one_iff.1 hlength <;> cases hitem <;> rfl
    exact hparts.imp (hsingle ▸ ·) (hsingle ▸ ·)

def typesNull (v : Value) : Bool :=
  match v with
  | .dict inner => match Entries.get? inner "type" with
    | some (.text "null") => true
    | _ => false
  | _ => false

theorem typesNull_eq_true_iff {v : Value} : typesNull v = true ↔
    ∃ inner : Entries, v = .dict inner ∧ inner.get? "type" = some (.text "null") := by
  unfold typesNull
  split
  case h_1 inner =>
    split
    case h_1 hnull => exact ⟨fun _ => ⟨inner, rfl, hnull⟩, fun _ => rfl⟩
    case h_2 hother =>
      refine ⟨nofun, ?_⟩
      rintro ⟨_, ⟨⟩, hnull⟩
      exact absurd hnull hother
  case h_2 hother =>
    refine ⟨nofun, ?_⟩
    rintro ⟨inner, rfl, -⟩
    exact absurd rfl (hother inner)

private theorem isKept_eq_ok_iff {a : Value} {b : Bool} :
    (fragmentEntries a >>= fun entries => pure (match entries.get? "type" with
      | some (.text "null") => false
      | _ => true)) = Except.ok b ↔ (∃ inner, a = .dict inner) ∧ b = !typesNull a := by
  cases a with
  | dict inner =>
      have hkept : (match Entries.get? inner "type" with
          | some (.text "null") => false
          | _ => true) = !typesNull (.dict inner) := by
        unfold typesNull
        dsimp only
        split <;> rfl
      constructor
      · intro h
        cases h
        exact ⟨⟨inner, rfl⟩, hkept⟩
      · rintro ⟨-, rfl⟩
        exact congrArg Except.ok hkept
  | _ =>
      constructor
      · nofun
      · rintro ⟨⟨inner, heq⟩, -⟩
        cases heq

theorem nonNull_eq_ok_iff {v : Value} {kept : List Value} :
    nonNull v = .ok kept ↔ ∃ alternatives, v.iterate = .ok alternatives ∧
      (∀ a ∈ alternatives, ∃ inner, a = .dict inner) ∧
      (alternatives.filter fun a => !typesNull a) = kept := by
  refine Outcome.bind_eq_ok.trans (exists_congr fun alternatives => and_congr_right fun _ => ?_)
  refine (Outcome.filterM_eq_ok_iff fun a _ b h => (isKept_eq_ok_iff.1 h).2).trans ?_
  refine and_congr_left fun _ => forall_congr' fun a => forall_congr' fun _ => ?_
  exact isKept_eq_ok_iff.trans (and_iff_left rfl)

theorem nonNull_list {branches kept : List Value} (h : nonNull (.list branches) = .ok kept) :
    (∀ branch ∈ kept, branch ∈ branches) ∧ ∀ branch ∈ branches, branch ∈ kept ∨
      ∃ inner : Entries, branch = .dict inner ∧ inner.get? "type" = some (.text "null") := by
  obtain ⟨_, ⟨⟩, -, rfl⟩ := nonNull_eq_ok_iff.1 h
  refine ⟨fun branch hbranch => (List.mem_filter.1 hbranch).1, fun branch hbranch => ?_⟩
  cases hnull : typesNull branch with
  | true => exact .inr (typesNull_eq_true_iff.1 hnull)
  | false => exact .inl (List.mem_filter.2 ⟨hbranch, by rw [hnull]; rfl⟩)

theorem referenceName_append {name : String} (h : '/' ∉ name.toList) :
    referenceName ("#/$defs/" ++ name) = name := by
  have hall : ∀ c ∈ name.toList.reverse, (c != '/') = true := by
    intro c hc
    rw [List.mem_reverse] at hc
    simp only [bne_iff_ne, ne_eq]
    rintro rfl
    exact h hc
  have hprefix : "#/$defs/".toList.reverse.takeWhile (· != '/') = [] := by decide
  rw [referenceName, String.toList_append, List.reverse_append,
    List.takeWhile_append_of_pos hall, hprefix, List.append_nil, List.reverse_reverse,
    String.ofList_toList]

theorem entry_eq_ok_iff {name : String} {node : Value} : defs.entry name = .ok node ↔
    ∃ definitions, defs = .dict definitions ∧ Entries.get? definitions name = some node := by
  constructor
  · intro h
    unfold Value.entry at h
    split at h
    case h_1 definitions =>
      split at h
      case h_1 found hfound =>
        cases h
        exact ⟨definitions, rfl, hfound⟩
      case h_2 => cases h
    case h_5 => split at h <;> cases h
    all_goals cases h
  · rintro ⟨definitions, rfl, hfound⟩
    simp only [Value.entry, hfound]

theorem followReference_eq_ok_iff {target next : Value} : followReference defs target = .ok next ↔
    ∃ s, target.text? = some s ∧ defs.entry (referenceName s) = .ok next := by
  unfold followReference
  cases target.text? with
  | none =>
      refine ⟨nofun, ?_⟩
      rintro ⟨_, ⟨⟩, -⟩
  | some s =>
      constructor
      · exact fun h => ⟨s, rfl, h⟩
      · rintro ⟨_, ⟨⟩, h⟩
        exact h

theorem followReference_append {name : String} (h : '/' ∉ name.toList) (defs : Value) :
    followReference defs (.text ("#/$defs/" ++ name)) = defs.entry name := by
  change defs.entry (referenceName ("#/$defs/" ++ name)) = defs.entry name
  rw [referenceName_append h]

/-! ## Reading -/

def textFragment : Value := .dict [("type", .text "string")]

theorem get?_ne_none {entries : Entries} {key : String} {k : Value} (h : (key, k) ∈ entries) :
    entries.get? key ≠ none := by
  have hsome := (Table.lookup_isSome_iff entries key).2 (List.mem_map.2 ⟨_, h, rfl⟩)
  exact Option.isSome_iff_ne_none.1 hsome

theorem get?_eq_none {entries : Entries} {key : String} (h : ∀ k, (key, k) ∉ entries) :
    entries.get? key = none := by
  cases hkey : entries.get? key with
  | none => rfl
  | some k => exact absurd (Table.mem_of_lookup hkey) (h k)

theorem get?_eq_some_of_unique {entries : Entries} {key : String} {v : Value}
    (h : (key, v) ∈ entries) (hunique : ∀ w, (key, w) ∈ entries → w = v) :
    entries.get? key = some v := by
  obtain ⟨w, hw⟩ := Option.ne_none_iff_exists'.1 (get?_ne_none h)
  rw [hw, hunique w (Table.mem_of_lookup hw)]

theorem get?_append (entries more : Entries) (key : String) :
    Entries.get? (entries ++ more) key = (entries.get? key).or (more.get? key) :=
  List.lookup_append

theorem entryOr_cases (entries : Entries) (key : String) (default : Value) :
    entries.get? key = none ∧ entryOr entries key default = default ∨
      entries.get? key = some (entryOr entries key default) := by
  unfold entryOr
  cases entries.get? key with
  | none => exact .inl ⟨rfl, rfl⟩
  | some k => exact .inr rfl

theorem get?_properties {entries parts : Entries}
    (hproperties : entryOr entries "properties" (.dict []) = .dict parts) {name : String}
    {node : Value} (hnode : (name, node) ∈ parts) :
    entries.get? "properties" = some (.dict parts) := by
  rcases entryOr_cases entries "properties" (.dict []) with ⟨-, heq⟩ | hkey
  · rw [heq] at hproperties
    cases hproperties
    cases hnode
  · rw [hkey, hproperties]

theorem PrimitiveType.name_of_ofName? {s : String} {type : PrimitiveType}
    (h : PrimitiveType.ofName? s = some type) : type.name = s := by
  have hname := List.find?_some h
  exact eq_of_beq hname

inductive Reads (step : Value → Outcome Param) (entries : Entries) (shown : Value) : Param → Prop where
  | object (htype : fragmentType entries = .text "object")
      (hproperties : entryOr entries "properties" (.dict []) = .dict parts)
      (hparts : convertEach step parts = .ok properties)
      (hneeded : Value.iterate (entryOr entries "required" (.list [])) = .ok needed)
      (hnames : checkItems checkText needed = .ok names)
      (hshown : checkedDescription shown = .ok description) :
      Reads step entries shown (.object description properties names)
  | array (htype : fragmentType entries = .text "array")
      (hitems : step (entryOr entries "items" (.dict [("type", .text "string")])) = .ok items)
      (hshown : checkedDescription shown = .ok description) :
      Reads step entries shown (.array description items)
  | primitive (htype : (fragmentType entries).text? = some (PrimitiveType.name type))
      (hchoices : Param.checkChoices (entryOr entries "enum" .none) = .ok choices)
      (hshown : checkedDescription shown = .ok description) :
      Reads step entries shown (.primitive description type choices)

theorem Reads.typeName_eq {step : Value → Outcome Param} {shown : Value} {p : Param} {type : String}
    (h : Reads step entries shown p) (htype : entries.get? "type" = some (.text type)) :
    p.typeName = type := by
  have hown : fragmentType entries = .text type := by
    unfold fragmentType
    rw [htype]
  cases h with
  | object htype =>
      rw [hown] at htype
      exact (Value.text.inj htype).symm
  | array htype =>
      rw [hown] at htype
      exact (Value.text.inj htype).symm
  | primitive htype =>
      rw [hown] at htype
      exact (Option.some.inj htype).symm

theorem exists_of_mem_convertEach {step : Value → Outcome Param} {parts : Entries}
    {properties : List (String × Param)} (h : convertEach step parts = .ok properties)
    {name : String} {p : Param} (hmem : (name, p) ∈ properties) :
    ∃ node, (name, node) ∈ parts ∧ step node = .ok p := by
  induction parts generalizing properties with
  | nil =>
      cases h
      cases hmem
  | cons part parts ih =>
      obtain ⟨q, hq, h⟩ := Outcome.bind_eq_ok.1 h
      obtain ⟨rest, hrest, h⟩ := Outcome.bind_eq_ok.1 h
      cases h
      rcases List.mem_cons.1 hmem with heq | hmem
      · cases heq
        exact ⟨part.2, List.mem_cons_self, hq⟩
      · obtain ⟨node, hnode, hstep⟩ := ih hrest hmem
        exact ⟨node, List.mem_cons_of_mem _ hnode, hstep⟩

private theorem primitiveOf_eq_ok_iff {type : PrimitiveType} {shown choices : Value} {p : Param} :
    primitiveOf type shown choices = .ok p ↔ ∃ description vs,
      checkedDescription shown = .ok description ∧ Param.checkChoices choices = .ok vs ∧
        .primitive description type vs = p := by
  unfold primitiveOf
  simp only [Checked.toOutcome_eq_ok, Checked.seq_eq_ok, Checked.map_eq_ok, Checked.under_eq_ok]
  constructor
  · rintro ⟨_, vs, ⟨description, hshown, rfl⟩, hchoices, rfl⟩
    exact ⟨description, vs, hshown, hchoices, rfl⟩
  · rintro ⟨description, vs, hshown, hchoices, rfl⟩
    exact ⟨_, vs, ⟨description, hshown, rfl⟩, hchoices, rfl⟩

private theorem arrayOf_eq_ok_iff {shown : Value} {items p : Param} :
    arrayOf shown items = .ok p ↔
      ∃ description, checkedDescription shown = .ok description ∧ .array description items = p := by
  unfold arrayOf
  rw [Checked.toOutcome_eq_ok, Checked.map_eq_ok]

private theorem objectOf_eq_ok_iff {shown : Value} {properties : List (String × Param)}
    {needed : List Value} {p : Param} :
    objectOf shown properties needed = .ok p ↔ ∃ description names,
      checkedDescription shown = .ok description ∧ checkItems checkText needed = .ok names ∧
        .object description properties names = p := by
  unfold objectOf
  simp only [Checked.toOutcome_eq_ok, Checked.seq_eq_ok, Checked.map_eq_ok, Checked.under_eq_ok]
  constructor
  · rintro ⟨_, names, ⟨description, hshown, rfl⟩, hnames, rfl⟩
    exact ⟨description, names, hshown, hnames, rfl⟩
  · rintro ⟨description, names, hshown, hnames, rfl⟩
    exact ⟨_, names, ⟨description, hshown, rfl⟩, hnames, rfl⟩

theorem Reads.of_convertTyped {step : Value → Outcome Param} {shown : Value} {p : Param}
    (h : convertTyped step entries shown = .ok p) : Reads step entries shown p := by
  unfold convertTyped at h
  split at h
  next htype =>
    split at h
    next parts hparts =>
      obtain ⟨_, ⟨⟩, h⟩ := Outcome.bind_eq_ok.1 h
      obtain ⟨properties, hproperties, h⟩ := Outcome.bind_eq_ok.1 h
      obtain ⟨needed, hneeded, h⟩ := Outcome.bind_eq_ok.1 h
      obtain ⟨description, names, hshown, hnames, rfl⟩ := objectOf_eq_ok_iff.1 h
      exact .object htype hparts hproperties hneeded hnames hshown
    next => cases h
  next htype =>
    obtain ⟨items, hitems, h⟩ := Outcome.bind_eq_ok.1 h
    obtain ⟨description, hshown, rfl⟩ := arrayOf_eq_ok_iff.1 h
    exact .array htype hitems hshown
  next => cases h
  next => cases h
  next => cases h
  next =>
    split at h
    case h_1 type htype =>
      obtain ⟨s, hs, hname⟩ := Option.bind_eq_some_iff.1 htype
      obtain ⟨description, choices, hshown, hchoices, rfl⟩ := primitiveOf_eq_ok_iff.1 h
      refine .primitive ?_ hchoices hshown
      rw [hs, PrimitiveType.name_of_ofName? hname]
    case h_2 => cases h

theorem Reads.convertTyped_eq {step : Value → Outcome Param} {shown : Value} {p : Param}
    (h : Reads step entries shown p) : convertTyped step entries shown = .ok p := by
  unfold convertTyped
  cases h with
  | object htype hproperties hparts hneeded hnames hshown =>
      simp only [htype, hproperties]
      exact Outcome.bind_eq_ok.2 ⟨_, rfl, Outcome.bind_eq_ok.2 ⟨_, hparts, Outcome.bind_eq_ok.2
        ⟨_, hneeded, objectOf_eq_ok_iff.2 ⟨_, _, hshown, hnames, rfl⟩⟩⟩⟩
  | array htype hitems hshown =>
      simp only [htype]
      exact Outcome.bind_eq_ok.2 ⟨_, hitems, arrayOf_eq_ok_iff.2 ⟨_, hshown, rfl⟩⟩
  | @primitive type choices description htype hchoices hshown =>
      have hprimitive : primitiveOf type shown (entryOr entries "enum" .none) =
          .ok (.primitive description type choices) :=
        primitiveOf_eq_ok_iff.2 ⟨_, _, hshown, hchoices, rfl⟩
      have hother : ∀ s : String, s ≠ type.name → fragmentType entries ≠ .text s := by
        intro s hs htext
        rw [htext] at htype
        exact hs (Option.some.inj htype)
      -- a text that names a primitive type names no container
      split
      case h_1 hobject => exact absurd hobject (hother _ (type.name_ne _ (by decide)).symm)
      case h_2 harray => exact absurd harray (hother _ (type.name_ne _ (by decide)).symm)
      case h_3 hlist => rw [hlist] at htype; cases htype
      case h_4 hdict => rw [hdict] at htype; cases htype
      case h_5 hset => rw [hset] at htype; cases htype
      case h_6 => simpa [htype] using hprimitive

private theorem convertTyped_eq_ok_iff {step : Value → Outcome Param} {shown : Value} {p : Param} :
    convertTyped step entries shown = .ok p ↔ Reads step entries shown p :=
  ⟨.of_convertTyped, Reads.convertTyped_eq⟩

/-! ## One step -/

def partOf (entries : Entries) : Outcome (Option Value) :=
  match entries.get? "allOf" with
  | some parts => onlyPart parts
  | none => .ok none

def branchOf (entries : Entries) : Outcome (Option Value) :=
  match entries.get? "anyOf" with
  | some alternatives => nonNull alternatives >>= fun kept =>
    match kept with
    | [only] => .ok (some only)
    | _ => .error (unsupportedUnion alternatives)
  | none => .ok none

/-- The fragment that a fragment stands for, none where it stands for itself. -/
def standsFor (defs : Value) (entries : Entries) : Outcome (Option Value) :=
  match entries.get? "$ref" with
  | some target => (followReference defs target).map some
  | none => partOf entries >>= fun part =>
    match part with
    | some only => .ok (some only)
    | none => branchOf entries

/-- How a fragment comes to stand for another one or for itself. -/
inductive StandsFor (defs : Value) (entries : Entries) : Option Value → Prop where
  | reference (hkey : entries.get? "$ref" = some target)
      (hnext : followReference defs target = .ok next) : StandsFor defs entries (some next)
  | part (hown : entries.get? "$ref" = none) (hkey : entries.get? "allOf" = some parts)
      (honly : onlyPart parts = .ok (some next)) : StandsFor defs entries (some next)
  | branch (hown : entries.get? "$ref" = none)
      (hparts : ∀ parts, entries.get? "allOf" = some parts → onlyPart parts = .ok none)
      (hkey : entries.get? "anyOf" = some branches) (honly : nonNull branches = .ok [next]) :
      StandsFor defs entries (some next)
  | itself (hown : entries.get? "$ref" = none)
      (hparts : ∀ parts, entries.get? "allOf" = some parts → onlyPart parts = .ok none)
      (hbranches : entries.get? "anyOf" = none) : StandsFor defs entries none

private theorem partOf_eq_none_iff : partOf entries = .ok none ↔
    ∀ parts, entries.get? "allOf" = some parts → onlyPart parts = .ok none := by
  unfold partOf
  cases entries.get? "allOf" with
  | none => exact ⟨fun _ _ => nofun, fun _ => rfl⟩
  | some parts => exact ⟨fun h _ heq => Option.some.inj heq ▸ h, fun h => h parts rfl⟩

private theorem partOf_eq_some_iff {next : Value} : partOf entries = .ok (some next) ↔
    ∃ parts, entries.get? "allOf" = some parts ∧ onlyPart parts = .ok (some next) := by
  unfold partOf
  cases entries.get? "allOf" with
  | none =>
      refine ⟨nofun, ?_⟩
      rintro ⟨_, ⟨⟩, -⟩
  | some parts => exact ⟨fun h => ⟨parts, rfl, h⟩, fun ⟨_, heq, h⟩ => Option.some.inj heq ▸ h⟩

private theorem branchOf_eq_none_iff :
    branchOf entries = .ok none ↔ entries.get? "anyOf" = none := by
  unfold branchOf
  cases entries.get? "anyOf" with
  | none => exact ⟨fun _ => rfl, fun _ => rfl⟩
  | some branches =>
      refine ⟨fun h => ?_, nofun⟩
      obtain ⟨kept, -, h⟩ := Outcome.bind_eq_ok.1 h
      split at h <;> cases h

private theorem branchOf_eq_some_iff {next : Value} : branchOf entries = .ok (some next) ↔
    ∃ branches, entries.get? "anyOf" = some branches ∧ nonNull branches = .ok [next] := by
  unfold branchOf
  cases entries.get? "anyOf" with
  | none =>
      refine ⟨nofun, ?_⟩
      rintro ⟨_, ⟨⟩, -⟩
  | some branches =>
      constructor
      · intro h
        obtain ⟨kept, hkept, h⟩ := Outcome.bind_eq_ok.1 h
        split at h <;> cases h
        exact ⟨branches, rfl, hkept⟩
      · rintro ⟨_, ⟨⟩, hkept⟩
        exact Outcome.bind_eq_ok.2 ⟨_, hkept, rfl⟩

theorem standsFor_eq_ok_iff {next : Option Value} :
    standsFor defs entries = .ok next ↔ StandsFor defs entries next := by
  unfold standsFor
  constructor
  · intro h
    split at h
    case h_1 target hkey =>
      obtain ⟨_, hnext, rfl⟩ := Outcome.map_eq_ok.1 h
      exact .reference hkey hnext
    case h_2 hown =>
      obtain ⟨_ | only, hpart, h⟩ := Outcome.bind_eq_ok.1 h
      · have hparts := partOf_eq_none_iff.1 hpart
        cases next with
        | none => exact .itself hown hparts (branchOf_eq_none_iff.1 h)
        | some next =>
            obtain ⟨branches, hkey, honly⟩ := branchOf_eq_some_iff.1 h
            exact .branch hown hparts hkey honly
      · cases h
        obtain ⟨parts, hkey, honly⟩ := partOf_eq_some_iff.1 hpart
        exact .part hown hkey honly
  · intro h
    cases h with
    | reference hkey hnext => rw [hkey]; exact Outcome.map_eq_ok.2 ⟨_, hnext, rfl⟩
    | part hown hkey honly =>
        rw [hown]
        exact Outcome.bind_eq_ok.2 ⟨_, partOf_eq_some_iff.2 ⟨_, hkey, honly⟩, rfl⟩
    | branch hown hparts hkey honly =>
        rw [hown]
        exact Outcome.bind_eq_ok.2 ⟨_, partOf_eq_none_iff.2 hparts,
          branchOf_eq_some_iff.2 ⟨_, hkey, honly⟩⟩
    | itself hown hparts hbranches =>
        rw [hown]
        exact Outcome.bind_eq_ok.2 ⟨_, partOf_eq_none_iff.2 hparts, branchOf_eq_none_iff.2 hbranches⟩

theorem StandsFor.unique {a b : Option Value} (ha : StandsFor defs entries a)
    (hb : StandsFor defs entries b) : a = b := by
  rw [← standsFor_eq_ok_iff] at ha hb
  rw [ha] at hb
  exact Except.ok.inj hb

private theorem branchOf_bind (entries : Entries) (k : Option Value → Outcome α) :
    branchOf entries >>= k = match entries.get? "anyOf" with
      | some alternatives => nonNull alternatives >>= fun kept =>
        match kept with
        | [only] => k (some only)
        | _ => throw (unsupportedUnion alternatives)
      | none => k none := by
  unfold branchOf
  cases entries.get? "anyOf" with
  | none => rfl
  | some alternatives =>
      dsimp only
      rcases nonNull alternatives with f | _ | ⟨only, _ | ⟨second, rest⟩⟩ <;> rfl

theorem convertWithin_dict (defs : Value) (depth : Nat) (outer : Value) (entries : Entries) :
    convertWithin defs (depth + 1) outer (.dict entries) = standsFor defs entries >>= fun next =>
      match next with
      | some node => convertWithin defs depth (entryOr entries "description" outer) node
      | none =>
        convertTyped (convertWithin defs depth .none) entries
          (entryOr entries "description" outer) := by
  have hfinish := branchOf_bind entries fun next =>
    match next with
    | some node => convertWithin defs depth (entryOr entries "description" outer) node
    | none => convertTyped (convertWithin defs depth .none) entries
        (entryOr entries "description" outer)
  unfold standsFor partOf
  cases href : entries.get? "$ref" with
  | some target =>
      cases htarget : followReference defs target <;>
        simp [convertWithin, fragmentEntries, href, htarget, bind, Except.bind, Except.map]
  | none =>
      cases hparts : entries.get? "allOf" with
      | none =>
          simp only [convertWithin, fragmentEntries, href, hparts, bind, Except.bind]
          exact hfinish.symm
      | some parts =>
          rcases honly : onlyPart parts with f | _ | only
          · simp [convertWithin, fragmentEntries, href, hparts, honly, bind, Except.bind]
          · simp only [convertWithin, fragmentEntries, href, hparts, honly, bind, Except.bind]
            exact hfinish.symm
          · simp [convertWithin, fragmentEntries, href, hparts, honly, bind, Except.bind]

theorem eq_dict_of_convertWithin {depth : Nat} {outer node : Value} {p : Param}
    (h : convertWithin defs depth outer node = .ok p) : ∃ entries, node = .dict entries := by
  cases depth with
  | zero => cases h
  | succ depth =>
      obtain ⟨entries, hentries, -⟩ := Outcome.bind_eq_ok.1 h
      unfold fragmentEntries at hentries
      split at hentries
      · exact ⟨_, rfl⟩
      · cases hentries

theorem convertWithin_eq_ok_iff {depth : Nat} {outer : Value} {p : Param} :
    convertWithin defs (depth + 1) outer (.dict entries) = .ok p ↔
      (∃ node, StandsFor defs entries (some node) ∧
        convertWithin defs depth (entryOr entries "description" outer) node = .ok p) ∨
      StandsFor defs entries none ∧
        Reads (convertWithin defs depth .none) entries (entryOr entries "description" outer) p := by
  rw [convertWithin_dict, Outcome.bind_eq_ok]
  simp only [standsFor_eq_ok_iff]
  constructor
  · rintro ⟨node | _, hnext, h⟩
    · exact .inr ⟨hnext, convertTyped_eq_ok_iff.1 h⟩
    · exact .inl ⟨_, hnext, h⟩
  · rintro (⟨node, hnext, h⟩ | ⟨hnext, h⟩)
    · exact ⟨some node, hnext, h⟩
    · exact ⟨none, hnext, h.convertTyped_eq⟩

def passingKeys : List String := ["$ref", "allOf", "anyOf"]

theorem reads_of_get? {depth : Nat} {outer : Value} {p : Param}
    (hnone : ∀ key ∈ passingKeys, entries.get? key = none)
    (h : convertWithin defs (depth + 1) outer (.dict entries) = .ok p) :
    Reads (convertWithin defs depth .none) entries (entryOr entries "description" outer) p := by
  have hitself : StandsFor defs entries none := by
    refine .itself (hnone _ (by decide)) (fun parts hparts => ?_) (hnone _ (by decide))
    rw [hnone _ (by decide)] at hparts
    cases hparts
  rcases convertWithin_eq_ok_iff.1 h with ⟨next, hnext, -⟩ | ⟨-, hreads⟩
  · cases hnext.unique hitself
  · exact hreads

theorem passes_or_reads {depth : Nat} {outer node : Value} {p : Param}
    (h : convertWithin defs (depth + 1) outer node = .ok p) :
    ∃ entries, node = .dict entries ∧
      ((∃ next description, StandsFor defs entries (some next) ∧
        convertWithin defs depth description next = .ok p) ∨
      Reads (convertWithin defs depth .none) entries (entryOr entries "description" outer) p) := by
  obtain ⟨entries, rfl⟩ := eq_dict_of_convertWithin h
  refine ⟨entries, rfl, ?_⟩
  rcases convertWithin_eq_ok_iff.1 h with ⟨next, hnext, h⟩ | ⟨-, h⟩
  · exact .inl ⟨next, _, hnext, h⟩
  · exact .inr h

end Schema

end ChatPipeline
