import ChatPipeline.Proofs.Schema.Conversion
import ChatPipeline.Proofs.Schema.Keywords

/-!
# Parameters written and read

What parameters are written as is read as the same parameters, except that an empty description and
an empty list of choices, which are not written, are then missing.  Whatever a property is called,
its name stands where no keyword is looked for.
-/

namespace ChatPipeline

/-! ## Normal form -/

namespace Param

mutual

def pruned : Param → Param
  | .primitive description type choices =>
    .primitive (description.filter (!·.isEmpty)) type (choices.filter (!·.isEmpty))
  | .array description items => .array (description.filter (!·.isEmpty)) (pruned items)
  | .object description properties required =>
    .object (description.filter (!·.isEmpty)) (prunedEach properties) required

def prunedEach : List (String × Param) → List (String × Param)
  | [] => []
  | (k, p) :: rest => (k, pruned p) :: prunedEach rest

end

theorem descriptionEntry_eq (description : Option String) :
    descriptionEntry description =
      ((description.filter (!·.isEmpty)).map fun d => ("description", Value.text d)).toList := by
  rcases description with _ | d
  · rfl
  · rw [descriptionEntry, Option.filter_some]
    cases d.isEmpty <;> rfl

private theorem choicesEntry_eq (choices : Option (List Value)) :
    choicesEntry choices =
      ((choices.filter (!·.isEmpty)).map fun vs => ("enum", Value.list vs)).toList := by
  rcases choices with _ | vs
  · rfl
  · rw [choicesEntry, Option.filter_some]
    cases vs.isEmpty <;> rfl

theorem requiredEntry_cases (names : List String) :
    names = [] ∧ requiredEntry names = [] ∨
      requiredEntry names = [("required", .list (names.map .text))] := by
  cases names with
  | nil => exact .inl ⟨rfl, rfl⟩
  | cons name names => exact .inr rfl

mutual

private theorem toSchema_pruned : ∀ p : Param, p.pruned.toSchema = p.toSchema
  | .primitive description type choices => by
    simp only [pruned, toSchema, descriptionEntry_eq, choicesEntry_eq, Option.filter_filter,
      Bool.and_self]
  | .array description items => by
    simp only [pruned, toSchema, descriptionEntry_eq, Option.filter_filter, Bool.and_self,
      toSchema_pruned items]
  | .object description properties required => by
    simp only [pruned, toSchema, descriptionEntry_eq, Option.filter_filter, Bool.and_self,
      toSchemas_prunedEach properties]

private theorem toSchemas_prunedEach :
    ∀ properties : List (String × Param), toSchemas (prunedEach properties) = toSchemas properties
  | [] => rfl
  | (k, p) :: rest => by
    rw [prunedEach, toSchemas, toSchemas, toSchema_pruned p, toSchemas_prunedEach rest]

end

end Param

/-! ## Reading what was written -/

namespace Schema

open Validation

variable {defs : Value} {step : Value → Outcome Param}

theorem Reads.of_primitive (description : Option String) (type : PrimitiveType)
    (choices : Option (List Value)) :
    ∃ entries, (Param.primitive description type choices).toSchema = .dict entries ∧
      StandsFor defs entries none ∧
      Reads step entries (entryOr entries "description" .none)
        (Param.primitive description type choices).pruned := by
  refine ⟨_, rfl, ?_⟩
  rw [Param.pruned, Param.descriptionEntry_eq, Param.choicesEntry_eq]
  generalize description.filter (!·.isEmpty) = shown
  generalize choices.filter (!·.isEmpty) = kept
  cases shown <;> cases kept <;> exact ⟨.itself rfl nofun rfl, .primitive rfl rfl rfl⟩

theorem Reads.of_array (description : Option String) {items : Param}
    (hitems : step items.toSchema = .ok items.pruned) :
    ∃ entries, (Param.array description items).toSchema = .dict entries ∧
      StandsFor defs entries none ∧
      Reads step entries (entryOr entries "description" .none)
        (Param.array description items).pruned := by
  refine ⟨_, rfl, ?_⟩
  rw [Param.pruned, Param.descriptionEntry_eq]
  generalize description.filter (!·.isEmpty) = shown
  cases shown <;> exact ⟨.itself rfl nofun rfl, .array rfl hitems rfl⟩

theorem Reads.of_object (description : Option String) {properties : List (String × Param)}
    (required : List String)
    (hparts : convertEach step (Param.toSchemas properties) = .ok (Param.prunedEach properties)) :
    ∃ entries, (Param.object description properties required).toSchema = .dict entries ∧
      StandsFor defs entries none ∧
      Reads step entries (entryOr entries "description" .none)
        (Param.object description properties required).pruned := by
  have htext : ∀ name : String, checkText (.text name) = .ok name := fun _ => rfl
  have hnames : checkItems checkText (required.map .text) = .ok required :=
    checkItemsFrom_map htext required 0
  refine ⟨_, rfl, ?_⟩
  rw [Param.pruned, Param.descriptionEntry_eq]
  generalize description.filter (!·.isEmpty) = shown
  rcases Param.requiredEntry_cases required with ⟨rfl, hneeded⟩ | hneeded
  · rw [hneeded]
    cases shown <;> exact ⟨.itself rfl nofun rfl, .object rfl rfl hparts rfl rfl rfl⟩
  · rw [hneeded]
    cases shown <;> exact ⟨.itself rfl nofun rfl, .object rfl rfl hparts rfl hnames rfl⟩

private theorem depth_items_lt (description : Option String) (items : Param) :
    Param.depth items.toSchema < Param.depth (Param.array description items).toSchema := by
  have hentry : ("items", items.toSchema) ∈
      [("type", .text "array"), ("items", items.toSchema)] ++
        Param.descriptionEntry description :=
    List.mem_append_left _ (List.mem_cons_of_mem _ List.mem_cons_self)
  exact Encloses.depth_lt ⟨_, hentry, List.mem_singleton_self _⟩

private theorem depth_properties_lt (description : Option String)
    (properties : List (String × Param))
    (required : List String) : Param.depth (.dict (Param.toSchemas properties)) <
      Param.depth (Param.object description properties required).toSchema := by
  have hentry : ("properties", .dict (Param.toSchemas properties)) ∈
      [("type", .text "object"), ("properties", .dict (Param.toSchemas properties))] ++
        Param.requiredEntry required ++ Param.descriptionEntry description :=
    List.mem_append_left _ (List.mem_append_left _ (List.mem_cons_of_mem _ List.mem_cons_self))
  exact Nat.lt_succ_of_le (depth_le_depthEntries hentry)

mutual

/-- Nothing of what is around a parameter is read into it: below the description, what is converted
are the parameters written in it, each on its own. -/
theorem convertWithin_toSchema (p : Param) {depth : Nat} (h : Param.depth p.toSchema < depth) :
    convertWithin defs depth .none p.toSchema = .ok p.pruned := by
  obtain ⟨depth, rfl⟩ := Nat.exists_eq_succ_of_ne_zero (Nat.ne_zero_of_lt h)
  cases p with
  | primitive description type choices =>
      obtain ⟨entries, heq, hstands, hreads⟩ := Reads.of_primitive description type choices
      rw [heq]
      exact convertWithin_eq_ok_iff.2 (.inr ⟨hstands, hreads⟩)
  | array description items =>
      have hlt := depth_items_lt description items
      have hitems : convertWithin defs depth .none items.toSchema = .ok items.pruned :=
        convertWithin_toSchema items (by omega)
      obtain ⟨entries, heq, hstands, hreads⟩ := Reads.of_array description hitems
      rw [heq]
      exact convertWithin_eq_ok_iff.2 (.inr ⟨hstands, hreads⟩)
  | object description properties required =>
      have hlt := depth_properties_lt description properties required
      rw [Param.depth] at hlt
      have hparts : convertEach (convertWithin defs depth .none) (Param.toSchemas properties) =
          .ok (Param.prunedEach properties) :=
        convertEach_toSchemas properties (by omega)
      obtain ⟨entries, heq, hstands, hreads⟩ := Reads.of_object description required hparts
      rw [heq]
      exact convertWithin_eq_ok_iff.2 (.inr ⟨hstands, hreads⟩)

private theorem convertEach_toSchemas (properties : List (String × Param)) {depth : Nat}
    (h : Param.depthEntries (Param.toSchemas properties) < depth) :
    convertEach (convertWithin defs depth .none) (Param.toSchemas properties) =
      .ok (Param.prunedEach properties) := by
  cases properties with
  | nil => rfl
  | cons part rest =>
      obtain ⟨name, p⟩ := part
      rw [Param.toSchemas, Param.depthEntries] at h
      have hfirst := convertWithin_toSchema p (Nat.lt_of_le_of_lt (Nat.le_max_left ..) h)
      have hrest := convertEach_toSchemas rest (Nat.lt_of_le_of_lt (Nat.le_max_right ..) h)
      exact Outcome.bind_eq_ok.2 ⟨_, hfirst, Outcome.bind_eq_ok.2 ⟨_, hrest, rfl⟩⟩

end

/-- Parameters that are written and read again are the same in normal form, and so is what they are
written as. -/
theorem convert_toSchema (p : Param) (defs : Value) :
    convert defs p.toSchema = .ok p.pruned ∧ p.pruned.toSchema = p.toSchema :=
  ⟨convertWithin_toSchema p (depth_lt_stepBound defs p.toSchema), p.toSchema_pruned⟩

end Schema

end ChatPipeline
