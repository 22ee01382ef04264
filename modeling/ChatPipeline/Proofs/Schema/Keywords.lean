import ChatPipeline.Schema.Convert

/-!
# Where fragments stand

The keywords of a JSON schema under which further fragments stand, alone, in an array or under
names. A fragment that stands in another one nests less deeply (`Encloses.depth_lt`).
-/

namespace ChatPipeline.Schema

open Validation

inductive Holding where
  | one
  | each
  | named
  | nothing
  deriving DecidableEq, Repr

def holding (keyword : String) : Holding :=
  match keyword with
  | "items" | "additionalProperties" | "unevaluatedItems" | "unevaluatedProperties" | "contains"
  | "propertyNames" | "not" | "if" | "then" | "else" => .one
  | "allOf" | "anyOf" | "oneOf" | "prefixItems" => .each
  | "properties" | "patternProperties" | "dependentSchemas" | "$defs" | "definitions" => .named
  | _ => .nothing

def held (keyword : String) (v : Value) : List Value :=
  match holding keyword, v with
  | .one, v => [v]
  | .each, .list vs | .each, .tuple vs | .each, .set vs => vs
  | .named, .dict parts => parts.map Prod.snd
  | _, _ => []

def mapHeld (f : Value → Value) (keyword : String) (v : Value) : Value :=
  match holding keyword, v with
  | .one, v => f v
  | .each, .list vs => .list (vs.map f)
  | .each, .tuple vs => .tuple (vs.map f)
  | .each, .set vs => .set (vs.map f)
  | .named, .dict parts => .dict (parts.map fun part => (part.1, f part.2))
  | _, v => v

def mapFragments (f : Value → Value) (entries : Entries) : Entries :=
  entries.map fun e => (e.1, mapHeld f e.1 e.2)

/-- A fragment stands in another one. -/
def Encloses (entries : Entries) (node : Value) : Prop := ∃ e ∈ entries, node ∈ held e.1 e.2

theorem mapHeld_id (keyword : String) (v : Value) : mapHeld id keyword v = v := by
  unfold mapHeld
  split <;> simp

theorem mapHeld_of_nothing {keyword : String} (h : holding keyword = .nothing) (f : Value → Value)
    (v : Value) : mapHeld f keyword v = v := by
  unfold mapHeld
  rw [h]

theorem held_of_nothing {keyword : String} (h : holding keyword = .nothing) (v : Value) :
    held keyword v = [] := by
  unfold held
  rw [h]

private theorem mem_held_mapHeld {f : Value → Value} {keyword : String} {v node : Value}
    (h : node ∈ held keyword (mapHeld f keyword v)) : ∃ inner ∈ held keyword v, f inner = node := by
  unfold held mapHeld at h
  unfold held
  generalize holding keyword = kind at h ⊢
  cases kind with
  | one => exact ⟨v, List.mem_singleton_self v, (List.mem_singleton.1 h).symm⟩
  | each =>
      cases v with
      | list vs => exact List.mem_map.1 h
      | tuple vs => exact List.mem_map.1 h
      | set vs => exact List.mem_map.1 h
      | _ => cases h
  | named =>
      cases v with
      | dict parts =>
          obtain ⟨_, hmapped, rfl⟩ := List.mem_map.1 h
          obtain ⟨part, hpart, rfl⟩ := List.mem_map.1 hmapped
          exact ⟨part.2, List.mem_map_of_mem hpart, rfl⟩
      | _ => cases h
  | nothing => cases h

theorem get?_mapFragments (f : Value → Value) (entries : Entries) (key : String) :
    (mapFragments f entries).get? key = (entries.get? key).map (mapHeld f key) := by
  induction entries with
  | nil => rfl
  | cons e entries ih =>
      obtain ⟨k, v⟩ := e
      unfold Entries.get? at ih ⊢
      rw [mapFragments, List.map_cons, Table.lookup_cons, Table.lookup_cons]
      split
      case isTrue heq => rw [eq_of_beq heq, Option.map_some]
      case isFalse => exact ih

theorem Encloses.of_get? {entries : Entries} {keyword : String} {v node : Value}
    (hkey : entries.get? keyword = some v) (hnode : node ∈ held keyword v) :
    Encloses entries node :=
  ⟨(keyword, v), Table.mem_of_lookup hkey, hnode⟩

theorem Encloses.of_mapFragments {f : Value → Value} {entries : Entries} {node : Value}
    (h : Encloses (mapFragments f entries) node) :
    ∃ inner, Encloses entries inner ∧ f inner = node := by
  obtain ⟨_, hmapped, hnode⟩ := h
  obtain ⟨e, he, rfl⟩ := List.mem_map.1 hmapped
  obtain ⟨inner, hinner, rfl⟩ := mem_held_mapHeld hnode
  exact ⟨inner, ⟨e, he, hinner⟩, rfl⟩

/-! ## Nesting -/

theorem depth_le_depthItems {vs : List Value} {v : Value} (h : v ∈ vs) :
    Param.depth v ≤ Param.depthItems vs := by
  induction vs with
  | nil => cases h
  | cons w vs ih =>
      rw [Param.depthItems]
      rcases List.mem_cons.1 h with rfl | h
      · exact Nat.le_max_left ..
      · exact Nat.le_trans (ih h) (Nat.le_max_right ..)

theorem depth_le_depthEntries {entries : Entries} {e : String × Value} (h : e ∈ entries) :
    Param.depth e.2 ≤ Param.depthEntries entries := by
  induction entries with
  | nil => cases h
  | cons first entries ih =>
      rw [Param.depthEntries]
      rcases List.mem_cons.1 h with rfl | h
      · exact Nat.le_max_left ..
      · exact Nat.le_trans (ih h) (Nat.le_max_right ..)

private theorem depth_le_of_mem_held {keyword : String} {v node : Value}
    (h : node ∈ held keyword v) :
    Param.depth node ≤ Param.depth v := by
  unfold held at h
  split at h
  case h_1 => exact List.mem_singleton.1 h ▸ Nat.le_refl _
  case h_5 =>
    obtain ⟨part, hpart, rfl⟩ := List.mem_map.1 h
    exact Nat.le_succ_of_le (depth_le_depthEntries hpart)
  case h_6 => cases h
  all_goals exact Nat.le_succ_of_le (depth_le_depthItems h)

theorem Encloses.depth_lt {entries : Entries} {node : Value} (h : Encloses entries node) :
    Param.depth node < Param.depth (.dict entries) := by
  obtain ⟨e, he, hnode⟩ := h
  have hinner := depth_le_of_mem_held hnode
  have houter := depth_le_depthEntries he
  rw [Param.depth]
  omega

end ChatPipeline.Schema
