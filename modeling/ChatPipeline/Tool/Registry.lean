import ChatPipeline.Tool

/-!
# Registries of tools

A registry holds tools under their names, each name once, in the order of registration.
-/

namespace ChatPipeline

open ChatPipeline.Text

structure RegisteredTool (σ : Type) where
  info : ToolInfo
  tool : Tool σ

structure Registry (σ : Type) where
  entries : List (RegisteredTool σ) := []

namespace Registry

def names (r : Registry σ) : List String := r.entries.map (·.info.name)

def infos (r : Registry σ) : List ToolInfo := r.entries.map (·.info)

def find? (r : Registry σ) (name : String) : Option (RegisteredTool σ) :=
  r.entries.find? (·.info.name == name)

def get? (r : Registry σ) (name : String) : Option (Tool σ) := (r.find? name).map (·.tool)

def contains (r : Registry σ) (name : String) : Bool := (r.find? name).isSome

def size (r : Registry σ) : Nat := r.entries.length

def register (r : Registry σ) (t : Tool σ) : Outcome (Registry σ) := do
  let info ← t.info
  if r.contains info.name then
    throw (.fault .value ("Tool " ++ quoted info.name ++ " is already registered"))
  return ⟨r.entries ++ [⟨info, t⟩]⟩

def ofTools (tools : List (Tool σ)) : Outcome (Registry σ) := tools.foldlM register {}

/-! ## Laws -/

theorem contains_iff {r : Registry σ} {name : String} :
    r.contains name = true ↔ name ∈ r.names := by
  simp [contains, find?, names, List.find?_isSome]

theorem register_names {r s : Registry σ} {t : Tool σ} (h : r.register t = .ok s) :
    ∃ info, t.info? = some info ∧ info.name ∉ r.names ∧ s.names = r.names ++ [info.name] := by
  unfold register Tool.info at h
  cases ht : t.info? with
  | none => simp [ht, bind, Except.bind] at h
  | some info =>
    refine ⟨info, rfl, ?_⟩
    simp only [ht, bind, Except.bind] at h
    split at h
    · simp [throw, throwThe, MonadExceptOf.throw] at h
    · rename_i hc
      simp only [pure, Except.pure, Except.ok.injEq] at h
      constructor
      · intro hm
        exact hc (contains_iff.2 hm)
      · rw [← h]
        simp [names]

theorem register_nodup {r s : Registry σ} {t : Tool σ} (hr : r.names.Nodup)
    (h : r.register t = .ok s) : s.names.Nodup := by
  obtain ⟨info, -, hnew, hs⟩ := register_names h
  rw [hs, List.nodup_append]
  refine ⟨hr, by simp, ?_⟩
  intro a ha b hb
  simp only [List.mem_singleton] at hb
  subst hb
  intro hab
  exact hnew (hab ▸ ha)

end Registry

end ChatPipeline
