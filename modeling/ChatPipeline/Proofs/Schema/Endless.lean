import Mathlib.Data.Nat.Find
import ChatPipeline.Proofs.Schema.References

/-!
# Conversions without an end

The depth that a conversion is given is no limit of its own.  A conversion that ends at any depth
ends within the bound, and in the same way (`Covers`): on a way that ends, each definition is
entered from a place where more depth is needed than inside it, so none is entered twice, and the
fragments and definitions that end earlier bound the rest of the way (`earlier`).  So a conversion
that runs out of depth does so at every depth (`convert_endless_iff`), and then some definition
refers to itself (`exists_cycle_of_endless`).
-/

namespace ChatPipeline.Schema

open Validation

def EndsAtDepth (defs : Value) (depth : Nat) (node : Value) : Prop :=
  convertWithin defs depth .none node ≠ .error endlessReference

/-! ## Descriptions from further out -/

theorem bind_endless {x : Outcome α} {k : α → Outcome β} {l : α → Outcome γ}
    (h : x >>= k = .error endlessReference)
    (hkl : ∀ a, k a = .error endlessReference → l a = .error endlessReference) :
    x >>= l = .error endlessReference := by
  cases x with
  | error f =>
      cases h
      rfl
  | ok a => exact hkl a h

private theorem convertTyped_endless {step : Value → Outcome Param} {entries : Entries}
    {shown : Value}
    (h : convertTyped step entries shown = .error endlessReference) (other : Value) :
    convertTyped step entries other = .error endlessReference := by
  -- the description is looked at last, and fails for other reasons
  unfold convertTyped at h ⊢
  split at h
  case h_1 htype =>
    dsimp only at h ⊢
    split at h
    case h_1 parts hparts =>
      exact bind_endless h fun _ h => bind_endless h fun _ h => bind_endless h fun needed h =>
        absurd h (Checked.settles _ _).ne
    case h_2 => exact h
  case h_2 htype => exact bind_endless h fun items h => absurd h (Checked.settles _ _).ne
  case h_3 => cases h
  case h_4 => cases h
  case h_5 => cases h
  case h_6 =>
    split at h
    case h_1 => exact absurd h (Checked.settles _ _).ne
    case h_2 => exact absurd (Except.error.inj h) (telling_value_ne_endless _)

private theorem convertWithin_endless {defs : Value} {depth : Nat} {outer node : Value}
    (h : convertWithin defs depth outer node = .error endlessReference) (other : Value) :
    convertWithin defs depth other node = .error endlessReference := by
  induction depth generalizing outer other node with
  | zero => rfl
  | succ depth ih =>
      by_cases hdict : ∃ entries, node = .dict entries
      · obtain ⟨entries, rfl⟩ := hdict
        rw [convertWithin_dict] at h ⊢
        refine bind_endless h fun next h => ?_
        cases next with
        | some next => exact ih h _
        | none => exact convertTyped_endless h _
      · rw [not_exists] at hdict
        rw [convertWithin_of_ne_dict _ _ _ hdict] at h ⊢
        exact h

private theorem endsAtDepth_iff {defs : Value} {depth : Nat} {node : Value} (outer : Value) :
    EndsAtDepth defs depth node ↔ convertWithin defs depth outer node ≠ .error endlessReference :=
  not_congr ⟨fun h => convertWithin_endless h outer, fun h => convertWithin_endless h .none⟩

theorem EndsAtDepth.mono {defs : Value} {depth depth' : Nat} {node : Value}
    (h : EndsAtDepth defs depth node) (hle : depth ≤ depth') : EndsAtDepth defs depth' node := by
  unfold EndsAtDepth
  rw [convertWithin_deepens defs hle .none node h]
  exact h

/-! ## What ends earlier -/

section

open Classical

/-- The steps inside a fragment, and those inside each definition that ends at a lower depth. -/
noncomputable def earlier (defs : Value) (depth : Nat) (node : Value) : Nat :=
  Param.depth node +
    total (fun e => if EndsAtDepth defs depth e.2 then Param.depth e.2 + 1 else 0) (listed defs)

private theorem earlier_lt_stepBound (defs : Value) (depth : Nat) (node : Value) :
    earlier defs depth node < stepBound defs node := by
  have htotal := total_given_le (fun e => EndsAtDepth defs depth e.2)
    (fun e : String × Value => Param.depth e.2 + 1) (listed defs)
  rw [stepBound_eq]
  unfold earlier
  omega

private theorem earlier_lt_of_encloses {defs node : Value} {entries : Entries} {depth depth' : Nat}
    (hnode : Encloses entries node) (hle : depth ≤ depth') :
    earlier defs depth node < earlier defs depth' (.dict entries) := by
  have hdepth := hnode.depth_lt
  have htotal := total_given_mono (fun e : String × Value => Param.depth e.2 + 1)
    (fun e (he : EndsAtDepth defs depth e.2) => he.mono hle) (listed defs)
  unfold earlier
  omega

private theorem earlier_lt_of_entry {defs node : Value} {entries : Entries} {name : String}
    {depth depth' : Nat} (hnode : (name, node) ∈ listed defs) (hle : depth ≤ depth')
    (hends : EndsAtDepth defs depth' node) (hnot : ¬ EndsAtDepth defs depth node) :
    earlier defs depth node < earlier defs depth' (.dict entries) := by
  have htotal := total_given_add_le (fun e : String × Value => Param.depth e.2 + 1)
    (fun e (he : EndsAtDepth defs depth e.2) => he.mono hle) hnode hends hnot
  unfold earlier
  rw [Param.depth]
  dsimp only at htotal
  omega

end

/-- What ends at just that depth comes to the same at every depth above what ends earlier. -/
def Covers (defs : Value) (depth : Nat) : Prop :=
  ∀ outer node bound, EndsAtDepth defs (depth + 1) node → earlier defs depth node < bound →
    convertWithin defs bound outer node = convertWithin defs (depth + 1) outer node

section

variable {defs node : Value} {entries : Entries} {depth bound : Nat}

theorem Covers.of_encloses (hcovers : ∀ lower < depth, Covers defs lower)
    (hnode : Encloses entries node) (hbound : earlier defs depth (.dict entries) < bound + 1)
    (outer : Value) :
    Deepens (convertWithin defs depth outer node) (convertWithin defs bound outer node) := by
  intro hends
  cases depth with
  | zero => exact absurd rfl hends
  | succ depth =>
      have hlower : earlier defs depth node < earlier defs (depth + 1) (.dict entries) :=
        earlier_lt_of_encloses hnode (Nat.le_succ depth)
      exact hcovers depth (Nat.lt_succ_self _) outer node bound ((endsAtDepth_iff outer).2 hends)
        (by omega)

theorem Covers.of_entry (hcovers : ∀ lower < depth, Covers defs lower) {name : String}
    (hnode : (name, node) ∈ listed defs) (hbound : earlier defs depth (.dict entries) < bound + 1)
    (outer : Value) :
    Deepens (convertWithin defs depth outer node) (convertWithin defs bound outer node) := by
  classical
  intro hends
  rw [← endsAtDepth_iff] at hends
  have hexists : ∃ n, EndsAtDepth defs n node := ⟨depth, hends⟩
  obtain ⟨least, hleast, hmin⟩ := Nat.findX hexists
  have hle : least ≤ depth := Nat.le_of_not_lt fun hlt => hmin depth hlt hends
  cases least with
  | zero => exact absurd rfl hleast
  | succ least =>
      have hlower : earlier defs least node < earlier defs depth (.dict entries) :=
        earlier_lt_of_entry hnode (Nat.le_of_succ_le hle) hends (hmin least (Nat.lt_succ_self _))
      have hsame := hcovers least hle outer node bound hleast (by omega)
      rw [hsame]
      exact (convertWithin_deepens defs hle outer node ((endsAtDepth_iff outer).1 hleast)).symm

private theorem pos_of_earlier_lt (hbound : earlier defs depth (.dict entries) < bound + 1) :
    0 < bound := by
  unfold earlier at hbound
  rw [Param.depth] at hbound
  omega

theorem Covers.of_textFragment (hbound : earlier defs depth (.dict entries) < bound + 1) :
    Deepens (convertWithin defs depth .none textFragment)
      (convertWithin defs bound .none textFragment) := by
  intro hends
  obtain ⟨bound, rfl⟩ := Nat.exists_eq_succ_of_ne_zero (Nat.ne_of_gt (pos_of_earlier_lt hbound))
  cases depth with
  | zero => exact absurd rfl hends
  | succ depth => rw [convertWithin_textFragment, convertWithin_textFragment]

theorem Covers.of_standsFor (hcovers : ∀ lower < depth, Covers defs lower)
    (hstands : StandsFor defs entries (some node))
    (hbound : earlier defs depth (.dict entries) < bound + 1) (outer : Value) :
    Deepens (convertWithin defs depth outer node) (convertWithin defs bound outer node) := by
  by_cases hdict : ∃ inner, node = .dict inner
  · obtain ⟨inner, rfl⟩ := hdict
    rcases hstands.follows_or_encloses with ⟨target, -, hnext⟩ | hinner
    · obtain ⟨s, -, hentry⟩ := followReference_eq_ok_iff.1 hnext
      exact Covers.of_entry hcovers (mem_listed hentry) hbound outer
    · exact Covers.of_encloses hcovers hinner hbound outer
  · intro hends
    rw [not_exists] at hdict
    obtain ⟨bound, rfl⟩ := Nat.exists_eq_succ_of_ne_zero (Nat.ne_of_gt (pos_of_earlier_lt hbound))
    cases depth with
    | zero => exact absurd rfl hends
    | succ depth => rw [convertWithin_of_ne_dict _ _ _ hdict, convertWithin_of_ne_dict _ _ _ hdict]

private theorem covers (defs : Value) (depth : Nat) : Covers defs depth := by
  induction depth using Nat.strongRecOn with
  | _ depth hcovers =>
      intro outer node bound hends hbound
      obtain ⟨bound, rfl⟩ := Nat.exists_eq_succ_of_ne_zero (Nat.ne_of_gt (Nat.zero_lt_of_lt hbound))
      by_cases hdict : ∃ entries, node = .dict entries
      · obtain ⟨entries, rfl⟩ := hdict
        rw [endsAtDepth_iff outer, convertWithin_dict] at hends
        rw [convertWithin_dict, convertWithin_dict]
        cases hnext : standsFor defs entries with
        | error f => rfl
        | ok next =>
            rw [hnext] at hends
            cases next with
            | some next =>
                exact Covers.of_standsFor hcovers (standsFor_eq_ok_iff.1 hnext) hbound _ hends
            | none =>
                refine convertTyped_deepens (fun inner hinner => ?_) ?_ _ hends
                · exact Covers.of_encloses hcovers hinner hbound .none
                · exact Covers.of_textFragment hbound
      · rw [not_exists] at hdict
        rw [convertWithin_of_ne_dict _ _ _ hdict, convertWithin_of_ne_dict _ _ _ hdict]

end

/-! ## Out of depth -/

theorem convert_endless_iff {defs node : Value} : convert defs node = .error endlessReference ↔
    ∀ depth outer, convertWithin defs depth outer node = .error endlessReference := by
  constructor
  · intro h depth outer
    refine Classical.not_not.1 fun hends => ?_
    rw [← ne_eq, ← endsAtDepth_iff] at hends
    cases depth with
    | zero => exact hends rfl
    | succ depth =>
        have hsame := covers defs depth .none node _ hends (earlier_lt_stepBound defs depth node)
        exact hends (hsame.symm.trans h)
  · exact fun h => h _ _

/-- Where a conversion has no end, a definition refers to itself. -/
theorem exists_cycle_of_endless {defs node : Value}
    (h : convert defs node = .error endlessReference) :
    ∃ name, Relation.TransGen (Refers defs) name name := by
  refine not_forall_not.1 fun hnone => ?_
  exact (convert_settles hnone node).ne h

end ChatPipeline.Schema
