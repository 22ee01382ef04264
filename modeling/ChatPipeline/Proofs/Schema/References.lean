import Mathlib.Logic.Relation
import ChatPipeline.Proofs.Schema.Depth

/-!
# References without cycles

Where no definition refers to itself, directly or through others, every way through a schema follows
each definition at most once.  The fragments and definitions that are still ahead bound its length
(`ahead`), so the conversion does not run out of depth (`convert_settles`), whatever else is wrong
with the schema.
-/

namespace ChatPipeline.Schema

open Validation

inductive Contains : Value → Value → Prop where
  | here (node : Value) : Contains node node
  | further (hnext : Encloses entries next) (h : Contains next node) :
      Contains (.dict entries) node

inductive Mentions (node : Value) : String → Prop where
  | reference {entries : Entries} {target : Value} (h : Contains node (.dict entries))
      (hkey : entries.get? "$ref" = some target) (htext : target.text? = some s) :
      Mentions node (referenceName s)

inductive Refers (defs : Value) : String → String → Prop where
  | mention (hentry : defs.entry name = .ok node) (h : Mentions node other) :
      Refers defs name other

def Acyclic (defs : Value) : Prop := ∀ name, ¬ Relation.TransGen (Refers defs) name name

/-- A definition is reached from a fragment, through any number of other definitions. -/
inductive Reaches (defs node : Value) : String → Prop where
  | mention (h : Mentions node first) (hrest : Relation.ReflTransGen (Refers defs) first name) :
      Reaches defs node name

section

variable {defs node next target : Value} {entries : Entries} {name s : String}

theorem Contains.of_encloses {inside : Value} (h : Contains node inside)
    (hinside : inside = .dict entries) (hnext : Encloses entries next) : Contains node next := by
  induction h with
  | here node =>
      subst hinside
      exact .further hnext (.here next)
  | further hfirst _ ih => exact .further hfirst (ih hinside)

theorem Contains.closed {p : Value → Prop} (h : Contains node next) (hnode : p node)
    (hinside : ∀ entries inner, p (.dict entries) → Encloses entries inner → p inner) : p next := by
  induction h with
  | here => exact hnode
  | further hfirst _ ih => exact ih (hinside _ _ hnode hfirst)

theorem Mentions.of_encloses (h : Mentions next name) (hnext : Encloses entries next) :
    Mentions (.dict entries) name := by
  cases h with
  | reference h hkey htext => exact .reference (.further hnext h) hkey htext

theorem Reaches.of_encloses (h : Reaches defs next name) (hnext : Encloses entries next) :
    Reaches defs (.dict entries) name := by
  cases h with
  | mention h hrest => exact .mention (h.of_encloses hnext) hrest

theorem Reaches.of_reference (h : Reaches defs next name) (hkey : entries.get? "$ref" = some target)
    (htext : target.text? = some s) (hentry : defs.entry (referenceName s) = .ok next) :
    Reaches defs (.dict entries) name := by
  cases h with
  | mention h hrest =>
      exact .mention (.reference (.here _) hkey htext) (.head (.mention hentry h) hrest)

theorem Acyclic.not_reaches (hacyclic : Acyclic defs) (hentry : defs.entry name = .ok node) :
    ¬ Reaches defs node name := by
  rintro ⟨h, hrest⟩
  exact hacyclic name (.head' (.mention hentry h) hrest)

end

/-! ## What is ahead -/

section

open Classical

theorem total_given_le (p : α → Prop) (weight : α → Nat) (as : List α) :
    total (fun a => if p a then weight a else 0) as ≤ total weight as := by
  induction as with
  | nil => exact Nat.le_refl 0
  | cons a as ih =>
      refine Nat.add_le_add ?_ ih
      dsimp only
      split
      · exact Nat.le_refl _
      · exact Nat.zero_le _

private theorem given_le {p q : α → Prop} (weight : α → Nat) (hpq : ∀ a, p a → q a) (a : α) :
    (if p a then weight a else 0) ≤ (if q a then weight a else 0) := by
  by_cases hp : p a
  · exact Nat.le_of_eq ((if_pos hp).trans (if_pos (hpq a hp)).symm)
  · rw [if_neg hp]
    exact Nat.zero_le _

theorem total_given_mono {p q : α → Prop} (weight : α → Nat) (hpq : ∀ a, p a → q a) (as : List α) :
    total (fun a => if p a then weight a else 0) as ≤
      total (fun a => if q a then weight a else 0) as := by
  induction as with
  | nil => exact Nat.le_refl 0
  | cons a as ih => exact Nat.add_le_add (given_le weight hpq a) ih

theorem total_given_add_le {p q : α → Prop} (weight : α → Nat) (hpq : ∀ a, p a → q a) {as : List α}
    {a : α} (ha : a ∈ as) (hq : q a) (hp : ¬ p a) :
    total (fun a => if p a then weight a else 0) as + weight a ≤
      total (fun a => if q a then weight a else 0) as := by
  induction as with
  | nil => cases ha
  | cons b as ih =>
      rw [total, total]
      rcases List.mem_cons.1 ha with rfl | ha
      · have hrest := total_given_mono weight hpq as
        rw [if_neg hp, if_pos hq]
        omega
      · have hrest := ih ha
        have hfirst := given_le weight hpq b
        omega

def listed (defs : Value) : Entries :=
  match defs with
  | .dict definitions => definitions
  | _ => []

/-- The steps inside a fragment, and those inside each definition that is reached from it. -/
noncomputable def ahead (defs : Value) : Value → Nat
  | .dict entries => Param.depth (.dict entries) + total (fun e =>
      if Reaches defs (.dict entries) e.1 then Param.depth e.2 + 1 else 0) (listed defs)
  | _ => 0

end

section

variable {defs node next target : Value} {entries : Entries} {name s : String}

theorem mem_listed (h : defs.entry name = .ok node) : (name, node) ∈ listed defs := by
  obtain ⟨definitions, rfl, hfound⟩ := entry_eq_ok_iff.1 h
  exact Table.mem_of_lookup hfound

theorem stepBound_eq (defs node : Value) : stepBound defs node =
    Param.depth node + 1 + total (fun e => Param.depth e.2 + 1) (listed defs) := by
  cases defs <;> rfl

private theorem ahead_lt_stepBound (defs node : Value) : ahead defs node < stepBound defs node := by
  rw [stepBound_eq]
  unfold ahead
  split
  case h_1 entries =>
    have htotal := total_given_le (fun e => Reaches defs (.dict entries) e.1)
      (fun e : String × Value => Param.depth e.2 + 1) (listed defs)
    omega
  case h_2 => omega

theorem ahead_lt_of_encloses (hnext : Encloses entries next) :
    ahead defs next < ahead defs (.dict entries) := by
  have hdepth := hnext.depth_lt
  rw [ahead]
  unfold ahead
  split
  case h_1 inner =>
    have htotal := total_given_mono (fun e : String × Value => Param.depth e.2 + 1)
      (fun e (he : Reaches defs (.dict inner) e.1) => he.of_encloses hnext) (listed defs)
    omega
  case h_2 => omega

theorem ahead_lt_of_reference (hacyclic : Acyclic defs) (hkey : entries.get? "$ref" = some target)
    (hnext : followReference defs target = .ok next) :
    ahead defs next < ahead defs (.dict entries) := by
  obtain ⟨s, htext, hentry⟩ := followReference_eq_ok_iff.1 hnext
  have hself : Reaches defs (.dict entries) (referenceName s) :=
    .mention (.reference (.here _) hkey htext) .refl
  rw [ahead]
  unfold ahead
  split
  case h_1 inner =>
    have htotal := total_given_add_le (fun e : String × Value => Param.depth e.2 + 1)
      (fun e (he : Reaches defs (.dict inner) e.1) => he.of_reference hkey htext hentry)
      (mem_listed hentry) hself (hacyclic.not_reaches hentry)
    dsimp only at htotal
    omega
  case h_2 =>
    rw [Param.depth]
    omega

private theorem ranked_ahead (hacyclic : Acyclic defs) :
    Ranked defs (fun _ => True) (ahead defs) where
  dict_pos _ := Nat.add_pos_left (Nat.succ_pos _) _
  of_encloses _ hnext := ⟨trivial, ahead_lt_of_encloses hnext⟩
  of_reference _ hkey hnext := ⟨trivial, ahead_lt_of_reference hacyclic hkey hnext⟩

theorem convert_settles (hacyclic : Acyclic defs) (node : Value) : Settles (convert defs node) :=
  convertWithin_settles (ranked_ahead hacyclic) _ trivial (ahead_lt_stepBound defs node)

end

end ChatPipeline.Schema
