import Mathlib.Data.Finset.Card
import Mathlib.Data.Finset.Dedup
import Mathlib.Logic.Relation
import ChatPipeline.Graph.Wiring

/-!
# Reachability

The search through a table of successors finds the names that can be reached from the start, and no
others (`mem_reachable_iff`).  The names that are seen are all reachable, and what follows a seen
name is seen unless the name still waits in the queue.  Each visit takes a name from the queue for
good, so the queue is empty before the bound on the visits is used up.
-/

namespace ChatPipeline.SuccessorTable

def Follows (table : SuccessorTable σ) (a b : String) : Prop := b ∈ table.targetsOf a

abbrev Reaches (table : SuccessorTable σ) : String → String → Prop :=
  Relation.ReflTransGen table.Follows

def allTargets (table : SuccessorTable σ) : List String := table.flatMap fun (_, s) => s.targets

theorem Follows.mem_allTargets {table : SuccessorTable σ} {a b : String} (h : table.Follows a b) :
    b ∈ table.allTargets := by
  unfold Follows targetsOf at h
  split at h
  · rename_i successor hlookup
    rw [List.lookup_eq_some_iff] at hlookup
    obtain ⟨before, after, rfl, -⟩ := hlookup
    exact List.mem_flatMap.2 ⟨(a, successor), by simp, h⟩
  · simp at h

private theorem nodup_eraseDups (names : List String) : names.eraseDups.Nodup := by
  induction hn : names.length using Nat.strongRecOn generalizing names with
  | ind n ih =>
      cases names with
      | nil => simp
      | cons name rest =>
          rw [List.eraseDups_cons, List.nodup_cons]
          constructor
          · simp
          · have hlt : (rest.filter fun b => !b == name).length < n := by
              have hle := List.length_filter_le (fun b => !b == name) rest
              simp only [List.length_cons] at hn
              omega
            exact ih _ hlt _ rfl

/-! ## One visit -/

def fresh (table : SuccessorTable σ) (seen : List String) (current : String) : List String :=
  ((table.targetsOf current).filter fun n => !seen.contains n).eraseDups

private theorem mem_fresh {table : SuccessorTable σ} {seen : List String} {current name : String} :
    name ∈ table.fresh seen current ↔ table.Follows current name ∧ name ∉ seen := by
  simp [fresh, Follows]

private theorem visit_cons (table : SuccessorTable σ) (fuel : Nat) (seen queue : List String)
    (current : String) :
    table.visit (fuel + 1) seen (current :: queue) =
      table.visit fuel (seen ++ table.fresh seen current)
        (queue ++ table.fresh seen current) := rfl

/-- What holds of the seen names and the queue after every visit. -/
structure Searching (table : SuccessorTable σ) (seen queue : List String) : Prop where
  start_seen : startName ∈ seen
  queue_seen : ∀ a ∈ queue, a ∈ seen
  seen_reached : ∀ a ∈ seen, table.Reaches startName a
  closed : ∀ a ∈ seen, a ∉ queue → ∀ b, table.Follows a b → b ∈ seen

theorem Searching.visited {table : SuccessorTable σ} {seen queue : List String} {current : String}
    (h : table.Searching seen (current :: queue)) :
    table.Searching (seen ++ table.fresh seen current) (queue ++ table.fresh seen current) where
  start_seen := List.mem_append_left _ h.start_seen
  queue_seen := by
    intro a ha
    rcases List.mem_append.1 ha with ha | ha
    · exact List.mem_append_left _ (h.queue_seen a (List.mem_cons_of_mem _ ha))
    · exact List.mem_append_right _ ha
  seen_reached := by
    intro a ha
    rcases List.mem_append.1 ha with ha | ha
    · exact h.seen_reached a ha
    · have hcurrent := h.seen_reached current (h.queue_seen current List.mem_cons_self)
      exact hcurrent.tail (mem_fresh.1 ha).1
  closed := by
    intro a ha hwaiting b hb
    rw [List.mem_append, not_or] at hwaiting
    have hseen : a ∈ seen := (List.mem_append.1 ha).resolve_right hwaiting.2
    by_cases hbSeen : b ∈ seen
    · exact List.mem_append_left _ hbSeen
    · by_cases hcurrent : a = current
      · subst hcurrent
        exact List.mem_append_right _ (mem_fresh.2 ⟨hb, hbSeen⟩)
      · have hqueue : a ∉ current :: queue := by
          simp [hcurrent, hwaiting.1]
        exact absurd (h.closed a hseen hqueue b hb) hbSeen

/-! ## All visits -/

/-- The visits that are left: one for each name in the queue and for each target not seen so far. -/
def pending (table : SuccessorTable σ) (seen queue : List String) : Nat :=
  queue.length + (table.allTargets.toFinset \ seen.toFinset).card

theorem pending_visited (table : SuccessorTable σ) (seen queue : List String) (current : String) :
    table.pending (seen ++ table.fresh seen current) (queue ++ table.fresh seen current) + 1 ≤
      table.pending seen (current :: queue) := by
  have hsub : (table.fresh seen current).toFinset ⊆ table.allTargets.toFinset \ seen.toFinset := by
    intro name hname
    rw [List.mem_toFinset, mem_fresh] at hname
    simpa using ⟨hname.1.mem_allTargets, hname.2⟩
  have hlength : (table.fresh seen current).toFinset.card = (table.fresh seen current).length :=
    List.toFinset_card_of_nodup (nodup_eraseDups _)
  have hcard := Finset.card_sdiff_add_card_eq_card hsub
  rw [sdiff_sdiff_left, Finset.sup_eq_union] at hcard
  unfold pending
  rw [List.toFinset_append, List.length_append, List.length_cons]
  omega

private theorem visit_searching (table : SuccessorTable σ) (fuel : Nat) (seen queue : List String)
    (h : table.Searching seen queue) (hfuel : table.pending seen queue ≤ fuel) :
    table.Searching (table.visit fuel seen queue) [] := by
  induction fuel generalizing seen queue with
  | zero =>
      have hqueue : queue = [] := by
        unfold pending at hfuel
        exact List.eq_nil_of_length_eq_zero (by omega)
      subst hqueue
      exact h
  | succ fuel ih =>
      cases queue with
      | nil => exact h
      | cons current queue =>
          rw [visit_cons]
          have hless := table.pending_visited seen queue current
          exact ih _ _ h.visited (by omega)

private theorem searching_start (table : SuccessorTable σ) :
    table.Searching [startName] [startName] where
  start_seen := List.mem_singleton_self _
  queue_seen := fun _ ha => ha
  seen_reached := by
    intro a ha
    rw [List.mem_singleton] at ha
    exact ha ▸ Relation.ReflTransGen.refl
  closed := fun _ ha hwaiting => absurd ha hwaiting

theorem pending_start_le (table : SuccessorTable σ) :
    table.pending [startName] [startName] ≤ table.visitBound + 1 := by
  have hcard : (table.allTargets.toFinset \ [startName].toFinset).card ≤ table.allTargets.length :=
    (Finset.card_le_card Finset.sdiff_subset).trans (List.toFinset_card_le _)
  have hbound : table.visitBound = table.allTargets.length + 1 := rfl
  unfold pending
  rw [hbound, List.length_singleton]
  omega

theorem mem_reachable_iff {table : SuccessorTable σ} {name : String} :
    name ∈ table.reachable ↔ table.Reaches startName name := by
  have hdone : table.Searching table.reachable [] :=
    table.visit_searching _ _ _ table.searching_start table.pending_start_le
  constructor
  · exact hdone.seen_reached name
  · intro hreaches
    induction hreaches with
    | refl => exact hdone.start_seen
    | tail _ hlast ih => exact hdone.closed _ ih (List.not_mem_nil) _ hlast

end ChatPipeline.SuccessorTable
