import ChatPipeline.Proofs.Graph.Reachability

/-!
# The search, turn by turn

The search for the names that can be reached, as it goes on: a turn takes a name from the front of
the queue and looks at its targets one after another, and a target that was not seen so far is seen
and put at the end of the queue.  However far the search has come, its turns lead on to one last
state, where the queue is empty and the names seen are those that can be reached (`search_ends`).
Until then no name is put in the queue twice, for what was queued is what was seen.
-/

namespace ChatPipeline.SuccessorTable

structure Search where
  seen : List String
  queue : List String
  /-- Every name that was put in the queue so far, in this order. -/
  queued : List String

namespace Search

def start : Search := ⟨[startName], [startName], [startName]⟩

def look (s : Search) (name : String) : Search :=
  if name ∈ s.seen then s else ⟨s.seen ++ [name], s.queue ++ [name], s.queued ++ [name]⟩

def join (s : Search) (names : List String) : Search :=
  ⟨s.seen ++ names, s.queue ++ names, s.queued ++ names⟩

end Search

inductive Turn (table : SuccessorTable σ) : Search → Search → Prop where
  | visit (current : String) (seen queue queued : List String) :
    Turn table ⟨seen, current :: queue, queued⟩
      ((table.targetsOf current).foldl Search.look ⟨seen, queue, queued⟩)

abbrev Turns (table : SuccessorTable σ) : Search → Search → Prop := Relation.ReflTransGen table.Turn

variable {table : SuccessorTable σ} {s t u : Search}

/-! ## What a turn keeps -/

structure Search.QueuesOnce (s : Search) : Prop where
  queued_seen : s.queued = s.seen
  nodup : s.queued.Nodup

theorem Search.QueuesOnce.look (h : s.QueuesOnce) (name : String) : (s.look name).QueuesOnce := by
  unfold Search.look
  split
  · exact h
  · rename_i hunseen
    refine ⟨congrArg (· ++ [name]) h.queued_seen, ?_⟩
    rw [List.nodup_append]
    refine ⟨h.nodup, List.nodup_singleton name, fun a ha b hb hab => hunseen ?_⟩
    rw [← List.mem_singleton.1 hb, ← hab, ← h.queued_seen]
    exact ha

theorem Search.QueuesOnce.foldl_look (h : s.QueuesOnce) (names : List String) :
    (names.foldl Search.look s).QueuesOnce := by
  induction names generalizing s with
  | nil => exact h
  | cons name names ih => exact ih (h.look name)

theorem Search.QueuesOnce.turn (h : s.QueuesOnce) (hturn : table.Turn s t) : t.QueuesOnce := by
  cases hturn with
  | visit current seen queue queued =>
      have htaken : (⟨seen, queue, queued⟩ : Search).QueuesOnce := ⟨h.queued_seen, h.nodup⟩
      exact htaken.foldl_look _

theorem Search.QueuesOnce.turns (h : s.QueuesOnce) (hturns : table.Turns s t) : t.QueuesOnce := by
  induction hturns with
  | refl => exact h
  | tail _ hlast ih => exact ih.turn hlast

theorem Search.queuesOnce_start : Search.start.QueuesOnce := ⟨rfl, List.nodup_singleton _⟩

/-! ## Where the turns lead -/

theorem Turn.unique (h : table.Turn s t) (h' : table.Turn s u) : t = u := by
  cases h
  cases h'
  rfl

theorem Turns.continued (hlast : ∀ v, ¬ table.Turn u v) (h : table.Turns s u)
    (h' : table.Turns s t) : table.Turns t u := by
  induction h' with
  | refl => exact h
  | tail _ hstep ih =>
      rcases Relation.ReflTransGen.cases_head ih with rfl | ⟨v, hfirst, hrest⟩
      · exact absurd hstep (hlast _)
      · exact hstep.unique hfirst ▸ hrest

private theorem not_turn_of_done (seen queued : List String) (t : Search) :
    ¬ table.Turn ⟨seen, [], queued⟩ t := by
  intro h
  cases h

/-! ## A turn as one visit -/

theorem Search.foldl_look (s : Search) (names : List String) :
    names.foldl Search.look s =
      s.join (names.filter fun n => !s.seen.contains n).eraseDups := by
  induction names generalizing s with
  | nil => simp [Search.join]
  | cons name names ih =>
      rw [List.foldl_cons, ih]
      by_cases hseen : name ∈ s.seen
      · rw [Search.look, if_pos hseen, List.filter_cons_of_neg (by simpa using hseen)]
      · have hlater : (names.filter fun n => !(s.seen ++ [name]).contains n) =
            (names.filter fun n => !s.seen.contains n).filter fun n => !n == name := by
          rw [List.filter_filter]
          refine List.filter_congr fun n _ => ?_
          by_cases hn : n = name <;> simp [hn]
        rw [Search.look, if_neg hseen, List.filter_cons_of_pos (by simpa using hseen),
          List.eraseDups_cons, hlater]
        simp [Search.join]

private theorem turn_fresh (table : SuccessorTable σ) (current : String)
    (seen queue queued : List String) :
    table.Turn ⟨seen, current :: queue, queued⟩
      ((⟨seen, queue, queued⟩ : Search).join (table.fresh seen current)) := by
  have h : table.Turn ⟨seen, current :: queue, queued⟩ _ := .visit current seen queue queued
  rwa [Search.foldl_look] at h

private theorem exists_turns_visit (table : SuccessorTable σ) (fuel : Nat)
    (seen queue queued : List String)
    (hfuel : table.pending seen queue ≤ fuel) :
    ∃ all, table.Turns ⟨seen, queue, queued⟩ ⟨table.visit fuel seen queue, [], all⟩ := by
  induction fuel generalizing seen queue queued with
  | zero =>
      have hqueue : queue = [] := by
        unfold pending at hfuel
        exact List.eq_nil_of_length_eq_zero (by omega)
      subst hqueue
      exact ⟨queued, .refl⟩
  | succ fuel ih =>
      cases queue with
      | nil => exact ⟨queued, .refl⟩
      | cons current queue =>
          have hless := table.pending_visited seen queue current
          obtain ⟨all, hall⟩ := ih (seen ++ table.fresh seen current)
            (queue ++ table.fresh seen current) (queued ++ table.fresh seen current) (by omega)
          exact ⟨all, .head (table.turn_fresh current seen queue queued) hall⟩

/-! ## The whole search -/

/-- Every search comes to its end, with no name queued twice on the way, and has then seen exactly
the names that can be reached from the start. -/
theorem search_ends (table : SuccessorTable σ) :
    ∃ last : Search, last.queue = [] ∧ last.seen = table.reachable ∧
      (∀ s, table.Turns Search.start s → table.Turns s last ∧ s.queued.Nodup) ∧
      ∀ name, name ∈ last.seen ↔ table.Reaches startName name := by
  obtain ⟨all, hall⟩ := table.exists_turns_visit _ [startName] [startName] [startName]
    table.pending_start_le
  refine ⟨⟨table.reachable, [], all⟩, rfl, rfl, fun s hs => ⟨?_, ?_⟩, fun name => mem_reachable_iff⟩
  · exact Turns.continued (not_turn_of_done _ _) hall hs
  · exact (Search.queuesOnce_start.turns hs).nodup

end ChatPipeline.SuccessorTable
