import ChatPipeline.Graph.Concurrent
import ChatPipeline.Proofs.Graph.Iteration
import Mathlib.Algebra.GroupWithZero.Nat

/-!
# Runs that are interleaved

Any number of invocations of one compiled graph may be under way, and the single steps of them may
come in any order, while invocations fail, are cancelled or join at any time (`Interleaved`).  Where
nodes and conditions are functions of their value, what a step comes to depends on the stage alone,
so each stage that an invocation passes is one that it would pass alone, in whatever scene it is
opened (`Standing`).  Hence it ends as it would alone (`interleaved_agrees`).

The engine that runs a list of inputs side by side is one such order, and it loses none of them
(`gather_agrees`).
-/

namespace ChatPipeline

/-! ## Work that no scene has a say in -/

/-- What the work comes to is the same in every scene. -/
def Work.Constant (w : Work σ α) : Prop := ∃ e, ∀ s, (w none s).1 = e

namespace Work.Constant

theorem pure (a : α) : (Pure.pure a : Work σ α).Constant := ⟨.done a, fun _ => rfl⟩

theorem fail (f : Failure) : (Work.fail f : Work σ α).Constant := ⟨.failed f, fun _ => rfl⟩

/-- Work that goes by what other work comes to. -/
private theorem following {w : Work σ α} (hw : w.Constant) {w' : Work σ β}
    (h : ∀ e, ∃ e', ∀ s between, w none s = (e, between) → (w' none s).1 = e') : w'.Constant := by
  obtain ⟨e, he⟩ := hw
  obtain ⟨e', he'⟩ := h e
  exact ⟨e', fun s => he' s (w none s).2 (Prod.ext (he s) rfl)⟩

theorem bind {w : Work σ α} (hw : w.Constant) {k : α → Work σ β} (hk : ∀ a, (k a).Constant) :
    (w >>= k).Constant := by
  refine hw.following fun e => ?_
  cases e with
  | done a =>
      obtain ⟨e', he'⟩ := hk a
      refine ⟨e', fun s between hs => ?_⟩
      rw [bind_apply, hs]
      exact he' between
  | failed f => exact ⟨.failed f, fun s _ hs => by rw [bind_apply, hs]⟩
  | expired => exact ⟨.expired, fun s _ hs => by rw [bind_apply, hs]⟩

theorem ofOutcome (x : Outcome α) : (Work.ofOutcome x : Work σ α).Constant := by
  cases x with
  | ok a => exact .pure a
  | error f => exact .fail f

theorem coroutine {w : Work σ α} (hw : w.Constant) : (Work.coroutine w).Constant := by
  refine hw.following fun e => ?_
  cases e with
  | done a => exact ⟨.done a, fun s _ hs => by rw [Work.coroutine, hs]⟩
  | failed f =>
      refine ⟨.failed (if f.isStopIteration then strayStop else f), fun s _ hs => ?_⟩
      rw [Work.coroutine, hs]
  | expired => exact ⟨.expired, fun s _ hs => by rw [Work.coroutine, hs]⟩

theorem attempt {w : Work σ α} (hw : w.Constant) : (Work.attempt w).Constant := by
  refine hw.following fun e => ?_
  cases e with
  | done a => exact ⟨.done (.ok a), fun s _ hs => by rw [Work.attempt, hs]⟩
  | failed f =>
      refine ⟨if f.isExit then .failed f else .done (.error f), fun s _ hs => ?_⟩
      rw [Work.attempt, hs]
      exact apply_ite Prod.fst _ _ _
  | expired => exact ⟨.expired, fun s _ hs => by rw [Work.attempt, hs]⟩

end Work.Constant

/-- Two records tell of the same run, at different times. -/
structure RunRecord.Agrees (r r' : RunRecord) : Prop where
  status : r.status = r'.status
  path : r.path = r'.path
  output : r.output = r'.output
  error : r.error = r'.error
  exception : r.exception = r'.exception

namespace CompiledGraph

/-- What a call of a node or a condition comes to is a function of the value. -/
structure Functional (c : CompiledGraph σ) : Prop where
  nodes : ∀ name node, c.nodes.lookup name = some node → ∀ v, (node.call v).Constant
  conditions : ∀ name b, c.table.lookup name = some (.routed b) → ∀ v, (b.condition v).Constant

variable {c : CompiledGraph σ}

private theorem decide_constant {b : Branch σ} {v : Value} (h : (b.condition v).Constant) :
    (b.decide v).Constant := by
  refine h.attempt.bind fun choice => ?_
  rcases choice with f | choice
  · exact .pure _
  · dsimp only
    cases b.route? choice <;> exact .pure _

theorem Functional.step_constant (h : c.Functional) (i : Invocation) :
    (c.step i).Constant := by
  obtain ⟨stage, v, path⟩ := i
  unfold step
  cases stage with
  | «at» name =>
      dsimp only
      split
      · exact .pure _
      split
      · exact .pure _
      cases hnode : c.nodes.lookup name with
      | none => exact .fail _
      | some node =>
          refine (h.nodes name node hnode v).attempt.bind fun result => ?_
          cases result <;> exact .pure _
  | after name =>
      dsimp only
      cases hnext : c.table.lookup name with
      | none => exact .fail _
      | some successor =>
          cases successor with
          | fixed dst => exact .pure _
          | routed b =>
              refine (decide_constant (h.conditions name b hnext v)).bind fun result => ?_
              cases result <;> exact .pure _

/-- A step that is taken in one scene is taken in every other one. -/
theorem Functional.steps (h : c.Functional) {i : Invocation} {s s' : Scene σ}
    {e : Ending StepResult} (hstep : c.Steps none i s e s') (t : Scene σ) :
    ∃ t', c.Steps none i t e t' := by
  obtain ⟨e', hending⟩ := h.step_constant i
  have hsame := hending s
  rw [step_of_steps hstep] at hsame
  cases hsame
  exact ⟨(c.step i none t).2, steps_of_step (Prod.ext (hending t) rfl)⟩

/-! ## Stages of a run alone -/

/-- A run of the input passes this stage, whatever scene it is opened in. -/
def Standing (c : CompiledGraph σ) (input : Value) (i : Invocation) : Prop :=
  ∀ opening, ∃ s, c.Reached none input opening i s

private theorem standing_start (input : Value) : c.Standing input (start input) :=
  fun opening => ⟨opening, .start⟩

theorem Standing.going (hfunctional : c.Functional) {input : Value} {i i' : Invocation}
    {s s' : Scene σ} (h : c.Standing input i) (hstep : c.Steps none i s (.done (.going i')) s') :
    c.Standing input i' := by
  intro opening
  obtain ⟨t, hreached⟩ := h opening
  obtain ⟨t', hagain⟩ := hfunctional.steps hstep t
  exact ⟨t', hreached.step hagain⟩

theorem Functional.standing (h : c.Functional) {input : Value} {i : Invocation}
    {opening s : Scene σ} (hreached : c.Reached none input opening i s) : c.Standing input i := by
  induction hreached with
  | start => exact standing_start input
  | step _ hstep ih => exact ih.going h hstep

/-! ## Agreement -/

inductive EndAlike : Ending RunRecord → Ending RunRecord → Prop where
  | done (h : r.Agrees r') : EndAlike (.done r) (.done r')
  | failed (f : Failure) : EndAlike (.failed f) (.failed f)
  | expired : EndAlike .expired .expired

def closing (c : CompiledGraph σ) (since now : Instant) : Ending StepResult → Ending RunRecord
  | .done result =>
    match recordOf (c.opened since) (.ofInstant now) result with
    | .ok r => .done r
    | .error f => .failed f
  | .failed f => .failed f
  | .expired => .expired

private theorem closing_alike (since now since' now' : Instant) (e : Ending StepResult) :
    EndAlike (c.closing since now e) (c.closing since' now' e) := by
  cases e with
  | done result =>
      cases result with
      | going i | reached i => exact .done ⟨rfl, rfl, rfl, rfl, rfl⟩
      | failed path f =>
          dsimp only [closing]
          cases htext : f.message with
          | some text =>
              rw [recordOf_failed_eq_ok.2 ⟨text, htext, rfl⟩, recordOf_failed_eq_ok.2 ⟨text, htext, rfl⟩]
              exact .done ⟨rfl, rfl, rfl, rfl, rfl⟩
          | none =>
              rw [recordOf_eq_error.2 ⟨path, f, rfl, htext, rfl⟩,
                recordOf_eq_error.2 ⟨path, f, rfl, htext, rfl⟩]
              exact .failed _
  | failed f => exact .failed f
  | expired => exact .expired

private theorem record_of_closing {since now : Instant} {e : Ending StepResult} {r : RunRecord}
    (h : EndAlike (c.closing since now e) (.done r)) : ∃ result record, e = .done result ∧
      recordOf (c.opened since) (.ofInstant now) result = .ok record ∧ record.Agrees r := by
  cases e with
  | done result =>
      dsimp only [closing] at h
      cases hrecord : recordOf (c.opened since) (.ofInstant now) result with
      | ok record =>
          rw [hrecord] at h
          cases h with
          | done hagrees => exact ⟨result, record, rfl, hrecord, hagrees⟩
      | error f =>
          rw [hrecord] at h
          cases h
  | failed f => cases h
  | expired => cases h

theorem run_of_last_step {deadline : Option Instant} {input : Value} {opening s s' : Scene σ}
    {i : Invocation} {e : Ending StepResult} (h : c.Reached deadline input opening i s)
    (hlast : c.Steps deadline i s e s') (hfinal : Final e) :
    c.run input deadline opening = (c.closing opening.now s'.now e, s') := by
  rw [run_apply, advance_of_last_step h hlast hfinal]
  cases e with
  | done result =>
      dsimp only [closing]
      cases recordOf (c.opened opening.now) (.ofInstant s'.now) result <;> rfl
  | failed f => rfl
  | expired => rfl

theorem Standing.ends_alike (hfunctional : c.Functional) {input : Value} {i : Invocation}
    {s s' : Scene σ} {e : Ending StepResult} (h : c.Standing input i)
    (hlast : c.Steps none i s e s') (hfinal : Final e) (since now : Instant) (alone : Scene σ) :
    EndAlike (c.closing since now e) (c.run input none alone).1 := by
  obtain ⟨t, hreached⟩ := h alone
  obtain ⟨t', hagain⟩ := hfunctional.steps hlast t
  rw [run_of_last_step hreached hagain hfinal]
  exact closing_alike _ _ _ _ e

theorem Functional.run_alike (h : c.Functional) (input : Value) (s t : Scene σ) :
    EndAlike (c.run input none s).1 (c.run input none t).1 := by
  obtain ⟨i, between, e, s', hreached, hlast, hfinal, -⟩ := c.exists_last_step none input s
  rw [run_of_last_step hreached hlast hfinal]
  exact (h.standing hreached).ends_alike h hlast hfinal _ _ t

/-! ## Interleavings -/

inductive Progress where
  | running (i : Invocation)
  | ended (e : Ending RunRecord)
  | cancelled

structure Seat where
  input : Value
  since : Instant
  steps : Nat := 0
  progress : Progress := .running (start input)

/-- One event: an invocation joins, takes a step, or is cancelled in the middle of whatever it does.
Between the steps the scene is in the hands of others. -/
inductive Moves (c : CompiledGraph σ) :
    Scene σ → List Seat → Scene σ → List Seat → Prop where
  | joins (input : Value) : Moves c s seats s (seats ++ [{ input, since := s.now }])
  | goes (hstep : c.Steps none i s (.done (.going i')) s') :
      Moves c s (before ++ ⟨input, since, steps, .running i⟩ :: after)
        s' (before ++ ⟨input, since, steps + 1, .running i'⟩ :: after)
  | ends (hstep : c.Steps none i s e s') (hfinal : Final e) :
      Moves c s (before ++ ⟨input, since, steps, .running i⟩ :: after)
        s' (before ++ ⟨input, since, steps + 1, .ended (c.closing since s'.now e)⟩ :: after)
  | cancels (s' : Scene σ) :
      Moves c s (before ++ ⟨input, since, steps, .running i⟩ :: after)
        s' (before ++ ⟨input, since, steps, .cancelled⟩ :: after)
  | passes (s' : Scene σ) : Moves c s seats s' seats

/-- Invocations under way, and those that are over, after any number of events. -/
inductive Interleaved (c : CompiledGraph σ) (opening : Scene σ) : Scene σ → List Seat → Prop where
  | start : Interleaved c opening opening []
  | step (h : Interleaved c opening s seats) (hmove : Moves c s seats s' seats') :
      Interleaved c opening s' seats'

/-- The invocation stands where it would stand alone. -/
inductive Undisturbed (c : CompiledGraph σ) : Seat → Prop where
  | running (h : c.Standing input i) (hsteps : steps + c.remaining i = c.stepBound) :
      Undisturbed c ⟨input, since, steps, .running i⟩
  | ended (h : ∀ alone, EndAlike e (c.run input none alone).1) (hsteps : steps ≤ c.stepBound) :
      Undisturbed c ⟨input, since, steps, .ended e⟩
  | cancelled (hsteps : steps ≤ c.stepBound) : Undisturbed c ⟨input, since, steps, .cancelled⟩

theorem Undisturbed.steps_le {seat : Seat} (h : c.Undisturbed seat) : seat.steps ≤ c.stepBound := by
  cases h with
  | running _ hsteps => exact Nat.le.intro hsteps
  | ended _ hsteps => exact hsteps
  | cancelled hsteps => exact hsteps

private theorem forall_mem_replaced {p : α → Prop} {before after : List α} {a b : α}
    (h : ∀ x ∈ before ++ a :: after, p x) (hb : p a → p b) : ∀ x ∈ before ++ b :: after, p x := by
  rw [List.forall_mem_append, List.forall_mem_cons] at h ⊢
  exact ⟨h.1, hb h.2.1, h.2.2⟩

theorem Moves.undisturbed (hfunctional : c.Functional) {s s' : Scene σ} {seats seats' : List Seat}
    (hmove : c.Moves s seats s' seats') (h : ∀ seat ∈ seats, c.Undisturbed seat) :
    ∀ seat ∈ seats', c.Undisturbed seat := by
  cases hmove with
  | joins input =>
      rw [List.forall_mem_append]
      refine ⟨h, List.forall_mem_singleton.2 (.running (standing_start input) ?_)⟩
      rw [remaining_start, Nat.zero_add]
  | goes hstep =>
      refine forall_mem_replaced h fun hseat => ?_
      cases hseat with
      | running hstanding hsteps =>
          have hremaining := hstep.remaining_going
          exact .running (hstanding.going hfunctional hstep) (by omega)
  | @ends i _ e _ _ _ _ _ _ hstep hfinal =>
      refine forall_mem_replaced h fun hseat => ?_
      cases hseat with
      | running hstanding hsteps =>
          obtain ⟨left, hleft⟩ := c.exists_remaining_eq i
          exact .ended (hstanding.ends_alike hfunctional hstep hfinal _ _) (by omega)
  | cancels s' =>
      refine forall_mem_replaced h fun hseat => ?_
      cases hseat with
      | running hstanding hsteps => exact .cancelled (by omega)
  | passes s' => exact h

theorem Interleaved.undisturbed (hfunctional : c.Functional) {opening s : Scene σ}
    {seats : List Seat} (h : c.Interleaved opening s seats) :
    ∀ seat ∈ seats, c.Undisturbed seat := by
  induction h with
  | start => simp
  | step _ hmove ih => exact hmove.undisturbed hfunctional ih

/-- Whatever the others do or have done, an invocation can be brought to its end. -/
theorem Interleaved.exists_ended {opening s : Scene σ} {before after : List Seat} {input : Value}
    {since steps : Nat} {i : Invocation}
    (h : c.Interleaved opening s (before ++ ⟨input, since, steps, .running i⟩ :: after)) :
    ∃ s' steps' e,
      c.Interleaved opening s' (before ++ ⟨input, since, steps', .ended e⟩ :: after) := by
  -- on the steps that remain to the invocation
  induction hleft : c.remaining i using Nat.strongRecOn generalizing i s steps with
  | ind left ih =>
      obtain ⟨e, s', hstep⟩ : ∃ e s', c.Steps none i s e s' := ⟨_, _, steps_of_step rfl⟩
      rcases final_or_going e with he | ⟨i', rfl⟩
      · exact ⟨s', steps + 1, _, h.step (.ends hstep he)⟩
      · have hremaining := hstep.remaining_going
        exact ih _ (by omega) (h.step (.goes hstep)) rfl

/-- However the steps of any invocations are interleaved, an invocation that ends ends as it would
alone.  One that is neither over nor cancelled can still be brought to its end, in the few steps
that it may take. -/
theorem interleaved_agrees {g : Graph σ} {maxSteps : Option Int} {c copy : CompiledGraph σ}
    (hcompiled : g.compile maxSteps = .ok c) (hcopy : g.compile maxSteps = .ok copy)
    (hfunctional : c.Functional) {opening s : Scene σ} {before after : List Seat} {seat : Seat}
    (h : c.Interleaved opening s (before ++ seat :: after)) :
    seat.steps ≤ copy.stepBound ∧
      (∀ e, seat.progress = .ended e → ∀ alone, EndAlike e (copy.run seat.input none alone).1) ∧
      ∀ i, seat.progress = .running i → ∃ s' steps e,
        c.Interleaved opening s' (before ++ ⟨seat.input, seat.since, steps, .ended e⟩ :: after) := by
  rw [hcompiled] at hcopy
  cases hcopy
  have hundisturbed := h.undisturbed hfunctional seat (by simp)
  refine ⟨hundisturbed.steps_le, fun e he => ?_, fun i hi => ?_⟩
  · cases hundisturbed with
    | ended halike => exact Progress.ended.inj he ▸ halike
    | running => cases he
    | cancelled => cases he
  · obtain ⟨input, since, steps, progress⟩ := seat
    cases hi
    exact h.exists_ended

private theorem functional_looping {c : CompiledGraph Unit}
    (h : (Graph.built "loop" .bindings Graph.looping).compile none = .ok c) : c.Functional := by
  rw [Graph.built_looping, Graph.compile_eq_ok_iff] at h
  obtain ⟨-, -, rfl⟩ := h
  constructor
  · intro name node hnode v
    have hmem := Table.mem_of_lookup hnode
    rw [List.mem_singleton] at hmem
    cases hmem
    unfold Node.call
    split
    · exact ⟨_, fun s => rfl⟩
    · exact .fail _
  · intro name b hnext v
    rcases Graph.mem_successorTable.1 (Table.mem_of_lookup hnext) with ⟨e, -, he⟩ | ⟨b', hb, he⟩
    · cases he
    · cases he
      rw [List.mem_singleton] at hb
      cases hb
      exact .pure _

/-- One invocation is cancelled after its first step, another one joins it and comes to its end. -/
theorem looping_interleaved : ∃ c s steps e,
    (Graph.built "loop" .bindings Graph.looping).compile none = .ok c ∧
      c.Interleaved { world := () } s
        [⟨.dict [], 0, 1, .cancelled⟩, ⟨.dict [], 0, steps, .ended e⟩] ∧
      ∀ alone, EndAlike e (c.run (.dict []) none alone).1 := by
  obtain ⟨c, h⟩ := Graph.compile_looping
  have hnext : c.table.lookup startName = some (.fixed "spin") := by
    have hc := h
    rw [Graph.built_looping, Graph.compile_eq_ok_iff] at hc
    obtain ⟨-, -, rfl⟩ := hc
    rfl
  have hfirst : c.Interleaved { world := () } { world := () }
      ([] ++ ⟨.dict [], 0, 0, .running (start (.dict []))⟩ :: []) :=
    Interleaved.start.step (.joins (.dict []))
  have hgone : c.Interleaved { world := () } { world := () }
      ([] ++ ⟨.dict [], 0, 1, .running ⟨.at "spin", .dict [], []⟩⟩ :: []) :=
    hfirst.step (.goes (.followed hnext))
  have hboth : c.Interleaved { world := () } { world := () }
      ([] ++ ⟨.dict [], 0, 1, .running ⟨.at "spin", .dict [], []⟩⟩ ::
        [⟨.dict [], 0, 0, .running (start (.dict []))⟩]) :=
    hgone.step (.joins (.dict []))
  have hcancelled : c.Interleaved { world := () } { world := () }
      ([⟨.dict [], 0, 1, .cancelled⟩] ++ ⟨.dict [], 0, 0, .running (start (.dict []))⟩ :: []) :=
    hboth.step (.cancels { world := () })
  obtain ⟨s, steps, e, hended⟩ := hcancelled.exists_ended
  obtain ⟨-, halike, -⟩ := interleaved_agrees h h (functional_looping h) hended
  exact ⟨c, s, steps, e, h, hended, halike e rfl⟩

/-! ## Runs side by side -/

/-- The record of a place tells of the run of the input there, as it would go alone. -/
def Tells (c : CompiledGraph σ) (inputs : List Value) (place : Nat) (r : RunRecord) : Prop :=
  ∃ input, inputs[place]? = some input ∧ ∀ alone, EndAlike (.done r) (c.run input none alone).1

structure InTurn (c : CompiledGraph σ) (inputs : List Value) (t : Turn) : Prop where
  standing : ∃ input, inputs[t.place]? = some input ∧ c.Standing input t.invocation
  opened : ∃ since, t.record = c.opened since

private theorem resume_perm (t : Turn) (i : Invocation) (now : Instant) (queue : List Turn) :
    (resume t i now queue).Perm ({ t with invocation := i, time := now } :: queue) := by
  unfold resume
  dsimp only
  split
  · exact .refl _
  · exact enqueue_perm _ queue

def stepsLeft (c : CompiledGraph σ) (queue : List Turn) : Nat :=
  (queue.map fun t => c.remaining t.invocation).sum

variable {fuel : Nat} {t : Turn} {queue : List Turn} {s s' : Scene σ}

private theorem takeTurns_cons (c : CompiledGraph σ) (fuel : Nat) (t : Turn) (queue : List Turn)
    (deadline : Option Instant) (s : Scene σ) :
    c.takeTurns (fuel + 1) (t :: queue) deadline s =
      let (ending, after) := c.step t.invocation deadline { s with now := t.time }
      let latest := { after with now := max s.now after.now }
      match ending with
      | .done (.going i) => takeTurns c fuel (resume t i after.now queue) deadline latest
      | .done r =>
        match recordOf t.record (.ofInstant after.now) r with
        | .ok record =>
          Work.bind (takeTurns c fuel queue)
            (fun records => Work.pure ((t.place, record) :: records)) deadline latest
        | .error f => (.failed f, latest)
      | .failed f => (.failed f, latest)
      | .expired => (.expired, latest) := rfl

private theorem takeTurns_going {i : Invocation}
    (h : c.step t.invocation none { s with now := t.time } = (.done (.going i), s')) :
    c.takeTurns (fuel + 1) (t :: queue) none s =
      c.takeTurns fuel (resume t i s'.now queue) none { s' with now := max s.now s'.now } := by
  rw [takeTurns_cons, h]

private theorem takeTurns_over {result : StepResult} (hfinal : Final (.done result))
    (h : c.step t.invocation none { s with now := t.time } = (.done result, s'))
    {r : RunRecord} (hrecord : recordOf t.record (.ofInstant s'.now) result = .ok r)
    {records : List (Nat × RunRecord)} {s'' : Scene σ}
    (hrest : c.takeTurns fuel queue none { s' with now := max s.now s'.now } =
      (.done records, s'')) :
    c.takeTurns (fuel + 1) (t :: queue) none s =
      (.done ((t.place, r) :: records), s'') := by
  rw [takeTurns_cons, h]
  cases result with
  | going i => exact absurd rfl (hfinal i)
  | reached i | failed path f => simp only [hrecord, Work.bind, hrest, Work.pure]

private theorem stepsLeft_resume (t : Turn) (i : Invocation) (now : Instant) (queue : List Turn) :
    c.stepsLeft (resume t i now queue) = c.remaining i + c.stepsLeft queue := by
  rw [stepsLeft, ((resume_perm t i now queue).map _).sum_nat, List.map_cons, List.sum_cons,
    stepsLeft]

private theorem InTurn.resume (hfunctional : c.Functional) {inputs : List Value}
    (hqueue : ∀ u ∈ t :: queue, c.InTurn inputs u) {i : Invocation}
    (hsteps : c.Steps none t.invocation s (.done (.going i)) s') (now : Instant) :
    ∀ u ∈ resume t i now queue, c.InTurn inputs u := by
  obtain ⟨⟨⟨input, hinput, hstanding⟩, hopened⟩, hrest⟩ := List.forall_mem_cons.1 hqueue
  intro u hu
  rcases List.mem_cons.1 ((resume_perm t i now queue).mem_iff.1 hu) with rfl | hu
  · exact ⟨⟨input, hinput, hstanding.going hfunctional hsteps⟩, hopened⟩
  · exact hrest u hu

def Recorded (c : CompiledGraph σ) (inputs : List Value) : Prop :=
  ∀ input ∈ inputs, ∀ alone, ∃ r s', c.run input none alone = (.done r, s')

private theorem takeTurns_agree (hfunctional : c.Functional) {inputs : List Value}
    (hrecorded : c.Recorded inputs) {fuel : Nat} {queue : List Turn} (s : Scene σ)
    (hqueue : ∀ t ∈ queue, c.InTurn inputs t) (hfuel : c.stepsLeft queue ≤ fuel) :
    ∃ records s', c.takeTurns fuel queue none s = (.done records, s') ∧
      (records.map Prod.fst).Perm (queue.map Turn.place) ∧
      ∀ entry ∈ records, c.Tells inputs entry.1 entry.2 := by
  induction fuel generalizing queue s with
  | zero =>
      cases queue with
      | nil => exact ⟨[], s, rfl, .refl _, by simp⟩
      | cons t queue =>
          obtain ⟨left, hleft⟩ := c.exists_remaining_eq t.invocation
          rw [stepsLeft, List.map_cons, List.sum_cons] at hfuel
          omega
  | succ fuel ih =>
      cases queue with
      | nil => exact ⟨[], s, rfl, .refl _, by simp⟩
      | cons t queue =>
          obtain ⟨⟨⟨input, hinput, hstanding⟩, since, hopened⟩, hrest⟩ :=
            List.forall_mem_cons.1 hqueue
          rw [stepsLeft, List.map_cons, List.sum_cons] at hfuel
          obtain ⟨left, hleft⟩ := c.exists_remaining_eq t.invocation
          rcases hstep : c.step t.invocation none { s with now := t.time } with ⟨e, s'⟩
          have hsteps := steps_of_step hstep
          rcases final_or_going e with hfinal | ⟨i, rfl⟩
          · have halike := hstanding.ends_alike hfunctional hsteps hfinal since s'.now
            obtain ⟨r, after, halone⟩ := hrecorded input (List.mem_of_getElem? hinput) s
            obtain ⟨result, record, rfl, hrecord, -⟩ :=
              record_of_closing (r := r) (by simpa only [halone] using halike s)
            obtain ⟨records, s'', hrecords, hplaces, htell⟩ :=
              ih { s' with now := max s.now s'.now } hrest (by rw [stepsLeft]; omega)
            have hover := takeTurns_over hfinal hstep (hopened ▸ hrecord) hrecords
            refine ⟨_, s'', hover, hplaces.cons t.place, ?_⟩
            refine List.forall_mem_cons.2 ⟨⟨input, hinput, ?_⟩, htell⟩
            simpa only [closing, hrecord] using halike
          · have hremaining := hsteps.remaining_going
            have hleft' : c.stepsLeft (resume t i s'.now queue) ≤ fuel := by
              rw [stepsLeft_resume, stepsLeft]
              omega
            obtain ⟨records, s'', hrecords, hplaces, htell⟩ :=
              ih { s' with now := max s.now s'.now } (.resume hfunctional hqueue hsteps _) hleft'
            refine ⟨records, s'', (takeTurns_going hstep).trans hrecords, ?_, htell⟩
            exact hplaces.trans ((resume_perm t i s'.now queue).map Turn.place)

private theorem forall₂_filterMap {f : α → Option β} {R : α → β → Prop} {as : List α}
    (h : ∀ a ∈ as, ∃ b, f a = some b ∧ R a b) : List.Forall₂ R as (as.filterMap f) := by
  induction as with
  | nil => exact .nil
  | cons a as ih =>
      obtain ⟨⟨b, hb, hab⟩, hrest⟩ := List.forall_mem_cons.1 h
      rw [List.filterMap_cons_some hb]
      exact .cons hab (ih hrest)

def turnsAt (c : CompiledGraph σ) (now : Instant) (inputs : List Value) : List Turn :=
  inputs.zipIdx.map fun (input, place) =>
    { place, record := c.opened now, invocation := start input, time := now : Turn }

private theorem inTurn_turnsAt (now : Instant) (inputs : List Value) :
    ∀ t ∈ c.turnsAt now inputs, c.InTurn inputs t := by
  intro t ht
  obtain ⟨⟨input, place⟩, hmem, rfl⟩ := List.mem_map.1 ht
  exact ⟨⟨input, List.mem_zipIdx_iff_getElem?.1 hmem, standing_start input⟩, now, rfl⟩

private theorem stepsLeft_turnsAt (now : Instant) (inputs : List Value) :
    c.stepsLeft (c.turnsAt now inputs) = inputs.length * c.stepBound := by
  have hstart : (fun t : Turn => c.remaining t.invocation) ∘ (fun (input, place) =>
      { place, record := c.opened now, invocation := start input, time := now : Turn }) =
      fun _ => c.stepBound := by
    funext ⟨input, place⟩
    exact c.remaining_start input
  rw [stepsLeft, turnsAt, List.map_map, hstart, List.map_const', List.sum_replicate_nat,
    List.length_zipIdx]

private theorem places_turnsAt (now : Instant) (inputs : List Value) :
    (c.turnsAt now inputs).map Turn.place = List.range inputs.length := by
  rw [turnsAt, List.map_map, List.range_eq_range', ← List.zipIdx_map_snd 0 inputs]
  rfl

private theorem exists_lookup {records : List (Nat × RunRecord)} {place : Nat}
    (h : place ∈ records.map Prod.fst) :
    ∃ r, records.lookup place = some r ∧ (place, r) ∈ records := by
  obtain ⟨entry, hentry, hplace⟩ := List.mem_map.1 h
  have hsome : (records.lookup place).isSome :=
    List.lookup_isSome_iff.2 ⟨entry, hentry, beq_iff_eq.2 hplace.symm⟩
  obtain ⟨r, hlookup⟩ := Option.isSome_iff_exists.1 hsome
  obtain ⟨before, after, rfl, -⟩ := List.lookup_eq_some_iff.1 hlookup
  exact ⟨r, hlookup, by simp⟩

/-- Side by side, inputs that get a record alone get the same record, in the order of the inputs. -/
theorem gather_agrees {g : Graph σ} {maxSteps : Option Int} {c copy : CompiledGraph σ}
    (hcompiled : g.compile maxSteps = .ok c) (hcopy : g.compile maxSteps = .ok copy)
    (hfunctional : c.Functional) {inputs : List Value} (hrecorded : copy.Recorded inputs)
    (s : Scene σ) : ∃ records s', c.gather inputs none s = (.done records, s') ∧
      List.Forall₂ (copy.Tells inputs) (List.range inputs.length) records := by
  rw [hcompiled] at hcopy
  cases hcopy
  obtain ⟨records, s', hturns, hplaces, htell⟩ := takeTurns_agree hfunctional hrecorded s
    (inTurn_turnsAt s.now inputs) (Nat.le_of_eq (stepsLeft_turnsAt _ _))
  rw [places_turnsAt] at hplaces
  refine ⟨(List.range inputs.length).filterMap fun place => records.lookup place, s', ?_, ?_⟩
  · rw [turnsAt] at hturns
    simp only [gather, Work.bind_apply, Work.clock, hturns, Work.pure_apply]
  · refine forall₂_filterMap fun place hplace => ?_
    obtain ⟨r, hlookup, hmem⟩ := exists_lookup (hplaces.mem_iff.2 hplace)
    exact ⟨r, hlookup, htell _ hmem⟩

end CompiledGraph

end ChatPipeline
