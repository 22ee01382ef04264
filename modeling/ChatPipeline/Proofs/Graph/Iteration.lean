import ChatPipeline.Proofs.Graph.Building
import ChatPipeline.Proofs.Graph.Steps

/-!
# A run is the iteration it is meant to be

The reference iteration knows nothing of stages and steps: from the name that was left last it
routes to the next one, calls the node of that name, and so on for as long as it likes.  `Ends` says
where such an iteration has to stop and with what, and a run gives exactly that
(`run_eq_iteration`).

Each stage of a run carries the iteration that led to it (`Traced`), which gives one direction.  For
the other, an iteration within the bound is replayed step by step (`Leaves.reached`).
-/

/-! ## Conditions that come to an end -/

namespace ChatPipeline

namespace Branch

private theorem decide_settled {b : Branch σ} {v : Value} {deadline : Option Instant} {s : Scene σ}
    (h : (b.condition v deadline s).1.Settled) : (b.decide v deadline s).1.Settled := by
  rw [decide_apply]
  rcases hchoice : b.condition v deadline s with ⟨choice | f | _, s'⟩
  · dsimp only
    cases b.route? choice <;> trivial
  · have hf : f.isExit = false := h.of_eq hchoice
    simp only [hf]
    trivial
  · exact (h.of_eq hchoice).elim

end Branch

namespace CompiledGraph

/-- No call of a node or a condition is cancelled or runs out of time. -/
structure Settled (c : CompiledGraph σ) (deadline : Option Instant) : Prop where
  nodes : ∀ name node, c.nodes.lookup name = some node →
    ∀ v s, (node.call v deadline s).1.Settled
  conditions : ∀ name b, c.table.lookup name = some (.routed b) →
    ∀ v s, (b.condition v deadline s).1.Settled

theorem Settled.called {c : CompiledGraph σ} {deadline : Option Instant}
    (h : c.Settled deadline) {name : String} {node : Node σ}
    (hnode : c.nodes.lookup name = some node) {v : Value} {s s' : Scene σ} {e : Ending Value}
    (hcall : node.call v deadline s = (e, s')) : e.Settled :=
  (h.nodes name node hnode v s).of_eq hcall

theorem Settled.chosen {c : CompiledGraph σ} {deadline : Option Instant}
    (h : c.Settled deadline) {name : String} {b : Branch σ}
    (hnext : c.table.lookup name = some (.routed b)) {v : Value} {s s' : Scene σ}
    {e : Ending Value} (hchoice : b.condition v deadline s = (e, s')) : e.Settled :=
  (h.conditions name b hnext v s).of_eq hchoice

theorem Settled.decided {c : CompiledGraph σ} {deadline : Option Instant}
    (h : c.Settled deadline) {name : String} {b : Branch σ}
    (hnext : c.table.lookup name = some (.routed b)) {v : Value} {s s' : Scene σ}
    {e : Ending (Outcome String)} (hchoice : b.decide v deadline s = (e, s')) : e.Settled :=
  (Branch.decide_settled (h.conditions name b hnext v s)).of_eq hchoice

/-! ## The reference iteration -/

/-- What routing from a name comes to: the target of its edge, or what the condition of its branch
gives if that is a target. -/
inductive Routes (c : CompiledGraph σ) (deadline : Option Instant) :
    String → Value → Scene σ → Outcome String → Scene σ → Prop where
  | edge (hnext : c.table.lookup src = some (.fixed dst)) :
      Routes c deadline src v s (.ok dst) s
  | branch (hnext : c.table.lookup src = some (.routed b))
      (hchoice : b.condition v deadline s = (.done choice, s')) (htext : choice.text? = some dst)
      (hdst : dst ∈ b.targets) :
      Routes c deadline src v s (.ok dst) s'
  | stray (hnext : c.table.lookup src = some (.routed b))
      (hchoice : b.condition v deadline s = (.done choice, s'))
      (hstray : ∀ dst ∈ b.targets, choice.text? ≠ some dst) :
      Routes c deadline src v s (.error (.invalidRoute src choice b.targets)) s'
  | broken (hnext : c.table.lookup src = some (.routed b))
      (hchoice : b.condition v deadline s = (.failed f, s')) :
      Routes c deadline src v s (.error (.branchFailed src f)) s'

/-- The iteration ran the nodes of a path; the last of them left a value. -/
inductive Leaves (c : CompiledGraph σ) (deadline : Option Instant) (input : Value)
    (opening : Scene σ) : List String → Value → Scene σ → Prop where
  | start : Leaves c deadline input opening [] input opening
  | next (h : Leaves c deadline input opening path v s)
      (hroute : c.Routes deadline (lastOf path) v s (.ok dst) s') (hdst : dst ≠ endName)
      (hnode : c.nodes.lookup dst = some node)
      (hcall : node.call v deadline s' = (.done v', s'')) :
      Leaves c deadline input opening (path ++ [dst]) v' s''

inductive Finish where
  | completed (path : List String) (output : Value)
  | failed (path : List String) (f : Failure)

/-- The first event that ends the iteration. -/
inductive Ends (c : CompiledGraph σ) (deadline : Option Instant) (input : Value)
    (opening : Scene σ) : Finish → Scene σ → Prop where
  | completed (h : Leaves c deadline input opening path v s) (hbound : path.length ≤ c.maxSteps)
      (hroute : c.Routes deadline (lastOf path) v s (.ok endName) s') :
      Ends c deadline input opening (.completed path v) s'
  | misrouted (h : Leaves c deadline input opening path v s) (hbound : path.length ≤ c.maxSteps)
      (hroute : c.Routes deadline (lastOf path) v s (.error f) s') :
      Ends c deadline input opening (.failed path f) s'
  | exhausted (h : Leaves c deadline input opening path v s) (hbound : path.length = c.maxSteps)
      (hroute : c.Routes deadline (lastOf path) v s (.ok dst) s') (hdst : dst ≠ endName) :
      Ends c deadline input opening (.failed path (.stepLimit c.maxSteps)) s'
  | nodeFailed (h : Leaves c deadline input opening path v s) (hbelow : path.length < c.maxSteps)
      (hroute : c.Routes deadline (lastOf path) v s (.ok dst) s') (hdst : dst ≠ endName)
      (hnode : c.nodes.lookup dst = some node)
      (hcall : node.call v deadline s' = (.failed f, s'')) :
      Ends c deadline input opening (.failed (path ++ [dst]) (.nodeFailed dst f)) s''

/-- A run shows what its iteration ended in: a record says it all, unless the failure that ended the
iteration has no text.  No record can be made of that one, and the run fails with what comes up
instead. -/
def Finish.ShownBy : Finish → Ending RunRecord → Prop
  | .completed path output, .done r =>
    r.status = .completed ∧ r.path = path ∧ r.output = output ∧ r.error = none ∧ r.exception = none
  | .failed path f, .done r =>
    r.status = .failed ∧ r.path = path ∧ r.output = .none ∧ r.error = f.message ∧
      r.error.isSome = true ∧ r.exception = some f
  | .failed _ f, .failed escaped => f.message = none ∧ escaped = .unwritable
  | _, _ => False

theorem Finish.ShownBy.exists_record {e : Finish} {ending : Ending RunRecord} (h : e.ShownBy ending)
    (htold : ∀ path f, e = .failed path f → f.message ≠ none) : ∃ r, ending = .done r := by
  cases ending with
  | done r => exact ⟨r, rfl⟩
  | failed escaped =>
      cases e with
      | completed => exact h.elim
      | failed path f => exact absurd h.1 (htold path f rfl)
  | expired => cases e <;> exact h.elim

theorem Finish.ShownBy.unique {e e' : Finish} {r : RunRecord} (h : e.ShownBy (.done r))
    (h' : e'.ShownBy (.done r)) : e = e' := by
  cases e with
  | completed path output =>
      obtain ⟨hstatus, rfl, rfl, -⟩ := h
      cases e' with
      | completed =>
          obtain ⟨-, rfl, rfl, -⟩ := h'
          rfl
      | failed => exact absurd (hstatus.symm.trans h'.1) nofun
  | failed path f =>
      obtain ⟨hstatus, rfl, -, -, -, hexception⟩ := h
      cases e' with
      | completed => exact absurd (hstatus.symm.trans h'.1) nofun
      | failed path' f' =>
          obtain ⟨-, rfl, -, -, -, hexception'⟩ := h'
          rw [hexception, Option.some.injEq] at hexception'
          rw [hexception']

def StepResult.finish? : StepResult → Option Finish
  | .going _ => none
  | .reached i => some (.completed i.path i.value)
  | .failed path f => some (.failed path f)

private theorem shownBy_recordOf (c : CompiledGraph σ) (started : Instant) (now : Timestamp)
    {result : StepResult} {e : Finish} (h : result.finish? = some e) (deadline : Option Instant)
    (s : Scene σ) :
    e.ShownBy (Work.ofOutcome (recordOf (c.opened started) now result) deadline s).1 := by
  cases result with
  | going i => cases h
  | reached i =>
      cases h
      exact ⟨rfl, rfl, rfl, rfl, rfl⟩
  | failed path f =>
      cases h
      cases htext : f.message with
      | some text =>
          rw [recordOf_failed_eq_ok.2 ⟨text, htext, rfl⟩]
          exact ⟨rfl, rfl, rfl, htext.symm, rfl, rfl⟩
      | none =>
          rw [recordOf_eq_error.2 ⟨path, f, rfl, htext, rfl⟩]
          exact ⟨htext, rfl⟩

private theorem final_of_finish {result : StepResult} {e : Finish} (h : result.finish? = some e) :
    Final (.done result) := by
  rintro i ⟨⟩
  cases h

/-! ## From the iteration to the run -/

theorem Routes.going {c : CompiledGraph σ} {deadline : Option Instant} {src dst : String}
    {v : Value} {s s' : Scene σ} (h : c.Routes deadline src v s (.ok dst) s')
    (path : List String) :
    c.Steps deadline ⟨.after src, v, path⟩ s (.done (.going ⟨.at dst, v, path⟩)) s' := by
  cases h with
  | edge hnext => exact .followed hnext
  | branch hnext hchoice htext hdst =>
      exact .chosen hnext (Branch.decide_eq_ok_iff.2 ⟨_, hchoice, htext, hdst⟩)

theorem Routes.failing {c : CompiledGraph σ} (hsound : c.Sound) {deadline : Option Instant}
    (hsettled : c.Settled deadline) {src : String} {v : Value} {s s' : Scene σ} {f : Failure}
    (h : c.Routes deadline src v s (.error f) s') (path : List String) :
    c.Steps deadline ⟨.after src, v, path⟩ s (.done (.failed path f)) s' := by
  cases h with
  | stray hnext hchoice hstray =>
      refine .misrouted hnext ?_
      rw [Branch.decide_eq_error_iff, hsound.branch_src _ _ hnext]
      exact .inl ⟨_, hchoice, hstray, rfl⟩
  | broken hnext hchoice =>
      refine .misrouted hnext ?_
      rw [Branch.decide_eq_error_iff, hsound.branch_src _ _ hnext]
      exact .inr ⟨_, hchoice, hsettled.chosen hnext hchoice, rfl⟩

theorem Leaves.reached {c : CompiledGraph σ} {deadline : Option Instant} {input v : Value}
    {opening s : Scene σ} {path : List String} (h : c.Leaves deadline input opening path v s)
    (hbound : path.length ≤ c.maxSteps) :
    c.Reached deadline input opening ⟨.after (lastOf path), v, path⟩ s := by
  induction h with
  | start => exact .start
  | next _ hroute hdst hnode hcall ih =>
      rw [List.length_append, List.length_singleton] at hbound
      -- one step leads to the node and one through it
      have hentered := (ih (by omega)).step (hroute.going _)
      rw [lastOf_concat]
      exact hentered.step (.ran hdst (by omega) hnode hcall)

theorem Ends.last_step {c : CompiledGraph σ} (hsound : c.Sound) {deadline : Option Instant}
    (hsettled : c.Settled deadline) {input : Value} {opening s' : Scene σ} {e : Finish}
    (h : c.Ends deadline input opening e s') :
    ∃ i s result, c.Reached deadline input opening i s ∧ c.Steps deadline i s (.done result) s' ∧
      result.finish? = some e := by
  cases h with
  | completed h hbound hroute =>
      exact ⟨_, _, _, (h.reached hbound).step (hroute.going _), .reached, rfl⟩
  | misrouted h hbound hroute =>
      exact ⟨_, _, _, h.reached hbound, hroute.failing hsound hsettled _, rfl⟩
  | exhausted h hbound hroute hdst =>
      exact ⟨_, _, _, (h.reached hbound.le).step (hroute.going _), .limited hdst hbound.ge, rfl⟩
  | nodeFailed h hbelow hroute hdst hnode hcall =>
      exact ⟨_, _, _, (h.reached hbelow.le).step (hroute.going _),
        .nodeFailed hdst hbelow hnode hcall (hsettled.called hnode hcall), rfl⟩

theorem Ends.advance_eq {c : CompiledGraph σ} (hsound : c.Sound) {deadline : Option Instant}
    (hsettled : c.Settled deadline) {input : Value} {opening s' : Scene σ} {e : Finish}
    (h : c.Ends deadline input opening e s') :
    ∃ result, c.advance c.stepBound (start input) deadline opening = (.done result, s') ∧
      result.finish? = some e := by
  obtain ⟨i, s, result, hreached, hlast, hfinish⟩ := h.last_step hsound hsettled
  exact ⟨result, advance_of_last_step hreached hlast (final_of_finish hfinish), hfinish⟩

theorem Ends.unique {c : CompiledGraph σ} (hsound : c.Sound) {deadline : Option Instant}
    (hsettled : c.Settled deadline) {input : Value} {opening s t : Scene σ} {e e' : Finish}
    (h : c.Ends deadline input opening e s) (h' : c.Ends deadline input opening e' t) :
    e = e' ∧ s = t := by
  obtain ⟨result, hadvance, hfinish⟩ := h.advance_eq hsound hsettled
  obtain ⟨result', hadvance', hfinish'⟩ := h'.advance_eq hsound hsettled
  rw [hadvance] at hadvance'
  cases hadvance'
  exact ⟨Option.some.inj (hfinish.symm.trans hfinish'), rfl⟩

private theorem run_of_finish {c : CompiledGraph σ} {deadline : Option Instant} {input : Value}
    {opening s s' : Scene σ} {i : Invocation} {result : StepResult} {e : Finish}
    (hreached : c.Reached deadline input opening i s)
    (hlast : c.Steps deadline i s (.done result) s') (hfinish : result.finish? = some e) :
    ∃ ending, c.run input deadline opening = (ending, s') ∧ e.ShownBy ending := by
  refine ⟨_, ?_, c.shownBy_recordOf opening.now (.ofInstant s'.now) hfinish deadline s'⟩
  rw [run_apply, advance_of_last_step hreached hlast (final_of_finish hfinish)]
  exact Prod.ext rfl (Work.ofOutcome_scene _ deadline s')

theorem Ends.run_eq {c : CompiledGraph σ} (hsound : c.Sound) {deadline : Option Instant}
    (hsettled : c.Settled deadline) {input : Value} {opening s' : Scene σ} {e : Finish}
    (h : c.Ends deadline input opening e s') :
    ∃ ending, c.run input deadline opening = (ending, s') ∧ e.ShownBy ending := by
  obtain ⟨i, s, result, hreached, hlast, hfinish⟩ := h.last_step hsound hsettled
  exact run_of_finish hreached hlast hfinish

/-! ### Where the bound is not reached -/

theorem Leaves.completes {c : CompiledGraph σ} {deadline : Option Instant} {input v : Value}
    {opening s s' : Scene σ} {path : List String} (h : c.Leaves deadline input opening path v s)
    (hbound : path.length ≤ c.maxSteps)
    (hroute : c.Routes deadline (lastOf path) v s (.ok endName) s') :
    ∃ ending, c.run input deadline opening = (ending, s') ∧
      (Finish.completed path v).ShownBy ending :=
  run_of_finish ((h.reached hbound).step (hroute.going _)) .reached rfl

theorem Leaves.fails {c : CompiledGraph σ} {deadline : Option Instant} {input v : Value}
    {opening s s' s'' : Scene σ} {path : List String} {dst : String} {node : Node σ} {f : Failure}
    (h : c.Leaves deadline input opening path v s) (hbelow : path.length < c.maxSteps)
    (hroute : c.Routes deadline (lastOf path) v s (.ok dst) s') (hdst : dst ≠ endName)
    (hnode : c.nodes.lookup dst = some node)
    (hcall : node.call v deadline s' = (.failed f, s'')) (hf : f.isExit = false) :
    ∃ ending, c.run input deadline opening = (ending, s'') ∧
      (Finish.failed (path ++ [dst]) (.nodeFailed dst f)).ShownBy ending :=
  run_of_finish ((h.reached hbelow.le).step (hroute.going _))
    (.nodeFailed hdst hbelow hnode hcall hf) rfl

/-! ## From the run to the iteration -/

/-- The iteration that led to a stage of a run. -/
structure Traced (c : CompiledGraph σ) (deadline : Option Instant) (input : Value)
    (opening : Scene σ) (i : Invocation) (s : Scene σ) : Prop where
  bounded : i.path.length ≤ c.maxSteps
  leaving : ∀ name, i.stage = .after name →
    name = lastOf i.path ∧ c.Leaves deadline input opening i.path i.value s
  heading : ∀ name, i.stage = .at name →
    ∃ s₀, c.Leaves deadline input opening i.path i.value s₀ ∧
      c.Routes deadline (lastOf i.path) i.value s₀ (.ok name) s

theorem Traced.following {c : CompiledGraph σ} {deadline : Option Instant} {input v : Value}
    {opening s s' : Scene σ} {name dst : String} {path : List String}
    (h : c.Traced deadline input opening ⟨.after name, v, path⟩ s)
    (hroute : c.Routes deadline name v s (.ok dst) s') :
    c.Traced deadline input opening ⟨.at dst, v, path⟩ s' where
  bounded := h.bounded
  leaving := by
    rintro _ ⟨⟩
  heading := by
    rintro _ ⟨⟩
    obtain ⟨hlast, hleaves⟩ := h.leaving name rfl
    exact ⟨s, hleaves, hlast ▸ hroute⟩

theorem Steps.traced {c : CompiledGraph σ} {deadline : Option Instant} {input : Value}
    {opening s s' : Scene σ} {i i' : Invocation}
    (h : c.Steps deadline i s (.done (.going i')) s')
    (hi : c.Traced deadline input opening i s) : c.Traced deadline input opening i' s' := by
  cases h with
  | ran hname hbelow hnode hcall =>
      obtain ⟨s₀, hleaves, hroute⟩ := hi.heading _ rfl
      refine ⟨?_, ?_, ?_⟩
      · rw [List.length_append, List.length_singleton]
        exact hbelow
      · rintro _ ⟨⟩
        exact ⟨(lastOf_concat _ _).symm, hleaves.next hroute hname hnode hcall⟩
      · rintro _ ⟨⟩
  | followed hnext => exact hi.following (.edge hnext)
  | chosen hnext hchoice =>
      obtain ⟨choice, hcondition, htext, hdst⟩ := Branch.decide_eq_ok_iff.1 hchoice
      exact hi.following (.branch hnext hcondition htext hdst)

theorem Reached.traced {c : CompiledGraph σ} {deadline : Option Instant} {input : Value}
    {opening s : Scene σ} {i : Invocation} (h : c.Reached deadline input opening i s) :
    c.Traced deadline input opening i s := by
  induction h with
  | start =>
      refine ⟨Nat.zero_le _, ?_, ?_⟩
      · rintro _ ⟨⟩
        exact ⟨rfl, .start⟩
      · rintro _ ⟨⟩
  | step _ hstep ih => exact hstep.traced ih

/-- The last step of a run is the event that ends the iteration. -/
theorem Traced.ends {c : CompiledGraph σ} {deadline : Option Instant}
    (hsettled : c.Settled deadline) {input : Value} {opening s s' : Scene σ} {i : Invocation}
    {e : Ending StepResult} (hi : c.Traced deadline input opening i s) (hfound : c.Found i.stage)
    (hlast : c.Steps deadline i s e s') (hfinal : Final e) :
    ∃ finish, c.Ends deadline input opening finish s' := by
  cases hlast with
  | reached =>
      obtain ⟨s₀, hleaves, hroute⟩ := hi.heading _ rfl
      exact ⟨_, .completed hleaves hi.bounded hroute⟩
  | limited hname hlimit =>
      obtain ⟨s₀, hleaves, hroute⟩ := hi.heading _ rfl
      exact ⟨_, .exhausted hleaves (Nat.le_antisymm hi.bounded hlimit) hroute hname⟩
  | ran => exact absurd rfl (hfinal _)
  | nodeFailed hname hbelow hnode hcall hf =>
      obtain ⟨s₀, hleaves, hroute⟩ := hi.heading _ rfl
      exact ⟨_, .nodeFailed hleaves hbelow hroute hname hnode hcall⟩
  | nodeCancelled hname hbelow hnode hcall hf =>
      exact absurd ((hsettled.called hnode hcall).symm.trans hf) Bool.false_ne_true
  | nodeExpired hname hbelow hnode hcall => exact (hsettled.called hnode hcall).elim
  | nodeMissing hname hbelow hnode => simp [Found, hname, hnode] at hfound
  | followed => exact absurd rfl (hfinal _)
  | chosen => exact absurd rfl (hfinal _)
  | misrouted hnext hchoice =>
      obtain ⟨hname, hleaves⟩ := hi.leaving _ rfl
      dsimp only at hname hleaves
      subst hname
      rcases Branch.decide_eq_error_iff.1 hchoice with
        ⟨choice, hchosen, hstray, rfl⟩ | ⟨cause, hbroken, -, rfl⟩
      · exact ⟨_, .misrouted hleaves hi.bounded (.stray hnext hchosen hstray)⟩
      · exact ⟨_, .misrouted hleaves hi.bounded (.broken hnext hbroken)⟩
  | choiceCancelled hnext hchoice =>
      have hown := hsettled.decided hnext hchoice
      exact absurd (hown.symm.trans (Branch.isExit_of_decide hchoice)) Bool.false_ne_true
  | choiceExpired hnext hchoice => exact (hsettled.decided hnext hchoice).elim
  | successorMissing hnext => simp [Found, hnext] at hfound

private theorem exists_ends {c : CompiledGraph σ} (hsound : c.Sound) {deadline : Option Instant}
    (hsettled : c.Settled deadline) (input : Value) (opening : Scene σ) :
    ∃ finish after, c.Ends deadline input opening finish after := by
  obtain ⟨i, s, e, s', hreached, hlast, hfinal, -⟩ := c.exists_last_step deadline input opening
  obtain ⟨finish, hends⟩ :=
    hreached.traced.ends hsettled (hreached.found hsound) hlast hfinal
  exact ⟨finish, s', hends⟩

/-! ## Both -/

/-- The iteration ends in exactly one way, and the run shows it. -/
theorem run_eq_iteration {g : Graph σ} {maxSteps : Option Int} {c : CompiledGraph σ}
    (h : g.compile maxSteps = .ok c) {deadline : Option Instant} (hsettled : c.Settled deadline)
    (input : Value) (opening : Scene σ) :
    ∃ finish after ending, c.run input deadline opening = (ending, after) ∧ finish.ShownBy ending ∧
      ∀ e s, c.Ends deadline input opening e s ↔ e = finish ∧ s = after := by
  have hsound : c.Sound := sound_of_compile h
  obtain ⟨finish, after, hends⟩ := exists_ends hsound hsettled input opening
  obtain ⟨ending, hrun, hshown⟩ := hends.run_eq hsound hsettled
  refine ⟨finish, after, ending, hrun, hshown, fun e s => ⟨fun hother => ?_, ?_⟩⟩
  · exact hother.unique hsound hsettled hends
  · rintro ⟨rfl, rfl⟩
    exact hends

private theorem settled_looping {c : CompiledGraph Unit}
    (h : (Graph.built "loop" .bindings Graph.looping).compile none = .ok c) :
    c.Settled none := by
  rw [Graph.built_looping, Graph.compile_eq_ok_iff] at h
  obtain ⟨-, -, rfl⟩ := h
  constructor
  · intro name node hnode v s
    have hmem := Table.mem_of_lookup hnode
    rw [List.mem_singleton] at hmem
    cases hmem
    unfold Node.call
    split
    · trivial
    · rfl
  · intro name b hnext v s
    rcases Graph.mem_successorTable.1 (Table.mem_of_lookup hnext) with ⟨e, -, he⟩ | ⟨b', hb, he⟩
    · cases he
    · cases he
      rw [List.mem_singleton] at hb
      cases hb
      trivial

theorem looping_iterates :
    ∃ c, (Graph.built "loop" .bindings Graph.looping).compile none = .ok c ∧ c.Settled none ∧
      ∃ finish after ending, c.run (.dict []) none { world := () } = (ending, after) ∧
        finish.ShownBy ending ∧
        ∀ e s, c.Ends none (.dict []) { world := () } e s ↔ e = finish ∧ s = after := by
  obtain ⟨c, h⟩ := Graph.compile_looping
  have hsettled := settled_looping h
  exact ⟨c, h, hsettled, run_eq_iteration h hsettled (.dict []) { world := () }⟩

def astray : List (Graph.Call Unit) :=
  [.branch startName (some fun _ => pure .overlong) [endName]]

def overlongChoice : Branch Unit where
  src := startName
  condition _ := pure .overlong
  targets := [endName]

private theorem built_astray : Graph.built "astray" .any astray =
    { name := "astray", inputKind := .any, branches := [overlongChoice] } := by
  have hsorted : Failure.sortNames [endName] = [endName] := by
    simp [Failure.sortNames, List.eraseDups_cons]
  unfold Graph.built astray
  simp only [List.foldl_cons, List.foldl_nil, Graph.after, Graph.perform, Graph.addBranch,
    Branch.leading, hsorted]
  rfl

/-- The choice ends the iteration, and the run leaves no record of it. -/
theorem astray_unrecorded :
    ∃ c, (Graph.built "astray" .any astray).compile none = .ok c ∧ ∀ s : Scene Unit,
      c.Ends none .none s (.failed [] (.invalidRoute startName .overlong [endName])) s ∧
      c.run .none none s = (.failed .unwritable, s) := by
  have hstray : ∀ dst ∈ [endName], Value.overlong.text? ≠ some dst := nofun
  have htext : (Failure.invalidRoute startName .overlong [endName]).message = none := by
    decide +kernel
  rw [built_astray]
  refine ⟨_, rfl, fun s => ⟨?_, ?_⟩⟩
  · exact .misrouted .start (Nat.zero_le _) (.stray (b := overlongChoice) rfl rfl hstray)
  · rw [run_apply]
    exact Work.ofOutcome_eq_failed.2 ⟨recordOf_eq_error.2 ⟨[], _, rfl, htext, rfl⟩, rfl⟩

end CompiledGraph

end ChatPipeline
