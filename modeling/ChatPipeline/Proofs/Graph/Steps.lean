import ChatPipeline.Proofs.Graph.Wiring

/-!
# Runs step by step

`Steps` says everything that a step of a run can come to (`step_iff`), and `Reached` which stages a
run passes.  A measure of a stage goes down by one with every step that goes on, and starts at the
bound of the engine.  So the engine takes steps until one of them does not go on
(`exists_last_step`), and what that step comes to is the result, whichever stage it is found from
(`advance_of_last_step`).
-/

/-! ## Choices -/

namespace ChatPipeline.Branch

variable {b : Branch σ} {v choice : Value} {deadline : Option Instant} {s s' : Scene σ} {dst : String}
  {f : Failure}

theorem decide_apply (b : Branch σ) (v : Value) (deadline : Option Instant) (s : Scene σ) :
    b.decide v deadline s =
      match b.condition v deadline s with
      | (.done choice, s) =>
        match b.route? choice with
        | some dst => (.done (.ok dst), s)
        | none => (.done (.error (.invalidRoute b.src choice b.targets)), s)
      | (.failed f, s) =>
        if f.isExit then (.failed f, s) else (.done (.error (.branchFailed b.src f)), s)
      | (.expired, s) => (.expired, s) := by
  unfold decide
  rw [Work.attempt_bind_apply]
  rcases b.condition v deadline s with ⟨choice | f | _, s'⟩
  · dsimp only
    cases b.route? choice <;> rfl
  · rfl
  · rfl

private theorem route?_eq_some_iff :
    b.route? choice = some dst ↔ choice.text? = some dst ∧ dst ∈ b.targets := by
  simp [route?, Option.filter_eq_some_iff]

theorem decide_eq_ok_iff :
    b.decide v deadline s = (.done (.ok dst), s') ↔
      ∃ choice, b.condition v deadline s = (.done choice, s') ∧ choice.text? = some dst ∧
        dst ∈ b.targets := by
  simp only [decide_apply, ← route?_eq_some_iff]
  rcases b.condition v deadline s with ⟨choice | f | _, s''⟩
  · cases hroute : b.route? choice <;> simp +contextual [hroute, and_comm]
  · cases hf : f.isExit <;> simp [hf]
  · simp

private theorem route?_eq_none_iff :
    b.route? choice = none ↔ ∀ dst ∈ b.targets, choice.text? ≠ some dst := by
  rw [Option.eq_none_iff_forall_ne_some]
  constructor
  · intro h dst hdst htext
    exact h dst (route?_eq_some_iff.2 ⟨htext, hdst⟩)
  · intro h dst hroute
    obtain ⟨htext, hdst⟩ := route?_eq_some_iff.1 hroute
    exact h dst hdst htext

theorem decide_eq_error_iff :
    b.decide v deadline s = (.done (.error f), s') ↔
      (∃ choice, b.condition v deadline s = (.done choice, s') ∧
        (∀ dst ∈ b.targets, choice.text? ≠ some dst) ∧ .invalidRoute b.src choice b.targets = f) ∨
      ∃ cause, b.condition v deadline s = (.failed cause, s') ∧ cause.isExit = false ∧
        .branchFailed b.src cause = f := by
  simp only [decide_apply, ← route?_eq_none_iff]
  rcases b.condition v deadline s with ⟨choice | cause | _, s''⟩
  · cases hroute : b.route? choice <;> simp +contextual [hroute, and_comm]
  · cases hcause : cause.isExit <;> simp [hcause, and_comm]
  · simp

theorem failure_of_decide (h : b.decide v deadline s = (.done (.error f), s')) :
    (∃ choice, f = .invalidRoute b.src choice b.targets) ∨ ∃ cause, f = .branchFailed b.src cause := by
  rcases decide_eq_error_iff.1 h with ⟨choice, -, -, hstray⟩ | ⟨cause, -, -, hbroken⟩
  · exact .inl ⟨choice, hstray.symm⟩
  · exact .inr ⟨cause, hbroken.symm⟩

theorem isExit_of_decide (h : b.decide v deadline s = (.failed f, s')) : f.isExit = true := by
  rw [decide_apply] at h
  rcases hcondition : b.condition v deadline s with ⟨choice | cause | _, s''⟩
  · cases hroute : b.route? choice <;> simp [hcondition, hroute] at h
  · cases hcause : cause.isExit with
    | true =>
        simp only [hcondition, hcause] at h
        cases h
        exact hcause
    | false => simp [hcondition, hcause] at h
  · simp [hcondition] at h

end ChatPipeline.Branch

/-! ## One step -/

namespace ChatPipeline.CompiledGraph

/-- What a step comes to, in which scene: the run goes on, it is over, or it is interrupted. -/
inductive Steps (c : CompiledGraph σ) (deadline : Option Instant) :
    Invocation → Scene σ → Ending StepResult → Scene σ → Prop where
  | reached :
      Steps c deadline ⟨.at endName, v, path⟩ s (.done (.reached ⟨.at endName, v, path⟩)) s
  | limited (hcurrent : current ≠ endName) (hlimit : c.maxSteps ≤ path.length) :
      Steps c deadline ⟨.at current, v, path⟩ s (.done (.failed path (.stepLimit c.maxSteps))) s
  | ran (hcurrent : current ≠ endName) (hbelow : path.length < c.maxSteps)
      (hnode : c.nodes.lookup current = some node) (hcall : node.call v deadline s = (.done v', s')) :
      Steps c deadline ⟨.at current, v, path⟩ s
        (.done (.going ⟨.after current, v', path ++ [current]⟩)) s'
  | nodeFailed (hcurrent : current ≠ endName) (hbelow : path.length < c.maxSteps)
      (hnode : c.nodes.lookup current = some node) (hcall : node.call v deadline s = (.failed f, s'))
      (hf : f.isExit = false) :
      Steps c deadline ⟨.at current, v, path⟩ s
        (.done (.failed (path ++ [current]) (.nodeFailed current f))) s'
  | nodeCancelled (hcurrent : current ≠ endName) (hbelow : path.length < c.maxSteps)
      (hnode : c.nodes.lookup current = some node) (hcall : node.call v deadline s = (.failed f, s'))
      (hf : f.isExit = true) :
      Steps c deadline ⟨.at current, v, path⟩ s (.failed f) s'
  | nodeExpired (hcurrent : current ≠ endName) (hbelow : path.length < c.maxSteps)
      (hnode : c.nodes.lookup current = some node) (hcall : node.call v deadline s = (.expired, s')) :
      Steps c deadline ⟨.at current, v, path⟩ s .expired s'
  | nodeMissing (hcurrent : current ≠ endName) (hbelow : path.length < c.maxSteps)
      (hnode : c.nodes.lookup current = none) :
      Steps c deadline ⟨.at current, v, path⟩ s (.failed (Graph.missingKey current)) s
  | followed (hnext : c.table.lookup current = some (.fixed dst)) :
      Steps c deadline ⟨.after current, v, path⟩ s (.done (.going ⟨.at dst, v, path⟩)) s
  | chosen (hnext : c.table.lookup current = some (.routed b))
      (hchoice : b.decide v deadline s = (.done (.ok dst), s')) :
      Steps c deadline ⟨.after current, v, path⟩ s (.done (.going ⟨.at dst, v, path⟩)) s'
  | misrouted (hnext : c.table.lookup current = some (.routed b))
      (hchoice : b.decide v deadline s = (.done (.error f), s')) :
      Steps c deadline ⟨.after current, v, path⟩ s (.done (.failed path f)) s'
  | choiceCancelled (hnext : c.table.lookup current = some (.routed b))
      (hchoice : b.decide v deadline s = (.failed f, s')) :
      Steps c deadline ⟨.after current, v, path⟩ s (.failed f) s'
  | choiceExpired (hnext : c.table.lookup current = some (.routed b))
      (hchoice : b.decide v deadline s = (.expired, s')) :
      Steps c deadline ⟨.after current, v, path⟩ s .expired s'
  | successorMissing (hnext : c.table.lookup current = none) :
      Steps c deadline ⟨.after current, v, path⟩ s (.failed (Graph.missingKey current)) s

private theorem enter_apply (i : Invocation) (name : String) (node : Node σ)
    (deadline : Option Instant)
    (s : Scene σ) :
    enter i name node deadline s =
      match node.call i.value deadline s with
      | (.done v, s) => (.done (.going ⟨.after name, v, i.path ++ [name]⟩), s)
      | (.failed f, s) =>
        if f.isExit then (.failed f, s)
        else (.done (.failed (i.path ++ [name]) (.nodeFailed name f)), s)
      | (.expired, s) => (.expired, s) := by
  unfold enter
  rw [Work.attempt_bind_apply]
  rcases node.call i.value deadline s with ⟨v | f | _, s'⟩ <;> rfl

private theorem choose_apply (i : Invocation) (b : Branch σ) (deadline : Option Instant)
    (s : Scene σ) :
    choose i b deadline s =
      match b.decide i.value deadline s with
      | (.done (.ok dst), s) => (.done (.going { i with stage := .at dst }), s)
      | (.done (.error f), s) => (.done (.failed i.path f), s)
      | (.failed f, s) => (.failed f, s)
      | (.expired, s) => (.expired, s) := by
  unfold choose
  rw [Work.bind_apply]
  rcases b.decide i.value deadline s with ⟨(f | dst) | f | _, s'⟩ <;> rfl

private theorem step_at (c : CompiledGraph σ) (name : String) (v : Value) (path : List String)
    (deadline : Option Instant) (s : Scene σ) :
    c.step ⟨.at name, v, path⟩ deadline s =
      if name = endName then (.done (.reached ⟨.at name, v, path⟩), s)
      else if c.maxSteps ≤ path.length then (.done (.failed path (.stepLimit c.maxSteps)), s)
      else
        match c.nodes.lookup name with
        | some node => enter ⟨.at name, v, path⟩ name node deadline s
        | none => (.failed (Graph.missingKey name), s) := by
  unfold step
  by_cases hname : name = endName
  · simp [hname]
  · by_cases hlimit : c.maxSteps ≤ path.length
    · simp [hname, hlimit]
    · simp only [hname, hlimit, if_false]
      cases c.nodes.lookup name <;> rfl

private theorem step_after (c : CompiledGraph σ) (name : String) (v : Value) (path : List String)
    (deadline : Option Instant) (s : Scene σ) :
    c.step ⟨.after name, v, path⟩ deadline s =
      match c.table.lookup name with
      | some (.fixed dst) => (.done (.going ⟨.at dst, v, path⟩), s)
      | some (.routed b) => choose ⟨.after name, v, path⟩ b deadline s
      | none => (.failed (Graph.missingKey name), s) := by
  unfold step
  dsimp only
  rcases c.table.lookup name with _ | _ | _ <;> rfl

private theorem steps_of_enter {c : CompiledGraph σ} {name : String} {v : Value}
    {path : List String}
    {node : Node σ} (hname : name ≠ endName) (hbelow : path.length < c.maxSteps)
    (hnode : c.nodes.lookup name = some node) {deadline : Option Instant} {s s' : Scene σ}
    {e : Ending StepResult} (h : enter ⟨.at name, v, path⟩ name node deadline s = (e, s')) :
    c.Steps deadline ⟨.at name, v, path⟩ s e s' := by
  rw [enter_apply] at h
  rcases hcall : node.call v deadline s with ⟨v' | f | _, s''⟩
  · rw [hcall] at h
    cases h
    exact .ran hname hbelow hnode hcall
  · cases hf : f.isExit with
    | false =>
        simp only [hcall, hf] at h
        cases h
        exact .nodeFailed hname hbelow hnode hcall hf
    | true =>
        simp only [hcall, hf] at h
        cases h
        exact .nodeCancelled hname hbelow hnode hcall hf
  · rw [hcall] at h
    cases h
    exact .nodeExpired hname hbelow hnode hcall

private theorem steps_of_choose {c : CompiledGraph σ} {name : String} {v : Value}
    {path : List String}
    {b : Branch σ} (hnext : c.table.lookup name = some (.routed b)) {deadline : Option Instant}
    {s s' : Scene σ} {e : Ending StepResult}
    (h : choose ⟨.after name, v, path⟩ b deadline s = (e, s')) :
    c.Steps deadline ⟨.after name, v, path⟩ s e s' := by
  rw [choose_apply] at h
  rcases hchoice : b.decide v deadline s with ⟨(f | dst) | f | _, s''⟩
  · rw [hchoice] at h
    cases h
    exact .misrouted hnext hchoice
  · rw [hchoice] at h
    cases h
    exact .chosen hnext hchoice
  · rw [hchoice] at h
    cases h
    exact .choiceCancelled hnext hchoice
  · rw [hchoice] at h
    cases h
    exact .choiceExpired hnext hchoice

theorem steps_of_step {c : CompiledGraph σ} {deadline : Option Instant} {i : Invocation}
    {s s' : Scene σ} {e : Ending StepResult} (h : c.step i deadline s = (e, s')) :
    c.Steps deadline i s e s' := by
  obtain ⟨stage, v, path⟩ := i
  cases stage with
  | «at» name =>
      rw [step_at] at h
      by_cases hname : name = endName
      · rw [if_pos hname] at h
        cases h
        exact hname ▸ .reached
      · rw [if_neg hname] at h
        by_cases hlimit : c.maxSteps ≤ path.length
        · rw [if_pos hlimit] at h
          cases h
          exact .limited hname hlimit
        · rw [if_neg hlimit] at h
          have hbelow : path.length < c.maxSteps := by omega
          cases hnode : c.nodes.lookup name with
          | none =>
              rw [hnode] at h
              cases h
              exact .nodeMissing hname hbelow hnode
          | some node =>
              rw [hnode] at h
              exact steps_of_enter hname hbelow hnode h
  | after name =>
      rw [step_after] at h
      rcases hnext : c.table.lookup name with _ | dst | b
      · rw [hnext] at h
        cases h
        exact .successorMissing hnext
      · rw [hnext] at h
        cases h
        exact .followed hnext
      · rw [hnext] at h
        exact steps_of_choose hnext h

theorem step_of_steps {c : CompiledGraph σ} {deadline : Option Instant} {i : Invocation}
    {s s' : Scene σ} {e : Ending StepResult} (h : c.Steps deadline i s e s') :
    c.step i deadline s = (e, s') := by
  cases h with
  | reached => simp [step_at]
  | limited hname hlimit => simp [step_at, hname, hlimit]
  | ran hname hbelow hnode hcall =>
      simp [step_at, hname, hbelow, hnode, enter_apply, hcall]
  | nodeFailed hname hbelow hnode hcall hf =>
      simp [step_at, hname, hbelow, hnode, enter_apply, hcall, hf]
  | nodeCancelled hname hbelow hnode hcall hf =>
      simp [step_at, hname, hbelow, hnode, enter_apply, hcall, hf]
  | nodeExpired hname hbelow hnode hcall =>
      simp [step_at, hname, hbelow, hnode, enter_apply, hcall]
  | nodeMissing hname hbelow hnode => simp [step_at, hname, hbelow, hnode]
  | followed hnext => simp [step_after, hnext]
  | chosen hnext hchoice => simp [step_after, hnext, choose_apply, hchoice]
  | misrouted hnext hchoice => simp [step_after, hnext, choose_apply, hchoice]
  | choiceCancelled hnext hchoice => simp [step_after, hnext, choose_apply, hchoice]
  | choiceExpired hnext hchoice => simp [step_after, hnext, choose_apply, hchoice]
  | successorMissing hnext => simp [step_after, hnext]

private theorem step_iff {c : CompiledGraph σ} {deadline : Option Instant} {i : Invocation}
    {s s' : Scene σ} {e : Ending StepResult} :
    c.step i deadline s = (e, s') ↔ c.Steps deadline i s e s' :=
  ⟨steps_of_step, step_of_steps⟩

/-! ## All steps -/

inductive Reached (c : CompiledGraph σ) (deadline : Option Instant) (input : Value)
    (opening : Scene σ) : Invocation → Scene σ → Prop where
  | start : Reached c deadline input opening (start input) opening
  | step (h : Reached c deadline input opening i s)
      (hstep : c.Steps deadline i s (.done (.going i')) s') :
      Reached c deadline input opening i' s'

def Final (e : Ending StepResult) : Prop := ∀ i, e ≠ .done (.going i)

theorem final_or_going (e : Ending StepResult) : Final e ∨ ∃ i, e = .done (.going i) := by
  by_cases h : ∃ i, e = .done (.going i)
  · exact .inr h
  · exact .inl fun i hi => h ⟨i, hi⟩

def remaining (c : CompiledGraph σ) (i : Invocation) : Nat :=
  2 * (c.maxSteps - i.path.length) +
    match i.stage with
    | .at _ => 1
    | .after _ => 2

theorem remaining_start (c : CompiledGraph σ) (input : Value) :
    c.remaining (start input) = c.stepBound := by
  simp [remaining, start, stepBound]

theorem Steps.remaining_going {c : CompiledGraph σ} {deadline : Option Instant}
    {i i' : Invocation} {s s' : Scene σ} (h : c.Steps deadline i s (.done (.going i')) s') :
    c.remaining i = c.remaining i' + 1 := by
  cases h with
  | ran hname hbelow hnode hcall =>
      -- the path grows by one name, which is worth two steps, and the stage goes back by one
      simp only [remaining, List.length_append, List.length_singleton]
      omega
  | followed hnext => rfl
  | chosen hnext hchoice => rfl

theorem exists_remaining_eq (c : CompiledGraph σ) (i : Invocation) :
    ∃ left, c.remaining i = left + 1 := by
  refine Nat.exists_eq_add_one.2 ?_
  unfold remaining
  split <;> omega

private theorem advance_final {c : CompiledGraph σ} {deadline : Option Instant} {i : Invocation}
    {s s' : Scene σ} {e : Ending StepResult} (h : c.Steps deadline i s e s') (he : Final e) :
    c.advance (c.remaining i) i deadline s = (e, s') := by
  obtain ⟨left, hleft⟩ := c.exists_remaining_eq i
  rw [hleft]
  unfold advance
  rw [step_iff.2 h]
  rcases e with r | f | _
  · cases r with
    | going i' => exact absurd rfl (he i')
    | reached i' => rfl
    | failed path f => rfl
  · rfl
  · rfl

private theorem advance_going {c : CompiledGraph σ} {deadline : Option Instant} {i i' : Invocation}
    {s s' : Scene σ} (h : c.Steps deadline i s (.done (.going i')) s') :
    c.advance (c.remaining i) i deadline s = c.advance (c.remaining i') i' deadline s' := by
  rw [h.remaining_going, advance]
  simp only [step_iff.2 h]

/-- Wherever a run is, what is left of it gives the result. -/
theorem Reached.advance_eq {c : CompiledGraph σ} {deadline : Option Instant} {input : Value}
    {opening s : Scene σ} {i : Invocation} (h : c.Reached deadline input opening i s) :
    c.advance c.stepBound (CompiledGraph.start input) deadline opening =
      c.advance (c.remaining i) i deadline s := by
  induction h with
  | start => rw [remaining_start]
  | step _ hstep ih => rw [ih, advance_going hstep]

theorem advance_of_last_step {c : CompiledGraph σ} {deadline : Option Instant} {input : Value}
    {opening s s' : Scene σ} {i : Invocation} {e : Ending StepResult}
    (h : c.Reached deadline input opening i s) (hlast : c.Steps deadline i s e s')
    (he : Final e) : c.advance c.stepBound (start input) deadline opening = (e, s') := by
  rw [h.advance_eq, advance_final hlast he]

theorem Reached.exists_last_step {c : CompiledGraph σ} {deadline : Option Instant} {input : Value}
    {opening s : Scene σ} {i : Invocation} (h : c.Reached deadline input opening i s) :
    ∃ i' s' e s'', c.Reached deadline input opening i' s' ∧ c.Steps deadline i' s' e s'' ∧
      Final e := by
  -- on the steps that remain, whatever the stage: going on leaves fewer of them
  induction hleft : c.remaining i using Nat.strongRecOn generalizing i s with
  | ind left ih =>
      obtain ⟨e, s', hstep⟩ : ∃ e s', c.Steps deadline i s e s' := ⟨_, _, steps_of_step rfl⟩
      rcases final_or_going e with he | ⟨i', rfl⟩
      · exact ⟨i, s, e, s', h, hstep, he⟩
      · have hless : c.remaining i' < left := by
          have hremaining := hstep.remaining_going
          omega
        exact ih _ hless (h.step hstep) rfl

theorem exists_last_step (c : CompiledGraph σ) (deadline : Option Instant) (input : Value)
    (opening : Scene σ) :
    ∃ i s e s', c.Reached deadline input opening i s ∧ c.Steps deadline i s e s' ∧ Final e ∧
      c.advance c.stepBound (start input) deadline opening = (e, s') := by
  obtain ⟨i, s, e, s', hreached, hlast, he⟩ := Reached.start.exists_last_step
  exact ⟨i, s, e, s', hreached, hlast, he, advance_of_last_step hreached hlast he⟩

/-! ## What is looked up -/

/-- What a step looks up first is there. -/
def Found (c : CompiledGraph σ) : Stage → Prop
  | .at name => name = endName ∨ ∃ node, c.nodes.lookup name = some node
  | .after name => ∃ successor, c.table.lookup name = some successor

theorem Steps.found {c : CompiledGraph σ} (hsound : c.Sound) {deadline : Option Instant}
    {i i' : Invocation} {s s' : Scene σ} (h : c.Steps deadline i s (.done (.going i')) s') :
    c.Found i'.stage := by
  cases h with
  | ran hname hbelow hnode hcall => exact hsound.node_followed _ _ hnode
  | followed hnext => exact hsound.target_found _ _ hnext _ (List.mem_singleton_self _)
  | chosen hnext hchoice =>
      obtain ⟨choice, -, -, hdst⟩ := Branch.decide_eq_ok_iff.1 hchoice
      exact hsound.target_found _ _ hnext _ hdst

theorem Reached.found {c : CompiledGraph σ} (hsound : c.Sound) {deadline : Option Instant}
    {input : Value} {opening s : Scene σ} {i : Invocation}
    (h : c.Reached deadline input opening i s) : c.Found i.stage := by
  cases h with
  | start => exact hsound.start_followed
  | step _ hstep => exact hstep.found hsound

/-! ## The record -/

def lastOf (path : List String) : String := path.getLastD startName

@[simp] theorem lastOf_concat (path : List String) (name : String) :
    lastOf (path ++ [name]) = name := by
  simp [lastOf]

theorem run_apply (c : CompiledGraph σ) (input : Value) (deadline : Option Instant)
    (opening : Scene σ) :
    c.run input deadline opening =
      match c.advance c.stepBound (start input) deadline opening with
      | (.done r, s) =>
        Work.ofOutcome (recordOf (c.opened opening.now) (.ofInstant s.now) r) deadline s
      | (.failed f, s) => (.failed f, s)
      | (.expired, s) => (.expired, s) := by
  simp only [run, Work.bind_apply, Work.clock]
  rcases c.advance c.stepBound (start input) deadline opening with ⟨r | f | _, s⟩ <;> rfl

theorem run_eq_done {c : CompiledGraph σ} {input : Value} {deadline : Option Instant}
    {opening s' : Scene σ} {r : RunRecord} (h : c.run input deadline opening = (.done r, s')) :
    ∃ i s result, c.Reached deadline input opening i s ∧ c.Steps deadline i s (.done result) s' ∧
      Final (.done result) ∧ recordOf (c.opened opening.now) (.ofInstant s'.now) result = .ok r := by
  obtain ⟨i, s, e, s'', hreached, hlast, hfinal, hadvance⟩ :=
    c.exists_last_step deadline input opening
  rw [run_apply, hadvance] at h
  rcases e with result | f | _
  · obtain ⟨hrecord, rfl⟩ := Work.ofOutcome_eq_done.1 h
    exact ⟨i, s, result, hreached, hlast, hfinal, hrecord⟩
  · cases h
  · cases h

theorem recordOf_failed_eq_ok {r r' : RunRecord} {now : Timestamp} {path : List String}
    {f : Failure} :
    recordOf r now (.failed path f) = .ok r' ↔ ∃ text, f.message = some text ∧
      { r with path, status := .failed, exception := some f, error := some text
               endedAt := some now } = r' := by
  cases htext : f.message <;>
    simp [recordOf, RunRecord.failed, Failure.told, Failure.written, htext, bind, Except.bind, pure,
      Except.pure]

theorem recordOf_eq_error {r : RunRecord} {now : Timestamp} {result : StepResult} {f : Failure} :
    recordOf r now result = .error f ↔
      ∃ path cause, result = .failed path cause ∧ cause.message = none ∧ .unwritable = f := by
  cases result with
  | going i | reached i => simp [recordOf]
  | failed path cause =>
      cases htext : cause.message <;>
        simp [recordOf, RunRecord.failed, Failure.told, Failure.written, htext, bind, Except.bind, pure,
          Except.pure]

theorem exists_last_failure {c : CompiledGraph σ} {input : Value} {deadline : Option Instant}
    {opening s' : Scene σ} {r : RunRecord} {f : Failure}
    (hrun : c.run input deadline opening = (.done r, s')) (hf : r.exception = some f) :
    ∃ i s path, c.Reached deadline input opening i s ∧
      c.Steps deadline i s (.done (.failed path f)) s' ∧ path = r.path := by
  obtain ⟨i, s, result, hreached, hlast, hfinal, hrecord⟩ := run_eq_done hrun
  cases result with
  | going i' => exact absurd rfl (hfinal i')
  | reached i' =>
      cases hrecord
      cases hf
  | failed path f' =>
      obtain ⟨text, -, rfl⟩ := recordOf_failed_eq_ok.1 hrecord
      cases hf
      exact ⟨i, s, path, hreached, hlast, rfl⟩

/-- A run fails with what gets out of a step, or because nothing can be said of what went wrong. -/
theorem run_eq_failed {c : CompiledGraph σ} {input : Value} {deadline : Option Instant}
    {opening s' : Scene σ} {f : Failure} (h : c.run input deadline opening = (.failed f, s')) :
    ∃ i s, c.Reached deadline input opening i s ∧ (c.Steps deadline i s (.failed f) s' ∨
      ∃ path cause, c.Steps deadline i s (.done (.failed path cause)) s' ∧ cause.message = none ∧
        .unwritable = f) := by
  obtain ⟨i, s, e, s'', hreached, hlast, -, hadvance⟩ := c.exists_last_step deadline input opening
  rw [run_apply, hadvance] at h
  rcases e with result | f' | _
  · obtain ⟨hrecord, rfl⟩ := Work.ofOutcome_eq_failed.1 h
    obtain ⟨path, cause, rfl, htext⟩ := recordOf_eq_error.1 hrecord
    exact ⟨i, s, hreached, .inr ⟨path, cause, hlast, htext⟩⟩
  · cases h
    exact ⟨i, s, hreached, .inl hlast⟩
  · cases h

end ChatPipeline.CompiledGraph
