import ChatPipeline.Proofs.Graph.Interleaving
import ChatPipeline.Proofs.Graph.Walk

/-!
# Runs under a larger bound

The bound on the steps has one effect: a run that would enter one node too many stops there
(`run_limited`).  Every step within the bound is a step under any larger one (`Steps.relaxed`), so a
run that was not stopped goes the same way to the same end, and one that was stopped goes on from
where it stood (`larger_bound_agrees`).
-/

namespace ChatPipeline.CompiledGraph

variable {c c' : CompiledGraph σ} {deadline : Option Instant} {input : Value}
  {i i' : Invocation} {opening s s' : Scene σ}

/-! ## Paths grow -/

theorem Steps.path_grows {result : StepResult} (h : c.Steps deadline i s (.done result) s') :
    i.path <+: result.path := by
  cases h with
  | ran | nodeFailed => exact List.prefix_append _ _
  | reached | limited | followed | chosen | misrouted => exact List.prefix_refl _

private theorem path_grows_of_advance {fuel : Nat} {result : StepResult}
    (h : c.advance fuel i deadline s = (.done result, s')) : i.path <+: result.path := by
  induction fuel generalizing i s with
  | zero =>
      cases h
      exact List.prefix_refl _
  | succ fuel ih =>
      rcases hstep : c.step i deadline s with ⟨e, between⟩
      simp only [advance, hstep] at h
      rcases e with r | f | _
      · have hfirst := (steps_of_step hstep).path_grows
        cases r with
        | going i' => exact hfirst.trans (ih h)
        | reached i' | failed path f =>
            cases h
            exact hfirst
      · cases h
      · cases h

theorem Reached.path_grows {r : RunRecord} (h : c.Reached deadline input opening i s)
    (hrun : c.run input deadline opening = (.done r, s')) : i.path <+: r.path := by
  rw [run_apply, h.advance_eq] at hrun
  rcases hadvance : c.advance (c.remaining i) i deadline s with ⟨result | f | _, after⟩
  · rw [hadvance] at hrun
    rw [path_of_recordOf (Work.ofOutcome_eq_done.1 hrun).1]
    exact path_grows_of_advance hadvance
  · rw [hadvance] at hrun
    cases hrun
  · rw [hadvance] at hrun
    cases hrun

/-! ## Runs that are stopped -/

theorem Steps.at_limit {path : List String} {bound : Int}
    (h : c.Steps deadline i s (.done (.failed path (.stepLimit bound))) s') :
    i.path = path ∧ c.maxSteps ≤ path.length ∧ ∃ name, i.stage = .at name ∧ name ≠ endName := by
  cases h with
  | limited hname hlimit => exact ⟨rfl, hlimit, _, rfl, hname⟩
  | misrouted hnext hchoice =>
      rcases Branch.failure_of_decide hchoice with ⟨choice, hstray⟩ | ⟨cause, hbroken⟩
      · cases hstray
      · cases hbroken

theorem run_limited {r : RunRecord} {bound : Int}
    (hrun : c.run input deadline opening = (.done r, s'))
    (hlimit : r.exception = some (.stepLimit bound)) :
    ∃ i s, c.Reached deadline input opening i s ∧ i.path = r.path ∧
      r.path.length = c.maxSteps ∧ ∃ name, i.stage = .at name ∧ name ≠ endName := by
  obtain ⟨i, s, path, hreached, hlast, rfl⟩ := exists_last_failure hrun hlimit
  obtain ⟨hpath, hfull, hstage⟩ := hlast.at_limit
  have hbounded := hpath ▸ hreached.traced.bounded
  exact ⟨i, s, hreached, hpath, Nat.le_antisymm hbounded hfull, hstage⟩

/-! ## A larger bound -/

/-- The same wiring under a bound that is no smaller. -/
structure Relaxes (c' c : CompiledGraph σ) : Prop where
  name_eq : c'.name = c.name
  nodes_eq : c'.nodes = c.nodes
  table_eq : c'.table = c.table
  maxSteps_le : c.maxSteps ≤ c'.maxSteps

theorem Steps.relaxed (hrelaxes : c'.Relaxes c) {e : Ending StepResult}
    (h : c.Steps deadline i s e s')
    (hunlimited : ∀ path bound, e ≠ .done (.failed path (.stepLimit bound))) :
    c'.Steps deadline i s e s' := by
  have hbelow : ∀ {path : List String}, path.length < c.maxSteps → path.length < c'.maxSteps :=
    fun hless => Nat.lt_of_lt_of_le hless hrelaxes.maxSteps_le
  cases h with
  | reached => exact .reached
  | limited => exact absurd rfl (hunlimited _ _)
  | ran hname hless hnode hcall =>
      exact .ran hname (hbelow hless) (hrelaxes.nodes_eq ▸ hnode) hcall
  | nodeFailed hname hless hnode hcall hf =>
      exact .nodeFailed hname (hbelow hless) (hrelaxes.nodes_eq ▸ hnode) hcall hf
  | nodeCancelled hname hless hnode hcall hf =>
      exact .nodeCancelled hname (hbelow hless) (hrelaxes.nodes_eq ▸ hnode) hcall hf
  | nodeExpired hname hless hnode hcall =>
      exact .nodeExpired hname (hbelow hless) (hrelaxes.nodes_eq ▸ hnode) hcall
  | nodeMissing hname hless hnode =>
      exact .nodeMissing hname (hbelow hless) (hrelaxes.nodes_eq ▸ hnode)
  | followed hnext => exact .followed (hrelaxes.table_eq ▸ hnext)
  | chosen hnext hchoice => exact .chosen (hrelaxes.table_eq ▸ hnext) hchoice
  | misrouted hnext hchoice => exact .misrouted (hrelaxes.table_eq ▸ hnext) hchoice
  | choiceCancelled hnext hchoice => exact .choiceCancelled (hrelaxes.table_eq ▸ hnext) hchoice
  | choiceExpired hnext hchoice => exact .choiceExpired (hrelaxes.table_eq ▸ hnext) hchoice
  | successorMissing hnext => exact .successorMissing (hrelaxes.table_eq ▸ hnext)

theorem Reached.relaxed (hrelaxes : c'.Relaxes c) (h : c.Reached deadline input opening i s) :
    c'.Reached deadline input opening i s := by
  induction h with
  | start => exact .start
  | step _ hstep ih => exact ih.step (hstep.relaxed hrelaxes nofun)

/-- A run that is not stopped is the same under the larger bound. -/
theorem run_relaxed (hrelaxes : c'.Relaxes c)
    (hunlimited : ∀ r s bound, c.run input deadline opening = (.done r, s) →
      r.exception ≠ some (.stepLimit bound)) :
    c'.run input deadline opening = c.run input deadline opening := by
  obtain ⟨i, s, e, s', hreached, hlast, hfinal, -⟩ := c.exists_last_step deadline input opening
  have hrun := run_of_last_step hreached hlast hfinal
  have hfree : ∀ path bound, e ≠ .done (.failed path (.stepLimit bound)) := by
    rintro path bound rfl
    -- that the bound was reached can always be written
    rw [closing, recordOf_failed_eq_ok.2 ⟨_, rfl, rfl⟩] at hrun
    exact hunlimited _ _ bound hrun rfl
  rw [hrun, run_of_last_step (hreached.relaxed hrelaxes) (hlast.relaxed hrelaxes hfree) hfinal]
  unfold closing opened
  rw [hrelaxes.name_eq]

theorem Functional.relaxed (hrelaxes : c'.Relaxes c) (h : c.Functional) : c'.Functional where
  nodes := hrelaxes.nodes_eq ▸ h.nodes
  conditions := hrelaxes.table_eq ▸ h.conditions

private theorem relaxes_of_compile {g : Graph σ} {m m' : Int} (h : g.compile (some m) = .ok c)
    (hle : m ≤ m') : ∃ c', g.compile (some m') = .ok c' ∧ c'.Relaxes c := by
  obtain ⟨hchecked, hbound, rfl⟩ := Graph.compile_eq_ok_iff.1 h
  have hbound' : 1 ≤ g.bound (some m') := le_trans hbound hle
  exact ⟨_, Graph.compile_eq_ok_iff.2 ⟨hchecked, hbound', rfl⟩, rfl, rfl, rfl,
    Int.toNat_le_toNat hle⟩

theorem nodes_of_compile {g : Graph σ} {maxSteps : Option Int}
    (h : g.compile maxSteps = .ok c) : c.nodes = g.nodes := by
  obtain ⟨-, -, rfl⟩ := Graph.compile_eq_ok_iff.1 h
  rfl

theorem maxSteps_of_compile {g : Graph σ} {maxSteps : Option Int}
    (h : g.compile maxSteps = .ok c) : (c.maxSteps : Int) = g.bound maxSteps := by
  obtain ⟨-, hbound, rfl⟩ := Graph.compile_eq_ok_iff.1 h
  exact Int.toNat_of_nonneg (le_trans (by decide) hbound)

/-- A graph that compiles under one bound compiles under a larger one, and its runs agree.  A run
that was not stopped ends alike; one that was stopped has gone as far as its bound allows, and the
run under the larger bound begins as it did. -/
theorem larger_bound_agrees {g : Graph σ} {m m' : Int} (h : g.compile (some m) = .ok c)
    (hle : m ≤ m') (hfunctional : c.Functional) :
    ∃ c', g.compile (some m') = .ok c' ∧ ∀ input (s t : Scene σ),
      ((∀ r after bound, c.run input none s = (.done r, after) →
          r.exception ≠ some (.stepLimit bound)) →
        EndAlike (c.run input none s).1 (c'.run input none t).1) ∧
      ∀ r after bound, c.run input none s = (.done r, after) →
        r.exception = some (.stepLimit bound) →
          (r.path.length : Int) = m ∧
            ∀ r' after', c'.run input none t = (.done r', after') → r.path <+: r'.path := by
  obtain ⟨c', hcompiled, hrelaxes⟩ := relaxes_of_compile h hle
  refine ⟨c', hcompiled, fun input s t => ⟨fun hunlimited => ?_, ?_⟩⟩
  · rw [← run_relaxed hrelaxes hunlimited]
    exact (hfunctional.relaxed hrelaxes).run_alike input s t
  · intro r after bound hrun hlimit
    obtain ⟨i, s₀, hreached, hpath, hlength, -⟩ := run_limited hrun hlimit
    have hbound : (c.maxSteps : Int) = m := maxSteps_of_compile h
    refine ⟨by rw [hlength, hbound], fun r' after' hrun' => ?_⟩
    obtain ⟨t₀, hagain⟩ := hfunctional.standing hreached t
    exact hpath ▸ (hagain.relaxed hrelaxes).path_grows hrun'

end ChatPipeline.CompiledGraph

/-! ## Counting up to a limit -/

namespace ChatPipeline

theorem Node.constant_call_of_function (f : Value → Outcome Value) (input output : ValueKind)
    (v : Value) : ((.lambda (.ofFunction f) input output : Node σ).call v).Constant := by
  unfold Node.call
  split
  · exact (Work.Constant.ofOutcome _).bind fun _ => (Work.Constant.ofOutcome _).coroutine
  · exact .fail _

namespace Graph

def countOn : Value → Work Unit Value :=
  (Transform.choose (.text "count") (.text endName)
    (Transform.isBelow (.text "n") (.int 3))).apply

def counting : List (Call Unit) :=
  [.node "count" (.lambda (Transform.increase "n" (.int 1)) .bindings .bindings),
    .edge startName "count", .branch "count" (some countOn) ["count", endName]]

private theorem built_counting :
    built "count" .bindings counting =
      { name := "count"
        nodes := [("count", .lambda (Transform.increase "n" (.int 1)) .bindings .bindings)]
        edges := [{ src := startName, dst := "count" }]
        branches := [{ src := "count", condition := countOn, targets := ["count", endName] }] } := by
  -- sorting goes by merging, which does not reduce
  have hsorted : Failure.sortNames ["count", endName] = ["count", endName] := by
    simp [Failure.sortNames, List.mergeSort, List.MergeSort.Internal.splitInTwo, endName]
    decide
  unfold built counting
  simp only [List.foldl_cons, List.foldl_nil, after, perform, addBranch, Branch.leading, hsorted]
  rfl

end Graph

namespace CompiledGraph

private theorem functional_counting {maxSteps : Option Int} {c : CompiledGraph Unit}
    (h : (Graph.built "count" .bindings Graph.counting).compile maxSteps = .ok c) :
    c.Functional := by
  rw [Graph.built_counting, Graph.compile_eq_ok_iff] at h
  obtain ⟨-, -, rfl⟩ := h
  constructor
  · intro name node hnode v
    have hmem := Table.mem_of_lookup hnode
    rw [List.mem_singleton] at hmem
    cases hmem
    exact Node.constant_call_of_function _ _ _ v
  · intro name b hnext v
    rcases Graph.mem_successorTable.1 (Table.mem_of_lookup hnext) with ⟨e, -, he⟩ | ⟨b', hb, he⟩
    · cases he
    · cases he
      rw [List.mem_singleton] at hb
      cases hb
      exact .ofOutcome _

/-- Counting to three is stopped under a bound of two, and the same under three and five. -/
theorem counting_under_larger_bounds : ∃ c c' c'' r after,
    (Graph.built "count" .bindings Graph.counting).compile (some 2) = .ok c ∧
    (Graph.built "count" .bindings Graph.counting).compile (some 3) = .ok c' ∧
    (Graph.built "count" .bindings Graph.counting).compile (some 5) = .ok c'' ∧
    c.Functional ∧ c'.Functional ∧
    c.run (.dict []) none { world := () } = (.done r, after) ∧
    r.exception = some (.stepLimit 2) ∧ (r.path.length : Int) = 2 ∧
    (∀ r' after', c'.run (.dict []) none { world := (), now := after.now } = (.done r', after') →
      r.path <+: r'.path) ∧
    EndAlike (c'.run (.dict []) none { world := () }).1
      (c''.run (.dict []) none { world := (), now := after.now }).1 := by
  obtain ⟨c, hc, r, after, hrun, hlimit⟩ :
      ∃ c, (Graph.built "count" .bindings Graph.counting).compile (some 2) = .ok c ∧
        ∃ r after, c.run (.dict []) none { world := () } = (.done r, after) ∧
          r.exception = some (.stepLimit 2) := by
    rw [Graph.built_counting]
    exact ⟨_, rfl, _, _, rfl, rfl⟩
  obtain ⟨c', hc', r', after', hrun', hnone⟩ :
      ∃ c', (Graph.built "count" .bindings Graph.counting).compile (some 3) = .ok c' ∧
        ∃ r after, c'.run (.dict []) none { world := () } = (.done r, after) ∧
          r.exception = none := by
    rw [Graph.built_counting]
    exact ⟨_, rfl, _, _, rfl, rfl⟩
  have hfunctional := functional_counting hc
  have hfunctional' := functional_counting hc'
  obtain ⟨d, hd, hagree⟩ := larger_bound_agrees hc (by decide : (2 : Int) ≤ 3) hfunctional
  rw [hc'] at hd
  cases hd
  obtain ⟨c'', hc'', hagree'⟩ :=
    larger_bound_agrees hc' (by decide : (3 : Int) ≤ 5) hfunctional'
  obtain ⟨hlength, hpath⟩ :=
    (hagree (.dict []) { world := () } { world := (), now := after.now }).2 r after 2 hrun hlimit
  refine ⟨c, c', c'', r, after, hc, hc', hc'', hfunctional, hfunctional', hrun, hlimit, hlength,
    hpath, ?_⟩
  refine (hagree' (.dict []) { world := () } { world := (), now := after.now }).1 ?_
  intro r₁ s₁ bound hrun₁
  rw [hrun'] at hrun₁
  cases hrun₁
  rw [hnone]
  exact nofun

end CompiledGraph

end ChatPipeline
