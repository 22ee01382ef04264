import ChatPipeline.Proofs.Graph.Building
import ChatPipeline.Proofs.Graph.Steps

/-!
# Runs walk along the wiring

Wherever a run of a compiled graph is, its path is a walk from the start, and what it looks up next
is there (`path_isWalk`).  The invariant has three sources: the calls that built the graph keep the
reserved names apart, the check before it was compiled ties every name to a connection, and a branch
that was resolved gives one of its targets.
-/

namespace ChatPipeline.CompiledGraph

/-- A path from the start along the wiring, through nodes only, no longer than the bound. -/
structure IsWalk (c : CompiledGraph σ) (path : List String) : Prop where
  linked : (startName :: path).IsChain fun a b => b ∈ c.successors a
  through_nodes : ∀ name ∈ path, name ∈ c.nodeNames ∧ name ≠ startName ∧ name ≠ endName
  bounded : path.length ≤ c.maxSteps

private theorem isWalk_nil (c : CompiledGraph σ) : c.IsWalk [] where
  linked := .singleton _
  through_nodes := by simp
  bounded := Nat.zero_le _

theorem isChain_concat {R : String → String → Prop} {a b : String} {path : List String}
    (h : (a :: path).IsChain R) (hb : R (path.getLastD a) b) : (a :: (path ++ [b])).IsChain R := by
  induction path generalizing a with
  | nil => exact .cons_cons hb (.singleton b)
  | cons next path ih =>
      rw [List.isChain_cons_cons] at h
      rw [List.getLastD_cons] at hb
      exact .cons_cons h.1 (ih h.2 hb)

theorem IsWalk.concat {c : CompiledGraph σ} {path : List String} {name : String}
    (h : c.IsWalk path) (hlinked : name ∈ c.successors (lastOf path))
    (hnode : name ∈ c.nodeNames ∧ name ≠ startName ∧ name ≠ endName)
    (hbelow : path.length < c.maxSteps) : c.IsWalk (path ++ [name]) where
  linked := isChain_concat h.linked hlinked
  through_nodes := by
    intro n hn
    rcases List.mem_append.1 hn with hold | hnew
    · exact h.through_nodes n hold
    · rw [List.mem_singleton] at hnew
      exact hnew ▸ hnode
  bounded := by
    rw [List.length_append, List.length_singleton]
    omega

/-! ## The invariant -/

/-- The path is a walk, and the stage is where it ends or where it may go on. -/
structure OnWalk (c : CompiledGraph σ) (i : Invocation) : Prop where
  walk : c.IsWalk i.path
  leaving : ∀ name, i.stage = .after name → name = lastOf i.path
  heading : ∀ name, i.stage = .at name → name ∈ c.successors (lastOf i.path)

def Unreserved (c : CompiledGraph σ) : Prop :=
  ∀ name ∈ c.nodeNames, name ≠ startName ∧ name ≠ endName

theorem mem_nodeNames_of_lookup {c : CompiledGraph σ} {name : String} {node : Node σ}
    (h : c.nodes.lookup name = some node) : name ∈ c.nodeNames :=
  List.mem_map.2 ⟨(name, node), Table.mem_of_lookup h, rfl⟩

theorem mem_successors {c : CompiledGraph σ} {name dst : String} :
    dst ∈ c.successors name ↔
      ∃ successor, c.table.lookup name = some successor ∧ dst ∈ successor.targets := by
  unfold successors SuccessorTable.targetsOf
  cases c.table.lookup name <;> simp

private theorem onWalk_start (c : CompiledGraph σ) (input : Value) : c.OnWalk (start input) where
  walk := c.isWalk_nil
  leaving := by
    rintro name ⟨⟩
    rfl
  heading := by
    rintro name ⟨⟩

theorem OnWalk.entering {c : CompiledGraph σ} (hfree : c.Unreserved) {name : String}
    {v : Value} {path : List String} {node : Node σ} (h : c.OnWalk ⟨.at name, v, path⟩)
    (hbelow : path.length < c.maxSteps) (hnode : c.nodes.lookup name = some node) :
    c.IsWalk (path ++ [name]) := by
  have hmem := mem_nodeNames_of_lookup hnode
  exact h.walk.concat (h.heading name rfl) ⟨hmem, hfree name hmem⟩ hbelow

theorem OnWalk.following {c : CompiledGraph σ} {name dst : String} {v : Value} {path : List String}
    {successor : Successor σ} (h : c.OnWalk ⟨.after name, v, path⟩)
    (hnext : c.table.lookup name = some successor) (hdst : dst ∈ successor.targets) :
    c.OnWalk ⟨.at dst, v, path⟩ where
  walk := h.walk
  leaving := by
    rintro _ ⟨⟩
  heading := by
    rintro _ ⟨⟩
    have hlast : name = lastOf path := h.leaving name rfl
    exact hlast ▸ mem_successors.2 ⟨successor, hnext, hdst⟩

theorem Steps.onWalk {c : CompiledGraph σ} (hfree : c.Unreserved) {deadline : Option Instant}
    {i i' : Invocation} {s s' : Scene σ} (h : c.Steps deadline i s (.done (.going i')) s')
    (hi : c.OnWalk i) : c.OnWalk i' := by
  cases h with
  | ran hname hbelow hnode hcall =>
      refine ⟨hi.entering hfree hbelow hnode, ?_, ?_⟩
      · rintro _ ⟨⟩
        exact (lastOf_concat _ _).symm
      · rintro _ ⟨⟩
  | followed hnext => exact hi.following hnext (List.mem_singleton_self _)
  | chosen hnext hchoice =>
      obtain ⟨choice, -, -, hdst⟩ := Branch.decide_eq_ok_iff.1 hchoice
      exact hi.following hnext hdst

theorem Reached.onWalk {c : CompiledGraph σ} (hfree : c.Unreserved) {deadline : Option Instant}
    {input : Value} {opening s : Scene σ} {i : Invocation}
    (h : c.Reached deadline input opening i s) : c.OnWalk i := by
  induction h with
  | start => exact c.onWalk_start input
  | step _ hstep ih => exact hstep.onWalk hfree ih

/-! ## What is recorded -/

/-- The path that is on record while a step is taken: a node that runs is already on it. -/
def recorded (c : CompiledGraph σ) (i : Invocation) : List String :=
  match i.stage with
  | .at name => if name ≠ endName ∧ i.path.length < c.maxSteps then i.path ++ [name] else i.path
  | .after _ => i.path

theorem OnWalk.recorded_isWalk {c : CompiledGraph σ} (hfree : c.Unreserved) {i : Invocation}
    (h : c.OnWalk i) (hfound : c.Found i.stage) : c.IsWalk (c.recorded i) := by
  obtain ⟨stage, v, path⟩ := i
  cases stage with
  | «at» name =>
      unfold recorded
      dsimp only
      split
      · rename_i hruns
        obtain ⟨node, hnode⟩ := hfound.resolve_left hruns.1
        exact h.entering hfree hruns.2 hnode
      · exact h.walk
  | after name => exact h.walk

def StepResult.path : StepResult → List String
  | .going i => i.path
  | .reached i => i.path
  | .failed path _ => path

theorem Steps.path_eq_recorded {c : CompiledGraph σ} {deadline : Option Instant} {i : Invocation}
    {s s' : Scene σ} {result : StepResult} (hlast : c.Steps deadline i s (.done result) s')
    (hfinal : Final (.done result)) : result.path = c.recorded i := by
  cases hlast with
  | reached => simp [StepResult.path, recorded]
  | limited hname hlimit => simp [StepResult.path, recorded, Nat.not_lt.2 hlimit]
  | ran => exact absurd rfl (hfinal _)
  | nodeFailed hname hbelow hnode hcall hf => simp [StepResult.path, recorded, hname, hbelow]
  | followed => exact absurd rfl (hfinal _)
  | chosen => exact absurd rfl (hfinal _)
  | misrouted hnext hchoice => rfl

theorem Steps.isExit_of_failed {c : CompiledGraph σ} {deadline : Option Instant} {i : Invocation}
    {s s' : Scene σ} {f : Failure} (h : c.Steps deadline i s (.failed f) s')
    (hfound : c.Found i.stage) : f.isExit = true := by
  cases h with
  | nodeCancelled hname hbelow hnode hcall hf => exact hf
  | nodeMissing hname hbelow hnode => simp [Found, hname, hnode] at hfound
  | choiceCancelled hnext hchoice => exact Branch.isExit_of_decide hchoice
  | successorMissing hnext => simp [Found, hnext] at hfound

theorem path_of_recordOf {r r' : RunRecord} {now : Timestamp} {result : StepResult}
    (h : recordOf r now result = .ok r') : r'.path = result.path := by
  cases result with
  | going i | reached i =>
      cases h
      rfl
  | failed path f =>
      obtain ⟨text, -, rfl⟩ := recordOf_failed_eq_ok.1 h
      rfl

/-! ## Runs of compiled graphs -/

theorem unreserved_of_compile {g : Graph σ} (hg : g.WellBuilt) {maxSteps : Option Int}
    {c : CompiledGraph σ} (h : g.compile maxSteps = .ok c) : c.Unreserved := by
  obtain ⟨-, -, rfl⟩ := Graph.compile_eq_ok_iff.1 h
  exact hg.names_free

/-- At every point of every run of a graph that was built by any calls, the recorded path is a walk
along the wiring and what is looked up is there.  So nothing gets out of a run but an exit, and what
comes up where the failure that ends the run has no text that could be recorded. -/
theorem path_isWalk {name : String} {inputKind : ValueKind} {calls : List (Graph.Call σ)}
    {maxSteps : Option Int} {c : CompiledGraph σ}
    (h : (Graph.built name inputKind calls).compile maxSteps = .ok c) (input : Value)
    (deadline : Option Instant) (opening : Scene σ) :
    (∀ i s, c.Reached deadline input opening i s →
      c.IsWalk i.path ∧ c.IsWalk (c.recorded i) ∧ c.Found i.stage) ∧
    (∀ r s, c.run input deadline opening = (.done r, s) → c.IsWalk r.path) ∧
    ∀ f s', c.run input deadline opening = (.failed f, s') → f.isExit = true ∨
      f = .unwritable ∧ ∃ i s path cause, c.Reached deadline input opening i s ∧
        c.Steps deadline i s (.done (.failed path cause)) s' ∧ cause.message = none := by
  have hsound : c.Sound := sound_of_compile h
  have hfree : c.Unreserved := unreserved_of_compile (Graph.built_wellBuilt name inputKind calls) h
  have hpoint : ∀ i s, c.Reached deadline input opening i s →
      c.IsWalk i.path ∧ c.IsWalk (c.recorded i) ∧ c.Found i.stage := by
    intro i s hreached
    have hi := hreached.onWalk hfree
    have hfound := hreached.found hsound
    exact ⟨hi.walk, hi.recorded_isWalk hfree hfound, hfound⟩
  refine ⟨hpoint, ?_, ?_⟩
  · intro r s hrun
    obtain ⟨i, s₀, result, hreached, hlast, hfinal, hrecord⟩ := run_eq_done hrun
    rw [path_of_recordOf hrecord, hlast.path_eq_recorded hfinal]
    exact (hpoint i s₀ hreached).2.1
  · intro f s' hrun
    obtain ⟨i, s, hreached, hescaped | ⟨path, cause, hlast, htext, rfl⟩⟩ := run_eq_failed hrun
    · exact .inl (hescaped.isExit_of_failed (hpoint i s hreached).2.2)
    · exact .inr ⟨rfl, i, s, path, cause, hreached, hlast, htext⟩

theorem looping_isWalk :
    ∃ c, (Graph.built "loop" .bindings Graph.looping).compile none = .ok c ∧
      ∀ r s, c.run (.dict []) none { world := () } = (.done r, s) → c.IsWalk r.path := by
  obtain ⟨c, h⟩ := Graph.compile_looping
  exact ⟨c, h, (path_isWalk h (.dict []) none { world := () }).2.1⟩

def speechless : List (Graph.Call Unit) :=
  [.node "scale" (.lambda { apply := fun _ => Work.fail .overlong } .any .any),
    .edge startName "scale", .edge "scale" endName]

/-- The failure of the node is no exit, and neither is what gets out of the run. -/
theorem speechless_escapes : ∃ c, (Graph.built "speechless" .any speechless).compile none = .ok c ∧
    Failure.overlong.isExit = false ∧ Failure.unwritable.isExit = false ∧
    ∀ s, c.run .none none s = (.failed .unwritable, s) := by
  refine ⟨_, rfl, rfl, rfl, fun s => ?_⟩
  rw [run_apply]
  exact (Work.ofOutcome_eq_failed.2 ⟨recordOf_eq_error.2 ⟨["scale"], .nodeFailed "scale" .overlong,
    rfl, by simp [Failure.message, Failure.message_overlong], rfl⟩, rfl⟩)

end ChatPipeline.CompiledGraph
