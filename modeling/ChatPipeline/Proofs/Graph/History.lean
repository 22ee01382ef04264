import ChatPipeline.Proofs.Graph.Acceptance

/-!
# What happens to a graph under construction

A call on a graph is a sequence of statements.  All of its checks come before the one statement that
stores something, so a call that fails has changed nothing (`execute_statements`).  Calls whose
arguments cannot be made fail before they begin; an addition that makes its own node is one of
these. Over any number of requests, failing ones among them, a graph stays well built, and once it
has been compiled no request changes it again (`session_kept`).
-/

namespace ChatPipeline.Graph

/-! ## Statements -/

inductive Statement (σ : Type) where
  | check (test : Graph σ → Outcome Unit)
  | store (change : Graph σ → Graph σ)

def execute : List (Statement σ) → Graph σ → Outcome Unit × Graph σ
  | [], g => (.ok (), g)
  | .check test :: rest, g =>
    match test g with
    | .ok _ => execute rest g
    | .error f => (.error f, g)
  | .store change :: rest, g => execute rest (change g)

def refuseIf (c : Prop) [Decidable c] (f : Failure) : Outcome Unit :=
  if c then .error f else .ok ()

def statements : Call σ → List (Statement σ)
  | .node name node =>
    [.check ensureOpen,
      .check fun g => refuseIf (isReserved name || g.nodeNames.contains name) (.duplicateName name),
      .store fun g => { g with nodes := g.nodes ++ [(name, node)] }]
  | .notNode v =>
    [.check ensureOpen,
      .check fun _ => .error (.fault .type ("expected a Node, got " ++ v.typeName))]
  | .edge src dst =>
    [.check ensureOpen,
      .check fun _ => refuseIf (src = endName) (.wiring .edgeFromEnd),
      .check fun _ => refuseIf (dst = startName) (.wiring .edgeToStart),
      .check fun g => g.requireResolvable (edgeContext src dst) src,
      .check fun g => g.requireResolvable (edgeContext src dst) dst,
      .store fun g => { g with edges := g.edges ++ [{ src, dst }] }]
  | .branch _ none _ =>
    [.check ensureOpen, .check fun _ => .error (.fault .type "branch condition must be callable")]
  | .branch src (some condition) targets =>
    let branch := Branch.leading src condition targets
    .check ensureOpen ::
      .check (fun _ => refuseIf branch.targets.isEmpty (.wiring (.branchWithoutTargets src))) ::
      .check (fun _ => refuseIf (src = endName) (.wiring .branchFromEnd)) ::
      .check (fun g => g.requireResolvable "branch source" src) ::
      (branch.targets.map (fun target => .check fun g => g.requireTarget src target) ++
        [.store fun g => { g with branches := g.branches ++ [branch] }])
  | .compile maxSteps =>
    [.check fun g => g.checkWiring.map fun _ => (),
      .check fun g => refuseIf (g.bound maxSteps < 1) (.wiring .boundTooSmall),
      .store closed]

def settle (g : Graph σ) : Outcome (Graph σ) → Outcome Unit × Graph σ
  | .ok g' => (.ok (), g')
  | .error f => (.error f, g)

section

variable {g : Graph σ} {rest : List (Statement σ)}

private theorem execute_store (g : Graph σ) (change : Graph σ → Graph σ) :
    execute [.store change] g = g.settle (pure (change g)) := rfl

private theorem execute_check {test : Graph σ → Outcome Unit} {k : Unit → Outcome (Graph σ)}
    (h : execute rest g = g.settle (k ())) :
    execute (.check test :: rest) g = g.settle (test g >>= k) := by
  rw [execute]
  cases test g with
  | ok u => exact h
  | error f => rfl

private theorem execute_refuseIf {c : Prop} [Decidable c] {f : Failure} {k : β → Outcome (Graph σ)}
    {x : Outcome (Graph σ)} (h : execute rest g = g.settle x) :
    execute (.check (fun _ => refuseIf c f) :: rest) g =
      g.settle (if c then throw f >>= k else x) := by
  rw [execute, refuseIf]
  by_cases hc : c
  · rw [if_pos hc, if_pos hc]
    rfl
  · rw [if_neg hc, if_neg hc]
    exact h

private theorem execute_checks {test : Graph σ → α → Outcome Unit} {as : List α}
    {k : PUnit → Outcome (Graph σ)} (h : execute rest g = g.settle (k ())) :
    execute (as.map (fun a => .check fun g => test g a) ++ rest) g =
      g.settle (as.forM (test g) >>= k) := by
  induction as with
  | nil => exact h
  | cons a as ih =>
      have hassoc : (a :: as).forM (test g) >>= k =
          test g a >>= fun _ => as.forM (test g) >>= k := by
        simp [List.forM]
      rw [hassoc]
      exact execute_check ih

end

private theorem execute_statements (g : Graph σ) (call : Call σ) :
    execute (statements call) g = g.settle (g.perform call) := by
  cases call with
  | node name node =>
      exact execute_check (execute_refuseIf (execute_store ..))
  | notNode v =>
      exact execute_check rfl
  | edge src dst =>
      refine execute_check (execute_refuseIf (execute_refuseIf ?_))
      exact execute_check (execute_check (execute_store ..))
  | branch src condition targets =>
      cases condition with
      | none =>
          exact execute_check rfl
      | some condition =>
          refine execute_check (execute_refuseIf (execute_refuseIf ?_))
          exact execute_check (execute_checks (execute_store ..))
  | compile maxSteps =>
      have hcompile : g.perform (.compile maxSteps) =
          g.checkWiring.map (fun _ => ()) >>= fun _ =>
            if g.bound maxSteps < 1 then throw (.wiring .boundTooSmall) >>= pure
            else pure g.closed := by
        unfold perform compile bound
        cases g.checkWiring with
        | error f => rfl
        | ok table =>
            by_cases hbound : maxSteps.getD (g.nodes.length + spareSteps) < 1
            · simp [hbound, bind, Except.bind, Except.map, throw, throwThe, MonadExceptOf.throw]
            · simp [hbound, bind, Except.bind, Except.map, pure, Except.pure]
      rw [hcompile]
      exact execute_check (execute_refuseIf (execute_store ..))

/-! ## Requests -/

/-- What the caller is told, and the graph that is left.  A request is a call, unless its arguments
cannot be made. -/
def handle (g : Graph σ) : Outcome (Call σ) → Outcome Unit × Graph σ
  | .ok call => execute (statements call) g
  | .error f => (.error f, g)

def session (name : String) (inputKind : ValueKind) (requests : List (Outcome (Call σ))) :
    Graph σ :=
  requests.foldl (fun g request => (g.handle request).2) (fresh name inputKind)

theorem handle_call (g : Graph σ) (call : Call σ) :
    g.handle (.ok call) = g.settle (g.perform call) :=
  execute_statements g call

private theorem handle_call_snd (g : Graph σ) (call : Call σ) :
    (g.handle (.ok call)).2 = g.after call := by
  rw [handle_call]
  unfold after
  cases g.perform call <;> rfl

private theorem handle_of_failure {g : Graph σ} {request : Outcome (Call σ)} {f : Failure}
    (h : (g.handle request).1 = .error f) : (g.handle request).2 = g := by
  cases request with
  | error f' => rfl
  | ok call =>
      rw [handle_call] at h ⊢
      cases hcall : g.perform call with
      | error f' => rfl
      | ok g' =>
          rw [hcall] at h
          cases h

theorem session_eq_built (name : String) (inputKind : ValueKind)
    (requests : List (Outcome (Call σ))) :
    session name inputKind requests = built name inputKind (requests.filterMap Except.toOption) := by
  unfold session built
  generalize fresh name inputKind = g
  induction requests generalizing g with
  | nil => rfl
  | cons request requests ih =>
      cases request with
      | error f => exact ih g
      | ok call =>
          rw [List.foldl_cons, ih, handle_call_snd]
          rfl

/-! ## The invariant -/

/-- What is so of a graph whatever was asked of it. -/
structure Kept (g : Graph σ) : Prop where
  names_nodup : g.nodeNames.Nodup
  names_free : ∀ name ∈ g.nodeNames, name ≠ startName ∧ name ≠ endName
  edges_sound : ∀ e ∈ g.edges, e.src ≠ endName ∧ e.dst ≠ startName ∧
    ∀ name ∈ [e.src, e.dst], name ∈ g.nodeNames ∨ name = startName ∨ name = endName
  branches_sound : ∀ b ∈ g.branches, b.src ≠ endName ∧ startName ∉ b.targets ∧ b.targets ≠ [] ∧
    ∀ name ∈ b.src :: b.targets, name ∈ g.nodeNames ∨ name = startName ∨ name = endName
  failure_keeps : ∀ request f, (g.handle request).1 = .error f → (g.handle request).2 = g
  endpoints_known : g.unknownEndpoint? = none
  compile_fails : ∀ maxSteps f, g.compile maxSteps = .error f → ∃ defect, f = .wiring defect

theorem WellBuilt.lookUp_target {g : Graph σ} (hg : g.WellBuilt) {entry : String × Successor σ}
    (h : entry ∈ g.successorTable) {target : String} (htarget : target ∈ entry.2.targets)
    (hend : target ≠ endName) : ∃ node, g.lookUp target = .ok node := by
  rcases hg.target_cases h htarget with heq | hnode
  · exact absurd heq hend
  · obtain ⟨node, hlookup⟩ := mem_nodeNames_iff.1 hnode
    exact ⟨node, lookUp_eq_ok_iff.2 hlookup⟩

theorem WellBuilt.checkSuccessor_error {g : Graph σ} (hg : g.WellBuilt)
    {entry : String × Successor σ} (h : entry ∈ g.successorTable) {f : Failure}
    (hf : g.checkSuccessor entry = .error f) :
    ∃ kind target node, g.Produces entry.1 kind ∧ target ∈ entry.2.targets ∧
      g.node? target = some node ∧ kind.compatible node.inputKind = false ∧
      f = .wiring (.incompatible entry.1 kind.name target node.inputKind.name) := by
  obtain ⟨kind, hkind⟩ := hg.exists_produces h
  unfold checkSuccessor at hf
  rw [producedKind_eq_ok_iff.2 hkind] at hf
  obtain ⟨target, htarget, hconnection⟩ := Outcome.exists_of_forM_eq_error hf
  unfold checkConnection at hconnection
  by_cases hend : target = endName
  · simp [hend] at hconnection
  · obtain ⟨node, hnode⟩ := hg.lookUp_target h htarget hend
    rw [if_neg hend, hnode] at hconnection
    by_cases hfits : kind.compatible node.inputKind
    · simp [hfits, bind, Except.bind, pure, Except.pure] at hconnection
    · simp only [bind, Except.bind, hfits, throw, throwThe, MonadExceptOf.throw] at hconnection
      cases hconnection
      exact ⟨kind, target, node, hkind, htarget, lookUp_eq_ok_iff.1 hnode,
        Bool.eq_false_iff.2 hfits, rfl⟩

theorem WellBuilt.unknownEndpoint?_eq_none {g : Graph σ} (hg : g.WellBuilt) :
    g.unknownEndpoint? = none := by
  rw [unknownEndpoint?_eq_none_iff]
  intro entry hentry
  exact ⟨(hg.connects entry hentry).source_known, (hg.connects entry hentry).target_known⟩

theorem WellBuilt.checkWiring_error {g : Graph σ} (hg : g.WellBuilt) {f : Failure}
    (h : g.checkWiring = .error f) :
    (∃ defect, g.wiringDefect? = some defect ∧ f = .wiring defect) ∨
      g.wiringDefect? = none ∧ ∃ entry ∈ g.successorTable, g.checkSuccessor entry = .error f := by
  unfold checkWiring at h
  rw [hg.unknownEndpoint?_eq_none] at h
  cases hdefect : g.wiringDefect? with
  | some defect =>
      simp only [hdefect, Except.error.injEq] at h
      exact .inl ⟨defect, rfl, h.symm⟩
  | none =>
      cases hkinds : forM g.successorTable g.checkSuccessor with
      | ok u => simp [hdefect, hkinds, bind, Except.bind, pure, Except.pure] at h
      | error f' =>
          simp only [hdefect, List.forM_eq_forM, hkinds, bind, Except.bind,
            Except.error.injEq] at h
          obtain ⟨entry, hentry, hfailed⟩ := Outcome.exists_of_forM_eq_error hkinds
          exact .inr ⟨rfl, entry, hentry, h ▸ hfailed⟩

theorem WellBuilt.compile_error {g : Graph σ} (hg : g.WellBuilt) {maxSteps : Option Int}
    {f : Failure} (h : g.compile maxSteps = .error f) : ∃ defect, f = .wiring defect := by
  unfold compile at h
  cases hchecked : g.checkWiring with
  | error f' =>
      rw [hchecked] at h
      cases h
      rcases hg.checkWiring_error hchecked with ⟨defect, -, rfl⟩ | ⟨-, entry, hentry, hfailed⟩
      · exact ⟨defect, rfl⟩
      · obtain ⟨_, _, _, -, -, -, -, rfl⟩ := hg.checkSuccessor_error hentry hfailed
        exact ⟨_, rfl⟩
  | ok table =>
      by_cases hbound : maxSteps.getD (g.nodes.length + spareSteps) < 1
      · simp only [hchecked, bind, Except.bind, hbound, if_true, throw, throwThe,
          MonadExceptOf.throw, Except.error.injEq] at h
        exact ⟨.boundTooSmall, h.symm⟩
      · simp [hchecked, hbound, bind, Except.bind, pure, Except.pure] at h

theorem WellBuilt.kept {g : Graph σ} (hg : g.WellBuilt) : g.Kept where
  names_nodup := hg.names_nodup
  names_free := hg.names_free
  edges_sound := by
    intro e he
    have h := hg.connects _ (mem_successorTable.2 (.inl ⟨e, he, rfl⟩))
    have hdst : e.dst ∈ (Successor.fixed e.dst : Successor σ).targets := List.mem_singleton_self _
    refine ⟨h.source_ne, h.target_ne _ hdst, ?_⟩
    intro name hname
    rcases List.mem_pair.1 hname with rfl | rfl
    · exact resolvable_iff.1 h.source_known
    · exact resolvable_iff.1 (h.target_known _ hdst)
  branches_sound := by
    intro b hb
    have h := hg.connects _ (mem_successorTable.2 (.inr ⟨b, hb, rfl⟩))
    refine ⟨h.source_ne, fun hstart => h.target_ne _ hstart rfl, h.targets_ne, ?_⟩
    intro name hname
    rcases List.mem_cons.1 hname with rfl | htarget
    · exact resolvable_iff.1 h.source_known
    · exact resolvable_iff.1 (h.target_known _ htarget)
  failure_keeps := fun _ _ => handle_of_failure
  endpoints_known := hg.unknownEndpoint?_eq_none
  compile_fails := fun _ _ => hg.compile_error

/-! ## After compiling -/

/-- What is so of a graph that was compiled before. -/
structure Frozen (g : Graph σ) (c : CompiledGraph σ) : Prop where
  addition_refused : ∀ call, (∀ maxSteps, call ≠ .compile maxSteps) →
    g.handle (.ok call) = (.error .compiled, g)
  request_keeps : ∀ request, (g.handle request).2 = g
  compile_again : ∀ maxSteps, (∀ given, maxSteps = some given → 1 ≤ given) →
    ∃ c', g.compile maxSteps = .ok c' ∧ c'.table = c.table

private theorem perform_of_compiled {g : Graph σ} (h : g.compiled = true) {call : Call σ}
    (hcall : ∀ maxSteps, call ≠ .compile maxSteps) : g.perform call = .error .compiled := by
  have hrefused : g.ensureOpen = .error .compiled := by simp [ensureOpen, h]
  cases call with
  | node name node => simp [perform, addNode, hrefused, bind, Except.bind]
  | notNode v => simp [perform, refuseNode, hrefused, bind, Except.bind]
  | edge src dst => simp [perform, addEdge, hrefused, bind, Except.bind]
  | branch src condition targets => simp [perform, addBranch, hrefused, bind, Except.bind]
  | compile maxSteps => exact absurd rfl (hcall maxSteps)

private theorem compile_closed (g : Graph σ) (maxSteps : Option Int) :
    g.closed.compile maxSteps = g.compile maxSteps := rfl

private theorem handle_closed (g : Graph σ) (request : Outcome (Call σ)) :
    (g.closed.handle request).2 = g.closed := by
  cases request with
  | error f => rfl
  | ok call =>
      rw [handle_call]
      by_cases hcall : ∃ maxSteps, call = .compile maxSteps
      · -- compiling again sets the flag that is set
        obtain ⟨maxSteps, rfl⟩ := hcall
        simp only [perform]
        cases g.closed.compile maxSteps <;> rfl
      · rw [perform_of_compiled rfl (not_exists.1 hcall)]
        rfl

private theorem frozen_closed {g : Graph σ} {maxSteps : Option Int} {c : CompiledGraph σ}
    (h : g.compile maxSteps = .ok c) : g.closed.Frozen c where
  addition_refused := by
    intro call hcall
    rw [handle_call, perform_of_compiled rfl hcall]
    rfl
  request_keeps := handle_closed g
  compile_again := by
    intro maxSteps' hgiven
    obtain ⟨hchecked, -, rfl⟩ := compile_eq_ok_iff.1 h
    rw [compile_closed]
    exact ⟨_, compile_eq_ok_iff.2 ⟨hchecked, one_le_bound_iff.2 hgiven, rfl⟩, rfl⟩

/-! ## Sessions -/

theorem session_append (name : String) (inputKind : ValueKind)
    (requests later : List (Outcome (Call σ))) :
    session name inputKind (requests ++ later) =
      later.foldl (fun g request => (g.handle request).2) (session name inputKind requests) := by
  unfold session
  rw [List.foldl_append]

private theorem later_of_closed (g : Graph σ) (later : List (Outcome (Call σ))) :
    later.foldl (fun g request => (g.handle request).2) g.closed = g.closed := by
  induction later with
  | nil => rfl
  | cons request later ih => rw [List.foldl_cons, handle_closed, ih]

private theorem handle_compile {g : Graph σ} {maxSteps : Option Int} {c : CompiledGraph σ}
    (h : g.compile maxSteps = .ok c) : g.handle (.ok (.compile maxSteps)) = (.ok (), g.closed) := by
  rw [handle_call, perform, h]
  rfl

/-- Whatever is asked of a graph, it stays well built, and once it has been compiled it stays as it
is and compiles into the same table. -/
theorem session_kept (name : String) (inputKind : ValueKind) (requests : List (Outcome (Call σ))) :
    (session name inputKind requests).Kept ∧
      ∀ maxSteps c, (session name inputKind requests).compile maxSteps = .ok c → ∀ later,
        session name inputKind (requests ++ .ok (.compile maxSteps) :: later) =
            (session name inputKind requests).closed ∧
          (session name inputKind (requests ++ .ok (.compile maxSteps) :: later)).Frozen c := by
  constructor
  · rw [session_eq_built]
    exact (built_wellBuilt name inputKind _).kept
  · intro maxSteps c h later
    have hclosed : session name inputKind (requests ++ .ok (.compile maxSteps) :: later) =
        (session name inputKind requests).closed := by
      rw [session_append, List.foldl_cons, handle_compile h, later_of_closed]
    exact ⟨hclosed, hclosed ▸ frozen_closed h⟩

def interrupted : List (Outcome (Call Unit)) :=
  .error (.fault .type "no tools given") :: looping.map .ok

private theorem session_interrupted :
    session "loop" .bindings interrupted = built "loop" .bindings looping := by
  rw [session_eq_built]
  rfl

theorem interrupted_kept :
    (session "loop" .bindings interrupted).Kept ∧
      ∃ c, (session "loop" .bindings interrupted).compile none = .ok c ∧
        (session "loop" .bindings
          (interrupted ++ [.ok (.compile none), .ok (.edge "spin" "spin")])).Frozen c := by
  have h := session_kept "loop" .bindings interrupted
  have hcompiles : ∃ c, (session "loop" .bindings interrupted).compile none = .ok c := by
    rw [session_interrupted]
    exact compile_looping
  obtain ⟨c, hc⟩ := hcompiles
  exact ⟨h.1, c, hc, (h.2 none c hc [.ok (.edge "spin" "spin")]).2⟩

end ChatPipeline.Graph
