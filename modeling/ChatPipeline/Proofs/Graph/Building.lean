import ChatPipeline.Proofs.Graph.Wiring

/-!
# Building graphs call by call

A graph under construction is the result of calls, of which any may fail; a call that fails leaves
the graph as it was.  Whatever the calls are, the names of the nodes stay distinct and unreserved,
and no connection has a loose end, starts at the end or leads back to the start (`built_wellBuilt`).
-/

namespace ChatPipeline.Graph

/-! ## Calls -/

inductive Call (σ : Type) where
  | node (name : String) (node : Node σ)
  | notNode (v : Value)
  | edge (src dst : String)
  | branch (src : String) (condition : Option (Value → Work σ Value)) (targets : List String)
  | compile (maxSteps : Option Int)

def perform (g : Graph σ) : Call σ → Outcome (Graph σ)
  | .node name node => g.addNode name node
  | .notNode v => g.refuseNode v
  | .edge src dst => g.addEdge src dst
  | .branch src condition targets => g.addBranch src condition targets
  | .compile maxSteps => (g.compile maxSteps).map fun _ => g.closed

def after (g : Graph σ) (call : Call σ) : Graph σ :=
  match g.perform call with
  | .ok g' => g'
  | .error _ => g

def fresh (name : String) (inputKind : ValueKind) : Graph σ := { name, inputKind }

def built (name : String) (inputKind : ValueKind) (calls : List (Call σ)) : Graph σ :=
  calls.foldl after (fresh name inputKind)

/-! ## Connections -/

/-- A connection between known names that neither starts at the end nor leads to the start. -/
structure Connects (g : Graph σ) (src : String) (successor : Successor σ) : Prop where
  source_known : g.resolvable src
  source_ne : src ≠ endName
  targets_ne : successor.targets ≠ []
  target_known : ∀ t ∈ successor.targets, g.resolvable t
  target_ne : ∀ t ∈ successor.targets, t ≠ startName

structure WellBuilt (g : Graph σ) : Prop where
  names_nodup : g.nodeNames.Nodup
  names_free : ∀ name ∈ g.nodeNames, name ≠ startName ∧ name ≠ endName
  connects : ∀ entry ∈ g.successorTable, g.Connects entry.1 entry.2

theorem Connects.mono {g g' : Graph σ} (hnames : ∀ name ∈ g.nodeNames, name ∈ g'.nodeNames)
    {src : String} {successor : Successor σ} (h : g.Connects src successor) :
    g'.Connects src successor := by
  have known : ∀ name, g.resolvable name → g'.resolvable name := by
    intro name hname
    rw [resolvable_iff] at hname ⊢
    exact hname.imp_left (hnames name)
  exact ⟨known _ h.source_known, h.source_ne, h.targets_ne,
    fun t ht => known t (h.target_known t ht), h.target_ne⟩

/-! ## What each call does -/

theorem ensureOpen_eq_ok {g : Graph σ} {u : Unit} : g.ensureOpen = .ok u ↔ g.compiled = false := by
  unfold ensureOpen
  split <;> simp_all

private theorem requireResolvable_eq_ok {g : Graph σ} {context name : String} {u : Unit} :
    g.requireResolvable context name = .ok u ↔ g.resolvable name := by
  unfold requireResolvable
  split <;> simp_all

private theorem requireTarget_eq_ok {g : Graph σ} {src target : String} {u : Unit} :
    g.requireTarget src target = .ok u ↔ target ≠ startName ∧ g.resolvable target := by
  unfold requireTarget
  simp only [Outcome.guard_eq_ok, requireResolvable_eq_ok, ne_eq]

private theorem addNode_eq_ok {g g' : Graph σ} {name : String} {node : Node σ} :
    g.addNode name node = .ok g' ↔
      g.compiled = false ∧ (isReserved name = false ∧ name ∉ g.nodeNames) ∧
        { g with nodes := g.nodes ++ [(name, node)] } = g' := by
  unfold addNode
  simp only [Outcome.bind_eq_ok, ensureOpen_eq_ok, Outcome.guard_eq_ok, Outcome.pure_eq_ok,
    exists_const]
  simp

private theorem refuseNode_ne_ok {g g' : Graph σ} {v : Value} : g.refuseNode v ≠ .ok g' := by
  unfold refuseNode
  simp [Outcome.bind_eq_ok, throw, throwThe, MonadExceptOf.throw]

private theorem addEdge_eq_ok {g g' : Graph σ} {src dst : String} :
    g.addEdge src dst = .ok g' ↔
      g.compiled = false ∧ g.Connects src (.fixed dst) ∧
        { g with edges := g.edges ++ [{ src, dst }] } = g' := by
  unfold addEdge
  simp only [Outcome.bind_eq_ok, ensureOpen_eq_ok, Outcome.guard_eq_ok, Outcome.pure_eq_ok,
    requireResolvable_eq_ok, exists_const]
  constructor
  · rintro ⟨hopen, hsrc, hdst, hsrcKnown, hdstKnown, rfl⟩
    exact ⟨hopen, ⟨hsrcKnown, hsrc, by simp [Successor.targets],
      by simpa [Successor.targets] using hdstKnown, by simpa [Successor.targets] using hdst⟩, rfl⟩
  · rintro ⟨hopen, hconnects, rfl⟩
    exact ⟨hopen, hconnects.source_ne, hconnects.target_ne dst (by simp [Successor.targets]),
      hconnects.source_known, hconnects.target_known dst (by simp [Successor.targets]), rfl⟩

private theorem addBranch_eq_ok {g g' : Graph σ} {src : String}
    {condition : Option (Value → Work σ Value)}
    {targets : List String} :
    g.addBranch src condition targets = .ok g' ↔
      g.compiled = false ∧ ∃ f, condition = some f ∧
        g.Connects src (.routed (Branch.leading src f targets)) ∧
        { g with branches := g.branches ++ [Branch.leading src f targets] } = g' := by
  unfold addBranch
  rw [Outcome.bind_eq_ok]
  cases condition with
  | none =>
      simp [throw, throwThe, MonadExceptOf.throw]
  | some f =>
      simp only [ensureOpen_eq_ok, Outcome.bind_eq_ok, Outcome.guard_eq_ok, Outcome.pure_eq_ok,
        requireResolvable_eq_ok, exists_const, List.forM_eq_forM, Outcome.forM_eq_ok,
        requireTarget_eq_ok, List.isEmpty_iff]
      constructor
      · rintro ⟨hopen, htargets, hsrc, hknown, hall, rfl⟩
        exact ⟨hopen, f, rfl, ⟨hknown, hsrc, htargets, fun t ht => (hall t ht).2,
          fun t ht => (hall t ht).1⟩, rfl⟩
      · rintro ⟨hopen, f', hf, hconnects, rfl⟩
        cases hf
        exact ⟨hopen, hconnects.targets_ne, hconnects.source_ne, hconnects.source_known,
          fun t ht => ⟨hconnects.target_ne t ht, hconnects.target_known t ht⟩, rfl⟩

private theorem perform_compile_eq_ok {g g' : Graph σ} {maxSteps : Option Int} :
    g.perform (.compile maxSteps) = .ok g' ↔ (∃ c, g.compile maxSteps = .ok c) ∧ g.closed = g' := by
  simp [perform, Outcome.map_eq_ok]

/-! ## The invariant -/

theorem fresh_wellBuilt (name : String) (inputKind : ValueKind) :
    (fresh name inputKind : Graph σ).WellBuilt where
  names_nodup := by simp [fresh, nodeNames]
  names_free := by simp [fresh, nodeNames]
  connects := by simp [fresh, successorTable]

private theorem addNode_wellBuilt {g g' : Graph σ} {name : String} {node : Node σ}
    (hg : g.WellBuilt)
    (h : g.addNode name node = .ok g') : g'.WellBuilt := by
  obtain ⟨-, ⟨hfree, hnew⟩, rfl⟩ := addNode_eq_ok.1 h
  have hnames : ({ g with nodes := g.nodes ++ [(name, node)] } : Graph σ).nodeNames =
      g.nodeNames ++ [name] := by
    simp [nodeNames]
  have hunreserved : name ≠ startName ∧ name ≠ endName := by
    rw [← not_or, ← isReserved_iff]
    simp [hfree]
  refine ⟨?_, ?_, ?_⟩
  · rw [hnames, List.nodup_append]
    refine ⟨hg.names_nodup, by simp, ?_⟩
    rintro a ha b hb rfl
    rw [List.mem_singleton] at hb
    exact hnew (hb ▸ ha)
  · rw [hnames]
    intro n hn
    rcases List.mem_append.1 hn with hn | hn
    · exact hg.names_free n hn
    · rw [List.mem_singleton] at hn
      exact hn ▸ hunreserved
  · intro entry hentry
    refine (hg.connects entry hentry).mono ?_
    intro n hn
    rw [hnames]
    exact List.mem_append_left _ hn

theorem WellBuilt.connect {g g' : Graph σ} {src : String} {successor : Successor σ}
    (hg : g.WellBuilt) (hnames : g'.nodeNames = g.nodeNames)
    (htable : ∀ entry ∈ g'.successorTable,
      entry ∈ g.successorTable ∨ entry = (src, successor))
    (hnew : g.Connects src successor) : g'.WellBuilt := by
  have hsub : ∀ name ∈ g.nodeNames, name ∈ g'.nodeNames := by
    rw [hnames]
    exact fun _ h => h
  refine ⟨hnames ▸ hg.names_nodup, hnames ▸ hg.names_free, ?_⟩
  intro entry hentry
  rcases htable entry hentry with hold | rfl
  · exact (hg.connects entry hold).mono hsub
  · exact hnew.mono hsub

private theorem addEdge_wellBuilt {g g' : Graph σ} {src dst : String} (hg : g.WellBuilt)
    (h : g.addEdge src dst = .ok g') : g'.WellBuilt := by
  obtain ⟨-, hnew, rfl⟩ := addEdge_eq_ok.1 h
  refine hg.connect rfl ?_ hnew
  intro entry hentry
  simp only [mem_successorTable, List.mem_append, List.mem_singleton, or_and_right, exists_or,
    exists_eq_left] at hentry ⊢
  rcases hentry with (hold | rfl) | hold
  · exact .inl (.inl hold)
  · exact .inr rfl
  · exact .inl (.inr hold)

private theorem addBranch_wellBuilt {g g' : Graph σ} {src : String}
    {condition : Option (Value → Work σ Value)} {targets : List String} (hg : g.WellBuilt)
    (h : g.addBranch src condition targets = .ok g') : g'.WellBuilt := by
  obtain ⟨-, f, -, hnew, rfl⟩ := addBranch_eq_ok.1 h
  refine hg.connect rfl ?_ hnew
  intro entry hentry
  simp only [mem_successorTable, List.mem_append, List.mem_singleton, or_and_right, exists_or,
    exists_eq_left] at hentry ⊢
  rcases hentry with hold | hold | rfl
  · exact .inl (.inl hold)
  · exact .inl (.inr hold)
  · exact .inr rfl

private theorem perform_wellBuilt {g g' : Graph σ} {call : Call σ} (hg : g.WellBuilt)
    (h : g.perform call = .ok g') : g'.WellBuilt := by
  cases call with
  | node name node => exact addNode_wellBuilt hg h
  | notNode v => exact absurd h refuseNode_ne_ok
  | edge src dst => exact addEdge_wellBuilt hg h
  | branch src condition targets => exact addBranch_wellBuilt hg h
  | compile maxSteps =>
      obtain ⟨-, rfl⟩ := perform_compile_eq_ok.1 h
      refine ⟨hg.names_nodup, hg.names_free, ?_⟩
      intro entry hentry
      refine (hg.connects entry hentry).mono ?_
      exact fun _ hname => hname

private theorem after_wellBuilt {g : Graph σ} (hg : g.WellBuilt) (call : Call σ) :
    (g.after call).WellBuilt := by
  unfold after
  split
  · rename_i g' h
    exact perform_wellBuilt hg h
  · exact hg

/-- Whatever the calls are, what they build is well built. -/
theorem built_wellBuilt (name : String) (inputKind : ValueKind) (calls : List (Call σ)) :
    (built name inputKind calls).WellBuilt := by
  unfold built
  generalize hstart : fresh name inputKind = g
  have hg : g.WellBuilt := hstart ▸ fresh_wellBuilt name inputKind
  clear hstart
  induction calls generalizing g with
  | nil => exact hg
  | cons call calls ih => exact ih (g.after call) (after_wellBuilt hg call)

/-! ## A graph with a loop -/

def looping : List (Call Unit) :=
  [.node "spin" (.lambda Transform.identity .bindings .bindings), .edge startName "spin",
    .branch "spin" (some fun _ => pure (.text endName)) ["spin", endName]]

theorem built_looping :
    built "loop" .bindings looping =
      { name := "loop"
        nodes := [("spin", .lambda Transform.identity .bindings .bindings)]
        edges := [{ src := startName, dst := "spin" }]
        branches := [{ src := "spin", condition := fun _ => pure (.text endName)
                       targets := [endName, "spin"] }] } := by
  -- sorting goes by merging, which does not reduce
  have hmerged : ["spin", endName].mergeSort (fun a b => decide (a ≤ b)) = [endName, "spin"] := by
    simp [List.mergeSort, List.MergeSort.Internal.splitInTwo, endName]
  have hsorted : Failure.sortNames ["spin", endName] = [endName, "spin"] := by
    rw [Failure.sortNames, hmerged]
    rfl
  unfold built looping
  simp only [List.foldl_cons, List.foldl_nil, after, perform, addBranch, Branch.leading, hsorted]
  rfl

theorem compile_looping : ∃ c, (built "loop" .bindings looping).compile none = .ok c := by
  rw [built_looping]
  exact ⟨_, rfl⟩

end ChatPipeline.Graph
