import ChatPipeline.Proofs.Graph.Reachability
import ChatPipeline.Proofs.Sequencing
import ChatPipeline.Graph.Run

/-!
# What the check of the wiring establishes

Each pass of the check finds no defect exactly where a property of the graph holds.  Together they
say when a graph compiles (`compile_eq_ok_iff`), and that the engine finds everything it looks up in
a compiled graph (`sound_of_compile`).
-/

namespace ChatPipeline.Graph

/-! ## Connections -/

theorem mem_successorTable {g : Graph σ} {entry : String × Successor σ} :
    entry ∈ g.successorTable ↔
      (∃ e ∈ g.edges, (e.src, .fixed e.dst) = entry) ∨
        ∃ b ∈ g.branches, (b.src, .routed b) = entry := by
  simp [successorTable]

theorem names_successorTable (g : Graph σ) : g.successorTable.map Prod.fst = g.sources := by
  simp [successorTable, sources, Function.comp_def]

theorem isReserved_iff {name : String} : isReserved name ↔ name = startName ∨ name = endName := by
  simp [isReserved]

theorem resolvable_iff {g : Graph σ} {name : String} :
    g.resolvable name ↔ name ∈ g.nodeNames ∨ name = startName ∨ name = endName := by
  simp [resolvable, isReserved_iff]

theorem mem_nodeNames_iff {g : Graph σ} {name : String} :
    name ∈ g.nodeNames ↔ ∃ node, g.node? name = some node := by
  rw [nodeNames, ← Table.lookup_isSome_iff, Option.isSome_iff_exists]
  rfl

/-! ## One pass after the other -/

theorem unknownEndpoint?_eq_none_iff {g : Graph σ} :
    g.unknownEndpoint? = none ↔
      ∀ entry ∈ g.successorTable,
        g.resolvable entry.1 ∧ ∀ t ∈ entry.2.targets, g.resolvable t := by
  simp only [mem_successorTable, or_imp, forall_and, forall_exists_index, and_imp,
    forall_apply_eq_imp_iff₂]
  simp only [unknownEndpoint?, edgeEndpoint?, branchEndpoint?, Successor.targets,
    Option.or_eq_none_iff, List.findSome?_eq_none_iff, List.forall_mem_cons,
    ite_eq_left_iff, reduceCtorEq, imp_false, not_not, forall_and]
  exact and_and_and_comm

theorem firstRepeated?_eq_none_iff {seen names : List String} :
    firstRepeated? seen names = none ↔ names.Nodup ∧ ∀ n ∈ names, n ∉ seen := by
  induction names generalizing seen with
  | nil =>
      simp [firstRepeated?]
  | cons n rest ih =>
      by_cases hseen : n ∈ seen
      · simp [firstRepeated?, hseen]
      · have hnot : seen.contains n = false := by simpa using hseen
        rw [firstRepeated?, hnot, if_neg Bool.false_ne_true, ih, List.nodup_cons]
        constructor
        · rintro ⟨hnodup, hfresh⟩
          refine ⟨⟨?_, hnodup⟩, ?_⟩
          · intro hn
            exact hfresh n hn (by simp)
          · intro m hm
            rcases List.mem_cons.1 hm with rfl | hm
            · exact hseen
            · exact fun hmem => hfresh m hm (by simp [hmem])
        · rintro ⟨⟨hn, hnodup⟩, hfresh⟩
          refine ⟨hnodup, ?_⟩
          intro m hm hmem
          rcases List.mem_append.1 hmem with hold | hnew
          · exact hfresh m (List.mem_cons_of_mem _ hm) hold
          · rw [List.mem_singleton] at hnew
            exact hn (hnew ▸ hm)

theorem conflicts_eq_none_iff {g : Graph σ} :
    g.edgeConflict? = none ∧ g.branchConflict? = none ↔ g.sources.Nodup := by
  simp only [edgeConflict?, branchConflict?, Option.map_eq_none_iff, firstRepeated?_eq_none_iff]
  rw [sources, List.nodup_append]
  constructor
  · rintro ⟨⟨hedges, -⟩, hbranches, hfresh⟩
    exact ⟨hedges, hbranches, fun a ha b hb hab => hfresh b hb (hab ▸ ha)⟩
  · rintro ⟨hedges, hbranches, hfresh⟩
    exact ⟨⟨hedges, by simp⟩, hbranches, fun b hb hmem => hfresh b hmem b hb rfl⟩

theorem deadEnd?_eq_none_iff {g : Graph σ} :
    g.deadEnd? = none ↔ ∀ n ∈ g.nodeNames, n ∈ g.sources := by
  simp [deadEnd?]

private theorem unreachable?_eq_none_iff {g : Graph σ} :
    g.unreachable? = none ↔
      (∀ n ∈ g.nodeNames, g.successorTable.Reaches startName n) ∧
        g.successorTable.Reaches startName endName := by
  simp [unreachable?, ← SuccessorTable.mem_reachable_iff]

/-! ## Kinds -/

def Produces (g : Graph σ) (src : String) (kind : ValueKind) : Prop :=
  (src = startName ∧ g.inputKind = kind) ∨
    (src ≠ startName ∧ ∃ node, g.node? src = some node ∧ node.outputKind = kind)

theorem Produces.unique {g : Graph σ} {src : String} {k l : ValueKind} (hk : g.Produces src k)
    (hl : g.Produces src l) : k = l := by
  rcases hk with ⟨hsrc, rfl⟩ | ⟨hsrc, node, hnode, rfl⟩ <;>
    rcases hl with ⟨hsrc', rfl⟩ | ⟨hsrc', node', hnode', rfl⟩
  · rfl
  · exact absurd hsrc hsrc'
  · exact absurd hsrc' hsrc
  · rw [hnode] at hnode'
    cases hnode'
    rfl

theorem lookUp_eq_ok_iff {g : Graph σ} {name : String} {node : Node σ} :
    g.lookUp name = .ok node ↔ g.node? name = some node := by
  unfold lookUp
  split <;> simp_all

theorem producedKind_eq_ok_iff {g : Graph σ} {src : String} {kind : ValueKind} :
    g.producedKind src = .ok kind ↔ g.Produces src kind := by
  unfold producedKind Produces
  by_cases hsrc : src = startName
  · simp [hsrc]
  · simp [hsrc, Outcome.map_eq_ok, lookUp_eq_ok_iff]

theorem compatible_iff {k l : ValueKind} :
    k.compatible l ↔ k = l ∨ k = .any ∨ l = .any := by
  cases k <;> cases l <;> decide

private theorem checkConnection_eq_ok_iff {g : Graph σ} {src dst : String} {produced : ValueKind}
    {u : Unit} :
    g.checkConnection src produced dst = .ok u ↔
      dst = endName ∨ ∃ node, g.node? dst = some node ∧ produced.compatible node.inputKind := by
  unfold checkConnection
  by_cases hdst : dst = endName
  · simp [hdst]
  · rw [if_neg hdst, Outcome.bind_eq_ok]
    simp only [hdst, false_or, lookUp_eq_ok_iff]
    refine exists_congr fun node => and_congr_right fun _ => ?_
    split <;> simp_all [Outcome.pure_eq_ok, throw, throwThe, MonadExceptOf.throw]

private theorem checkSuccessor_eq_ok_iff {g : Graph σ} {entry : String × Successor σ} {u : Unit} :
    g.checkSuccessor entry = .ok u ↔
      ∃ kind, g.Produces entry.1 kind ∧ ∀ t ∈ entry.2.targets,
        t = endName ∨ ∃ node, g.node? t = some node ∧ kind.compatible node.inputKind := by
  unfold checkSuccessor
  simp only [Outcome.bind_eq_ok, producedKind_eq_ok_iff, List.forM_eq_forM, Outcome.forM_eq_ok,
    checkConnection_eq_ok_iff]

/-! ## The whole check -/

structure Checked (g : Graph σ) : Prop where
  endpoints_known : ∀ entry ∈ g.successorTable,
    g.resolvable entry.1 ∧ ∀ t ∈ entry.2.targets, g.resolvable t
  entered : startName ∈ g.sources
  left : endName ∈ g.targets
  sources_nodup : g.sources.Nodup
  nodes_followed : ∀ n ∈ g.nodeNames, n ∈ g.sources
  nodes_reached : ∀ n ∈ g.nodeNames, g.successorTable.Reaches startName n
  end_reached : g.successorTable.Reaches startName endName
  kinds_fit : ∀ entry ∈ g.successorTable, ∃ kind, g.Produces entry.1 kind ∧
    ∀ t ∈ entry.2.targets,
      t = endName ∨ ∃ node, g.node? t = some node ∧ kind.compatible node.inputKind

theorem wiringDefect?_eq_none_iff {g : Graph σ} :
    g.wiringDefect? = none ↔
      startName ∈ g.sources ∧ endName ∈ g.targets ∧ g.sources.Nodup ∧
        (∀ n ∈ g.nodeNames, n ∈ g.sources) ∧
        (∀ n ∈ g.nodeNames, g.successorTable.Reaches startName n) ∧
        g.successorTable.Reaches startName endName := by
  rw [← conflicts_eq_none_iff, ← deadEnd?_eq_none_iff, ← unreachable?_eq_none_iff]
  simp [wiringDefect?, entryDefect?, exitDefect?, and_assoc]

theorem Checked.without_defect {g : Graph σ} (h : g.Checked) : g.wiringDefect? = none :=
  wiringDefect?_eq_none_iff.2
    ⟨h.entered, h.left, h.sources_nodup, h.nodes_followed, h.nodes_reached, h.end_reached⟩

theorem checkWiring_eq_ok_iff {g : Graph σ} {table : SuccessorTable σ} :
    g.checkWiring = .ok table ↔ g.Checked ∧ g.successorTable = table := by
  unfold checkWiring
  constructor
  · intro h
    split at h
    · cases h
    · rename_i hendpoints
      split at h
      · cases h
      · rename_i hdefect
        simp only [Outcome.bind_eq_ok, List.forM_eq_forM, Outcome.forM_eq_ok, Outcome.pure_eq_ok,
          checkSuccessor_eq_ok_iff, exists_const] at h
        obtain ⟨hentered, hleft, hnodup, hfollowed, hreached, hend⟩ :=
          wiringDefect?_eq_none_iff.1 hdefect
        exact ⟨⟨unknownEndpoint?_eq_none_iff.1 hendpoints, hentered, hleft, hnodup, hfollowed,
          hreached, hend, h.1⟩, h.2⟩
  · rintro ⟨h, rfl⟩
    rw [unknownEndpoint?_eq_none_iff.2 h.endpoints_known]
    simp only [h.without_defect, Outcome.bind_eq_ok, List.forM_eq_forM, Outcome.forM_eq_ok,
      Outcome.pure_eq_ok, checkSuccessor_eq_ok_iff, exists_const]
    exact ⟨h.kinds_fit, trivial⟩

/-! ## Compiled graphs -/

def bound (g : Graph σ) (maxSteps : Option Int) : Int :=
  maxSteps.getD (g.nodes.length + spareSteps)

theorem compile_eq_ok_iff {g : Graph σ} {maxSteps : Option Int} {c : CompiledGraph σ} :
    g.compile maxSteps = .ok c ↔
      g.Checked ∧ 1 ≤ g.bound maxSteps ∧
        { name := g.name, nodes := g.nodes, table := g.successorTable,
          maxSteps := (g.bound maxSteps).toNat } = c := by
  unfold compile
  simp only [Outcome.bind_eq_ok, checkWiring_eq_ok_iff, Outcome.guard_eq_ok, Outcome.pure_eq_ok,
    Int.not_lt]
  constructor
  · rintro ⟨table, ⟨hchecked, rfl⟩, hbound, rfl⟩
    exact ⟨hchecked, hbound, rfl⟩
  · rintro ⟨hchecked, hbound, rfl⟩
    exact ⟨_, ⟨hchecked, rfl⟩, hbound, rfl⟩

end ChatPipeline.Graph

namespace ChatPipeline.CompiledGraph

/-- Whatever the engine looks up on its way is there. -/
structure Sound (c : CompiledGraph σ) : Prop where
  start_followed : ∃ successor, c.table.lookup startName = some successor
  node_followed : ∀ name node, c.nodes.lookup name = some node →
    ∃ successor, c.table.lookup name = some successor
  target_found : ∀ name successor, c.table.lookup name = some successor →
    ∀ t ∈ successor.targets, t = endName ∨ ∃ node, c.nodes.lookup t = some node
  branch_src : ∀ name b, c.table.lookup name = some (.routed b) → b.src = name

theorem sound_of_compile {g : Graph σ} {maxSteps : Option Int} {c : CompiledGraph σ}
    (h : g.compile maxSteps = .ok c) : c.Sound := by
  obtain ⟨hchecked, -, rfl⟩ := Graph.compile_eq_ok_iff.1 h
  have followed : ∀ name ∈ g.sources, ∃ s, g.successorTable.lookup name = some s := by
    intro name hname
    rw [← Graph.names_successorTable, ← Table.lookup_isSome_iff] at hname
    exact Option.isSome_iff_exists.1 hname
  refine ⟨followed _ hchecked.entered, ?_, ?_, ?_⟩
  · intro name node hnode
    exact followed name (hchecked.nodes_followed name (Graph.mem_nodeNames_iff.2 ⟨node, hnode⟩))
  · intro name successor hlookup t ht
    obtain ⟨kind, -, hfit⟩ := hchecked.kinds_fit _ (Table.mem_of_lookup hlookup)
    exact (hfit t ht).imp_right fun ⟨node, hnode, _⟩ => ⟨node, hnode⟩
  · intro name b hlookup
    rcases Graph.mem_successorTable.1 (Table.mem_of_lookup hlookup) with ⟨e, -, he⟩ | ⟨b', -, hb⟩
    · cases he
    · cases hb
      rfl

end ChatPipeline.CompiledGraph
