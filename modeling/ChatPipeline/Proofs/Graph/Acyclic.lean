import ChatPipeline.Proofs.Graph.Limit

/-!
# Graphs without cycles

Where no node leads back to itself, a walk visits every node at most once (`Acyclic.nodup`), so it
is no longer than there are nodes.  A run that is stopped by its bound stands before one more node
(`Reached.heading_on`).  The bound of such a graph therefore never cuts a run short, and under the
default bound a run is stopped only on a path that has visited some node twice
(`acyclic_never_stopped`).
-/

namespace ChatPipeline.CompiledGraph

variable {c : CompiledGraph σ} {deadline : Option Instant} {input : Value} {i : Invocation}
  {opening s : Scene σ}

/-- Along its successors no node leads back to itself. -/
def Acyclic (c : CompiledGraph σ) : Prop :=
  ∀ name ∈ c.nodeNames, ¬ Relation.TransGen (fun a b => b ∈ c.successors a) name name

private theorem acyclic_of_rank (rank : String → Nat)
    (h : ∀ entry ∈ c.table, ∀ b ∈ entry.2.targets, rank b < rank entry.1) : c.Acyclic := by
  have hstep : ∀ {a b}, b ∈ c.successors a → rank b < rank a := by
    intro a b hb
    obtain ⟨successor, hnext, hdst⟩ := mem_successors.1 hb
    exact h (a, successor) (Table.mem_of_lookup hnext) b hdst
  have hdown : ∀ {a b}, Relation.TransGen (fun a b => b ∈ c.successors a) a b →
      rank b < rank a := by
    intro a b hab
    induction hab with
    | single hb => exact hstep hb
    | tail _ hb ih => exact lt_trans (hstep hb) ih
  intro name _ hcycle
  exact absurd (hdown hcycle) (lt_irrefl _)

/-! ## Walks -/

theorem Acyclic.nodup (h : c.Acyclic) {a : String} {path : List String}
    (hchain : (a :: path).IsChain fun a b => b ∈ c.successors a)
    (hnodes : ∀ name ∈ path, name ∈ c.nodeNames) : path.Nodup := by
  have htrans := hchain.imp fun _ _ hb => Relation.TransGen.single hb
  have hpairwise := (List.isChain_iff_pairwise.1 htrans).of_cons
  refine hpairwise.imp_of_mem ?_
  rintro x y hx - hxy rfl
  exact h x (hnodes x hx) hxy

private theorem length_le_nodes {path : List String} (hnodup : path.Nodup)
    (hnodes : ∀ name ∈ path, name ∈ c.nodeNames) : path.length ≤ c.nodes.length := by
  have hle := hnodup.length_le_of_subset hnodes
  rwa [nodeNames, List.length_map] at hle

theorem IsWalk.nodup {path : List String} (h : c.IsWalk path) (hacyclic : c.Acyclic) :
    path.Nodup :=
  hacyclic.nodup h.linked fun name hname => (h.through_nodes name hname).1

theorem Reached.heading_on (hsound : c.Sound) (hfree : c.Unreserved) {name : String}
    (h : c.Reached deadline input opening i s) (hstage : i.stage = .at name)
    (hname : name ≠ endName) :
    (startName :: (i.path ++ [name])).IsChain (fun a b => b ∈ c.successors a) ∧
      ∀ n ∈ i.path ++ [name], n ∈ c.nodeNames := by
  have hwalk := h.onWalk hfree
  have hfound := h.found hsound
  rw [hstage] at hfound
  obtain ⟨node, hnode⟩ := hfound.resolve_left hname
  refine ⟨isChain_concat hwalk.walk.linked (hwalk.heading name hstage), fun n hn => ?_⟩
  rcases List.mem_append.1 hn with hold | hnew
  · exact (hwalk.walk.through_nodes n hold).1
  · rw [List.mem_singleton] at hnew
    exact hnew ▸ mem_nodeNames_of_lookup hnode

/-! ## Runs -/

theorem Acyclic.bound_lt_of_stopped (hacyclic : c.Acyclic) (hsound : c.Sound)
    (hfree : c.Unreserved) {r : RunRecord} {bound : Int}
    (hrun : c.run input deadline opening = (.done r, s))
    (hlimit : r.exception = some (.stepLimit bound)) : c.maxSteps < c.nodes.length := by
  obtain ⟨i, s₀, hreached, hpath, hlength, name, hstage, hname⟩ := run_limited hrun hlimit
  obtain ⟨hchain, hnodes⟩ := hreached.heading_on hsound hfree hstage hname
  have hle := length_le_nodes (hacyclic.nodup hchain hnodes) hnodes
  rw [List.length_append, List.length_singleton, hpath, hlength] at hle
  omega

private theorem nodes_le_maxSteps {g : Graph σ} {maxSteps : Option Int}
    (h : g.compile maxSteps = .ok c)
    (hbound : ∀ given, maxSteps = some given → (c.nodes.length : Int) ≤ given) :
    c.nodes.length ≤ c.maxSteps := by
  have hmax := maxSteps_of_compile h
  have hnodes := nodes_of_compile h
  cases maxSteps with
  | none =>
      rw [Graph.bound, Option.getD_none, ← hnodes] at hmax
      omega
  | some given =>
      have hle := hbound given rfl
      rw [Graph.bound, Option.getD_some] at hmax
      omega

private theorem nodes_lt_default {g : Graph σ} (h : g.compile none = .ok c) :
    c.nodes.length < c.maxSteps := by
  have hmax := maxSteps_of_compile h
  rw [Graph.bound, Option.getD_none, ← nodes_of_compile h, spareSteps] at hmax
  omega

/-- In a graph without cycles no run visits a node twice, and none is stopped if its bound is the
default or as large as the number of nodes, whatever its nodes and conditions do.  Under the default
bound, with or without cycles, a run is stopped only on a path that repeats a node. -/
theorem acyclic_never_stopped {name : String} {inputKind : ValueKind}
    {calls : List (Graph.Call σ)} {maxSteps : Option Int}
    (h : (Graph.built name inputKind calls).compile maxSteps = .ok c) (input : Value)
    (deadline : Option Instant) (opening : Scene σ) :
    (c.Acyclic →
      (∀ i s, c.Reached deadline input opening i s → (c.recorded i).Nodup) ∧
      (∀ r s, c.run input deadline opening = (.done r, s) → r.path.Nodup) ∧
      ((∀ given, maxSteps = some given → (c.nodes.length : Int) ≤ given) →
        ∀ r s bound, c.run input deadline opening = (.done r, s) →
          r.exception ≠ some (.stepLimit bound))) ∧
    (maxSteps = none → ∀ r s bound, c.run input deadline opening = (.done r, s) →
      r.exception = some (.stepLimit bound) → ¬ r.path.Nodup) := by
  have hsound : c.Sound := sound_of_compile h
  have hfree : c.Unreserved := unreserved_of_compile (Graph.built_wellBuilt name inputKind calls) h
  have hwalk : ∀ i s, c.Reached deadline input opening i s → c.IsWalk (c.recorded i) :=
    fun i s hreached => (hreached.onWalk hfree).recorded_isWalk hfree (hreached.found hsound)
  have hend : ∀ r s, c.run input deadline opening = (.done r, s) → c.IsWalk r.path := by
    intro r s hrun
    obtain ⟨i, s₀, result, hreached, hlast, hfinal, hrecord⟩ := run_eq_done hrun
    rw [path_of_recordOf hrecord, hlast.path_eq_recorded hfinal]
    exact hwalk i s₀ hreached
  refine ⟨fun hacyclic => ⟨?_, ?_, ?_⟩, ?_⟩
  · intro i s hreached
    exact (hwalk i s hreached).nodup hacyclic
  · intro r s hrun
    exact (hend r s hrun).nodup hacyclic
  · intro hbound r s bound hrun hlimit
    have hless := hacyclic.bound_lt_of_stopped hsound hfree hrun hlimit
    have hle := nodes_le_maxSteps h hbound
    omega
  · rintro rfl r s bound hrun hlimit hnodup
    obtain ⟨-, -, -, -, hlength, -⟩ := run_limited hrun hlimit
    have hle := length_le_nodes hnodup fun n hn => ((hend r s hrun).through_nodes n hn).1
    have hless := nodes_lt_default h
    omega

end ChatPipeline.CompiledGraph

/-! ## A detour -/

namespace ChatPipeline.Graph

def byWay : Value → Work Unit Value :=
  (Transform.choose (.text "check") (.text endName)
    (Transform.isBelow (.text "n") (.int 2))).apply

def detour : List (Call Unit) :=
  [.node "ask" (.lambda (Transform.increase "n" (.int 1)) .bindings .bindings),
    .node "check" (.lambda (Transform.increase "n" (.int 1)) .bindings .bindings),
    .edge startName "ask", .branch "ask" (some byWay) ["check", endName], .edge "check" endName]

private theorem built_detour :
    built "detour" .bindings detour =
      { name := "detour"
        nodes := [("ask", .lambda (Transform.increase "n" (.int 1)) .bindings .bindings),
          ("check", .lambda (Transform.increase "n" (.int 1)) .bindings .bindings)]
        edges := [{ src := startName, dst := "ask" }, { src := "check", dst := endName }]
        branches := [{ src := "ask", condition := byWay, targets := ["check", endName] }] } := by
  -- sorting goes by merging, which does not reduce
  have hsorted : Failure.sortNames ["check", endName] = ["check", endName] := by
    simp [Failure.sortNames, List.mergeSort, List.MergeSort.Internal.splitInTwo, endName]
    decide
  unfold built detour
  simp only [List.foldl_cons, List.foldl_nil, after, perform, addBranch, Branch.leading, hsorted]
  rfl

end ChatPipeline.Graph

namespace ChatPipeline.CompiledGraph

private theorem acyclic_detour {maxSteps : Option Int} {c : CompiledGraph Unit}
    (h : (Graph.built "detour" .bindings Graph.detour).compile maxSteps = .ok c) : c.Acyclic := by
  rw [Graph.built_detour, Graph.compile_eq_ok_iff] at h
  obtain ⟨-, -, rfl⟩ := h
  apply acyclic_of_rank fun name => [endName, "check", "ask", startName].idxOf name
  simp only [Graph.successorTable, List.map_cons, List.map_nil, List.cons_append, List.nil_append,
    List.forall_mem_cons, Successor.targets]
  decide

/-- The long way takes as many steps as the bound allows, and is not stopped. -/
theorem detour_not_stopped : ∃ c r after,
    (Graph.built "detour" .bindings Graph.detour).compile (some 2) = .ok c ∧ c.Acyclic ∧
    (c.nodes.length : Int) ≤ 2 ∧ c.run (.dict []) none { world := () } = (.done r, after) ∧
    r.path.length = c.maxSteps ∧ r.path.Nodup ∧ ∀ bound, r.exception ≠ some (.stepLimit bound) := by
  obtain ⟨c, hc, hnodes, r, after, hrun, hlength⟩ :
      ∃ c, (Graph.built "detour" .bindings Graph.detour).compile (some 2) = .ok c ∧
        (c.nodes.length : Int) ≤ 2 ∧
        ∃ r after, c.run (.dict []) none { world := () } = (.done r, after) ∧
          r.path.length = c.maxSteps := by
    rw [Graph.built_detour]
    exact ⟨_, rfl, by decide, _, _, rfl, rfl⟩
  have hacyclic := acyclic_detour hc
  obtain ⟨-, hnodup, hnever⟩ :=
    (acyclic_never_stopped hc (.dict []) none { world := () }).1 hacyclic
  have hbound : ∀ given, some (2 : Int) = some given → (c.nodes.length : Int) ≤ given := by
    rintro given ⟨⟩
    exact hnodes
  exact ⟨c, r, after, hc, hacyclic, hnodes, hrun, hlength, hnodup r after hrun,
    fun bound => hnever hbound r after bound hrun⟩

end ChatPipeline.CompiledGraph
