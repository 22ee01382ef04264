import ChatPipeline.Proofs.Graph.Building

/-!
# Which graphs compile

A graph that was built call by call compiles exactly where it is well wired: one connection leaves
every name, everything is reached from the start, and kinds fit along every connection
(`compile_succeeds_iff_wellWired`).  The table of successors plays no part in what that means, so
here it is tied to the edges and branches themselves.
-/

namespace ChatPipeline.Graph

open Relation

/-! ## What leaves a name -/

def outgoing (g : Graph σ) (name : String) : List (Successor σ) :=
  (g.edges.filter (·.src == name)).map (fun e => .fixed e.dst) ++
    (g.branches.filter (·.src == name)).map .routed

def Link (g : Graph σ) (src dst : String) : Prop :=
  (∃ e ∈ g.edges, e.src = src ∧ e.dst = dst) ∨ ∃ b ∈ g.branches, b.src = src ∧ dst ∈ b.targets

/-- What a graph has to be like to compile. -/
structure WellWired (g : Graph σ) : Prop where
  one_way_out : ∀ name, name = startName ∨ name ∈ g.nodeNames → (g.outgoing name).length = 1
  nodes_reached : ∀ name ∈ g.nodeNames, ReflTransGen g.Link startName name
  end_reached : ReflTransGen g.Link startName endName
  kinds_fit : ∀ src dst kind node, g.Link src dst → g.Produces src kind →
    g.node? dst = some node →
      kind = node.inputKind ∨ kind = .any ∨ node.inputKind = .any

private theorem outgoing_eq_filter (g : Graph σ) (name : String) :
    g.outgoing name = (g.successorTable.filter (·.1 == name)).map Prod.snd := by
  unfold outgoing successorTable
  rw [List.filter_append, List.map_append, List.filter_map, List.filter_map, List.map_map,
    List.map_map]
  rfl

private theorem mem_outgoing {g : Graph σ} {name : String} {successor : Successor σ} :
    successor ∈ g.outgoing name ↔ (name, successor) ∈ g.successorTable := by
  rw [outgoing_eq_filter]
  simp

theorem length_outgoing (g : Graph σ) (name : String) :
    (g.outgoing name).length = g.sources.count name := by
  rw [outgoing_eq_filter, List.length_map, ← names_successorTable, List.count_eq_countP,
    List.countP_map, List.countP_eq_length_filter]
  rfl

private theorem nodup_sources_iff {g : Graph σ} :
    g.sources.Nodup ↔ ∀ name, (g.outgoing name).length ≤ 1 := by
  simp only [length_outgoing]
  exact List.nodup_iff_count_le_one

theorem link_iff {g : Graph σ} {src dst : String} :
    g.Link src dst ↔ ∃ successor, (src, successor) ∈ g.successorTable ∧ dst ∈ successor.targets := by
  constructor
  · rintro (⟨e, he, rfl, rfl⟩ | ⟨b, hb, rfl, hdst⟩)
    · exact ⟨.fixed e.dst, mem_successorTable.2 (.inl ⟨e, he, rfl⟩), List.mem_singleton_self _⟩
    · exact ⟨.routed b, mem_successorTable.2 (.inr ⟨b, hb, rfl⟩), hdst⟩
  · rintro ⟨successor, hmem, hdst⟩
    rcases mem_successorTable.1 hmem with ⟨e, he, heq⟩ | ⟨b, hb, heq⟩
    · cases heq
      exact .inl ⟨e, he, rfl, (List.mem_singleton.1 hdst).symm⟩
    · cases heq
      exact .inr ⟨b, hb, rfl, hdst⟩

/-! ## The table -/

theorem lookup_successorTable (g : Graph σ) (name : String) :
    g.successorTable.lookup name = (g.outgoing name).head? := by
  rw [outgoing_eq_filter]
  induction g.successorTable with
  | nil => rfl
  | cons entry rest ih =>
      obtain ⟨src, successor⟩ := entry
      rw [Table.lookup_cons, List.filter_cons]
      by_cases hsrc : src = name
      · simp [hsrc]
      · have hne : name ≠ src := fun heq => hsrc heq.symm
        simp [hsrc, hne, ih]

private theorem follows_iff_link {g : Graph σ} (hnodup : g.sources.Nodup) {src dst : String} :
    g.successorTable.Follows src dst ↔ g.Link src dst := by
  have hnames : (g.successorTable.map Prod.fst).Nodup := names_successorTable g ▸ hnodup
  rw [link_iff]
  unfold SuccessorTable.Follows SuccessorTable.targetsOf
  simp only [← Table.lookup_eq_some_iff hnames]
  split
  · rename_i successor hlookup
    simp [hlookup]
  · rename_i hlookup
    simp [hlookup]

theorem reaches_iff_link {g : Graph σ} (hnodup : g.sources.Nodup) {src dst : String} :
    g.successorTable.Reaches src dst ↔ ReflTransGen g.Link src dst := by
  have hsame : g.successorTable.Follows = g.Link := by
    funext a b
    exact propext (follows_iff_link hnodup)
  rw [← hsame]

/-! ## Both ways -/

theorem WellBuilt.source_cases {g : Graph σ} (hg : g.WellBuilt) {entry : String × Successor σ}
    (h : entry ∈ g.successorTable) : entry.1 = startName ∨ entry.1 ∈ g.nodeNames := by
  have hconnects := hg.connects entry h
  rcases resolvable_iff.1 hconnects.source_known with hnode | hstart | hend
  · exact .inr hnode
  · exact .inl hstart
  · exact absurd hend hconnects.source_ne

theorem WellBuilt.target_cases {g : Graph σ} (hg : g.WellBuilt) {entry : String × Successor σ}
    (h : entry ∈ g.successorTable) {target : String} (htarget : target ∈ entry.2.targets) :
    target = endName ∨ target ∈ g.nodeNames := by
  have hconnects := hg.connects entry h
  rcases resolvable_iff.1 (hconnects.target_known target htarget) with hnode | hstart | hend
  · exact .inr hnode
  · exact absurd hstart (hconnects.target_ne target htarget)
  · exact .inl hend

theorem WellBuilt.outgoing_eq_nil {g : Graph σ} (hg : g.WellBuilt) {name : String}
    (hname : ¬ (name = startName ∨ name ∈ g.nodeNames)) : g.outgoing name = [] := by
  rw [List.eq_nil_iff_forall_not_mem]
  intro successor hmem
  exact hname (hg.source_cases (mem_outgoing.1 hmem))

theorem WellBuilt.exists_produces {g : Graph σ} (hg : g.WellBuilt) {entry : String × Successor σ}
    (h : entry ∈ g.successorTable) : ∃ kind, g.Produces entry.1 kind := by
  rcases hg.source_cases h with hstart | hnode
  · exact ⟨g.inputKind, .inl ⟨hstart, rfl⟩⟩
  · obtain ⟨node, hlookup⟩ := mem_nodeNames_iff.1 hnode
    exact ⟨node.outputKind, .inr ⟨(hg.names_free _ hnode).1, node, hlookup, rfl⟩⟩

theorem Checked.wellWired {g : Graph σ} (h : g.Checked) (hg : g.WellBuilt) : g.WellWired where
  one_way_out := by
    intro name hname
    rw [length_outgoing]
    rcases hname with rfl | hnode
    · exact List.count_eq_one_of_mem h.sources_nodup h.entered
    · exact List.count_eq_one_of_mem h.sources_nodup (h.nodes_followed name hnode)
  nodes_reached := by
    intro name hname
    exact (reaches_iff_link h.sources_nodup).1 (h.nodes_reached name hname)
  end_reached := (reaches_iff_link h.sources_nodup).1 h.end_reached
  kinds_fit := by
    intro src dst kind node hlink hkind hnode
    obtain ⟨successor, hmem, hdst⟩ := link_iff.1 hlink
    obtain ⟨kind', hkind', hfit⟩ := h.kinds_fit _ hmem
    cases hkind.unique hkind'
    rcases hfit dst hdst with hend | ⟨node', hnode', hcompatible⟩
    · exact absurd hend (hg.names_free dst (mem_nodeNames_iff.2 ⟨node, hnode⟩)).2
    · rw [hnode] at hnode'
      cases hnode'
      exact compatible_iff.1 hcompatible

theorem WellWired.nodup_sources {g : Graph σ} (h : g.WellWired) (hg : g.WellBuilt) :
    g.sources.Nodup := by
  rw [nodup_sources_iff]
  intro name
  -- a name that is neither the start nor a node has nothing to leave by
  by_cases hname : name = startName ∨ name ∈ g.nodeNames
  · exact (h.one_way_out name hname).le
  · simp [hg.outgoing_eq_nil hname]

theorem WellWired.mem_sources {g : Graph σ} (h : g.WellWired) {name : String}
    (hname : name = startName ∨ name ∈ g.nodeNames) : name ∈ g.sources := by
  have hone := h.one_way_out name hname
  rw [length_outgoing] at hone
  exact List.count_pos_iff.1 (by omega)

theorem WellWired.end_targeted {g : Graph σ} (h : g.WellWired) : endName ∈ g.targets := by
  have hne : endName ≠ startName := by decide
  -- the last connection on the way to the end has the end for a target
  rcases ReflTransGen.cases_tail h.end_reached with heq | ⟨name, -, hlink⟩
  · exact absurd heq hne
  · unfold targets
    rcases hlink with ⟨e, he, -, hdst⟩ | ⟨b, hb, -, hdst⟩
    · exact List.mem_append_left _ (List.mem_map.2 ⟨e, he, hdst⟩)
    · exact List.mem_append_right _ (List.mem_flatMap.2 ⟨b, hb, hdst⟩)

theorem WellWired.checked {g : Graph σ} (h : g.WellWired) (hg : g.WellBuilt) : g.Checked where
  endpoints_known := by
    intro entry hentry
    exact ⟨(hg.connects entry hentry).source_known, (hg.connects entry hentry).target_known⟩
  entered := h.mem_sources (.inl rfl)
  left := h.end_targeted
  sources_nodup := h.nodup_sources hg
  nodes_followed := fun _ hname => h.mem_sources (.inr hname)
  nodes_reached := by
    intro name hname
    exact (reaches_iff_link (h.nodup_sources hg)).2 (h.nodes_reached name hname)
  end_reached := (reaches_iff_link (h.nodup_sources hg)).2 h.end_reached
  kinds_fit := by
    intro entry hentry
    obtain ⟨kind, hkind⟩ := hg.exists_produces hentry
    refine ⟨kind, hkind, ?_⟩
    intro target htarget
    rcases hg.target_cases hentry htarget with hend | hnode
    · exact .inl hend
    · obtain ⟨node, hlookup⟩ := mem_nodeNames_iff.1 hnode
      have hlink : g.Link entry.1 target := link_iff.2 ⟨entry.2, hentry, htarget⟩
      exact .inr ⟨node, hlookup, compatible_iff.2 (h.kinds_fit _ _ _ _ hlink hkind hlookup)⟩

theorem WellBuilt.checked_iff_wellWired {g : Graph σ} (hg : g.WellBuilt) :
    g.Checked ↔ g.WellWired := by
  constructor
  · exact fun h => h.wellWired hg
  · exact fun h => h.checked hg

/-! ## Compiling -/

theorem one_le_bound_iff {g : Graph σ} {maxSteps : Option Int} :
    1 ≤ g.bound maxSteps ↔ ∀ given, maxSteps = some given → 1 ≤ given := by
  unfold bound spareSteps
  cases maxSteps with
  | none =>
      simp only [Option.getD_none, reduceCtorEq, false_implies, implies_true, iff_true]
      omega
  | some given =>
      simp

/-- What a compiled graph knows of the graph that it was compiled from. -/
structure Mirrors (c : CompiledGraph σ) (g : Graph σ) (maxSteps : Option Int) : Prop where
  follows_connection : ∀ name, name = startName ∨ name ∈ g.nodeNames →
    ∃ successor, g.outgoing name = [successor] ∧ c.successors name = successor.targets
  follows_nothing : ∀ name, ¬ (name = startName ∨ name ∈ g.nodeNames) → c.successors name = []
  maxSteps_eq : (c.maxSteps : Int) = maxSteps.getD (g.nodes.length + 10)

private theorem successors_of_compile {g : Graph σ} {maxSteps : Option Int} {c : CompiledGraph σ}
    (h : g.compile maxSteps = .ok c) (name : String) :
    c.successors name = ((g.outgoing name).head?.map Successor.targets).getD [] := by
  obtain ⟨-, -, rfl⟩ := compile_eq_ok_iff.1 h
  unfold CompiledGraph.successors SuccessorTable.targetsOf
  rw [lookup_successorTable]
  cases (g.outgoing name).head? <;> rfl

private theorem mirrors_of_compile {g : Graph σ} (hg : g.WellBuilt) {maxSteps : Option Int}
    {c : CompiledGraph σ} (h : g.compile maxSteps = .ok c) : Mirrors c g maxSteps where
  follows_connection := by
    intro name hname
    have hwired : g.WellWired := (compile_eq_ok_iff.1 h).1.wellWired hg
    obtain ⟨successor, hone⟩ := List.length_eq_one_iff.1 (hwired.one_way_out name hname)
    refine ⟨successor, hone, ?_⟩
    rw [successors_of_compile h, hone]
    rfl
  follows_nothing := by
    intro name hname
    rw [successors_of_compile h, hg.outgoing_eq_nil hname]
    rfl
  maxSteps_eq := by
    obtain ⟨-, hbound, rfl⟩ := compile_eq_ok_iff.1 h
    exact Int.toNat_of_nonneg (by omega)

/-- A graph that was built by any calls compiles exactly where it is well wired and the bound on the
steps, where one is given, is positive; the compiled graph then follows its connections. -/
theorem compile_succeeds_iff_wellWired (name : String) (inputKind : ValueKind)
    (calls : List (Call σ)) (maxSteps : Option Int) :
    ((∃ c, (built name inputKind calls).compile maxSteps = .ok c) ↔
      (built name inputKind calls).WellWired ∧ ∀ given, maxSteps = some given → 1 ≤ given) ∧
    ∀ c, (built name inputKind calls).compile maxSteps = .ok c →
      Mirrors c (built name inputKind calls) maxSteps := by
  have hg := built_wellBuilt name inputKind calls
  constructor
  · simp only [compile_eq_ok_iff, hg.checked_iff_wellWired, one_le_bound_iff, exists_and_left,
      exists_eq', and_true]
  · intro c h
    exact mirrors_of_compile hg h

theorem looping_mirrored :
    ∃ c, (built "loop" .bindings looping).compile none = .ok c ∧
      Mirrors c (built "loop" .bindings looping) none := by
  obtain ⟨c, h⟩ := compile_looping
  exact ⟨c, h, (compile_succeeds_iff_wellWired "loop" .bindings looping none).2 c h⟩

end ChatPipeline.Graph
