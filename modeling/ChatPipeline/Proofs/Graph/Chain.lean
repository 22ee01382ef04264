import ChatPipeline.Proofs.Graph.Interleaving
import ChatPipeline.Proofs.Graph.History

/-!
# Graphs without branches

Without branches at most one link leaves a name, so the way to the end is unique (`Leads.unique`)
and visits no name twice (`Leads.nodup`).  If the check of the wiring finds no defect, every name
that is reached lies on that way; so the edges are one chain through all nodes.
-/

namespace ChatPipeline.Graph

open Relation

variable {g : Graph σ}

/-! ## The way to the end -/

/-- From a name the links lead through some names, one after the other, and then to the end. -/
inductive Leads (g : Graph σ) : String → List String → Prop where
  | last (h : g.Link a endName) : Leads g a []
  | next (h : g.Link a b) (hrest : Leads g b names) : Leads g a (b :: names)

/-- At most one link leaves a name, and none leaves the end. -/
structure Linear (g : Graph σ) : Prop where
  one_way : ∀ a b b', g.Link a b → g.Link a b' → b = b'
  end_last : ∀ b, ¬ g.Link endName b

theorem Leads.goes_on {a : String} {names : List String} (h : g.Leads a names) :
    ∃ b, g.Link a b := by
  cases h with
  | last h => exact ⟨_, h⟩
  | next h _ => exact ⟨_, h⟩

theorem Linear.not_leads_end (hg : g.Linear) {names : List String} :
    ¬ g.Leads endName names := by
  intro h
  obtain ⟨b, hb⟩ := h.goes_on
  exact hg.end_last b hb

theorem Leads.unique (hg : g.Linear) {a : String} {names names' : List String}
    (h : g.Leads a names) (h' : g.Leads a names') : names = names' := by
  induction h generalizing names' with
  | last hend =>
      cases h' with
      | last => rfl
      | next hb hrest =>
          cases hg.one_way _ _ _ hend hb
          exact absurd hrest hg.not_leads_end
  | next hb hrest ih =>
      cases h' with
      | last hend =>
          cases hg.one_way _ _ _ hend hb
          exact absurd hrest hg.not_leads_end
      | next hb' hrest' =>
          cases hg.one_way _ _ _ hb hb'
          rw [ih hrest']

theorem Leads.exists_shorter {a x : String} {names : List String} (h : g.Leads a names)
    (hx : x ∈ names) : ∃ rest, g.Leads x rest ∧ rest.length < names.length := by
  induction h with
  | last => cases hx
  | next hb hrest ih =>
      rcases List.mem_cons.1 hx with rfl | hx
      · exact ⟨_, hrest, Nat.lt_succ_self _⟩
      · obtain ⟨rest, hleads, hless⟩ := ih hx
        exact ⟨rest, hleads, Nat.lt_succ_of_lt hless⟩

theorem Leads.nodup (hg : g.Linear) {a : String} {names : List String} (h : g.Leads a names) :
    (a :: names).Nodup := by
  have hfresh : ∀ {a names}, g.Leads a names → a ∉ names := by
    intro a names h hmem
    obtain ⟨rest, hleads, hless⟩ := h.exists_shorter hmem
    rw [h.unique hg hleads] at hless
    exact lt_irrefl _ hless
  induction h with
  | last => exact List.nodup_singleton _
  | next hb hrest ih => exact List.nodup_cons.2 ⟨hfresh (.next hb hrest), ih⟩

def linksThrough (a : String) (names : List String) : List (String × String) :=
  (a :: names).zip (names ++ [endName])

@[simp] theorem linksThrough_nil (a : String) : linksThrough a [] = [(a, endName)] := rfl

@[simp] theorem linksThrough_cons (a b : String) (names : List String) :
    linksThrough a (b :: names) = (a, b) :: linksThrough b names := rfl

private theorem map_fst_linksThrough (a : String) (names : List String) :
    (linksThrough a names).map Prod.fst = a :: names :=
  List.map_fst_zip (by simp)

private theorem map_snd_linksThrough (a : String) (names : List String) :
    (linksThrough a names).map Prod.snd = names ++ [endName] :=
  List.map_snd_zip (by simp)

private theorem leads_iff {a : String} {names : List String} :
    g.Leads a names ↔ ∀ link ∈ linksThrough a names, g.Link link.1 link.2 := by
  induction names generalizing a with
  | nil =>
      simp only [linksThrough_nil, List.forall_mem_singleton]
      constructor
      · rintro ⟨h⟩
        exact h
      · exact .last
  | cons b names ih =>
      simp only [linksThrough_cons, List.forall_mem_cons, ← ih]
      constructor
      · rintro (_ | ⟨hb, hrest⟩)
        exact ⟨hb, hrest⟩
      · rintro ⟨hb, hrest⟩
        exact .next hb hrest

theorem Leads.mem_linksThrough (hg : g.Linear) {a x y : String} {names : List String}
    (h : g.Leads a names) (hx : x ∈ a :: names) (hxy : g.Link x y) :
    (x, y) ∈ linksThrough a names := by
  rw [← map_fst_linksThrough, List.mem_map] at hx
  obtain ⟨⟨x, z⟩, hmem, rfl⟩ := hx
  cases hg.one_way _ _ _ hxy (leads_iff.1 h _ hmem)
  exact hmem

private theorem exists_leads {a : String} (h : ReflTransGen g.Link a endName) :
    a = endName ∨ ∃ names, g.Leads a names := by
  induction h using ReflTransGen.head_induction_on with
  | refl => exact .inl rfl
  | head hb _ ih =>
      rcases ih with rfl | ⟨names, hleads⟩
      · exact .inr ⟨[], .last hb⟩
      · exact .inr ⟨_, .next hb hleads⟩

theorem Leads.reaches {a : String} {names : List String} (h : g.Leads a names) :
    (∀ x ∈ names, ReflTransGen g.Link a x) ∧ ReflTransGen g.Link a endName := by
  induction h with
  | last hend => exact ⟨nofun, .single hend⟩
  | next hb hrest ih =>
      refine ⟨List.forall_mem_cons.2 ⟨.single hb, fun x hx => (ih.1 x hx).head hb⟩, ih.2.head hb⟩

theorem Leads.mem_of_reaches (hg : g.Linear) {a x : String} {names : List String}
    (h : g.Leads a names) (hx : ReflTransGen g.Link a x) : x = endName ∨ x ∈ a :: names := by
  induction hx with
  | refl => exact .inr List.mem_cons_self
  | tail _ hxy ih =>
      rcases ih with rfl | hx
      · exact absurd hxy (hg.end_last _)
      · have hmem := (List.of_mem_zip (h.mem_linksThrough hg hx hxy)).2
        rcases List.mem_append.1 hmem with hnames | hend
        · exact .inr (List.mem_cons_of_mem _ hnames)
        · exact .inl (List.mem_singleton.1 hend)

/-! ## Chains -/

/-- The edges are a chain from the start through these names to the end, and the names are the
nodes, each of them once. -/
structure ChainOf (g : Graph σ) (names : List String) : Prop where
  nodes : names.Perm g.nodeNames
  links : (g.edges.map fun e => (e.src, e.dst)).Perm (linksThrough startName names)

private theorem link_iff_mem (hbranches : g.branches = []) {src dst : String} :
    g.Link src dst ↔ (src, dst) ∈ g.edges.map fun e => (e.src, e.dst) := by
  simp [Link, hbranches, Prod.ext_iff]

private theorem sources_of_edges (hbranches : g.branches = []) :
    g.sources = (g.edges.map fun e => (e.src, e.dst)).map Prod.fst := by
  simp [sources, hbranches, Function.comp_def]

theorem WellBuilt.link_cases (hg : g.WellBuilt) {src dst : String} (h : g.Link src dst) :
    (src = startName ∨ src ∈ g.nodeNames) ∧ (dst = endName ∨ dst ∈ g.nodeNames) := by
  obtain ⟨successor, hmem, hdst⟩ := link_iff.1 h
  exact ⟨hg.source_cases hmem, hg.target_cases hmem hdst⟩

theorem WellBuilt.end_last (hg : g.WellBuilt) (dst : String) : ¬ g.Link endName dst := by
  intro h
  rcases (hg.link_cases h).1 with hstart | hnode
  · exact absurd hstart (by decide)
  · exact (hg.names_free _ hnode).2 rfl

theorem WellBuilt.linear (hg : g.WellBuilt) (hbranches : g.branches = [])
    (hnodup : g.sources.Nodup) : g.Linear where
  one_way := by
    intro a b b' hb hb'
    rw [link_iff_mem hbranches] at hb hb'
    rw [sources_of_edges hbranches] at hnodup
    exact (Prod.ext_iff.1 (List.inj_on_of_nodup_map hnodup hb hb' rfl)).2
  end_last := hg.end_last

theorem ChainOf.leads (hbranches : g.branches = []) {names : List String}
    (h : g.ChainOf names) : g.Leads startName names := by
  rw [leads_iff]
  intro link hlink
  exact (link_iff_mem hbranches).2 (h.links.mem_iff.2 hlink)

theorem ChainOf.nodup_sources (hg : g.WellBuilt) (hbranches : g.branches = [])
    {names : List String} (h : g.ChainOf names) : g.sources.Nodup := by
  rw [sources_of_edges hbranches, (h.links.map Prod.fst).nodup_iff, map_fst_linksThrough,
    List.nodup_cons, h.nodes.mem_iff, h.nodes.nodup_iff]
  exact ⟨fun hstart => (hg.names_free _ hstart).1 rfl, hg.names_nodup⟩

theorem ChainOf.length_edges {names : List String} (h : g.ChainOf names) :
    g.edges.length = names.length + 1 := by
  have hlength := h.links.length_eq
  rw [List.length_map] at hlength
  simp [hlength, linksThrough]

theorem Leads.nodes_perm (hg : g.WellBuilt) (hlinear : g.Linear) {names : List String}
    (h : g.Leads startName names)
    (hreached : ∀ n ∈ g.nodeNames, ReflTransGen g.Link startName n) : names.Perm g.nodeNames := by
  rw [List.perm_ext_iff_of_nodup (h.nodup hlinear).of_cons hg.names_nodup]
  intro n
  constructor
  · intro hn
    obtain ⟨rest, hrest, -⟩ := h.exists_shorter hn
    obtain ⟨dst, hdst⟩ := hrest.goes_on
    refine (hg.link_cases hdst).1.resolve_left ?_
    rintro rfl
    exact (List.nodup_cons.1 (h.nodup hlinear)).1 hn
  · intro hn
    obtain ⟨hstart, hend⟩ := hg.names_free n hn
    have hmem := (h.mem_of_reaches hlinear (hreached n hn)).resolve_left hend
    exact (List.mem_cons.1 hmem).resolve_left hstart

theorem Leads.links_perm (hg : g.WellBuilt) (hbranches : g.branches = [])
    (hnodup : g.sources.Nodup) {names : List String} (h : g.Leads startName names)
    (hnodes : names.Perm g.nodeNames) :
    (g.edges.map fun e => (e.src, e.dst)).Perm (linksThrough startName names) := by
  have hlinear := hg.linear hbranches hnodup
  have hedges : (g.edges.map fun e => (e.src, e.dst)).Nodup := by
    rw [sources_of_edges hbranches] at hnodup
    exact hnodup.of_map _
  have hway : (linksThrough startName names).Nodup := by
    apply List.Nodup.of_map Prod.fst
    rw [map_fst_linksThrough]
    exact h.nodup hlinear
  rw [List.perm_ext_iff_of_nodup hedges hway]
  rintro ⟨src, dst⟩
  rw [← link_iff_mem hbranches]
  constructor
  · intro hlink
    refine h.mem_linksThrough hlinear ?_ hlink
    rw [List.mem_cons, hnodes.mem_iff]
    exact (hg.link_cases hlink).1
  · exact leads_iff.1 h _

theorem WellBuilt.without_defect_iff (hg : g.WellBuilt) (hbranches : g.branches = []) :
    g.wiringDefect? = none ↔ ∃ names, g.ChainOf names := by
  rw [wiringDefect?_eq_none_iff]
  constructor
  · rintro ⟨-, -, hnodup, -, hnodes, hend⟩
    simp only [reaches_iff_link hnodup] at hnodes hend
    have hlinear := hg.linear hbranches hnodup
    obtain ⟨names, h⟩ := (exists_leads hend).resolve_left (by decide)
    have hperm := h.nodes_perm hg hlinear hnodes
    exact ⟨names, hperm, h.links_perm hg hbranches hnodup hperm⟩
  · rintro ⟨names, h⟩
    have hnodup := h.nodup_sources hg hbranches
    have hsources : ∀ n, n ∈ g.sources ↔ n ∈ startName :: names := by
      intro n
      rw [sources_of_edges hbranches, (h.links.map Prod.fst).mem_iff, map_fst_linksThrough]
    have htargets : endName ∈ g.edges.map (·.dst) := by
      have hlast : endName ∈ (linksThrough startName names).map Prod.snd := by
        simp [map_snd_linksThrough]
      simpa using (h.links.map Prod.snd).mem_iff.2 hlast
    obtain ⟨hnodes, hend⟩ := (h.leads hbranches).reaches
    simp only [reaches_iff_link hnodup]
    refine ⟨(hsources _).2 List.mem_cons_self, List.mem_append_left _ htargets, hnodup, ?_, ?_,
      hend⟩
    · intro n hn
      exact (hsources n).2 (List.mem_cons_of_mem _ (h.nodes.mem_iff.2 hn))
    · intro n hn
      exact hnodes n (h.nodes.mem_iff.2 hn)

/-! ## Wiring without defects -/

/-- Compiling succeeds, or fails over the kinds of values alone. -/
def WiringAccepted (g : Graph σ) : Prop :=
  (∃ c, g.compile none = .ok c) ∨ ∃ src produced dst expected,
    g.compile none = .error (.wiring (.incompatible src produced dst expected))

private theorem wiringDefect?_ne_incompatible {src produced dst expected : String} :
    g.wiringDefect? ≠ some (.incompatible src produced dst expected) := by
  intro h
  simp only [wiringDefect?, Option.or_eq_some_iff] at h
  -- each check has its own defects
  rcases h with h | ⟨-, h | ⟨-, h | ⟨-, h | ⟨-, h | ⟨-, h⟩⟩⟩⟩⟩
  · simp [entryDefect?] at h
  · simp [exitDefect?] at h
  · simp [edgeConflict?] at h
  · obtain ⟨src, -, hdefect⟩ := Option.map_eq_some_iff.1 h
    split at hdefect <;> cases hdefect
  · simp [deadEnd?] at h
  · simp [unreachable?] at h

private theorem compile_default (g : Graph σ) :
    g.compile none = g.checkWiring.map fun table =>
      { name := g.name, nodes := g.nodes, table
        maxSteps := (g.bound none).toNat } := by
  have hbound : ¬ (g.nodes.length + spareSteps : Int) < 1 := by
    unfold spareSteps
    omega
  unfold compile bound
  cases g.checkWiring with
  | error f => rfl
  | ok table => simp [hbound, bind, Except.bind, pure, Except.pure, Except.map]

theorem WellBuilt.wiringAccepted_iff (hg : g.WellBuilt) :
    g.WiringAccepted ↔ g.wiringDefect? = none := by
  unfold WiringAccepted
  rw [compile_default]
  cases hcheck : g.checkWiring with
  | ok table =>
      have hnone := (checkWiring_eq_ok_iff.1 hcheck).1.without_defect
      simp [Except.map, hnone]
  | error f =>
      rcases hg.checkWiring_error hcheck with ⟨defect, hdefect, rfl⟩ |
        ⟨hnone, entry, hentry, hfailed⟩
      · simp only [Except.map, reduceCtorEq, exists_false, false_or, Except.error.injEq,
          Failure.wiring.injEq, hdefect, iff_false]
        rintro ⟨src, produced, dst, expected, rfl⟩
        exact wiringDefect?_ne_incompatible hdefect
      · obtain ⟨_, _, _, -, -, -, -, rfl⟩ := hg.checkSuccessor_error hentry hfailed
        simp [Except.map, hnone]

end ChatPipeline.Graph

/-! ## Runs along a chain -/

namespace ChatPipeline

theorem Graph.Leads.exists_next {g : Graph σ} {a : String} {path rest : List String}
    (h : g.Leads a (path ++ rest)) :
    ∃ b tail, g.Link (path.getLastD a) b ∧ rest ++ [endName] = b :: tail := by
  induction path generalizing a with
  | nil =>
      cases h with
      | last hend => exact ⟨endName, [], hend, rfl⟩
      | next hb _ => exact ⟨_, _, hb, rfl⟩
  | cons b path ih =>
      cases h with
      | next _ hrest =>
          rw [List.getLastD_cons]
          exact ih hrest

namespace CompiledGraph

variable {g : Graph σ} {names : List String} {maxSteps : Option Int} {c : CompiledGraph σ}
  {deadline : Option Instant} {input : Value} {i i' : Invocation} {opening s s' : Scene σ}

/-- The path is the beginning of a chain, and the run heads for what comes next on it. -/
structure OnChain (names : List String) (i : Invocation) : Prop where
  leaving : ∀ name, i.stage = .after name → i.path <+: names ∧ name = lastOf i.path
  heading : ∀ name, i.stage = .at name → i.path ++ [name] <+: names ++ [endName]

theorem OnChain.entering (h : OnChain names i) {name : String} (hstage : i.stage = .at name)
    (hname : name ≠ endName) : i.path ++ [name] <+: names := by
  rcases List.prefix_concat_iff.1 (h.heading name hstage) with heq | hbegins
  · exact absurd (List.append_inj_right' heq rfl) (by simpa using hname)
  · exact hbegins

private theorem link_of_lookup (hc : g.compile maxSteps = .ok c) {name dst : String}
    (hnext : c.table.lookup name = some (.fixed dst)) : g.Link name dst := by
  obtain ⟨-, -, rfl⟩ := Graph.compile_eq_ok_iff.1 hc
  exact Graph.link_iff.2 ⟨_, Table.mem_of_lookup hnext, List.mem_singleton_self _⟩

private theorem not_routed (hc : g.compile maxSteps = .ok c) (hbranches : g.branches = [])
    {name : String}
    {b : Branch σ} : c.table.lookup name ≠ some (.routed b) := by
  intro hnext
  obtain ⟨-, -, rfl⟩ := Graph.compile_eq_ok_iff.1 hc
  rcases Graph.mem_successorTable.1 (Table.mem_of_lookup hnext) with ⟨e, -, he⟩ | ⟨b', hb, -⟩
  · cases he
  · rw [hbranches] at hb
    cases hb

theorem Steps.onChain (hc : g.compile maxSteps = .ok c) (hbranches : g.branches = [])
    (hlinear : g.Linear) (hleads : g.Leads startName names)
    (h : c.Steps deadline i s (.done (.going i')) s') (hi : OnChain names i) :
    OnChain names i' := by
  cases h with
  | ran hname hbelow hnode hcall =>
      refine ⟨?_, nofun⟩
      rintro _ ⟨⟩
      exact ⟨hi.entering rfl hname, (lastOf_concat _ _).symm⟩
  | followed hnext =>
      obtain ⟨⟨rest, rfl⟩, hlast⟩ := hi.leaving _ rfl
      dsimp only at hlast hleads
      subst hlast
      obtain ⟨b, tail, hb, htail⟩ := hleads.exists_next
      cases hlinear.one_way _ _ _ (link_of_lookup hc hnext) hb
      refine ⟨nofun, ?_⟩
      rintro _ ⟨⟩
      rw [List.append_assoc, htail]
      exact ⟨tail, (List.append_cons _ _ _).symm⟩
  | chosen hnext hchoice => exact absurd hnext (not_routed hc hbranches)

theorem Reached.onChain (hc : g.compile maxSteps = .ok c) (hbranches : g.branches = [])
    (hlinear : g.Linear) (hleads : g.Leads startName names)
    (h : c.Reached deadline input opening i s) : OnChain names i := by
  induction h with
  | start =>
      refine ⟨?_, nofun⟩
      rintro _ ⟨⟩
      exact ⟨List.nil_prefix, rfl⟩
  | step _ hstep ih => exact hstep.onChain hc hbranches hlinear hleads ih

/-- A call of a node in this step gives no value. -/
def NodeFails (c : CompiledGraph σ) (deadline : Option Instant) (i : Invocation) (s : Scene σ) :
    Prop :=
  ∃ name node, i.stage = .at name ∧ c.nodes.lookup name = some node ∧
    ∀ v s', node.call i.value deadline s ≠ (.done v, s')

theorem OnChain.last_step (hc : g.compile maxSteps = .ok c) (hbranches : g.branches = [])
    (hends : endName ∉ names) (hbound : names.length ≤ c.maxSteps) (hi : OnChain names i)
    (hfound : c.Found i.stage) {e : Ending StepResult} (hlast : c.Steps deadline i s e s')
    (hfinal : Final e) :
    (i.path = names ∧ e = .done (.reached i)) ∨
      c.NodeFails deadline i s ∧ ∀ result, e = .done result →
        ∃ path node f, result = .failed path (.nodeFailed node f) := by
  cases hlast with
  | reached =>
      refine .inl ⟨?_, rfl⟩
      rcases List.prefix_concat_iff.1 (hi.heading _ rfl) with heq | hbegins
      · exact List.append_inj_left' heq rfl
      · exact absurd (hbegins.subset (by simp)) hends
  | limited hname hlimit =>
      have hle := (hi.entering rfl hname).length_le
      rw [List.length_append, List.length_singleton] at hle
      dsimp only at hle
      omega
  | ran => exact absurd rfl (hfinal _)
  | nodeFailed hname hbelow hnode hcall hf =>
      refine .inr ⟨⟨_, _, rfl, hnode, by simp [hcall]⟩, ?_⟩
      rintro _ ⟨⟩
      exact ⟨_, _, _, rfl⟩
  | nodeCancelled hname hbelow hnode hcall hf =>
      exact .inr ⟨⟨_, _, rfl, hnode, by simp [hcall]⟩, nofun⟩
  | nodeExpired hname hbelow hnode hcall =>
      exact .inr ⟨⟨_, _, rfl, hnode, by simp [hcall]⟩, nofun⟩
  | nodeMissing hname hbelow hnode =>
      obtain ⟨node, hsome⟩ := hfound.resolve_left hname
      rw [hnode] at hsome
      cases hsome
  | followed => exact absurd rfl (hfinal _)
  | chosen hnext | misrouted hnext | choiceCancelled hnext | choiceExpired hnext =>
      exact absurd hnext (not_routed hc hbranches)
  | successorMissing hnext =>
      obtain ⟨successor, hsome⟩ := hfound
      rw [hnext] at hsome
      cases hsome

end CompiledGraph

namespace Graph

open CompiledGraph

/-- Without branches, the wiring of a graph that was built by any calls is accepted exactly where
its edges are one chain through all nodes.  A run whose bound admits the chain then goes through all
of it, unless a node fails. -/
theorem accepted_iff_chain {name : String} {inputKind : ValueKind} {calls : List (Call σ)}
    (hbranches : (built name inputKind calls).branches = []) :
    ((built name inputKind calls).WiringAccepted ↔
      ∃ names, (built name inputKind calls).ChainOf names) ∧
    ∀ names, (built name inputKind calls).ChainOf names →
      (built name inputKind calls).edges.length = names.length + 1 ∧
      ∀ maxSteps c, (built name inputKind calls).compile maxSteps = .ok c →
        names.length ≤ c.maxSteps → ∀ input deadline opening,
          (∀ r after, c.run input deadline opening = (.done r, after) →
            (∀ node f, r.exception ≠ some (.nodeFailed node f)) →
              r.status = .completed ∧ r.path = names) ∧
          ((∀ i s, c.Reached deadline input opening i s → ¬ c.NodeFails deadline i s) →
            ∃ r after, c.run input deadline opening = (.done r, after) ∧
              r.status = .completed ∧ r.path = names) := by
  have hg := built_wellBuilt name inputKind calls
  refine ⟨hg.wiringAccepted_iff.trans (hg.without_defect_iff hbranches), ?_⟩
  intro names h
  refine ⟨h.length_edges, ?_⟩
  intro maxSteps c hc hbound input deadline opening
  have hsound : c.Sound := sound_of_compile hc
  have hlinear := hg.linear hbranches (h.nodup_sources hg hbranches)
  have hends : endName ∉ names := fun hend => (hg.names_free _ (h.nodes.mem_iff.1 hend)).2 rfl
  have hlast_step := fun {i s e s'} (hreached : c.Reached deadline input opening i s)
      (hlast : c.Steps deadline i s e s') (hfinal : Final e) =>
    (hreached.onChain hc hbranches hlinear (h.leads hbranches)).last_step hc hbranches hends hbound
      (hreached.found hsound) hlast hfinal
  constructor
  · intro r after hrun hunfailing
    obtain ⟨i, s, result, hreached, hlast, hfinal, hrecord⟩ := run_eq_done hrun
    rcases hlast_step hreached hlast hfinal with ⟨hpath, heq⟩ | ⟨-, hfailed⟩
    · cases heq
      cases hrecord
      exact ⟨rfl, hpath⟩
    · obtain ⟨path, node, f, rfl⟩ := hfailed result rfl
      obtain ⟨text, -, rfl⟩ := recordOf_failed_eq_ok.1 hrecord
      exact absurd rfl (hunfailing node f)
  · intro hunfailing
    obtain ⟨i, s, e, s', hreached, hlast, hfinal, -⟩ := c.exists_last_step deadline input opening
    rcases hlast_step hreached hlast hfinal with ⟨hpath, rfl⟩ | ⟨hfails, -⟩
    · exact ⟨_, _, run_of_last_step hreached hlast hfinal, rfl, hpath⟩
    · exact absurd hfails (hunfailing i s hreached)

def relay : List (Call Unit) :=
  [.node "second" (.lambda (Transform.increase "n" (.int 1)) .bindings .bindings),
    .node "first" (.lambda (Transform.increase "n" (.int 1)) .bindings .bindings),
    .edge "second" endName, .edge "first" "second", .edge startName "first"]

private theorem chainOf_relay : (built "relay" .bindings relay).ChainOf ["first", "second"] where
  nodes := .swap _ _ _
  links := by decide

theorem relay_follows_chain : ∃ c r after,
    (built "relay" .bindings relay).branches = [] ∧
    (built "relay" .bindings relay).WiringAccepted ∧
    (built "relay" .bindings relay).edges.length = 3 ∧
    (built "relay" .bindings relay).compile (some 2) = .ok c ∧
    c.run (.dict []) none { world := () } = (.done r, after) ∧
    r.status = .completed ∧ r.path = ["first", "second"] := by
  obtain ⟨hiff, hchain⟩ :=
    accepted_iff_chain (rfl : (built "relay" .bindings relay).branches = [])
  obtain ⟨hlength, hruns⟩ := hchain _ chainOf_relay
  obtain ⟨c, hc, hbound, r, after, hrun, hexception⟩ :
      ∃ c, (built "relay" .bindings relay).compile (some 2) = .ok c ∧ 2 ≤ c.maxSteps ∧
        ∃ r after, c.run (.dict []) none { world := () } = (.done r, after) ∧
          r.exception = none :=
    ⟨_, rfl, le_rfl, _, _, rfl, rfl⟩
  have hfollows := (hruns (some 2) c hc hbound (.dict []) none { world := () }).1 r after hrun
  obtain ⟨hstatus, hpath⟩ := hfollows (by simp [hexception])
  exact ⟨c, r, after, rfl, hiff.2 ⟨_, chainOf_relay⟩, hlength, hc, hrun, hstatus, hpath⟩

end Graph

end ChatPipeline
