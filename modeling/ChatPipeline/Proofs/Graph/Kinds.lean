import ChatPipeline.Proofs.Graph.Acceptance
import ChatPipeline.Proofs.Graph.Steps

/-!
# Kinds are sound

The check of a graph compares the kinds that nodes declare.  At run time a node refuses a value that
is not of its kind.  Where no unchecked value is led into a node that checks, and lambdas give what
they declare, no node ever has to refuse (`value_matches_kind`): the value that leaves a name is of
the kind that the name produces, and along a connection that kind is the one that is expected.
-/

namespace ChatPipeline

/-! ## Nodes -/

namespace Node

/-- A lambda that is handed a value of its kind gives none but of the kind that it declares. -/
def KeepsKind : Node σ → Prop
  | .lambda f input output =>
    ∀ v argument, input.holds v = true → handed input v = .ok argument →
      ∀ deadline s result s', f.apply argument deadline s = (.done result, s') →
        output.holds result = true
  | _ => True

private theorem call_of_holds {n : Node σ} {v : Value} (hv : n.inputKind.holds v = true) :
    n.call v = n.run v := by
  unfold call
  rw [if_pos hv]

private theorem outputKind_holds_of_run {n : Node σ} (hn : n.KeepsKind) {v v' : Value}
    (hv : n.inputKind.holds v = true) {deadline : Option Instant} {s s' : Scene σ}
    (h : n.run v deadline s = (.done v', s')) : n.outputKind.holds v' = true := by
  unfold run at h
  cases n with
  | template t =>
      simp only [Work.bind_eq_done] at h
      obtain ⟨values, s₁, -, messages, s₂, -, hgiven⟩ := h
      cases hgiven
      exact ValueKind.holds_ofMessages messages
  | model m =>
      simp only [Work.bind_eq_done] at h
      obtain ⟨messages, s₁, -, reply, s₂, -, message, s₃, -, hgiven⟩ := h
      cases hgiven
      rfl
  | tools n =>
      simp only [Work.bind_eq_done] at h
      obtain ⟨message, s₁, -, messages, s₂, -, hgiven⟩ := h
      cases hgiven
      exact ValueKind.holds_ofMessages messages
  | lambda f input output =>
      simp only [Work.bind_eq_done] at h
      obtain ⟨argument, s₁, hhanded, hgiven⟩ := h
      obtain ⟨hargument, -⟩ := Work.ofOutcome_eq_done.1 hhanded
      exact hn v argument hv hargument deadline s₁ v' s' (Work.coroutine_eq_done.1 hgiven)

end Node

namespace Graph

/-- No unchecked value is led into a node that checks, and lambdas give what they declare. -/
structure KindSafe (g : Graph σ) : Prop where
  lambdas_keep : ∀ name node, g.node? name = some node → node.KeepsKind
  unchecked_only : ∀ src dst node, g.Link src dst → g.Produces src .any →
    g.node? dst = some node → node.inputKind = .any

/-- The value at a stage is of the kind that it left with, or of the kind that is expected. -/
def Fits (g : Graph σ) (i : Invocation) : Prop :=
  match i.stage with
  | .after src => ∀ kind, g.Produces src kind → kind.holds i.value = true
  | .at dst => ∀ node, g.node? dst = some node → node.inputKind.holds i.value = true

private theorem holds_along_link {g : Graph σ} (hwired : g.WellWired) (hsafe : g.KindSafe)
    {src dst : String} (hlink : g.Link src dst) {kind : ValueKind} (hkind : g.Produces src kind)
    {v : Value} (hv : kind.holds v = true) {node : Node σ} (hnode : g.node? dst = some node) :
    node.inputKind.holds v = true := by
  rcases hwired.kinds_fit src dst kind node hlink hkind hnode with hsame | hany | hany
  · rw [← hsame]
    exact hv
  · subst hany
    rw [hsafe.unchecked_only src dst node hlink hkind hnode]
    exact ValueKind.holds_any v
  · rw [hany]
    exact ValueKind.holds_any v

theorem Fits.following {g : Graph σ} (hg : g.WellBuilt) (hwired : g.WellWired)
    (hsafe : g.KindSafe) {src dst : String} {v : Value} {path : List String}
    {successor : Successor σ} (hi : g.Fits ⟨.after src, v, path⟩)
    (hnext : (src, successor) ∈ g.successorTable) (hdst : dst ∈ successor.targets) :
    g.Fits ⟨.at dst, v, path⟩ := by
  intro node hnode
  obtain ⟨kind, hkind⟩ := hg.exists_produces hnext
  have hlink : g.Link src dst := link_iff.2 ⟨successor, hnext, hdst⟩
  exact holds_along_link hwired hsafe hlink hkind (hi kind hkind) hnode

end Graph

/-! ## Runs -/

namespace CompiledGraph

variable {g : Graph σ} {maxSteps : Option Int} {c : CompiledGraph σ}

theorem Steps.fits (hg : g.WellBuilt) (hsafe : g.KindSafe) (hc : g.compile maxSteps = .ok c)
    {deadline : Option Instant} {i i' : Invocation} {s s' : Scene σ}
    (h : c.Steps deadline i s (.done (.going i')) s') (hi : g.Fits i) : g.Fits i' := by
  obtain ⟨hchecked, -, rfl⟩ := Graph.compile_eq_ok_iff.1 hc
  have hwired := hchecked.wellWired hg
  cases h with
  | ran hname hbelow hnode hcall =>
      have hv := hi _ hnode
      rw [Node.call_of_holds hv] at hcall
      have hgiven := Node.outputKind_holds_of_run (hsafe.lambdas_keep _ _ hnode) hv hcall
      -- what leaves the node has the kind of the node, since it is not the start
      rintro kind (⟨hstart, -⟩ | ⟨-, node, hnode', rfl⟩)
      · have hfree := hg.names_free _ (Graph.mem_nodeNames_iff.2 ⟨_, hnode⟩)
        exact absurd hstart hfree.1
      · cases hnode.symm.trans hnode'
        exact hgiven
  | followed hnext =>
      exact hi.following hg hwired hsafe (Table.mem_of_lookup hnext) (List.mem_singleton_self _)
  | chosen hnext hchoice =>
      obtain ⟨choice, -, -, hdst⟩ := Branch.decide_eq_ok_iff.1 hchoice
      exact hi.following hg hwired hsafe (Table.mem_of_lookup hnext) hdst

theorem Reached.fits (hg : g.WellBuilt) (hsafe : g.KindSafe) (hc : g.compile maxSteps = .ok c)
    {deadline : Option Instant} {input : Value} (hinput : g.inputKind.holds input = true)
    {opening s : Scene σ} {i : Invocation} (h : c.Reached deadline input opening i s) :
    g.Fits i := by
  induction h with
  | start =>
      rintro kind (⟨-, rfl⟩ | ⟨hne, -⟩)
      · exact hinput
      · exact absurd rfl hne
  | step _ hstep ih => exact hstep.fits hg hsafe hc ih

theorem Steps.node_failed {deadline : Option Instant} {i : Invocation} {s s' : Scene σ}
    {path : List String} {dst : String} {f : Failure}
    (h : c.Steps deadline i s (.done (.failed path (.nodeFailed dst f))) s') :
    ∃ node, i.stage = .at dst ∧ c.nodes.lookup dst = some node ∧
      node.call i.value deadline s = (.failed f, s') := by
  cases h with
  | nodeFailed hname hbelow hnode hcall hf => exact ⟨_, rfl, hnode, hcall⟩
  | misrouted hnext hchoice =>
      rcases Branch.failure_of_decide hchoice with ⟨choice, hstray⟩ | ⟨cause, hbroken⟩
      · cases hstray
      · cases hbroken

/-- In a graph that was built by any calls, every value that is handed to a node is of its kind, so
a node that fails has failed in its own work and not because it refused a value. -/
theorem value_matches_kind {name : String} {inputKind : ValueKind} {calls : List (Graph.Call σ)}
    (h : (Graph.built name inputKind calls).compile maxSteps = .ok c)
    (hsafe : (Graph.built name inputKind calls).KindSafe) {input : Value}
    (hinput : (Graph.built name inputKind calls).inputKind.holds input = true)
    (deadline : Option Instant) (opening : Scene σ) :
    (∀ i s dst node, c.Reached deadline input opening i s → i.stage = .at dst →
      c.nodes.lookup dst = some node → node.inputKind.holds i.value = true) ∧
    ∀ r s dst f, c.run input deadline opening = (.done r, s) →
      r.exception = some (.nodeFailed dst f) →
      ∃ node v s₀, c.nodes.lookup dst = some node ∧ node.inputKind.holds v = true ∧
        node.run v deadline s₀ = (.failed f, s) := by
  have hg := Graph.built_wellBuilt name inputKind calls
  have hnodes : c.nodes = (Graph.built name inputKind calls).nodes := by
    obtain ⟨-, -, rfl⟩ := Graph.compile_eq_ok_iff.1 h
    rfl
  have hpoint : ∀ i s dst node, c.Reached deadline input opening i s → i.stage = .at dst →
      c.nodes.lookup dst = some node → node.inputKind.holds i.value = true := by
    intro i s dst node hreached hstage hnode
    have hfits := hreached.fits hg hsafe h hinput
    unfold Graph.Fits at hfits
    rw [hstage] at hfits
    rw [hnodes] at hnode
    exact hfits node hnode
  refine ⟨hpoint, ?_⟩
  intro r s dst f hrun hf
  obtain ⟨i, s₀, path, hreached, hlast, -⟩ := exists_last_failure hrun hf
  obtain ⟨node, hstage, hnode, hcall⟩ := hlast.node_failed
  have hv := hpoint i s₀ dst node hreached hstage hnode
  rw [Node.call_of_holds hv] at hcall
  exact ⟨node, i.value, s₀, hnode, hv, hcall⟩

private theorem kindSafe_looping : (Graph.built "loop" .bindings Graph.looping).KindSafe := by
  rw [Graph.built_looping]
  have only : ∀ name (node : Node Unit),
      [("spin", .lambda Transform.identity .bindings .bindings)].lookup name = some node →
        .lambda Transform.identity .bindings .bindings = node := by
    intro name node hnode
    have hmem := Table.mem_of_lookup hnode
    rw [List.mem_singleton] at hmem
    cases hmem
    rfl
  constructor
  · intro name node hnode
    cases only name node hnode
    intro v argument hv hhanded deadline s result s' happly
    cases hhanded
    cases happly
    exact hv
  · rintro src dst node - (⟨-, hinput⟩ | ⟨-, source, hsource, houtput⟩)
    · cases hinput
    · cases only src source hsource
      cases houtput

theorem looping_value_matches_kind :
    ∃ c, (Graph.built "loop" .bindings Graph.looping).compile none = .ok c ∧
      ∀ i s dst node, c.Reached none (.dict []) { world := () } i s → i.stage = .at dst →
        c.nodes.lookup dst = some node → node.inputKind.holds i.value = true := by
  obtain ⟨c, h⟩ := Graph.compile_looping
  have hinput : (Graph.built "loop" .bindings Graph.looping).inputKind.holds (.dict []) = true := by
    rw [Graph.built_looping]
    rfl
  exact ⟨c, h, (value_matches_kind h kindSafe_looping hinput none { world := () }).1⟩

end CompiledGraph

end ChatPipeline
