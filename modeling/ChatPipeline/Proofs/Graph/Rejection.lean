import ChatPipeline.Proofs.Graph.History

/-!
# Which defect is reported

A graph is compiled only if it upholds a list of rules.  The report of a graph that is refused names
a defect that the graph really has, under the first rule in the list that is broken anywhere; what
broke the rules after it stays unsaid (`compile_reports_first_violation`).  The rules speak of the
edges and branches themselves, the passes of the check of sources, targets and the table of
successors, so there is one lemma for each pass.
-/

namespace ChatPipeline.Graph

open Relation

/-! ## Rules -/

inductive Rule where
  | entered
  | left
  | oneEdge
  | oneRouting
  | followed
  | reached
  | endReached
  | kindsFit
  | boundPositive
  deriving DecidableEq, Repr

def Rule.order : List Rule :=
  [.entered, .left, .oneEdge, .oneRouting, .followed, .reached, .endReached, .kindsFit,
    .boundPositive]

/-- A defect that a graph and the bound on its steps really have, under the rule that it breaks. -/
inductive Breaks (g : Graph σ) (maxSteps : Option Int) : Rule → WiringDefect → Prop where
  | noEntry (h : g.outgoing startName = []) : Breaks g maxSteps .entered .noEntry
  | noExit (h : ∀ src, ¬ g.Link src endName) : Breaks g maxSteps .left .noExit
  | twoEdges (h : 2 ≤ (g.edges.filter (·.src == src)).length) :
      Breaks g maxSteps .oneEdge (.twoEdges src)
  | edgeAndBranch (hedge : ∃ e ∈ g.edges, e.src = src) (hbranch : ∃ b ∈ g.branches, b.src = src) :
      Breaks g maxSteps .oneRouting (.edgeAndBranch src)
  | twoBranches (h : 2 ≤ (g.branches.filter (·.src == src)).length) :
      Breaks g maxSteps .oneRouting (.twoBranches src)
  | noSuccessor (hnode : n ∈ g.nodeNames) (h : g.outgoing n = []) :
      Breaks g maxSteps .followed (.noSuccessor n)
  | unreachable (hnode : n ∈ g.nodeNames) (h : ¬ ReflTransGen g.Link startName n) :
      Breaks g maxSteps .reached (.unreachable n)
  | endUnreachable (h : ¬ ReflTransGen g.Link startName endName) :
      Breaks g maxSteps .endReached .endUnreachable
  | incompatible (hlink : g.Link src dst) (hsrc : g.Produces src kind)
      (hdst : g.node? dst = some node)
      (h : ¬ (kind = node.inputKind ∨ kind = .any ∨ node.inputKind = .any)) :
      Breaks g maxSteps .kindsFit (.incompatible src kind.name dst node.inputKind.name)
  | boundTooSmall (hgiven : maxSteps = some given) (h : given < 1) :
      Breaks g maxSteps .boundPositive .boundTooSmall

def Upholds (g : Graph σ) (maxSteps : Option Int) (rule : Rule) : Prop :=
  ∀ defect, ¬ g.Breaks maxSteps rule defect

/-- A defect under a rule of the list, with all the rules before it upheld. -/
def FirstBroken (g : Graph σ) (maxSteps : Option Int) (defect : WiringDefect) : Prop :=
  ∃ before rule after, Rule.order = before ++ rule :: after ∧ g.Breaks maxSteps rule defect ∧
    ∀ earlier ∈ before, g.Upholds maxSteps earlier

/-! ## Sources and targets -/

section

variable {g : Graph σ} {maxSteps : Option Int}

private theorem outgoing_eq_nil_iff {name : String} : g.outgoing name = [] ↔ name ∉ g.sources := by
  rw [← List.length_eq_zero_iff, length_outgoing, List.count_eq_zero]

private theorem mem_targets_iff {dst : String} : dst ∈ g.targets ↔ ∃ src, g.Link src dst := by
  unfold targets Link
  rw [List.mem_append, List.mem_map, List.mem_flatMap]
  constructor
  · rintro (⟨e, he, hdst⟩ | ⟨b, hb, hdst⟩)
    · exact ⟨e.src, .inl ⟨e, he, rfl, hdst⟩⟩
    · exact ⟨b.src, .inr ⟨b, hb, rfl, hdst⟩⟩
  · rintro ⟨src, ⟨e, he, -, hdst⟩ | ⟨b, hb, -, hdst⟩⟩
    · exact .inl ⟨e, he, hdst⟩
    · exact .inr ⟨b, hb, hdst⟩

private theorem count_map_eq {as : List α} {source : α → String} (src : String) :
    (as.map source).count src = (as.filter (source · == src)).length := by
  rw [List.count_eq_countP, List.countP_map, List.countP_eq_length_filter]
  rfl

private theorem of_firstRepeated?_eq_some {seen names : List String} {name : String}
    (h : firstRepeated? seen names = some name) :
    name ∈ names ∧ (name ∈ seen ∨ 2 ≤ names.count name) := by
  induction names generalizing seen with
  | nil => cases h
  | cons n rest ih =>
      rw [firstRepeated?] at h
      split at h
      case isTrue hseen =>
          cases h
          exact ⟨List.mem_cons_self, .inl (List.contains_iff_mem.1 hseen)⟩
      case isFalse =>
          obtain ⟨hmem, hrepeated⟩ := ih h
          refine ⟨List.mem_cons_of_mem n hmem, ?_⟩
          rw [List.mem_append, List.mem_singleton] at hrepeated
          rcases hrepeated with (hseen | rfl) | htwice
          · exact .inl hseen
          · have hpos := List.count_pos_iff.2 hmem
            rw [List.count_cons_self]
            exact .inr (by omega)
          · exact .inr (htwice.trans List.count_le_count_cons)

/-! ## One pass after the other -/

theorem upholds_entered (h : g.entryDefect? = none) : g.Upholds maxSteps .entered := by
  intro defect hbreaks
  cases hbreaks with | noEntry hnone
  unfold entryDefect? at h
  have hmem : startName ∈ g.sources := by simpa using h
  exact outgoing_eq_nil_iff.1 hnone hmem

private theorem breaks_of_entryDefect? {defect : WiringDefect} (h : g.entryDefect? = some defect) :
    g.Breaks maxSteps .entered defect := by
  unfold entryDefect? at h
  split at h
  case isTrue => cases h
  case isFalse hnot =>
      cases h
      exact .noEntry (outgoing_eq_nil_iff.2 fun hmem => hnot (List.contains_iff_mem.2 hmem))

private theorem upholds_left (h : g.exitDefect? = none) : g.Upholds maxSteps .left := by
  intro defect hbreaks
  cases hbreaks with | noExit hnone
  unfold exitDefect? at h
  have hmem : endName ∈ g.targets := by simpa using h
  obtain ⟨src, hlink⟩ := mem_targets_iff.1 hmem
  exact hnone src hlink

private theorem breaks_of_exitDefect? {defect : WiringDefect} (h : g.exitDefect? = some defect) :
    g.Breaks maxSteps .left defect := by
  unfold exitDefect? at h
  split at h
  case isTrue => cases h
  case isFalse hnot =>
      cases h
      refine .noExit fun src hlink => hnot ?_
      exact List.contains_iff_mem.2 (mem_targets_iff.2 ⟨src, hlink⟩)

private theorem upholds_oneEdge (h : g.edgeConflict? = none) : g.Upholds maxSteps .oneEdge := by
  intro defect hbreaks
  cases hbreaks with | twoEdges htwice
  rw [← count_map_eq] at htwice
  have hnodup := (firstRepeated?_eq_none_iff.1 (Option.map_eq_none_iff.1 h)).1
  have hone := List.nodup_iff_count_le_one.1 hnodup
  exact absurd (htwice.trans (hone _)) (by decide)

private theorem breaks_of_edgeConflict? {defect : WiringDefect}
    (h : g.edgeConflict? = some defect) :
    g.Breaks maxSteps .oneEdge defect := by
  obtain ⟨src, hfound, rfl⟩ := Option.map_eq_some_iff.1 h
  obtain ⟨-, hseen | htwice⟩ := of_firstRepeated?_eq_some hfound
  · cases hseen
  · exact .twoEdges (htwice.trans_eq (count_map_eq src))

private theorem upholds_oneRouting (h : g.branchConflict? = none) :
    g.Upholds maxSteps .oneRouting := by
  obtain ⟨hnodup, hfresh⟩ := firstRepeated?_eq_none_iff.1 (Option.map_eq_none_iff.1 h)
  intro defect hbreaks
  cases hbreaks with
  | edgeAndBranch hedge hbranch =>
      obtain ⟨b, hb, rfl⟩ := hbranch
      exact hfresh b.src (List.mem_map_of_mem hb) (List.mem_map.2 hedge)
  | twoBranches htwice =>
      rw [← count_map_eq] at htwice
      have hone := List.nodup_iff_count_le_one.1 hnodup
      exact absurd (htwice.trans (hone _)) (by decide)

private theorem breaks_of_branchConflict? {defect : WiringDefect}
    (h : g.branchConflict? = some defect) :
    g.Breaks maxSteps .oneRouting defect := by
  obtain ⟨src, hfound, hdefect⟩ := Option.map_eq_some_iff.1 h
  obtain ⟨hbranch, hrepeated⟩ := of_firstRepeated?_eq_some hfound
  split at hdefect
  case isTrue hedge =>
      subst hdefect
      exact .edgeAndBranch (List.mem_map.1 (List.contains_iff_mem.1 hedge)) (List.mem_map.1 hbranch)
  case isFalse hedge =>
      subst hdefect
      have htwice := hrepeated.resolve_left fun hseen => hedge (List.contains_iff_mem.2 hseen)
      exact .twoBranches (htwice.trans_eq (count_map_eq src))

private theorem upholds_followed (h : g.deadEnd? = none) : g.Upholds maxSteps .followed := by
  intro defect hbreaks
  cases hbreaks with | noSuccessor hnode hnone
  exact outgoing_eq_nil_iff.1 hnone (deadEnd?_eq_none_iff.1 h _ hnode)

private theorem breaks_of_deadEnd? {defect : WiringDefect} (h : g.deadEnd? = some defect) :
    g.Breaks maxSteps .followed defect := by
  obtain ⟨name, hfound, rfl⟩ := Option.map_eq_some_iff.1 h
  have hnot : name ∉ g.sources := by simpa using List.find?_some hfound
  exact .noSuccessor (List.mem_of_find?_eq_some hfound) (outgoing_eq_nil_iff.2 hnot)

private theorem breaks_of_unreachable? {defect : WiringDefect} (hnodup : g.sources.Nodup)
    (h : g.unreachable? = some defect) :
    g.Breaks maxSteps .reached defect ∨
      g.Upholds maxSteps .reached ∧ g.Breaks maxSteps .endReached defect := by
  have hreach : ∀ name, name ∈ g.successorTable.reachable ↔ ReflTransGen g.Link startName name :=
    fun name => SuccessorTable.mem_reachable_iff.trans (reaches_iff_link hnodup)
  unfold unreachable? at h
  rcases Option.or_eq_some_iff.1 h with hnode | ⟨hnone, hend⟩
  · obtain ⟨name, hfound, rfl⟩ := Option.map_eq_some_iff.1 hnode
    have hnot : name ∉ g.successorTable.reachable := by simpa using List.find?_some hfound
    exact .inl (.unreachable (List.mem_of_find?_eq_some hfound) fun hr => hnot ((hreach name).2 hr))
  · refine .inr ⟨?_, ?_⟩
    · intro defect hbreaks
      cases hbreaks with | unreachable hnode hnot
      have hall := List.find?_eq_none.1 (Option.map_eq_none_iff.1 hnone) _ hnode
      exact hnot ((hreach _).1 (by simpa using hall))
    · split at hend
      case isTrue => cases hend
      case isFalse hnot =>
          cases hend
          exact .endUnreachable fun hr => hnot (List.contains_iff_mem.2 ((hreach _).2 hr))

private theorem breaks_of_checkSuccessor (hg : g.WellBuilt) {entry : String × Successor σ}
    (hentry : entry ∈ g.successorTable) {f : Failure} (hf : g.checkSuccessor entry = .error f) :
    ∃ defect, f = .wiring defect ∧ g.Breaks maxSteps .kindsFit defect := by
  obtain ⟨kind, target, node, hkind, htarget, hnode, hfits, rfl⟩ :=
    hg.checkSuccessor_error hentry hf
  refine ⟨_, rfl, .incompatible (link_iff.2 ⟨entry.2, hentry, htarget⟩) hkind hnode fun hfit => ?_⟩
  rw [compatible_iff.2 hfit] at hfits
  cases hfits

/-! ## All passes -/

/-- Each pass is looked at only where the passes before it have found nothing. -/
theorem firstBroken_of_wiringDefect? {defect : WiringDefect} (h : g.wiringDefect? = some defect) :
    g.FirstBroken maxSteps defect := by
  rcases Option.or_eq_some_iff.1 h with hfound | ⟨hentry, h⟩
  · exact ⟨[], _, _, rfl, breaks_of_entryDefect? hfound, nofun⟩
  have hentered : g.Upholds maxSteps .entered := upholds_entered hentry
  rcases Option.or_eq_some_iff.1 h with hfound | ⟨hexit, h⟩
  · exact ⟨[.entered], _, _, rfl, breaks_of_exitDefect? hfound, by simp [hentered]⟩
  have hleft : g.Upholds maxSteps .left := upholds_left hexit
  rcases Option.or_eq_some_iff.1 h with hfound | ⟨hedges, h⟩
  · exact ⟨[.entered, .left], _, _, rfl, breaks_of_edgeConflict? hfound, by simp [hentered, hleft]⟩
  have hedge : g.Upholds maxSteps .oneEdge := upholds_oneEdge hedges
  rcases Option.or_eq_some_iff.1 h with hfound | ⟨hbranches, h⟩
  · exact ⟨[.entered, .left, .oneEdge], _, _, rfl, breaks_of_branchConflict? hfound,
      by simp [hentered, hleft, hedge]⟩
  have hrouting : g.Upholds maxSteps .oneRouting := upholds_oneRouting hbranches
  rcases Option.or_eq_some_iff.1 h with hfound | ⟨hdead, h⟩
  · exact ⟨[.entered, .left, .oneEdge, .oneRouting], _, _, rfl, breaks_of_deadEnd? hfound,
      by simp [hentered, hleft, hedge, hrouting]⟩
  have hfollowed : g.Upholds maxSteps .followed := upholds_followed hdead
  have hnodup : g.sources.Nodup := conflicts_eq_none_iff.1 ⟨hedges, hbranches⟩
  rcases breaks_of_unreachable? hnodup h with hfound | ⟨hreached, hfound⟩
  · exact ⟨[.entered, .left, .oneEdge, .oneRouting, .followed], _, _, rfl, hfound,
      by simp [hentered, hleft, hedge, hrouting, hfollowed]⟩
  · exact ⟨[.entered, .left, .oneEdge, .oneRouting, .followed, .reached], _, _, rfl, hfound,
      by simp [hentered, hleft, hedge, hrouting, hfollowed, hreached]⟩

private theorem upholds_of_wiringDefect?_eq_none (h : g.wiringDefect? = none) :
    ∀ rule ∈ [Rule.entered, .left, .oneEdge, .oneRouting, .followed, .reached, .endReached],
      g.Upholds maxSteps rule := by
  have hpasses := h
  simp only [wiringDefect?, Option.or_eq_none_iff] at hpasses
  obtain ⟨hentry, hexit, hedges, hbranches, hdead, -⟩ := hpasses
  obtain ⟨-, -, hnodup, -, hreached, hend⟩ := wiringDefect?_eq_none_iff.1 h
  intro rule hrule
  cases rule with
  | entered => exact upholds_entered hentry
  | left => exact upholds_left hexit
  | oneEdge => exact upholds_oneEdge hedges
  | oneRouting => exact upholds_oneRouting hbranches
  | followed => exact upholds_followed hdead
  | reached =>
      intro defect hbreaks
      cases hbreaks with | unreachable hnode hnot
      exact hnot ((reaches_iff_link hnodup).1 (hreached _ hnode))
  | endReached =>
      intro defect hbreaks
      cases hbreaks with | endUnreachable hnot
      exact hnot ((reaches_iff_link hnodup).1 hend)
  | kindsFit => simp at hrule
  | boundPositive => simp at hrule

theorem WellWired.upholds_kindsFit (h : g.WellWired) : g.Upholds maxSteps .kindsFit := by
  intro defect hbreaks
  cases hbreaks with | incompatible hlink hsrc hdst hnot
  exact hnot (h.kinds_fit _ _ _ _ hlink hsrc hdst)

theorem WellBuilt.firstBroken_of_compile (hg : g.WellBuilt) {f : Failure}
    (h : g.compile maxSteps = .error f) :
    ∃ defect, f = .wiring defect ∧ g.FirstBroken maxSteps defect := by
  cases hchecked : g.checkWiring with
  | error f' =>
      rw [compile, hchecked] at h
      cases h
      rcases hg.checkWiring_error hchecked with ⟨defect, hdefect, rfl⟩ | ⟨hnone, entry, hentry, hf⟩
      · exact ⟨defect, rfl, firstBroken_of_wiringDefect? hdefect⟩
      · obtain ⟨defect, rfl, hbreaks⟩ := breaks_of_checkSuccessor hg hentry hf
        exact ⟨defect, rfl, _, _, _, rfl, hbreaks, upholds_of_wiringDefect?_eq_none hnone⟩
  | ok table =>
      obtain ⟨hpassed, rfl⟩ := checkWiring_eq_ok_iff.1 hchecked
      by_cases hbound : g.bound maxSteps < 1
      · obtain ⟨given, hgiven, hsmall⟩ : ∃ given, maxSteps = some given ∧ given < 1 := by
          simpa using mt one_le_bound_iff.2 (Int.not_le.2 hbound)
        have htold : f = .wiring .boundTooSmall := by
          unfold bound at hbound
          simp only [compile, hchecked, bind, Except.bind, hbound, if_true, throw, throwThe,
            MonadExceptOf.throw, Except.error.injEq] at h
          exact h.symm
        have hkinds : g.Upholds maxSteps .kindsFit := (hpassed.wellWired hg).upholds_kindsFit
        exact ⟨_, htold, _ ++ [.kindsFit], _, [], rfl, .boundTooSmall hgiven hsmall,
          List.forall_mem_append.2 ⟨upholds_of_wiringDefect?_eq_none hpassed.without_defect,
            List.forall_mem_singleton.2 hkinds⟩⟩
      · rw [compile_eq_ok_iff.2 ⟨hpassed, Int.not_lt.1 hbound, rfl⟩] at h
        cases h

end

/-! ## Refused graphs -/

/-- What a failed attempt to compile comes to.  The caller is told of the first defect; the graph is
left as it was, and later requests find it as if the attempt had never been made. -/
structure Refused (name : String) (inputKind : ValueKind) (requests : List (Outcome (Call σ)))
    (maxSteps : Option Int) (f : Failure) : Prop where
  told : (session name inputKind requests).handle (.ok (.compile maxSteps)) =
    (.error f, session name inputKind requests)
  traceless : ∀ later, session name inputKind (requests ++ .ok (.compile maxSteps) :: later) =
    session name inputKind (requests ++ later)
  first : ∃ defect, f = .wiring defect ∧
    (session name inputKind requests).FirstBroken maxSteps defect

/-- A graph that cannot be compiled, whatever was asked of it before, is refused for the first rule
that it breaks, and the attempt leaves no trace. -/
theorem compile_reports_first_violation (name : String) (inputKind : ValueKind)
    (requests : List (Outcome (Call σ))) (maxSteps : Option Int) (f : Failure)
    (h : (session name inputKind requests).compile maxSteps = .error f) :
    Refused name inputKind requests maxSteps f := by
  have hg : (session name inputKind requests).WellBuilt := by
    rw [session_eq_built]
    exact built_wellBuilt name inputKind _
  have htold : (session name inputKind requests).handle (.ok (.compile maxSteps)) =
      (.error f, session name inputKind requests) := by
    rw [handle_call, perform, h]
    rfl
  refine ⟨htold, fun later => ?_, hg.firstBroken_of_compile h⟩
  rw [session_append, session_append, List.foldl_cons, htold]

def forked : List (Outcome (Call Unit)) :=
  [.ok (.node "sort" (.lambda Transform.identity .bindings .bindings)),
    .ok (.node "keep" (.lambda Transform.identity .bindings .bindings)),
    .ok (.edge startName "sort"), .ok (.edge "sort" endName), .ok (.edge "sort" "keep")]

theorem forked_refused :
    (session "fork" .bindings forked).compile (some 0) = .error (.wiring (.twoEdges "sort")) ∧
      Refused "fork" .bindings forked (some 0) (.wiring (.twoEdges "sort")) := by
  have h : (session "fork" .bindings forked).compile (some 0) =
      .error (.wiring (.twoEdges "sort")) := rfl
  exact ⟨h, compile_reports_first_violation "fork" .bindings forked (some 0) _ h⟩

end ChatPipeline.Graph
