import ChatPipeline.Proofs.Tool.Batch
import ChatPipeline.Node.Tools

/-!
# Answers of a tools node

A tools node looks at all names before it invokes any tool.  Where it has a tool for each, the tools
are invoked in turn (`InvokedInTurn`), so no call is ever judged unknown, and the verdicts are
paired with the calls by position: each becomes one tool message, or the first failure becomes the
failure of the node (`run_answers_calls`).  Only a tool that is interrupted cuts this short
(`CutShort`), and none is that comes to an end and tells why it failed.

The policy on errors is applied to the verdicts of a whole batch.  It decides what the node gives
and has no say in which tools are invoked (`run_scene_of_policy`).
-/

namespace ChatPipeline

open ChatPipeline.Text

/-! ## Invocations in turn -/

namespace Execution

/-- The tools of some calls are invoked one after the other, each on the arguments of its call. -/
inductive InvokedInTurn (registry : Registry σ) (limit : Option Limit) :
    Scene σ → List ToolCall → List Verdict → Scene σ → Prop where
  | nil : InvokedInTurn registry limit s [] [] s
  | cons (htool : registry.get? call.name = some tool)
      (hinvoked : Invoked tool limit call.arguments s verdict between)
      (hrest : InvokedInTurn registry limit between calls verdicts s') :
      InvokedInTurn registry limit s (call :: calls) (verdict :: verdicts) s'

def report (call : ToolCall) : Verdict → Message
  | .ok text => .tool text call.id (some call.name)
  | .error error =>
    .tool ("tool " ++ quoted call.name ++ " failed: " ++ error) call.id (some call.name)

def Shows (r : ToolResult) : Verdict → Prop
  | .ok text => r.error = none ∧ r.result = .text text
  | .error error => r.error = some error

variable {registry : Registry σ} {limit : Option Limit} {s s' : Scene σ} {calls : List ToolCall}
  {verdicts : List Verdict} {results : List ToolResult}

private theorem shows_resultOf (call : ToolCall) (started ended : Timestamp) (verdict : Verdict) :
    Shows (resultOf call started ended verdict) verdict := by
  cases verdict with
  | ok text => exact ⟨rfl, rfl⟩
  | error error => rfl

theorem InvokedInTurn.known (h : InvokedInTurn registry limit s calls verdicts s') :
    ∀ call ∈ calls, call.name ∈ registry.names := by
  induction h with
  | nil => exact nofun
  | cons htool _ _ ih =>
      refine List.forall_mem_cons.2 ⟨?_, ih⟩
      by_contra hname
      rw [Registry.get?_eq_none_iff.2 hname] at htool
      cases htool

theorem InvokedInTurn.length_eq (h : InvokedInTurn registry limit s calls verdicts s') :
    verdicts.length = calls.length := by
  induction h with
  | nil => rfl
  | cons _ _ _ ih => rw [List.length_cons, List.length_cons, ih]

theorem InvokedInTurn.batch (h : InvokedInTurn registry limit s calls verdicts s') :
    ∃ results, Batch registry limit s calls results s' ∧ List.Forall₂ Shows results verdicts := by
  induction h with
  | nil => exact ⟨[], .nil, .nil⟩
  | cons htool hinvoked _ ih =>
      obtain ⟨results, hbatch, hshows⟩ := ih
      exact ⟨_, .cons (.invoked htool hinvoked) hbatch, .cons (shows_resultOf ..) hshows⟩

end Execution

/-! ## From verdicts to messages -/

namespace ToolsNode

open Execution

variable {config : ToolsConfig} {call : ToolCall} {r : ToolResult} {verdict : Verdict}

private theorem answer_eq_report (h : Shows r verdict)
    (hpolicy : config.raiseOnError = false ∨ ∀ error, verdict ≠ .error error) :
    answer config call r = .ok (report call verdict) := by
  unfold answer
  cases verdict with
  | ok text =>
      obtain ⟨herror, hresult⟩ := h
      rw [herror, hresult]
      rfl
  | error error =>
      rcases hpolicy with hpolicy | hnone
      · have herror : r.error = some error := h
        rw [herror, hpolicy]
        rfl
      · exact absurd rfl (hnone error)

private theorem answer_eq_failure {error : String} (h : Shows r (.error error))
    (hpolicy : config.raiseOnError = true) :
    answer config call r = .error (.toolFailed call.name (some call.id) error) := by
  have herror : r.error = some error := h
  unfold answer
  rw [herror, hpolicy]
  rfl

private theorem answers_eq_reports {calls : List ToolCall} {results : List ToolResult}
    {verdicts : List Verdict} (hlength : verdicts.length = calls.length)
    (h : List.Forall₂ Shows results verdicts)
    (hpolicy : config.raiseOnError = false ∨ ∀ error, .error error ∉ verdicts) :
    answers config calls results = .ok (List.zipWith report calls verdicts) := by
  induction h generalizing calls with
  | nil =>
      cases calls with
      | nil => rfl
      | cons => cases hlength
  | @cons r verdict _ _ hr _ ih =>
      cases calls with
      | nil => cases hlength
      | cons call calls =>
          have hfirst : answer config call r = .ok (report call verdict) := by
            refine answer_eq_report hr (hpolicy.imp_right fun hnone error heq => ?_)
            exact hnone error (heq ▸ List.mem_cons_self)
          have hothers := ih (Nat.succ.inj hlength)
            (hpolicy.imp_right fun hnone error hmem => hnone error (List.mem_cons_of_mem _ hmem))
          simp only [answers, hfirst, hothers, List.zipWith_cons_cons]
          rfl

private theorem answers_eq_failure (hpolicy : config.raiseOnError = true)
    {before after : List ToolCall}
    {passed others : List Verdict} {error : String} {results : List ToolResult}
    (hlength : passed.length = before.length) (hpassed : ∀ error, .error error ∉ passed)
    (h : List.Forall₂ Shows results (passed ++ .error error :: others)) :
    answers config (before ++ call :: after) results =
      .error (.toolFailed call.name (some call.id) error) := by
  induction passed generalizing before results with
  | nil =>
      cases before with
      | nil =>
          cases h with
          | cons hr _ => simp only [List.nil_append, answers, answer_eq_failure hr hpolicy]; rfl
      | cons => cases hlength
  | cons verdict passed ih =>
      cases before with
      | nil => cases hlength
      | cons first before =>
          cases h with
          | cons hr hrest =>
              have hfirst : answer config first _ = _ := answer_eq_report hr
                (.inr fun error heq => hpassed error (heq ▸ List.mem_cons_self))
              have hothers := ih (Nat.succ.inj hlength)
                (fun error hmem => hpassed error (List.mem_cons_of_mem _ hmem)) hrest
              simp only [List.cons_append, answers, hfirst, hothers]
              rfl

/-! ## Runs -/

variable {n : ToolsNode σ}

theorem firstUnknown?_eq_some {before after : List ToolCall}
    (hbefore : ∀ c ∈ before, c.name ∈ n.registry.names) (hcall : call.name ∉ n.registry.names) :
    n.firstUnknown? (before ++ call :: after) = some call := by
  unfold firstUnknown?
  rw [List.find?_append, List.find?_eq_none.2, List.find?_cons_of_pos]
  · rfl
  · simpa [← Registry.contains_iff] using hcall
  · intro c hc
    simpa using Registry.contains_iff.2 (hbefore c hc)

private theorem firstUnknown?_eq_none {calls : List ToolCall}
    (hknown : ∀ c ∈ calls, c.name ∈ n.registry.names) : n.firstUnknown? calls = none := by
  unfold firstUnknown?
  rw [List.find?_eq_none]
  intro c hc
  simpa using Registry.contains_iff.2 (hknown c hc)

theorem known_or_lost (n : ToolsNode σ) (calls : List ToolCall) :
    (∀ c ∈ calls, c.name ∈ n.registry.names) ∨
      ∃ before call after, calls = before ++ call :: after ∧
        (∀ c ∈ before, c.name ∈ n.registry.names) ∧ call.name ∉ n.registry.names := by
  cases hfirst : n.firstUnknown? calls with
  | none =>
      have hnone := List.find?_eq_none.1 hfirst
      exact .inl fun c hc => by simpa [Registry.contains_iff] using hnone c hc
  | some call =>
      obtain ⟨hcall, before, after, hcalls, hbefore⟩ := List.find?_eq_some_iff_append.1 hfirst
      refine .inr ⟨before, call, after, hcalls, fun c hc => ?_, ?_⟩
      · simpa [Registry.contains_iff] using hbefore c hc
      · simpa [← Registry.contains_iff] using hcall

private theorem run_of_known {m : Message} (hknown : ∀ c ∈ m.toolCalls, c.name ∈ n.registry.names)
    {s s' : Scene σ} {results : List ToolResult}
    (hresults : n.execute m.toolCalls none none s = (.done results, s')) :
    n.run m none s = Work.ofOutcome (answers n.config m.toolCalls results) none s' := by
  unfold run
  rw [firstUnknown?_eq_none hknown]
  change (n.execute m.toolCalls none >>= _) none s = _
  rw [Work.bind_apply, hresults]
  rfl

private theorem run_of_interrupted {m : Message}
    (hknown : ∀ c ∈ m.toolCalls, c.name ∈ n.registry.names)
    {s s' : Scene σ} {e : Interruption} (h : n.execute m.toolCalls none none s = (e.ending, s')) :
    n.run m none s = (e.ending, s') := by
  unfold run
  rw [firstUnknown?_eq_none hknown]
  change (n.execute m.toolCalls none >>= _) none s = _
  rw [Work.bind_apply, h]
  cases e <;> rfl

/-- The tools were invoked in turn and gave these verdicts.  They are reported, one message for each
call, or the first failure is raised. -/
structure Answered (n : ToolsNode σ) (m : Message) (s : Scene σ) (verdicts : List Verdict)
    (s' : Scene σ) : Prop where
  invoked : InvokedInTurn n.registry (n.config.timeout.map .real) s m.toolCalls verdicts s'
  length_eq : verdicts.length = m.toolCalls.length
  reported : n.config.raiseOnError = false ∨ (∀ error, .error error ∉ verdicts) →
    n.run m none s = (.done (List.zipWith report m.toolCalls verdicts), s')
  raised : ∀ before call after passed error others, n.config.raiseOnError = true →
    m.toolCalls = before ++ call :: after → verdicts = passed ++ .error error :: others →
    passed.length = before.length → (∀ error, .error error ∉ passed) →
    n.run m none s = (.failed (.toolFailed call.name (some call.id) error), s')

/-- The tools before that of some call were invoked in turn; that one was interrupted. -/
inductive CutShort (n : ToolsNode σ) (m : Message) (s : Scene σ) :
    Interruption → Scene σ → Prop where
  | intro {call : ToolCall} (hcalls : m.toolCalls = before ++ call :: after)
      (hinvoked : InvokedInTurn n.registry (n.config.timeout.map .real) s before verdicts between)
      (htool : n.registry.get? call.name = some tool)
      (hinterrupted :
        Interrupted tool (n.config.timeout.map .real) call.arguments between e s') :
      CutShort n m s e s'

theorem answered_of_invokedInTurn {m : Message} {s s' : Scene σ} {verdicts : List Verdict}
    (hknown : ∀ call ∈ m.toolCalls, call.name ∈ n.registry.names)
    (h : InvokedInTurn n.registry (n.config.timeout.map .real) s m.toolCalls verdicts s') :
    n.Answered m s verdicts s' := by
  obtain ⟨results, hbatch, hshows⟩ := h.batch
  have hrun := run_of_known hknown hbatch.each_eq
  refine ⟨h, h.length_eq, ?_, ?_⟩
  · intro hpolicy
    rw [hrun, answers_eq_reports h.length_eq hshows hpolicy]
    rfl
  · intro before call after passed error others hpolicy hcalls hverdicts hlength hpassed
    rw [hverdicts] at hshows
    rw [hrun, hcalls, answers_eq_failure hpolicy hlength hpassed hshows]
    rfl

theorem CutShort.run_eq {m : Message} {s s' : Scene σ} {e : Interruption} (h : n.CutShort m s e s')
    (hknown : ∀ call ∈ m.toolCalls, call.name ∈ n.registry.names) :
    n.run m none s = (e.ending, s') := by
  cases h with | @intro _ after _ _ _ _ _ _ hcalls hturn htool hinterrupted
  obtain ⟨results, hbatch, -⟩ := hturn.batch
  have heach := hbatch.each_interrupted htool hinterrupted after
  rw [← hcalls] at heach
  exact run_of_interrupted hknown heach

theorem run_scene (n : ToolsNode σ) (m : Message) (deadline : Option Instant) (s : Scene σ) :
    (n.run m deadline s).2 =
      match n.firstUnknown? m.toolCalls with
      | some _ => s
      | none => (n.execute m.toolCalls none deadline s).2 := by
  unfold run
  cases n.firstUnknown? m.toolCalls with
  | some call => rfl
  | none => exact Work.bind_ofOutcome_scene ..

/-- Raised or reported, failures are found in the same scene: the same tools have been invoked. -/
theorem run_scene_of_policy (n : ToolsNode σ) (policy : Bool) (m : Message)
    (deadline : Option Instant) (s : Scene σ) :
    ({ n with config := { n.config with raiseOnError := policy } }.run m deadline s).2 =
      (n.run m deadline s).2 := by
  rw [run_scene, run_scene]
  rfl

/-! ### A bench whose tools leave a mark -/

def marking (name : String) (answer : Outcome Value) : Tool (List String) where
  typeName := "Marking"
  name := name
  info? := none
  run _ := do
    Work.change (· ++ [name])
    answer

def bench : ToolsNode (List String) where
  config := { raiseOnError := true }
  registry := {
    entries := [
      { info := { name := "jam" }, tool := marking "jam" (.error (.fault .value "stuck")) },
      { info := { name := "bell" }, tool := marking "bell" (.ok (.bool true)) }] }

def benchMessage : Message := .assistant "" [deskCall "1" "jam", deskCall "2" "bell"]

/-- The bell is rung after the jam, although the jam is what the node fails with. -/
theorem bell_rung_after_jam :
    bench.run benchMessage none { world := [] } =
      (.failed (.toolFailed "jam" (some "1") "stuck"), { world := ["jam", "bell"] }) := rfl

end ToolsNode

end ChatPipeline
