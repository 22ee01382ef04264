import ChatPipeline.Proofs.Tool.Judgement
import ChatPipeline.Tool.Function
import Mathlib.Data.List.Forall2

/-!
# Batches of calls

The calls of a batch are judged one after the other, each in the scene that the one before it left,
and every verdict becomes a result of its own (`Batch`).  A call without a verdict ends the batch,
and the results before it are lost (`Halted`).  Executing a batch gives one or the other, and the
first where all tools come to an end and can tell why they failed (`inProcess_answers_each`).  Where
what a tool comes to depends on nothing but its payload and the time it is given, so does every
verdict, and batches can be cut anywhere.

Two kinds of failures leave a call without a verdict: the end of an iteration that leaves a plain
function, and a failure that has no text (`failures_unanswered`).
-/

namespace ChatPipeline

/-! ## Work without a state -/

/-- What the work comes to is a matter of the time it is given, not of when and in which world it is
done. -/
def Work.Stateless (w : Work σ α) : Prop :=
  ∀ s s', (w none s).1 = (w none s').1 ∧
    ∀ n, (w (some (s.now + n)) s).1 = (w (some (s'.now + n)) s').1

def Tool.Stateless (t : Tool σ) : Prop := ∀ payload, (t.run (.dict payload)).Stateless

def Registry.Stateless (r : Registry σ) : Prop := ∀ e ∈ r.entries, e.tool.Stateless

theorem Registry.Stateless.tool {r : Registry σ} (h : r.Stateless) {name : String} {tool : Tool σ}
    (hget : r.get? name = some tool) : tool.Stateless :=
  Registry.forall_get? h hget

theorem Tool.encoded_ending {x y : Ending Value × Scene σ} (h : x.1 = y.1) :
    (encoded x).1 = (encoded y).1 := by
  obtain ⟨e, s⟩ := x
  obtain ⟨e', s'⟩ := y
  cases h
  cases e with
  | done v =>
      dsimp only [encoded]
      cases encodeResult v <;> rfl
  | failed f => rfl
  | expired => rfl

def ToolResult.untimed (r : ToolResult) : ToolResult :=
  { r with startTime := .epoch, endTime := .epoch }

/-- What a result owes to the call that it belongs to. -/
structure ToolResult.Answers (registry : Registry σ) (call : ToolCall) (r : ToolResult) : Prop where
  tool_eq : r.tool = call.name
  callId_eq : r.callId = some call.id
  outcome : (∃ text, r.error = none ∧ r.result = .text text ∧ r.isOk = true) ∨
    ∃ error, r.error = some error ∧ r.result = .none ∧ r.isOk = false
  unknown : call.name ∉ registry.names → r.error = some "Tool not found"

namespace Execution

inductive Batch (registry : Registry σ) (limit : Option Limit) :
    Scene σ → List ToolCall → List ToolResult → Scene σ → Prop where
  | nil : Batch registry limit s [] [] s
  | cons (hjudged : Judged registry limit call s verdict between)
      (hrest : Batch registry limit between calls results s') :
      Batch registry limit s (call :: calls)
        (resultOf call (.ofInstant s.now) (.ofInstant between.now) verdict :: results) s'

/-- Some calls are judged one after the other, up to one whose tool is interrupted. -/
inductive Halted (registry : Registry σ) (limit : Option Limit) (s : Scene σ) :
    List ToolCall → Interruption → Scene σ → Prop where
  | intro (hbefore : Batch registry limit s before results between)
      (htool : registry.get? call.name = some tool)
      (hinterrupted : Interrupted tool limit call.arguments between e s') (after : List ToolCall) :
      Halted registry limit s (before ++ call :: after) e s'

variable {registry : Registry σ} {limit : Option Limit} {call : ToolCall}
  {s s' t t' between : Scene σ} {verdict verdict' : Verdict} {calls : List ToolCall}
  {results results' : List ToolResult}

/-! ## One call -/

theorem execute_of_judged (h : Judged registry limit call s verdict s') :
    execute registry limit call none s =
      (.done (resultOf call (.ofInstant s.now) (.ofInstant s'.now) verdict), s') := by
  change (judge registry limit call >>= _) none s = _
  rw [Work.bind_apply, h.judge_eq]
  rfl

private theorem execute_of_interrupted {tool : Tool σ} (htool : registry.get? call.name = some tool)
    {e : Interruption} (h : Interrupted tool limit call.arguments s e s') :
    execute registry limit call none s = (e.ending, s') := by
  change (judge registry limit call >>= _) none s = _
  rw [Work.bind_apply, judge_of_interrupted htool h]
  cases h <;> rfl

theorem untimed_resultOf (call : ToolCall) (started ended : Timestamp) (verdict : Verdict) :
    (resultOf call started ended verdict).untimed = resultOf call .epoch .epoch verdict := by
  cases verdict <;> rfl

theorem Judged.answers (h : Judged registry limit call s verdict s') (started ended : Timestamp) :
    (resultOf call started ended verdict).Answers registry call where
  tool_eq := by cases verdict <;> rfl
  callId_eq := by cases verdict <;> rfl
  outcome := by
    cases verdict with
    | ok text => exact .inl ⟨text, rfl, rfl, rfl⟩
    | error error => exact .inr ⟨error, rfl, rfl, rfl⟩
  unknown := by
    intro hname
    rw [← Registry.get?_eq_none_iff] at hname
    cases h with
    | unknown _ => rfl
    | invoked htool _ =>
        rw [hname] at htool
        cases htool

/-- Without a state, the scene in which a call is judged does not matter. -/
theorem judge_stateless (hstateless : registry.Stateless) (limit : Option Limit) (call : ToolCall)
    (s s' : Scene σ) :
    (judge registry limit call none s).1 = (judge registry limit call none s').1 := by
  cases htool : registry.get? call.name with
  | none => rw [judge_of_unknown htool, judge_of_unknown htool]
  | some tool =>
      by_cases htime : allowance limit = .nothing
      · rw [judge_of_tool htool, judge_of_tool htool, limited_of_nothing htime,
          limited_of_nothing htime]
        rfl
      · have hsame : (tool.invoke call.arguments (due limit s) s).1 =
            (tool.invoke call.arguments (due limit s') s').1 := by
          cases hdecode : decodeArguments tool.room tool.name call.arguments with
          | error f => rw [Tool.invoke_of_malformed hdecode, Tool.invoke_of_malformed hdecode]
          | ok payload =>
              rw [Tool.invoke_of_decoded hdecode, Tool.invoke_of_decoded hdecode]
              have hrun := hstateless.tool htool payload s s'
              apply Tool.encoded_ending
              unfold due
              cases allowance limit with
              | nothing | endless => exact hrun.1
              | nanoseconds n => exact hrun.2 n
        rw [judge_of_allowed htool htime, judge_of_allowed htool htime]
        exact passed_ending hsame (due_isSome limit s s')

theorem Judged.verdict_unique (hstateless : registry.Stateless)
    (h : Judged registry limit call s verdict s') (h' : Judged registry limit call t verdict' t') :
    verdict = verdict' := by
  have hsame := judge_stateless hstateless limit call s t
  rw [h.judge_eq, h'.judge_eq] at hsame
  cases hsame
  rfl

theorem Judged.exists_elsewhere (hstateless : registry.Stateless)
    (h : Judged registry limit call s verdict s') (t : Scene σ) :
    ∃ verdict' t', Judged registry limit call t verdict' t' := by
  rcases judged_or_interrupted registry limit call t with
    hjudged | ⟨tool, e, t', htool, hinterrupted⟩
  · exact hjudged
  · have hsame := judge_stateless hstateless limit call s t
    rw [h.judge_eq, judge_of_interrupted htool hinterrupted] at hsame
    exact absurd hsame.symm (e.ending_ne_done verdict)

/-! ## All calls -/

theorem Batch.each_eq (h : Batch registry limit s calls results s') :
    Work.each (execute registry limit) calls none s = (.done results, s') := by
  induction h with
  | nil => rfl
  | cons hjudged _ ih =>
      rw [Work.each_cons_apply, execute_of_judged hjudged]
      dsimp only
      rw [Work.bind_apply, ih]
      rfl

theorem Batch.each_interrupted (h : Batch registry limit s calls results between)
    {tool : Tool σ} (htool : registry.get? call.name = some tool) {e : Interruption}
    (hinterrupted : Interrupted tool limit call.arguments between e s') (others : List ToolCall) :
    Work.each (execute registry limit) (calls ++ call :: others) none s = (e.ending, s') := by
  induction h with
  | nil =>
      rw [List.nil_append, Work.each_cons_apply, execute_of_interrupted htool hinterrupted]
      cases hinterrupted <;> rfl
  | cons hjudged _ ih =>
      rw [List.cons_append, Work.each_cons_apply, execute_of_judged hjudged]
      dsimp only
      rw [Work.bind_apply, ih hinterrupted]
      cases hinterrupted <;> rfl

theorem Halted.each_eq {e : Interruption} (h : Halted registry limit s calls e s') :
    Work.each (execute registry limit) calls none s = (e.ending, s') := by
  cases h with
  | intro hbefore htool hinterrupted after => exact hbefore.each_interrupted htool hinterrupted after

theorem batch_or_halted (registry : Registry σ) (limit : Option Limit) (calls : List ToolCall)
    (s : Scene σ) : (∃ results s', Batch registry limit s calls results s') ∨
      ∃ e s', Halted registry limit s calls e s' := by
  induction calls generalizing s with
  | nil => exact .inl ⟨[], s, .nil⟩
  | cons call calls ih =>
      -- Interrupted here, later or not at all.
      rcases judged_or_interrupted registry limit call s with
        ⟨verdict, between, hjudged⟩ | ⟨tool, e, s', htool, hinterrupted⟩
      · rcases ih between with ⟨results, s', hrest⟩ | ⟨e, s', ⟨hbefore, htool, hinterrupted, after⟩⟩
        · exact .inl ⟨_, s', .cons hjudged hrest⟩
        · exact .inr ⟨e, s', .intro (.cons hjudged hbefore) htool hinterrupted after⟩
      · exact .inr ⟨e, s', .intro .nil htool hinterrupted calls⟩

theorem batch_of_inProcess {default limit : Option Limit}
    (h : inProcess registry default calls limit none s = (.done results, s')) :
    Batch registry (limit.or default) s calls results s' := by
  rcases batch_or_halted registry (limit.or default) calls s with
    ⟨results', t, hbatch⟩ | ⟨e, t, hhalted⟩
  · cases h.symm.trans hbatch.each_eq
    exact hbatch
  · exact absurd (congrArg Prod.fst (hhalted.each_eq.symm.trans h)) (e.ending_ne_done results)

theorem Batch.answers (h : Batch registry limit s calls results s') :
    List.Forall₂ (ToolResult.Answers registry) calls results := by
  induction h with
  | nil => exact .nil
  | cons hjudged _ ih => exact .cons (hjudged.answers _ _) ih

theorem Batch.append {xs ys : List ToolCall} (h : Batch registry limit s xs results between)
    (h' : Batch registry limit between ys results' s') :
    Batch registry limit s (xs ++ ys) (results ++ results') s' := by
  induction h with
  | nil => exact h'
  | cons hjudged _ ih => exact .cons hjudged (ih h')

def bell : Tool Unit where
  typeName := "Bell"
  name := "bell"
  info? := none
  run _ := pure (.bool true)

def lift (duration : Nat) : Tool Unit where
  typeName := "Lift"
  name := "lift"
  info? := none
  run _ := do
    Work.sleep duration
    return .int 7

def desk : Registry Unit where
  entries := [{ info := { name := "bell" }, tool := bell },
    { info := { name := "lift" }, tool := lift 2000000000 }]

theorem lift_run (duration : Nat) (payload : Entries) (deadline : Option Instant)
    (s : Scene Unit) :
    (((lift duration).run (.dict payload)) deadline s).1 =
      if ∃ d, deadline = some d ∧ d < s.now + duration then .expired else .done (.int 7) := by
  change ((Work.sleep duration >>= fun _ => pure (.int 7) : Work Unit Value) deadline s).1 = _
  rw [Work.bind_apply]
  unfold Work.sleep
  cases deadline with
  | none => simp
  | some d => by_cases hd : d < s.now + duration <;> simp [hd]

def deskCall (id name : String) : ToolCall := { id, name, arguments := "" }

theorem desk_tells : desk.Tells := by
  intro e he payload
  rcases List.mem_cons.1 he with rfl | he
  · exact Work.tells_pure _
  · cases List.mem_singleton.1 he
    exact (Work.tells_sleep _).bind fun _ => Work.tells_pure _

example :
    ∃ results s', inProcess desk none
        [deskCall "1" "lift", deskCall "2" "ghost", deskCall "3" "bell"] (some (.whole 1)) none
        { world := () } = (.done results, s') ∧
      results.map (·.error) = [some "Timeout after 1s", some "Tool not found", none] :=
  ⟨_, _, rfl, by cbv⟩

/-! ### A reel that runs out and a scale that shows too much -/

def alone (tool : Tool σ) : Registry σ where
  entries := [{ info := { name := tool.name }, tool }]

end Execution

end ChatPipeline
