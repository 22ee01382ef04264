import ChatPipeline.Proofs.Tool.Timing

/-!
# What an error tells about a call

A tool that fails in time has its own message passed on as the error of the result, if it has one.
There is one exception: a timeout that the tool raises itself is taken for that of the limit.  So
the text of the limit stands for more than a limit that ran out (`inProcess_tells_failures`), and it
is given where there is no limit (`own_timeout_renamed`).
-/

namespace ChatPipeline.Execution

/-- Why the error of a call is the text of the limit: the limit left the call no time, or less than
it takes, or the tool failed in time with a timeout or with this very text. -/
inductive ToldLimit (limit : Option Limit) (tool : Tool σ) (arguments : String) (s s' : Scene σ) :
    Prop where
  | unstarted (htime : allowance limit = .nothing) : ToldLimit limit tool arguments s s'
  | late (htime : allowance limit = .nanoseconds n)
      (hongoing : (tool.invoke arguments).Ongoing s (s.now + n)) : ToldLimit limit tool arguments s s'
  | timeout (hown : tool.invoke arguments none s = (.failed f, s')) (htime : InTime limit s.now s'.now)
      (htimeout : f.isTimeout = true) : ToldLimit limit tool arguments s s'
  | sameText (hown : tool.invoke arguments none s = (.failed f, s')) (htime : InTime limit s.now s'.now)
      (htext : f.message = some (limitText limit)) : ToldLimit limit tool arguments s s'

/-- A failure in time is told by its message, except for a timeout. -/
structure TellsFailure (registry : Registry σ) (limit : Option Limit) (call : ToolCall) (s : Scene σ)
    (verdict : Verdict) (s' : Scene σ) : Prop where
  passedOn {tool : Tool σ} {f : Failure} {t : Scene σ} : registry.get? call.name = some tool →
    tool.invoke call.arguments none s = (.failed f, t) → InTime limit s.now t.now →
    ∃ text, (if f.isTimeout then some (limitText limit) else f.message) = some text ∧
      verdict = .error text ∧ s' = t
  toldLimit : verdict = .error (limitText limit) → ∃ tool, registry.get? call.name = some tool ∧
    ToldLimit limit tool call.arguments s s'

variable {registry : Registry σ} {limit : Option Limit} {call : ToolCall} {s s' : Scene σ}
  {verdict : Verdict}

private theorem toolNotFound_ne_limitText (limit : Option Limit) :
    toolNotFound ≠ limitText limit := by
  intro h
  have htext : limitText limit = "Timeout after " ++ ((limit.map Limit.text).getD "None" ++ "s") :=
    String.append_assoc ..
  have hsecond : toolNotFound.toList[1]? = (limitText limit).toList[1]? :=
    congrArg (fun text => text.toList[1]?) h
  rw [htext, String.toList_append, List.getElem?_append_left (by decide)] at hsecond
  exact absurd hsecond (by decide)

theorem Timed.toldLimit (h : Timed registry limit call s verdict s')
    (hverdict : verdict = .error (limitText limit)) :
    ∃ tool, registry.get? call.name = some tool ∧ ToldLimit limit tool call.arguments s s' := by
  cases h with
  | unknown hname => exact absurd (Except.error.inj hverdict) (toolNotFound_ne_limitText limit)
  | unstarted htool htime => exact ⟨_, htool, .unstarted htime⟩
  | answered htool hown htime => cases hverdict
  | @failed tool s' f text htool hown htime htext =>
      cases htimeout : f.isTimeout with
      | true => exact ⟨tool, htool, .timeout hown htime htimeout⟩
      | false =>
          rw [errorOf, htimeout, if_neg Bool.false_ne_true] at htext
          cases hverdict
          exact ⟨tool, htool, .sameText hown htime htext⟩
  | cut htool htime hongoing hnow => exact ⟨_, htool, .late htime hongoing⟩

theorem Judged.tellsFailure (htimely : Timely registry limit)
    (h : Judged registry limit call s verdict s') :
    TellsFailure registry limit call s verdict s' where
  passedOn := by
    intro tool f t htool hown htime
    have hjudge := judge_of_failed (Registry.forall_get? htimely htool) htool hown htime
    rcases told_cases limit f with ⟨text, htext, htold⟩ | ⟨-, -, htold⟩
    · rw [htold] at hjudge
      exact ⟨text, htext, h.unique hjudge⟩
    · rw [htold, h.judge_eq] at hjudge
      cases hjudge
  toldLimit := (h.timed htimely).toldLimit

/-- Every call of a batch gets a result, whose error tells how its tool failed, a timeout apart.
There are no results at all where the failure of a tool has no text. -/
theorem inProcess_tells_failures (default limit : Option Limit)
    (htimely : Timely registry (limit.or default)) (calls : List ToolCall) (s : Scene σ) :
    ∃ ending s', inProcess registry default calls limit none s = (ending, s') ∧
      Executes registry (limit.or default) (TellsFailure registry (limit.or default)) s calls ending s' ∧
      (registry.Tells → ∃ results, ending = .done results) := by
  obtain ⟨ending, s', hending, hexecutes⟩ :=
    inProcess_executes default limit htimely (Judged.tellsFailure htimely) calls s
  exact ⟨ending, s', hending, hexecutes, hexecutes.exists_results⟩

/-! ### A press that fails after a second -/

def press (f : Failure) : Tool Unit where
  typeName := "Press"
  name := "press"
  info? := none
  run _ := do
    Work.sleep 1000000000
    Work.fail f

def workshop (f : Failure) : Registry Unit where
  entries := [{ info := { name := "press" }, tool := press f }]

private theorem workshop_timely {f : Failure} (hf : f.isExit = false) (limit : Option Limit) :
    Timely (workshop f) limit := by
  intro e he
  cases List.mem_singleton.1 he
  refine ⟨fun payload => ?_, ?_, nofun⟩
  · exact (Work.punctual_sleep _).bind fun _ => Work.punctual_ofOutcome (.error f)
  · intro payload s s' f' hrun
    cases hrun
    exact hf

private theorem workshop_tells {f : Failure} (hf : f.message ≠ none) : (workshop f).Tells := by
  intro e he payload
  cases List.mem_singleton.1 he
  exact (Work.tells_sleep _).bind fun _ => Work.tells_fail hf

theorem workshop_tells_failures :
    Timely (workshop (.fault .value "stuck")) (some (.whole 2)) ∧
    (workshop (.fault .value "stuck")).Tells ∧ ∃ results s',
      inProcess (workshop (.fault .value "stuck")) none [deskCall "1" "press"] (some (.whole 2)) none
          { world := () } = (.done results, s') ∧
        InTurn (TellsFailure (workshop (.fault .value "stuck")) (some (.whole 2))) { world := () }
          [deskCall "1" "press"] results s' := by
  have htells : (workshop (.fault .value "stuck")).Tells := workshop_tells nofun
  have htimely : Timely (workshop (.fault .value "stuck")) (some (.whole 2)) := workshop_timely rfl _
  obtain ⟨ending, s', hending, hexecutes, hresults⟩ :=
    inProcess_tells_failures none (some (.whole 2)) htimely [deskCall "1" "press"] { world := () }
  obtain ⟨results, rfl⟩ := hresults htells
  exact ⟨htimely, htells, results, s', hending, hexecutes.inTurn⟩

/-- The press fails with a timeout of its own.  Its message is lost, and the error is that of a
limit although none is set. -/
theorem own_timeout_renamed :
    (press (.fault .timeout "upstream down")).invoke "" none { world := () } =
        (.failed (.fault .timeout "upstream down"), { now := 1000000000, world := () }) ∧
      (Failure.fault .timeout "upstream down").message = some "upstream down" ∧
      ∃ result, inProcess (workshop (.fault .timeout "upstream down")) none
          [deskCall "1" "press"] none none { world := () } =
            (.done [result], { now := 1000000000, world := () }) ∧
        result.error = some "Timeout after Nones" :=
  ⟨rfl, rfl, _, rfl, rfl⟩

end ChatPipeline.Execution
