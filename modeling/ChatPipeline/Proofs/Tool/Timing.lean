import ChatPipeline.Proofs.Tool.Batch

/-!
# Limits on the time of a call

A tool has a course of its own, which it takes where nothing stops it.  A deadline cuts off what is
not over by then and goes unnoticed otherwise (`Work.Punctual`), so what becomes of a call under a
limit can be told from the own course of its tool (`Timed`), unless the tool fails without a text
(`Untold`).  A batch keeps its limit call by call, up to such a failure (`inProcess_keeps_limit`).
A limit of zero is the exception: it is no limit at all.
-/

namespace ChatPipeline

/-! ## Work and deadlines -/

namespace Work

variable {w : Work σ α} {k : α → Work σ β} {s t : Scene σ} {d : Instant} {e : Ending α}

/-- Left alone, the work is not over at this instant.  Work that expires without a deadline never
is. -/
def Ongoing (w : Work σ α) (s : Scene σ) (d : Instant) : Prop :=
  (w none s).1 = .expired ∨ d < (w none s).2.now

/-- A deadline stops what is not over when it passes, and nothing else. -/
structure Punctual (w : Work σ α) : Prop where
  forward (s : Scene σ) : s.now ≤ (w none s).2.now
  unnoticed {s : Scene σ} {d : Instant} : ¬ w.Ongoing s d → w (some d) s = w none s
  cut {s : Scene σ} {d : Instant} : s.now ≤ d → w.Ongoing s d →
    ∃ s', w (some d) s = (.expired, s') ∧ s'.now = d

private theorem ongoing_iff (h : w none s = (e, t)) : w.Ongoing s d ↔ e = .expired ∨ d < t.now := by
  unfold Ongoing
  rw [h]

theorem Punctual.forward_of_eq (hw : w.Punctual) (h : w none s = (e, t)) : s.now ≤ t.now := by
  have hforward := hw.forward s
  rw [h] at hforward
  exact hforward

private theorem punctual_of_immediate (h : ∀ deadline s, w deadline s = (e, s))
    (hends : e ≠ .expired) :
    w.Punctual where
  forward s := Nat.le_of_eq (by rw [h])
  unnoticed _ := by rw [h, h]
  cut := by
    intro s d hstart hongoing
    rcases (ongoing_iff (h none s)).1 hongoing with hexpired | hlate
    · exact absurd hexpired hends
    · exact absurd hstart (Nat.not_le_of_lt hlate)

private theorem punctual_pure (a : α) : (Pure.pure a : Work σ α).Punctual :=
  punctual_of_immediate (fun _ _ => rfl) nofun

theorem punctual_ofOutcome (x : Outcome α) : (ofOutcome x : Work σ α).Punctual := by
  cases x with
  | ok a => exact punctual_pure a
  | error f => exact punctual_of_immediate (fun _ _ => rfl) nofun

theorem punctual_sleep (duration : Nat) : (sleep duration : Work σ Unit).Punctual where
  forward s := Nat.le_add_right s.now duration
  unnoticed := by
    intro s d hover
    rw [ongoing_iff (sleep_none duration s), not_or] at hover
    exact if_neg hover.2
  cut := by
    intro s d hstart hongoing
    rcases (ongoing_iff (sleep_none duration s)).1 hongoing with hexpired | hlate
    · cases hexpired
    · exact ⟨_, if_pos hlate, Nat.max_eq_right hstart⟩

private theorem ongoing_bind (hk : ∀ a, (k a).Punctual) :
    (w >>= k).Ongoing s d ↔
      w.Ongoing s d ∨ ∃ a t, w none s = (.done a, t) ∧ (k a).Ongoing t d := by
  rcases hown : w none s with ⟨a | f | _, t⟩
  · have hnext : (w >>= k) none s = k a none t := by rw [bind_apply, hown]
    rw [ongoing_iff hown, Ongoing, hnext]
    constructor
    · exact fun hongoing => .inr ⟨a, t, rfl, hongoing⟩
    · rintro ((hexpired | hlate) | ⟨_, _, ⟨⟩, hongoing⟩)
      · cases hexpired
      · exact .inr (Nat.lt_of_lt_of_le hlate ((hk a).forward t))
      · exact hongoing
  · have hnext : (w >>= k) none s = (.failed f, t) := by rw [bind_apply, hown]
    simp [ongoing_iff hown, ongoing_iff hnext]
  · have hnext : (w >>= k) none s = (.expired, t) := by rw [bind_apply, hown]
    simp [ongoing_iff hown, ongoing_iff hnext]

theorem Punctual.bind (hw : w.Punctual) (hk : ∀ a, (k a).Punctual) : (w >>= k).Punctual where
  forward s := by
    rw [bind_apply]
    rcases hown : w none s with ⟨a | f | _, t⟩
    · exact Nat.le_trans (hw.forward_of_eq hown) ((hk a).forward t)
    · exact hw.forward_of_eq hown
    · exact hw.forward_of_eq hown
  unnoticed := by
    intro s d hover
    rw [ongoing_bind hk, not_or] at hover
    obtain ⟨hfirst, hsecond⟩ := hover
    rw [bind_apply, bind_apply, hw.unnoticed hfirst]
    rcases hown : w none s with ⟨a | f | _, t⟩
    · exact (hk a).unnoticed fun hongoing => hsecond ⟨a, t, hown, hongoing⟩
    · rfl
    · rfl
  cut := by
    intro s d hstart hongoing
    by_cases hfirst : w.Ongoing s d
    · obtain ⟨s', hcut, hnow⟩ := hw.cut hstart hfirst
      exact ⟨s', by rw [bind_apply, hcut], hnow⟩
    · -- The first part is over in time, so the second part is what the deadline stops.
      obtain ⟨a, t, hown, hsecond⟩ := ((ongoing_bind hk).1 hongoing).resolve_left hfirst
      have hreached : t.now ≤ d := by
        rw [ongoing_iff hown, not_or] at hfirst
        exact Nat.le_of_not_lt hfirst.2
      obtain ⟨s', hcut, hnow⟩ := (hk a).cut hreached hsecond
      exact ⟨s', by rw [bind_apply, hw.unnoticed hfirst, hown]; exact hcut, hnow⟩

private theorem punctual_never : (never : Work σ α).Punctual where
  forward _ := Nat.le_refl _
  unnoticed hover := absurd (.inl rfl) hover
  cut hstart _ := ⟨_, rfl, Nat.max_eq_right hstart⟩

end Work

/-! ## Tools -/

namespace Tool

variable {tool : Tool σ} {arguments : String} {deadline : Option Instant} {s s' : Scene σ}
  {f : Failure}

private theorem run_of_invoke_failed (h : tool.invoke arguments deadline s = (.failed f, s')) :
    (∃ payload, tool.run (.dict payload) deadline s = (.failed f, s')) ∨
      f.IsOrdinary := by
  cases hdecode : decodeArguments tool.room tool.name arguments with
  | error f' =>
      rw [invoke_of_malformed hdecode] at h
      cases h
      exact .inr (ordinary_of_decodeArguments hdecode)
  | ok payload =>
      rw [invoke_of_decoded hdecode] at h
      rcases hrun : tool.run (.dict payload) deadline s with ⟨v | f' | _, t⟩
      · cases hencode : encodeResult v with
        | error f' =>
            simp only [hrun, encoded, hencode] at h
            cases h
            exact .inr (ordinary_of_encodeResult hencode)
        | ok text =>
            simp only [hrun, encoded, hencode] at h
            cases h
      · rw [hrun] at h
        cases h
        exact .inl ⟨payload, hrun⟩
      · rw [hrun] at h
        cases h

private theorem run_of_invoke_expired (h : (tool.invoke arguments deadline s).1 = .expired) :
    ∃ payload, (tool.run (.dict payload) deadline s).1 = .expired := by
  cases hdecode : decodeArguments tool.room tool.name arguments with
  | error f =>
      rw [invoke_of_malformed hdecode] at h
      cases h
  | ok payload =>
      refine ⟨payload, ?_⟩
      rw [invoke_of_decoded hdecode] at h
      rcases hrun : tool.run (.dict payload) deadline s with ⟨v | f | _, t⟩
      · cases hencode : encodeResult v <;> simp only [hrun, encoded, hencode] at h <;> cases h
      · rw [hrun] at h
        cases h
      · rfl

theorem punctual_invoke (h : ∀ payload, (tool.run (.dict payload)).Punctual) (arguments : String) :
    (tool.invoke arguments).Punctual := by
  have hinvoke : tool.invoke arguments = (Work.ofOutcome (decodeArguments tool.room tool.name arguments) >>=
      fun payload => tool.run (.dict payload) >>= fun result =>
        Work.ofOutcome (encodeResult result)) := rfl
  rw [hinvoke]
  refine (Work.punctual_ofOutcome _).bind fun payload => ?_
  exact (h payload).bind fun result => Work.punctual_ofOutcome _

end Tool

namespace Execution

def RaisesNoTimeout (tool : Tool σ) : Prop :=
  ∀ payload s s' f, tool.run (.dict payload) none s = (.failed f, s') → f.isTimeout = false

/-- The tool keeps to deadlines and is not cancelled, and it comes to an end where it has all the
time that it takes. -/
structure TimelyTool (limit : Option Limit) (tool : Tool σ) : Prop where
  punctual (payload : Entries) : (tool.run (.dict payload)).Punctual
  uncancelled {payload : Entries} {s s' : Scene σ} {f : Failure} :
    tool.run (.dict payload) none s = (.failed f, s') → f.isExit = false
  ends (payload : Entries) (s : Scene σ) : allowance limit = .endless →
    (tool.run (.dict payload) none s).1 ≠ .expired

def Timely (registry : Registry σ) (limit : Option Limit) : Prop :=
  ∀ e ∈ registry.entries, TimelyTool limit e.tool

/-- Something that is begun at one instant and over at another keeps the limit. -/
def InTime (limit : Option Limit) (start stop : Instant) : Prop :=
  match allowance limit with
  | .nothing => False
  | .nanoseconds n => stop ≤ start + n
  | .endless => True

/-- What becomes of a call is told by the course that its tool takes on its own. -/
inductive Timed (registry : Registry σ) (limit : Option Limit) (call : ToolCall) (s : Scene σ) :
    Verdict → Scene σ → Prop where
  | unknown (hname : call.name ∉ registry.names) : Timed registry limit call s (.error toolNotFound) s
  | unstarted (htool : registry.get? call.name = some tool) (htime : allowance limit = .nothing) :
      Timed registry limit call s (.error (limitText limit)) s
  | answered (htool : registry.get? call.name = some tool)
      (hown : tool.invoke call.arguments none s = (.done text, s'))
      (htime : InTime limit s.now s'.now) : Timed registry limit call s (.ok text) s'
  | failed (htool : registry.get? call.name = some tool)
      (hown : tool.invoke call.arguments none s = (.failed f, s'))
      (htime : InTime limit s.now s'.now) (htext : errorOf limit f = some text) :
      Timed registry limit call s (.error text) s'
  | cut (htool : registry.get? call.name = some tool) (htime : allowance limit = .nanoseconds n)
      (hongoing : (tool.invoke call.arguments).Ongoing s (s.now + n)) (hnow : s'.now = s.now + n) :
      Timed registry limit call s (.error (limitText limit)) s'

/-- The tool of a call fails in time and not with a timeout, and there is nothing to say about it.
-/
inductive Untold (registry : Registry σ) (limit : Option Limit) (call : ToolCall) (s s' : Scene σ) :
    Prop where
  | intro (htool : registry.get? call.name = some tool)
      (hown : tool.invoke call.arguments none s = (.failed f, s'))
      (htime : InTime limit s.now s'.now) (hordinary : f.isTimeout = false)
      (htext : f.message = none) : Untold registry limit call s s'

/-- The calls of a batch are executed one after the other, each in the scene that the one before it
left, and this holds of each. -/
inductive InTurn (holds : ToolCall → Scene σ → Verdict → Scene σ → Prop) :
    Scene σ → List ToolCall → List ToolResult → Scene σ → Prop where
  | nil : InTurn holds s [] [] s
  | cons (hfirst : holds call s verdict between) (hrest : InTurn holds between calls results s') :
      InTurn holds s (call :: calls)
        (resultOf call (.ofInstant s.now) (.ofInstant between.now) verdict :: results) s'

/-- What a batch of calls ends in: the results of all calls, if this holds of each, or the first
failure that is untold. -/
inductive Executes (registry : Registry σ) (limit : Option Limit)
    (holds : ToolCall → Scene σ → Verdict → Scene σ → Prop) (s : Scene σ) :
    List ToolCall → Ending (List ToolResult) → Scene σ → Prop where
  | all (hturn : InTurn holds s calls results s') :
      Executes registry limit holds s calls (.done results) s'
  | untold (hbefore : InTurn holds s before results between)
      (huntold : Untold registry limit call between s') (after : List ToolCall) :
      Executes registry limit holds s (before ++ call :: after) (.failed .unwritable) s'

/-- What a limit gives the calls of tools that raise no timeout themselves: a call that would take
longer gets the text of the limit, any other what its tool comes to on its own. -/
structure KeepsLimit (registry : Registry σ) (limit : Option Limit) (call : ToolCall) (s : Scene σ)
    (verdict : Verdict) (s' : Scene σ) : Prop where
  late {tool : Tool σ} {n : Nat} : registry.get? call.name = some tool →
    allowance limit = .nanoseconds n → (tool.invoke call.arguments).Ongoing s (s.now + n) →
    verdict = .error (limitText limit) ∧ s'.now = s.now + n
  answered {tool : Tool σ} {text : String} {t : Scene σ} : registry.get? call.name = some tool →
    tool.invoke call.arguments none s = (.done text, t) → InTime limit s.now t.now →
    verdict = .ok text ∧ s' = t
  failed {tool : Tool σ} {f : Failure} {t : Scene σ} : registry.get? call.name = some tool →
    tool.invoke call.arguments none s = (.failed f, t) → InTime limit s.now t.now →
    ∃ text, f.message = some text ∧ verdict = .error text ∧ s' = t
  unstarted : call.name ∈ registry.names → allowance limit = .nothing →
    verdict = .error (limitText limit) ∧ s' = s
  unknown : call.name ∉ registry.names → verdict = .error toolNotFound ∧ s' = s

variable {registry : Registry σ} {limit : Option Limit} {call : ToolCall} {tool : Tool σ}
  {arguments : String} {s s' t : Scene σ} {verdict : Verdict} {calls : List ToolCall}
  {results : List ToolResult} {f : Failure} {e : Ending String} {text : String} {n : Nat}

/-! ## What becomes of a call -/

theorem TimelyTool.invoke_uncancelled (h : TimelyTool limit tool)
    (hinvoke : tool.invoke arguments none s = (.failed f, s')) : f.isExit = false := by
  rcases Tool.run_of_invoke_failed hinvoke with ⟨payload, hrun⟩ | hordinary
  · exact h.uncancelled hrun
  · exact hordinary.own

theorem RaisesNoTimeout.invoke (h : RaisesNoTimeout tool)
    (hinvoke : tool.invoke arguments none s = (.failed f, s')) : f.isTimeout = false := by
  rcases Tool.run_of_invoke_failed hinvoke with ⟨payload, hrun⟩ | hordinary
  · exact h payload s s' f hrun
  · exact hordinary.ordinary

theorem TimelyTool.invoke_ends (h : TimelyTool limit tool) (htime : allowance limit = .endless)
    (arguments : String) (s : Scene σ) : (tool.invoke arguments none s).1 ≠ .expired := by
  intro hexpired
  obtain ⟨payload, hrun⟩ := Tool.run_of_invoke_expired hexpired
  exact h.ends payload s htime hrun

theorem TimelyTool.settled (h : TimelyTool limit tool) {payload : Entries}
    (hends : (tool.run (.dict payload) none s).1 ≠ .expired) :
    (tool.run (.dict payload) none s).1.Settled := by
  rcases hrun : tool.run (.dict payload) none s with ⟨v | f | _, s'⟩
  · trivial
  · exact h.uncancelled hrun
  · exact absurd (by rw [hrun]) hends

theorem TimelyTool.endsUnder (h : TimelyTool limit tool) : EndsUnder limit tool := by
  intro hallowed payload s
  unfold due
  cases htime : allowance limit with
  | nothing => exact absurd htime hallowed
  | endless => exact .inl (h.settled (h.ends payload s htime))
  | nanoseconds n =>
      by_cases hongoing : (tool.run (.dict payload)).Ongoing s (s.now + n)
      · obtain ⟨s', hcut, -⟩ := (h.punctual payload).cut (Nat.le_add_right ..) hongoing
        exact .inr ⟨rfl, congrArg Prod.fst hcut⟩
      · have hsame := (h.punctual payload).unnoticed hongoing
        dsimp only
        rw [hsame]
        exact .inl (h.settled fun hexpired => hongoing (.inl hexpired))

theorem Timely.endsUnder (h : Timely registry limit) :
    ∀ e ∈ registry.entries, EndsUnder limit e.tool :=
  fun e he => (h e he).endsUnder

theorem TimelyTool.punctual_invoke (h : TimelyTool limit tool) (arguments : String) :
    (tool.invoke arguments).Punctual :=
  Tool.punctual_invoke h.punctual arguments

theorem InTime.allowed {start stop : Instant} (h : InTime limit start stop) :
    allowance limit ≠ .nothing := by
  intro htime
  rw [InTime, htime] at h
  exact h

theorem InTime.invoke_due (h : InTime limit s.now t.now) (htool : TimelyTool limit tool)
    (hown : tool.invoke arguments none s = (e, t)) (hends : e ≠ .expired) :
    tool.invoke arguments (due limit s) s = (e, t) := by
  unfold InTime at h
  unfold due
  cases htime : allowance limit with
  | nothing =>
      rw [htime] at h
      exact h.elim
  | endless => exact hown
  | nanoseconds n =>
      rw [htime] at h
      have hover : ¬ (tool.invoke arguments).Ongoing s (s.now + n) := by
        rw [Work.ongoing_iff hown, not_or]
        exact ⟨hends, Nat.not_lt_of_le h⟩
      exact ((htool.punctual_invoke arguments).unnoticed hover).trans hown

private theorem judge_of_answered (htimely : TimelyTool limit tool)
    (htool : registry.get? call.name = some tool)
    (hown : tool.invoke call.arguments none s = (.done text, t))
    (htime : InTime limit s.now t.now) :
    judge registry limit call none s = (.done (.ok text), t) := by
  rw [judge_of_allowed htool htime.allowed, htime.invoke_due htimely hown nofun]
  rfl

theorem judge_of_failed (htimely : TimelyTool limit tool)
    (htool : registry.get? call.name = some tool)
    (hown : tool.invoke call.arguments none s = (.failed f, t))
    (htime : InTime limit s.now t.now) :
    judge registry limit call none s = (told limit f, t) := by
  rw [judge_of_allowed htool htime.allowed, htime.invoke_due htimely hown nofun]
  simp [passed, htimely.invoke_uncancelled hown]

private theorem judge_of_late (htimely : TimelyTool limit tool)
    (htool : registry.get? call.name = some tool) (htime : allowance limit = .nanoseconds n)
    (hongoing : (tool.invoke call.arguments).Ongoing s (s.now + n)) :
    ∃ t, judge registry limit call none s = (.done (.error (limitText limit)), t) ∧
      t.now = s.now + n := by
  obtain ⟨t, hcut, hnow⟩ :=
    (htimely.punctual_invoke call.arguments).cut (Nat.le_add_right ..) hongoing
  refine ⟨t, ?_, hnow⟩
  have hallowed : allowance limit ≠ .nothing := by rw [htime]; nofun
  have hdue : due limit s = some (s.now + n) := by rw [due, htime]
  rw [judge_of_allowed htool hallowed, hdue, hcut]
  rfl

private theorem judge_of_unstarted (htool : registry.get? call.name = some tool)
    (htime : allowance limit = .nothing) (s : Scene σ) :
    judge registry limit call none s = (.done (.error (limitText limit)), s) := by
  rw [judge_of_tool htool, limited_of_nothing htime]
  rfl

/-- A call keeps its limit or is cut off by it. -/
theorem inTime_or_late (htimely : TimelyTool limit tool) (hallowed : allowance limit ≠ .nothing)
    (arguments : String) (s : Scene σ) :
    (tool.invoke arguments none s).1 ≠ .expired ∧
        InTime limit s.now (tool.invoke arguments none s).2.now ∨
      ∃ n, allowance limit = .nanoseconds n ∧ (tool.invoke arguments).Ongoing s (s.now + n) := by
  unfold InTime
  cases htime : allowance limit with
  | nothing => exact absurd htime hallowed
  | endless => exact .inl ⟨htimely.invoke_ends htime arguments s, trivial⟩
  | nanoseconds n =>
      by_cases hongoing : (tool.invoke arguments).Ongoing s (s.now + n)
      · exact .inr ⟨n, rfl, hongoing⟩
      · rw [Work.Ongoing, not_or] at hongoing
        exact .inl ⟨hongoing.1, Nat.le_of_not_lt hongoing.2⟩

private theorem judge_timed (htimely : Timely registry limit) (call : ToolCall) (s : Scene σ) :
    (∃ verdict s', judge registry limit call none s = (.done verdict, s') ∧
      Timed registry limit call s verdict s') ∨
    ∃ s', judge registry limit call none s = (.failed .unwritable, s') ∧
      Untold registry limit call s s' := by
  cases htool : registry.get? call.name with
  | none =>
      have hname := Registry.get?_eq_none_iff.1 htool
      exact .inl ⟨_, s, judge_of_unknown htool s, .unknown hname⟩
  | some tool =>
      have hone := Registry.forall_get? htimely htool
      by_cases hallowed : allowance limit = .nothing
      · exact .inl ⟨_, s, judge_of_unstarted htool hallowed s, .unstarted htool hallowed⟩
      · rcases inTime_or_late hone hallowed call.arguments s with
          ⟨hends, htime⟩ | ⟨n, htime, hongoing⟩
        · rcases hown : tool.invoke call.arguments none s with ⟨text | f | _, t⟩
          · rw [hown] at htime
            exact .inl ⟨_, t, judge_of_answered hone htool hown htime, .answered htool hown htime⟩
          · rw [hown] at htime
            have hjudge := judge_of_failed hone htool hown htime
            rcases told_cases limit f with
              ⟨text, htext, htold⟩ | ⟨hordinary, htext, htold⟩
            · exact .inl ⟨_, t, htold ▸ hjudge, .failed htool hown htime htext⟩
            · exact .inr ⟨t, htold ▸ hjudge, .intro htool hown htime hordinary htext⟩
          · exact absurd (by rw [hown]) hends
        · obtain ⟨t, hjudge, hnow⟩ := judge_of_late hone htool htime hongoing
          exact .inl ⟨_, t, hjudge, .cut htool htime hongoing hnow⟩

theorem Judged.timed (htimely : Timely registry limit)
    (h : Judged registry limit call s verdict s') : Timed registry limit call s verdict s' := by
  rcases judge_timed htimely call s with ⟨verdict', t, hjudge, htimed⟩ | ⟨t, hjudge, -⟩
  · obtain ⟨rfl, rfl⟩ := h.unique hjudge
    exact htimed
  · rw [h.judge_eq] at hjudge
    cases hjudge

/-- Tools that keep to deadlines and are not cancelled are interrupted by nothing but a failure
without a text. -/
theorem Interrupted.untold (htimely : Timely registry limit)
    (htool : registry.get? call.name = some tool) {e : Interruption}
    (h : Interrupted tool limit call.arguments s e s') :
    e = .failed .unwritable ∧ Untold registry limit call s s' := by
  have hinterrupted := judge_of_interrupted htool h
  rcases judge_timed htimely call s with ⟨verdict, t, hjudge, -⟩ | ⟨t, hjudge, huntold⟩
  · rw [hinterrupted] at hjudge
    cases h <;> cases hjudge
  · rw [hinterrupted] at hjudge
    cases h <;> cases hjudge <;> exact ⟨rfl, huntold⟩

theorem Judged.keepsLimit (htimely : Timely registry limit)
    (hordinary : ∀ e ∈ registry.entries, RaisesNoTimeout e.tool)
    (h : Judged registry limit call s verdict s') : KeepsLimit registry limit call s verdict s' where
  late := by
    intro tool n htool htime hongoing
    have hone := Registry.forall_get? htimely htool
    obtain ⟨t, hjudge, hnow⟩ := judge_of_late hone htool htime hongoing
    obtain ⟨hverdict, rfl⟩ := h.unique hjudge
    exact ⟨hverdict, hnow⟩
  answered := by
    intro tool text t htool hown htime
    exact h.unique (judge_of_answered (Registry.forall_get? htimely htool) htool hown htime)
  failed := by
    intro tool f t htool hown htime
    have hjudge := judge_of_failed (Registry.forall_get? htimely htool) htool hown htime
    have hfailed := RaisesNoTimeout.invoke (Registry.forall_get? hordinary htool) hown
    cases htext : f.message with
    | some text =>
        rw [told_of_ordinary hfailed htext] at hjudge
        exact ⟨text, rfl, h.unique hjudge⟩
    | none =>
        rw [told_of_unwritten hfailed htext, h.judge_eq] at hjudge
        cases hjudge
  unstarted := by
    intro hname htime
    cases htool : registry.get? call.name with
    | none => exact absurd hname (Registry.get?_eq_none_iff.1 htool)
    | some tool => exact h.unique (judge_of_unstarted htool htime s)
  unknown := by
    intro hname
    exact h.unique (judge_of_unknown (Registry.get?_eq_none_iff.2 hname) s)

/-! ## Batches -/

theorem Batch.inTurn {holds : ToolCall → Scene σ → Verdict → Scene σ → Prop}
    (h : Batch registry limit s calls results s')
    (hholds : ∀ {call s verdict s'}, Judged registry limit call s verdict s' →
      holds call s verdict s') : InTurn holds s calls results s' := by
  induction h with
  | nil => exact .nil
  | cons hjudged _ ih => exact .cons (hholds hjudged) ih

theorem Halted.executes {holds : ToolCall → Scene σ → Verdict → Scene σ → Prop}
    (htimely : Timely registry limit) {e : Interruption} (h : Halted registry limit s calls e s')
    (hholds : ∀ {call s verdict s'}, Judged registry limit call s verdict s' →
      holds call s verdict s') : Executes registry limit holds s calls e.ending s' := by
  obtain ⟨hbefore, htool, hinterrupted, after⟩ := h
  obtain ⟨rfl, huntold⟩ := hinterrupted.untold htimely htool
  exact .untold (hbefore.inTurn hholds) huntold after

/-- Where each call that is judged is as it should be, so is a batch of them. -/
theorem inProcess_executes {holds : ToolCall → Scene σ → Verdict → Scene σ → Prop}
    (default limit : Option Limit) (htimely : Timely registry (limit.or default))
    (hholds : ∀ {call s verdict s'}, Judged registry (limit.or default) call s verdict s' →
      holds call s verdict s') (calls : List ToolCall) (s : Scene σ) :
    ∃ ending s', inProcess registry default calls limit none s = (ending, s') ∧
      Executes registry (limit.or default) holds s calls ending s' := by
  rcases batch_or_halted registry (limit.or default) calls s with
    ⟨results, s', hbatch⟩ | ⟨e, s', hhalted⟩
  · exact ⟨_, s', hbatch.each_eq, .all (hbatch.inTurn hholds)⟩
  · exact ⟨_, s', hhalted.each_eq, hhalted.executes htimely hholds⟩

theorem Untold.not_tells (h : Untold registry limit call s s') : ¬ registry.Tells := by
  obtain ⟨htool, hown, -, -, htext⟩ := h
  intro htells
  rcases Tool.run_of_invoke_failed hown with ⟨payload, hrun⟩ | hordinary
  · exact Registry.forall_get? htells htool payload _ _ _ _ hrun htext
  · obtain ⟨text, hsome⟩ := hordinary.text
    rw [hsome] at htext
    cases htext

theorem Executes.exists_results {holds : ToolCall → Scene σ → Verdict → Scene σ → Prop}
    {ending : Ending (List ToolResult)} (h : Executes registry limit holds s calls ending s')
    (htells : registry.Tells) : ∃ results, ending = .done results := by
  cases h with
  | all hturn => exact ⟨_, rfl⟩
  | untold _ huntold _ => exact absurd htells huntold.not_tells

theorem Executes.inTurn {holds : ToolCall → Scene σ → Verdict → Scene σ → Prop}
    (h : Executes registry limit holds s calls (.done results) s') :
    InTurn holds s calls results s' := by
  cases h with | all hturn
  exact hturn

theorem Batch.alone (hstateless : registry.Stateless) (h : Batch registry limit s calls results s')
    (t : Scene σ) : List.Forall₂ (fun call r => ∃ alone t', Batch registry limit t [call] [alone] t' ∧
      alone.untimed = r.untimed) calls results := by
  induction h with
  | nil => exact .nil
  | @cons call s verdict between _ _ _ hjudged _ ih =>
      obtain ⟨verdict', t', hjudged'⟩ := hjudged.exists_elsewhere hstateless t
      obtain rfl := hjudged.verdict_unique hstateless hjudged'
      refine .cons ⟨_, t', .cons hjudged' .nil, ?_⟩ ih
      rw [untimed_resultOf, untimed_resultOf]

/-- Every call of a batch keeps the limit, on its own: a call that takes longer is cut off, any
other comes to what its tool comes to.  Without a state, no other call has a say in its result.
There are no results at all where the failure of a tool has no text. -/
theorem inProcess_keeps_limit (default limit : Option Limit)
    (htimely : Timely registry (limit.or default))
    (hordinary : ∀ e ∈ registry.entries, RaisesNoTimeout e.tool) (calls : List ToolCall)
    (s : Scene σ) : ∃ ending s',
      inProcess registry default calls limit none s = (ending, s') ∧
      Executes registry (limit.or default) (KeepsLimit registry (limit.or default)) s calls ending s' ∧
      (registry.Tells → ∃ results, ending = .done results) ∧
      (registry.Stateless → ∀ results, ending = .done results → ∀ t,
        List.Forall₂ (fun call r => ∃ alone t',
          inProcess registry default [call] limit none t = (.done [alone], t') ∧
            alone.untimed = r.untimed) calls results) := by
  obtain ⟨ending, s', hending, hexecutes⟩ :=
    inProcess_executes default limit htimely (Judged.keepsLimit htimely hordinary) calls s
  refine ⟨ending, s', hending, hexecutes, hexecutes.exists_results, ?_⟩
  rintro hstateless results rfl t
  have hbatch := batch_of_inProcess hending
  refine (hbatch.alone hstateless t).imp fun call r halone => ?_
  obtain ⟨alone, t', hsingle, huntimed⟩ := halone
  exact ⟨alone, t', hsingle.each_eq, huntimed⟩

/-! ### A lobby with a phone that nobody answers -/

def phone : Tool Unit where
  typeName := "Phone"
  name := "phone"
  info? := none
  run _ := Work.never

def lobby : Registry Unit where
  entries := desk.entries ++ [{ info := { name := "phone" }, tool := phone }]

private theorem forall_mem_lobby {p : Tool Unit → Prop} (hbell : p bell)
    (hlift : p (lift 2000000000))
    (hphone : p phone) : ∀ e ∈ lobby.entries, p e.tool := by
  intro e he
  simp only [lobby, desk, List.cons_append, List.nil_append, List.mem_cons, List.not_mem_nil,
    or_false] at he
  rcases he with rfl | rfl | rfl
  · exact hbell
  · exact hlift
  · exact hphone

private theorem lobby_timely : Timely lobby (some (.whole 1)) := by
  refine forall_mem_lobby ⟨fun _ => Work.punctual_pure _, nofun, nofun⟩ ⟨fun _ => ?_, ?_, nofun⟩
    ⟨fun _ => Work.punctual_never, nofun, nofun⟩
  · exact (Work.punctual_sleep _).bind fun _ => Work.punctual_pure _
  · intro payload s s' f hrun
    cases hrun

private theorem lobby_raisesNoTimeout : ∀ e ∈ lobby.entries, RaisesNoTimeout e.tool := by
  refine forall_mem_lobby nofun ?_ nofun
  intro payload s s' f hrun
  cases hrun

private theorem lobby_stateless : lobby.Stateless := by
  refine forall_mem_lobby (fun _ _ _ => ⟨rfl, fun _ => rfl⟩) (fun payload s s' => ?_)
    fun _ _ _ => ⟨rfl, fun _ => rfl⟩
  constructor
  · simp [lift_run]
  · intro n
    simp [lift_run]

private theorem lobby_tells : lobby.Tells := by
  refine forall_mem_lobby ?_ ?_ (fun _ _ _ _ _ hrun => nomatch hrun)
  · exact desk_tells _ List.mem_cons_self
  · exact desk_tells _ (List.mem_cons_of_mem _ List.mem_cons_self)

theorem lobby_keeps_limit :
    Timely lobby (some (.whole 1)) ∧ (∀ e ∈ lobby.entries, RaisesNoTimeout e.tool) ∧
      lobby.Tells ∧ lobby.Stateless ∧ ∃ results s',
        inProcess lobby (some (.whole 5))
            [deskCall "1" "lift", deskCall "2" "bell", deskCall "3" "phone"] (some (.whole 1)) none
            { world := () } = (.done results, s') ∧
        InTurn (KeepsLimit lobby (some (.whole 1))) { world := () }
          [deskCall "1" "lift", deskCall "2" "bell", deskCall "3" "phone"] results s' ∧
        ∀ t, List.Forall₂ (fun call r => ∃ alone t',
          inProcess lobby (some (.whole 5)) [call] (some (.whole 1)) none t = (.done [alone], t') ∧
            alone.untimed = r.untimed)
          [deskCall "1" "lift", deskCall "2" "bell", deskCall "3" "phone"] results := by
  obtain ⟨ending, s', heq, hexecutes, hresults, halone⟩ :=
    inProcess_keeps_limit (some (.whole 5)) (some (.whole 1)) lobby_timely lobby_raisesNoTimeout
      [deskCall "1" "lift", deskCall "2" "bell", deskCall "3" "phone"] { world := () }
  obtain ⟨results, rfl⟩ := hresults lobby_tells
  exact ⟨lobby_timely, lobby_raisesNoTimeout, lobby_tells, lobby_stateless, results, s', heq,
    hexecutes.inTurn, halone lobby_stateless results rfl⟩

private theorem encodeResult_seven : encodeResult (.int 7) = .ok "7" := by
  have hshort : holdsLongInteger (.int 7) = false := by decide +kernel
  have hloose : Json.loose (.int 7) = "7" := by decide +kernel
  rw [encodeResult, hshort, hloose]
  · rfl
  all_goals nofun

private theorem lift_invoke (duration : Nat) (s : Scene Unit) :
    (lift duration).invoke "" none s = (.done "7", { s with now := s.now + duration }) := by
  have hdecode : decodeArguments (lift duration).room (lift duration).name "" = .ok [] := rfl
  rw [Tool.invoke_of_decoded hdecode]
  change Tool.encoded (.done (.int 7), _) = _
  rw [Tool.encoded, encodeResult_seven]

/-- Under a limit of no seconds the lift takes its two seconds and answers. -/
theorem zero_limit_ignored :
    ((lift 2000000000).invoke "").Ongoing { world := () } 0 ∧
      ∃ result, inProcess desk (some (.whole 0)) [deskCall "1" "lift"] none none { world := () } =
          (.done [result], { now := 2000000000, world := () }) ∧
        result.result = .text "7" ∧ result.error ≠ some (limitText (some (.whole 0))) := by
  have hbatch : Batch desk (some (.whole 0)) { world := () } [deskCall "1" "lift"] _ _ :=
    .cons (.invoked rfl (.answered (by rw [allowance_whole]; nofun) rfl rfl encodeResult_seven)) .nil
  refine ⟨?_, _, hbatch.each_eq, rfl, nofun⟩
  rw [Work.ongoing_iff (lift_invoke ..)]
  exact .inr (by decide)

end Execution

end ChatPipeline
