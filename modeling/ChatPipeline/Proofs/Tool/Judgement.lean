import ChatPipeline.Proofs.Sequencing
import ChatPipeline.Tool.Execution

/-!
# How a call is judged

A call passes through stages: its tool is looked up, its arguments are decoded, the tool runs in the
time that the limit allows, and what it gives is encoded.  `Judged` and `Invoked` have one rule for
each stage at which a call can end and say what the verdict is there; judging the call gives that
verdict (`Judged.judge_eq`).  A call is left without a verdict where its tool is interrupted, which
is also what a failure without a text comes to (`invoked_or_interrupted`).  Where no tool is, every
call ends at one of the stages (`exists_judged`).
-/

namespace ChatPipeline

/-! ## Failures that are not ours to catch or to rename -/

/-- Neither a cancellation nor a timeout, and with a text. -/
structure Failure.IsOrdinary (f : Failure) : Prop where
  own : f.isExit = false
  ordinary : f.isTimeout = false
  text : ∃ text, f.message = some text

theorem ordinary_of_decodeArguments {depth : Nat} {tool arguments : String} {f : Failure}
    (h : decodeArguments depth tool arguments = .error f) : f.IsOrdinary := by
  unfold decodeArguments at h
  split at h
  · cases h
  · split at h <;> cases h <;> exact ⟨rfl, rfl, _, rfl⟩

theorem ordinary_of_encodeResult {v : Value} {f : Failure} (h : encodeResult v = .error f) :
    f.IsOrdinary := by
  -- Each shape of a value has one way to fail.
  unfold encodeResult at h
  split at h <;> split at h <;> cases h <;> exact ⟨rfl, rfl, _, rfl⟩

/-! ## Tools -/

namespace Work

/-- Work that gives a result or fails for a reason of its own; without a deadline it never expires.
-/
def Settles (w : Work σ α) : Prop :=
  ∀ deadline s, (w deadline s).1.Settled ∨ deadline ≠ none ∧ (w deadline s).1 = .expired

/-- Every failure of the work has a text. -/
def Tells (w : Work σ α) : Prop :=
  ∀ deadline s f s', w deadline s = (.failed f, s') → f.message ≠ none

theorem tells_of_done {w : Work σ α} (h : ∀ deadline s f, (w deadline s).1 ≠ .failed f) :
    w.Tells := by
  intro deadline s f s' hw
  exact absurd (congrArg Prod.fst hw) (h deadline s f)

theorem tells_fail {f : Failure} (hf : f.message ≠ none) : (fail f : Work σ α).Tells := by
  intro deadline s f' s' hw
  cases hw
  exact hf

theorem tells_pure (a : α) : (Pure.pure a : Work σ α).Tells := tells_of_done fun _ _ _ => nofun

theorem tells_sleep (duration : Nat) : (sleep duration : Work σ Unit).Tells := by
  refine tells_of_done fun deadline s f => ?_
  unfold sleep
  dsimp only
  split
  · split <;> exact nofun
  · exact nofun

theorem Tells.bind {w : Work σ α} {k : α → Work σ β} (hw : w.Tells) (hk : ∀ a, (k a).Tells) :
    (w >>= k).Tells := by
  intro deadline s f s' hbind
  rw [bind_apply] at hbind
  rcases hfirst : w deadline s with ⟨a | f' | _, between⟩
  · rw [hfirst] at hbind
    exact hk a deadline between f s' hbind
  · rw [hfirst] at hbind
    cases hbind
    exact hw deadline s f s' hfirst
  · rw [hfirst] at hbind
    cases hbind

theorem Settles.ended {w : Work σ α} (h : w.Settles) {deadline : Option Instant} {s s' : Scene σ}
    {e : Ending α} (hw : w deadline s = (e, s')) : e.Settled ∨ deadline ≠ none ∧ e = .expired := by
  have hended := h deadline s
  rw [hw] at hended
  exact hended

end Work

namespace Tool

def Settles (t : Tool σ) : Prop := ∀ payload, (t.run (.dict payload)).Settles

def Tells (t : Tool σ) : Prop := ∀ payload, (t.run (.dict payload)).Tells

def encoded : Ending Value × Scene σ → Ending String × Scene σ
  | (.done v, s) => match encodeResult v with
    | .ok text => (.done text, s)
    | .error f => (.failed f, s)
  | (.failed f, s) => (.failed f, s)
  | (.expired, s) => (.expired, s)

theorem invoke_of_malformed {t : Tool σ} {arguments : String} {f : Failure}
    (h : decodeArguments t.room t.name arguments = .error f) (deadline : Option Instant) (s : Scene σ) :
    t.invoke arguments deadline s = (.failed f, s) := by
  change (Work.ofOutcome (decodeArguments t.room t.name arguments) >>= _) deadline s = _
  rw [Work.bind_apply, h]
  rfl

theorem invoke_of_decoded {t : Tool σ} {arguments : String} {payload : Entries}
    (h : decodeArguments t.room t.name arguments = .ok payload) (deadline : Option Instant) (s : Scene σ) :
    t.invoke arguments deadline s = encoded (t.run (.dict payload) deadline s) := by
  change (Work.ofOutcome (decodeArguments t.room t.name arguments) >>= fun payload =>
    t.run (.dict payload) >>= fun result => Work.ofOutcome (encodeResult result)) deadline s = _
  rw [Work.bind_apply, h]
  change (t.run (.dict payload) >>= fun result => Work.ofOutcome (encodeResult result)) deadline s = _
  rw [Work.bind_apply]
  rcases t.run (.dict payload) deadline s with ⟨v | f | _, s'⟩
  · dsimp only [encoded]
    cases encodeResult v <;> rfl
  · rfl
  · rfl

end Tool

def Registry.Settles (r : Registry σ) : Prop := ∀ e ∈ r.entries, e.tool.Settles

def Registry.Tells (r : Registry σ) : Prop := ∀ e ∈ r.entries, e.tool.Tells

theorem Registry.forall_get? {r : Registry σ} {p : Tool σ → Prop} (h : ∀ e ∈ r.entries, p e.tool)
    {name : String} {tool : Tool σ} (hget : r.get? name = some tool) : p tool := by
  obtain ⟨e, he, rfl⟩ := Option.map_eq_some_iff.1 hget
  exact h e (List.mem_of_find?_eq_some he)

theorem Registry.Settles.tool {r : Registry σ} (h : r.Settles) {name : String} {tool : Tool σ}
    (hget : r.get? name = some tool) : tool.Settles :=
  Registry.forall_get? h hget

theorem Registry.get?_eq_none_iff {r : Registry σ} {name : String} :
    r.get? name = none ↔ name ∉ r.names := by
  rw [← Registry.contains_iff, Registry.get?, Registry.contains, Option.map_eq_none_iff]
  cases r.find? name <;> simp

namespace Execution

/-! ## Limits -/

/-- What a limit leaves to a tool: no time at all, so many nanoseconds, or all the time it takes. -/
inductive Allowance where
  | nothing
  | nanoseconds (n : Nat)
  | endless

def allowance : Option Limit → Allowance
  | none => .endless
  | some l =>
    if l.isSet then
      if l.isPositive then
        match l.nanoseconds? with
        | some n => .nanoseconds n
        | none => .endless
      else .nothing
    else .endless

/-- A limit of zero, unlike any below or above it, leaves all the time. -/
theorem allowance_whole (seconds : Int) :
    allowance (some (.whole seconds)) =
      if seconds = 0 then .endless
      else if 0 < seconds then .nanoseconds (seconds.toNat * 1000000000)
      else .nothing := by
  by_cases hzero : seconds = 0
  · simp [allowance, Limit.isSet, hzero]
  · simp [allowance, Limit.isSet, Limit.isPositive, Limit.nanoseconds?, hzero]

def due (limit : Option Limit) (s : Scene σ) : Option Instant :=
  match allowance limit with
  | .nanoseconds n => some (s.now + n)
  | _ => none

theorem due_isSome (limit : Option Limit) (s s' : Scene σ) :
    (due limit s).isSome = (due limit s').isSome := by
  unfold due
  cases allowance limit <;> rfl

/-- What work gives that has to be done by then, nothing standing for an answer that came too late.
-/
def timely (deadline : Option Instant) : Ending α × Scene σ → Ending (Option α) × Scene σ
  | (.done a, s) => (.done (some a), s)
  | (.failed f, s) => (.failed f, s)
  | (.expired, s) => if deadline.isSome then (.done none, s) else (.expired, s)

private theorem map_some_apply (w : Work σ α) (s : Scene σ) :
    (some <$> w) none s = timely none (w none s) := by
  change (w >>= fun a => pure (some a)) none s = _
  rw [Work.bind_apply]
  rcases w none s with ⟨a | f | _, s'⟩ <;> rfl

private theorem within_apply (n : Nat) (w : Work σ α) (s : Scene σ) :
    Work.within n w none s = timely (some (s.now + n)) (w (some (s.now + n)) s) := by
  unfold Work.within
  dsimp only [Work.earlier]
  rcases w (some (s.now + n)) s with ⟨a | f | _, s'⟩ <;> rfl

theorem limited_of_nothing {limit : Option Limit} (h : allowance limit = .nothing)
    (w : Work σ α) (s : Scene σ) : limited limit w none s = (.done none, s) := by
  unfold allowance at h
  split at h
  · cases h
  · rename_i l
    split at h
    · rename_i hset
      split at h
      · split at h <;> cases h
      · rename_i hpositive
        rw [limited, if_pos hset, Limit.apply, if_neg hpositive]
        rfl
    · cases h

private theorem limited_of_allowed {limit : Option Limit} (h : allowance limit ≠ .nothing)
    (w : Work σ α)
    (s : Scene σ) : limited limit w none s = timely (due limit s) (w (due limit s) s) := by
  unfold due
  cases limit with
  | none => exact map_some_apply w s
  | some l =>
      unfold limited
      unfold allowance at h ⊢
      dsimp only at h ⊢
      by_cases hset : l.isSet
      · rw [if_pos hset] at h
        rw [if_pos hset, if_pos hset, Limit.apply]
        by_cases hpositive : l.isPositive
        · rw [if_pos hpositive, if_pos hpositive]
          cases l.nanoseconds? with
          | none => exact map_some_apply w s
          | some n => exact within_apply n w s
        · rw [if_neg hpositive] at h
          exact absurd rfl h
      · rw [if_neg hset, if_neg hset]
        exact map_some_apply w s

/-! ## Verdicts -/

inductive Invoked (tool : Tool σ) (limit : Option Limit) (arguments : String) (s : Scene σ) :
    Verdict → Scene σ → Prop where
  | unstarted (htime : allowance limit = .nothing) :
      Invoked tool limit arguments s (.error (limitText limit)) s
  | malformed (htime : allowance limit ≠ .nothing)
      (hdecode : decodeArguments tool.room tool.name arguments = .error f)
      (htext : f.message = some text) : Invoked tool limit arguments s (.error text) s
  | failed (htime : allowance limit ≠ .nothing)
      (hdecode : decodeArguments tool.room tool.name arguments = .ok payload)
      (hrun : tool.run (.dict payload) (due limit s) s = (.failed f, s'))
      (hown : f.isExit = false) (hordinary : f.isTimeout = false) (htext : f.message = some text) :
      Invoked tool limit arguments s (.error text) s'
  | timedOut (htime : allowance limit ≠ .nothing)
      (hdecode : decodeArguments tool.room tool.name arguments = .ok payload)
      (hrun : tool.run (.dict payload) (due limit s) s = (.failed f, s'))
      (hown : f.isExit = false) (htimeout : f.isTimeout = true) :
      Invoked tool limit arguments s (.error (limitText limit)) s'
  | late (htime : allowance limit ≠ .nothing)
      (hdecode : decodeArguments tool.room tool.name arguments = .ok payload)
      (hrun : tool.run (.dict payload) (due limit s) s = (.expired, s'))
      (hdue : (due limit s).isSome = true) :
      Invoked tool limit arguments s (.error (limitText limit)) s'
  | unencodable (htime : allowance limit ≠ .nothing)
      (hdecode : decodeArguments tool.room tool.name arguments = .ok payload)
      (hrun : tool.run (.dict payload) (due limit s) s = (.done v, s'))
      (hencode : encodeResult v = .error f) (htext : f.message = some text) :
      Invoked tool limit arguments s (.error text) s'
  | answered (htime : allowance limit ≠ .nothing)
      (hdecode : decodeArguments tool.room tool.name arguments = .ok payload)
      (hrun : tool.run (.dict payload) (due limit s) s = (.done v, s'))
      (hencode : encodeResult v = .ok text) :
      Invoked tool limit arguments s (.ok text) s'

inductive Interruption where
  | failed (f : Failure)
  | expired

def Interruption.ending : Interruption → Ending α
  | .failed f => .failed f
  | .expired => .expired

theorem Interruption.ending_ne_done (e : Interruption) (a : α) : e.ending ≠ .done a := by
  cases e <;> exact nofun

/-- An invocation without a verdict: the tool is cancelled, its failure has no text that could be
put into a result, or it goes on for ever. -/
inductive Interrupted (tool : Tool σ) (limit : Option Limit) (arguments : String) (s : Scene σ) :
    Interruption → Scene σ → Prop where
  | cancelled (htime : allowance limit ≠ .nothing)
      (hdecode : decodeArguments tool.room tool.name arguments = .ok payload)
      (hrun : tool.run (.dict payload) (due limit s) s = (.failed f, s'))
      (hcancelled : f.isExit = true) :
      Interrupted tool limit arguments s (.failed f) s'
  | unwritten (htime : allowance limit ≠ .nothing)
      (hdecode : decodeArguments tool.room tool.name arguments = .ok payload)
      (hrun : tool.run (.dict payload) (due limit s) s = (.failed f, s'))
      (hown : f.isExit = false) (hordinary : f.isTimeout = false) (htext : f.message = none) :
      Interrupted tool limit arguments s (.failed .unwritable) s'
  | expired (htime : allowance limit ≠ .nothing)
      (hdecode : decodeArguments tool.room tool.name arguments = .ok payload)
      (hrun : tool.run (.dict payload) (due limit s) s = (.expired, s'))
      (hdue : due limit s = none) : Interrupted tool limit arguments s .expired s'

/-- In the time that the limit allows, the tool comes to an end of its own or is stopped.  It is not
cancelled, and it does not go on for ever where there is no limit. -/
def EndsUnder (limit : Option Limit) (tool : Tool σ) : Prop :=
  allowance limit ≠ .nothing → ∀ payload s, (tool.run (.dict payload) (due limit s) s).1.Settled ∨
    (due limit s).isSome = true ∧ (tool.run (.dict payload) (due limit s) s).1 = .expired

/-- The verdict on a call: there is no tool of its name, or the tool is invoked. -/
inductive Judged (registry : Registry σ) (limit : Option Limit) (call : ToolCall) (s : Scene σ) :
    Verdict → Scene σ → Prop where
  | unknown (hname : call.name ∉ registry.names) :
      Judged registry limit call s (.error toolNotFound) s
  | invoked (htool : registry.get? call.name = some tool)
      (hinvoked : Invoked tool limit call.arguments s verdict s') :
      Judged registry limit call s verdict s'

variable {registry : Registry σ} {limit : Option Limit} {call : ToolCall} {tool : Tool σ}
  {arguments : String} {s s' : Scene σ} {verdict : Verdict}

theorem judge_of_unknown (h : registry.get? call.name = none) (s : Scene σ) :
    judge registry limit call none s = (.done (.error toolNotFound), s) := by
  unfold judge
  rw [h]
  rfl

theorem judge_of_tool (h : registry.get? call.name = some tool) (s : Scene σ) :
    judge registry limit call none s =
      match limited limit (tool.invoke call.arguments) none s with
      | (.done answer, s) => (verdictOf limit (.ok answer) : Work σ Verdict) none s
      | (.failed f, s) =>
        if f.isExit then (.failed f, s) else (verdictOf limit (.error f) : Work σ Verdict) none s
      | (.expired, s) => (.expired, s) := by
  unfold judge
  rw [h]
  change (Work.attempt (limited limit (tool.invoke call.arguments)) >>= _) none s = _
  rw [Work.attempt_bind_apply]
  rcases limited limit (tool.invoke call.arguments) none s with ⟨answer | f | _, s'⟩ <;> rfl

def told (limit : Option Limit) (f : Failure) : Ending Verdict :=
  match errorOf limit f with
  | some text => .done (.error text)
  | none => .failed .unwritable

private theorem verdictOf_error_apply (limit : Option Limit) (f : Failure) (s : Scene σ) :
    (verdictOf limit (.error f) : Work σ Verdict) none s = (told limit f, s) := by
  dsimp only [verdictOf, told]
  cases errorOf limit f <;> rfl

theorem told_of_ordinary {f : Failure} {text : String} (hordinary : f.isTimeout = false)
    (htext : f.message = some text) : told limit f = .done (.error text) := by
  simp [told, errorOf, hordinary, htext]

private theorem told_of_timeout {f : Failure} (htimeout : f.isTimeout = true) :
    told limit f = .done (.error (limitText limit)) := by
  simp [told, errorOf, htimeout]

theorem told_of_unwritten {f : Failure} (hordinary : f.isTimeout = false)
    (htext : f.message = none) :
    told limit f = .failed .unwritable := by
  simp [told, errorOf, hordinary, htext]

theorem told_cases (limit : Option Limit) (f : Failure) :
    (∃ text, errorOf limit f = some text ∧ told limit f = .done (.error text)) ∨
      f.isTimeout = false ∧ f.message = none ∧ told limit f = .failed .unwritable := by
  cases htimeout : f.isTimeout with
  | true => exact .inl ⟨_, by simp [errorOf, htimeout], told_of_timeout htimeout⟩
  | false =>
      cases htext : f.message with
      | some text => exact .inl ⟨text, by simp [errorOf, htimeout, htext], told_of_ordinary htimeout htext⟩
      | none => exact .inr ⟨rfl, rfl, told_of_unwritten htimeout htext⟩

def passed (limit : Option Limit) (deadline : Option Instant) :
    Ending String × Scene σ → Ending Verdict × Scene σ
  | (.done text, s) => (.done (.ok text), s)
  | (.failed f, s) => (if f.isExit then .failed f else told limit f, s)
  | (.expired, s) => if deadline.isSome then (.done (.error (limitText limit)), s) else (.expired, s)

theorem passed_ending {x y : Ending String × Scene σ} (h : x.1 = y.1) {d d' : Option Instant}
    (hdue : d.isSome = d'.isSome) : (passed limit d x).1 = (passed limit d' y).1 := by
  obtain ⟨e, s⟩ := x
  obtain ⟨e', s'⟩ := y
  cases h
  cases e with
  | done text => rfl
  | failed f => rfl
  | expired => cases hown : d'.isSome <;> simp [passed, hdue, hown]

theorem judge_of_allowed (h : registry.get? call.name = some tool)
    (htime : allowance limit ≠ .nothing) (s : Scene σ) :
    judge registry limit call none s =
      passed limit (due limit s) (tool.invoke call.arguments (due limit s) s) := by
  rw [judge_of_tool h, limited_of_allowed htime]
  rcases tool.invoke call.arguments (due limit s) s with ⟨text | f | _, s'⟩
  · rfl
  · dsimp only [timely, passed]
    rw [verdictOf_error_apply]
    split <;> rfl
  · cases hdue : due limit s <;> rfl

private theorem judge_of_invoked (h : registry.get? call.name = some tool)
    (hinvoked : Invoked tool limit call.arguments s verdict s') :
    judge registry limit call none s = (.done verdict, s') := by
  cases hinvoked with
  | unstarted htime =>
      rw [judge_of_tool h, limited_of_nothing htime]
      rfl
  | malformed htime hdecode htext =>
      obtain ⟨hown, hordinary, -⟩ := ordinary_of_decodeArguments hdecode
      rw [judge_of_allowed h htime, Tool.invoke_of_malformed hdecode]
      simp [passed, hown, told_of_ordinary hordinary htext]
  | failed htime hdecode hrun hown hordinary htext =>
      rw [judge_of_allowed h htime, Tool.invoke_of_decoded hdecode, hrun]
      simp [passed, Tool.encoded, hown, told_of_ordinary hordinary htext]
  | timedOut htime hdecode hrun hown htimeout =>
      rw [judge_of_allowed h htime, Tool.invoke_of_decoded hdecode, hrun]
      simp [passed, Tool.encoded, hown, told_of_timeout htimeout]
  | late htime hdecode hrun hdue =>
      rw [judge_of_allowed h htime, Tool.invoke_of_decoded hdecode, hrun]
      simp [passed, Tool.encoded, hdue]
  | unencodable htime hdecode hrun hencode htext =>
      obtain ⟨hown, hordinary, -⟩ := ordinary_of_encodeResult hencode
      rw [judge_of_allowed h htime, Tool.invoke_of_decoded hdecode, hrun]
      simp [passed, Tool.encoded, hencode, hown, told_of_ordinary hordinary htext]
  | answered htime hdecode hrun hencode =>
      rw [judge_of_allowed h htime, Tool.invoke_of_decoded hdecode, hrun]
      simp [passed, Tool.encoded, hencode]

theorem judge_of_interrupted (h : registry.get? call.name = some tool) {e : Interruption}
    (hinterrupted : Interrupted tool limit call.arguments s e s') :
    judge registry limit call none s = (e.ending, s') := by
  cases hinterrupted with
  | cancelled htime hdecode hrun hcancelled =>
      rw [judge_of_allowed h htime, Tool.invoke_of_decoded hdecode, hrun]
      simp [passed, Tool.encoded, hcancelled, Interruption.ending]
  | unwritten htime hdecode hrun hown hordinary htext =>
      rw [judge_of_allowed h htime, Tool.invoke_of_decoded hdecode, hrun]
      simp [passed, Tool.encoded, hown, told_of_unwritten hordinary htext, Interruption.ending]
  | expired htime hdecode hrun hdue =>
      rw [judge_of_allowed h htime, Tool.invoke_of_decoded hdecode, hrun]
      simp [passed, Tool.encoded, hdue, Interruption.ending]

theorem Judged.judge_eq (h : Judged registry limit call s verdict s') :
    judge registry limit call none s = (.done verdict, s') := by
  cases h with
  | unknown hname => exact judge_of_unknown (Registry.get?_eq_none_iff.2 hname) s
  | invoked htool hinvoked => exact judge_of_invoked htool hinvoked

theorem Judged.unique (h : Judged registry limit call s verdict s') {verdict' : Verdict}
    {t : Scene σ} (hjudge : judge registry limit call none s = (.done verdict', t)) :
    verdict = verdict' ∧ s' = t := by
  rw [h.judge_eq] at hjudge
  cases hjudge
  exact ⟨rfl, rfl⟩

theorem invoked_or_interrupted (tool : Tool σ) (limit : Option Limit) (arguments : String)
    (s : Scene σ) : (∃ verdict s', Invoked tool limit arguments s verdict s') ∨
      ∃ e s', Interrupted tool limit arguments s e s' := by
  by_cases htime : allowance limit = .nothing
  · exact .inl ⟨_, _, .unstarted htime⟩
  · cases hdecode : decodeArguments tool.room tool.name arguments with
    | error f =>
        obtain ⟨-, -, text, htext⟩ := ordinary_of_decodeArguments hdecode
        exact .inl ⟨_, _, .malformed htime hdecode htext⟩
    | ok payload =>
        rcases hrun : tool.run (.dict payload) (due limit s) s with ⟨v | f | _, s'⟩
        · cases hencode : encodeResult v with
          | error f =>
              obtain ⟨-, -, text, htext⟩ := ordinary_of_encodeResult hencode
              exact .inl ⟨_, _, .unencodable htime hdecode hrun hencode htext⟩
          | ok text => exact .inl ⟨_, _, .answered htime hdecode hrun hencode⟩
        · cases hown : f.isExit with
          | true => exact .inr ⟨_, _, .cancelled htime hdecode hrun hown⟩
          | false =>
              cases htimeout : f.isTimeout with
              | false =>
                  cases htext : f.message with
                  | some text => exact .inl ⟨_, _, .failed htime hdecode hrun hown htimeout htext⟩
                  | none => exact .inr ⟨_, _, .unwritten htime hdecode hrun hown htimeout htext⟩
              | true => exact .inl ⟨_, _, .timedOut htime hdecode hrun hown htimeout⟩
        · cases hdue : due limit s with
          | none => exact .inr ⟨_, _, .expired htime hdecode hrun hdue⟩
          | some d => exact .inl ⟨_, _, .late htime hdecode hrun (by rw [hdue]; rfl)⟩

theorem judged_or_interrupted (registry : Registry σ) (limit : Option Limit) (call : ToolCall)
    (s : Scene σ) : (∃ verdict s', Judged registry limit call s verdict s') ∨
      ∃ tool e s', registry.get? call.name = some tool ∧
        Interrupted tool limit call.arguments s e s' := by
  cases htool : registry.get? call.name with
  | none => exact .inl ⟨_, _, .unknown (Registry.get?_eq_none_iff.1 htool)⟩
  | some tool =>
      rcases invoked_or_interrupted tool limit call.arguments s with
        ⟨verdict, s', hinvoked⟩ | ⟨e, s', hinterrupted⟩
      · exact .inl ⟨verdict, s', .invoked htool hinvoked⟩
      · exact .inr ⟨tool, e, s', rfl, hinterrupted⟩

end Execution

end ChatPipeline
