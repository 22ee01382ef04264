import ChatPipeline.Proofs.Agent.Conversation

/-!
# Agents and their bounds

The bound of an agent only says when it gives up.  It makes the requests of a conversation up to its
bound, with the history so far in each; it returns the first reply without calls, and fails where a
request or a batch of tools fails or where the bound is used up.  Under a larger bound it holds the
same conversation, or goes on where it gave up (`generate_converses`).
-/

namespace ChatPipeline.Agent

variable {model : ChatModel σ} {tools : ToolsNode σ} {deadline : Option Instant}
  {messages : List Message} {opening s s' : Scene σ} {rounds : List Round} {ending : Ending Message}
  {a : Agent σ}

/-! ## One request after the other -/

theorem rounds_of_reply {left : Nat} {reply : Message}
    (hreply : a.model.generate messages none deadline s = (.done (.message reply), s')) :
    a.rounds (left + 1) messages deadline s =
      (if reply.toolCalls = [] then pure reply
        else a.tools.run reply >>= fun ms => a.rounds left (messages ++ [reply] ++ ms) :
          Work σ Message) deadline s' := by
  rw [Agent.rounds, Work.bind_apply, hreply]
  change (if reply.hasToolCalls then _ else _ : Work σ Message) deadline s' = _
  cases hcalls : reply.toolCalls <;> simp [Message.hasToolCalls, hcalls]

private theorem rounds_of_conversed (h : Conversed a.model a.tools deadline messages opening rounds s)
    {n : Nat} (hlength : rounds.length ≤ n) :
    a.rounds n messages deadline opening =
      a.rounds (n - rounds.length) (history messages rounds) deadline s := by
  induction h with
  | opened =>
      rw [history_nil]
      rfl
  | @round rounds s reply between ms s' _ hreply hcalls hanswers ih =>
      rw [List.length_append, List.length_singleton] at hlength ⊢
      have hsucc : n - rounds.length = n - (rounds.length + 1) + 1 := by omega
      rw [ih (by omega), hsucc, rounds_of_reply hreply, if_neg hcalls, Work.bind_apply, hanswers,
        history_concat]

private theorem rounds_of_concludes (h : Concludes a.model a.tools deadline messages rounds s ending s')
    (left : Nat) :
    a.rounds (left + 1) (history messages rounds) deadline s = (ending, s') := by
  cases h with
  | answered hreply hcalls =>
      rw [rounds_of_reply hreply, if_pos hcalls]
      rfl
  | modelFailed hreply => rw [Agent.rounds, Work.bind_apply, hreply]
  | modelExpired hreply => rw [Agent.rounds, Work.bind_apply, hreply]
  | notMessage hreply hother =>
      rw [Agent.rounds, Work.bind_apply, hreply]
      change (Work.ofOutcome (ChatModel.replyMessage _) >>= _) deadline s' = _
      rw [Work.bind_apply, hother]
      rfl
  | toolsFailed hreply hcalls hbatch =>
      rw [rounds_of_reply hreply, if_neg hcalls, Work.bind_apply, hbatch]
  | toolsExpired hreply hcalls hbatch =>
      rw [rounds_of_reply hreply, if_neg hcalls, Work.bind_apply, hbatch]

def bounded (a : Agent σ) (maxSteps : Nat) : Agent σ := { a with maxSteps }

/-- The conversation is over after some rounds: the agent gives up, or the next request concludes
it. -/
def Over (a : Agent σ) (messages : List Message) (deadline : Option Instant) (rounds : List Round)
    (s : Scene σ) : Prop :=
  rounds.length = a.maxSteps ∨ rounds.length < a.maxSteps ∧
    ∃ ending s', Concludes a.model a.tools deadline messages rounds s ending s'

theorem exists_over (a : Agent σ) (messages : List Message) (deadline : Option Instant)
    (opening : Scene σ) :
    ∃ rounds s, Conversed a.model a.tools deadline messages opening rounds s ∧
      a.Over messages deadline rounds s :=
  Conversed.opened.continues a.maxSteps

section

variable (hmessages : messages ≠ [])
  (hconversed : Conversed a.model a.tools deadline messages opening rounds s)

include hmessages hconversed

theorem generate_of_concludes (hlength : rounds.length < a.maxSteps)
    (hconcludes : Concludes a.model a.tools deadline messages rounds s ending s') :
    a.generate messages deadline opening = (ending, s') := by
  have hleft : a.maxSteps - rounds.length = a.maxSteps - rounds.length - 1 + 1 := by omega
  rw [generate, if_neg (by simpa using hmessages), rounds_of_conversed hconversed (by omega), hleft,
    rounds_of_concludes hconcludes]

theorem generate_of_gaveUp (hlength : rounds.length = a.maxSteps) :
    a.generate messages deadline opening = (.failed (.stepLimit a.maxSteps), s) := by
  rw [generate, if_neg (by simpa using hmessages), rounds_of_conversed hconversed (by omega),
    hlength, Nat.sub_self]
  rfl

private theorem generate_eq_done_iff (hover : a.Over messages deadline rounds s) {reply : Message} :
    a.generate messages deadline opening = (.done reply, s') ↔
      rounds.length < a.maxSteps ∧
        a.model.generate (history messages rounds) none deadline s =
            (.done (.message reply), s') ∧
          reply.toolCalls = [] := by
  constructor
  · intro h
    rcases hover with hlength | ⟨hlength, ending, after, hconcludes⟩
    · rw [generate_of_gaveUp hmessages hconversed hlength] at h
      cases h
    · rw [generate_of_concludes hmessages hconversed hlength hconcludes] at h
      cases h
      cases hconcludes with
      | answered hreply hcalls => exact ⟨hlength, hreply, hcalls⟩
  · rintro ⟨hlength, hreply, hcalls⟩
    exact generate_of_concludes hmessages hconversed hlength (.answered hreply hcalls)

private theorem generate_eq_failed_iff (hover : a.Over messages deadline rounds s) {f : Failure} :
    a.generate messages deadline opening = (.failed f, s') ↔
      (rounds.length = a.maxSteps ∧ f = .stepLimit a.maxSteps ∧ s' = s) ∨
        (rounds.length < a.maxSteps ∧
          Concludes a.model a.tools deadline messages rounds s (.failed f) s') := by
  constructor
  · intro h
    rcases hover with hlength | ⟨hlength, ending, after, hconcludes⟩
    · rw [generate_of_gaveUp hmessages hconversed hlength] at h
      cases h
      exact .inl ⟨hlength, rfl, rfl⟩
    · rw [generate_of_concludes hmessages hconversed hlength hconcludes] at h
      cases h
      exact .inr ⟨hlength, hconcludes⟩
  · rintro (⟨hlength, rfl, rfl⟩ | ⟨hlength, hconcludes⟩)
    · exact generate_of_gaveUp hmessages hconversed hlength
    · exact generate_of_concludes hmessages hconversed hlength hconcludes

/-! ## Requests -/

theorem recorded_of_concludes (hlength : rounds.length < a.maxSteps)
    (hconcludes : Concludes a.model a.tools deadline messages rounds s ending s') :
    a.recorded.generate messages deadline (opening.logged []) =
      (ending, s'.logged (asked messages rounds ++ [history messages rounds])) :=
  generate_of_concludes (a := a.recorded) hmessages (hconversed.recorded []) hlength
    (hconcludes.recorded _)

private theorem recorded_of_gaveUp (hlength : rounds.length = a.maxSteps) :
    a.recorded.generate messages deadline (opening.logged []) =
      (.failed (.stepLimit a.maxSteps), s.logged (asked messages rounds)) :=
  generate_of_gaveUp (a := a.recorded) hmessages (hconversed.recorded []) hlength

private theorem requests_of_concludes (hlength : rounds.length < a.maxSteps)
    (hconcludes : Concludes a.model a.tools deadline messages rounds s ending s') :
    a.requests messages deadline opening =
      asked messages rounds ++ [history messages rounds] := by
  rw [requests, recorded_of_concludes hmessages hconversed hlength hconcludes]
  rfl

private theorem requests_of_gaveUp (hlength : rounds.length = a.maxSteps) :
    a.requests messages deadline opening = asked messages rounds := by
  rw [requests, recorded_of_gaveUp hmessages hconversed hlength]
  rfl

private theorem recorded_generate (hover : a.Over messages deadline rounds s) :
    a.recorded.generate messages deadline (opening.logged []) =
      ((a.generate messages deadline opening).1,
        (a.generate messages deadline opening).2.logged
          (a.requests messages deadline opening)) := by
  rcases hover with hlength | ⟨hlength, ending, s', hconcludes⟩
  · rw [recorded_of_gaveUp hmessages hconversed hlength,
      requests_of_gaveUp hmessages hconversed hlength,
      generate_of_gaveUp hmessages hconversed hlength]
  · rw [recorded_of_concludes hmessages hconversed hlength hconcludes,
      requests_of_concludes hmessages hconversed hlength hconcludes,
      generate_of_concludes hmessages hconversed hlength hconcludes]

private theorem requests_of_over (hover : a.Over messages deadline rounds s) :
    a.requests messages deadline opening =
      (List.range (min (rounds.length + 1) a.maxSteps)).map fun k =>
        history messages (rounds.take k) := by
  rcases hover with hlength | ⟨hlength, ending, s', hconcludes⟩
  · rw [requests_of_gaveUp hmessages hconversed hlength, ← hlength, Nat.min_eq_right (by omega)]
    rfl
  · rw [requests_of_concludes hmessages hconversed hlength hconcludes, Nat.min_eq_left (by omega),
      List.range_succ, List.map_append, List.map_singleton, List.take_length]
    rfl

/-! ## Larger bounds -/

theorem bounded_of_concludes (hlength : rounds.length < a.maxSteps)
    (hconcludes : Concludes a.model a.tools deadline messages rounds s ending s') {more : Nat}
    (hmore : a.maxSteps ≤ more) :
    (a.bounded more).requests messages deadline opening = a.requests messages deadline opening ∧
      (a.bounded more).generate messages deadline opening =
        a.generate messages deadline opening := by
  have hlonger : rounds.length < (a.bounded more).maxSteps := Nat.lt_of_lt_of_le hlength hmore
  rw [generate_of_concludes hmessages hconversed hlength hconcludes,
    requests_of_concludes hmessages hconversed hlength hconcludes]
  exact ⟨requests_of_concludes (a := a.bounded more) hmessages hconversed hlonger hconcludes,
    generate_of_concludes (a := a.bounded more) hmessages hconversed hlonger hconcludes⟩

private theorem bounded_of_gaveUp (hlength : rounds.length = a.maxSteps) {more : Nat}
    (hmore : a.maxSteps ≤ more) :
    a.requests messages deadline opening <+:
      (a.bounded more).requests messages deadline opening := by
  rw [requests_of_gaveUp hmessages hconversed hlength]
  obtain ⟨rest, s', hrest, hfull | ⟨hshort, ending, s'', hconcludes⟩⟩ :=
    hconversed.continues (more - a.maxSteps)
  · have hlonger : (rounds ++ rest).length = (a.bounded more).maxSteps := by
      rw [List.length_append, hlength, hfull]
      exact Nat.add_sub_of_le hmore
    rw [requests_of_gaveUp (a := a.bounded more) hmessages hrest hlonger]
    exact asked_append messages rounds rest
  · have hlonger : (rounds ++ rest).length < (a.bounded more).maxSteps := by
      rw [List.length_append, hlength]
      exact Nat.add_lt_of_lt_sub' hshort
    rw [requests_of_concludes (a := a.bounded more) hmessages hrest hlonger hconcludes]
    exact (asked_append messages rounds rest).trans (List.prefix_append ..)

end

/-! ## Whole conversations -/

/-- What an agent does with some messages, where `rounds` are those that it gets through. -/
structure Converses (a : Agent σ) (messages : List Message) (deadline : Option Instant)
    (opening : Scene σ) (rounds : List Round) (s : Scene σ) : Prop where
  conversed : Conversed a.model a.tools deadline messages opening rounds s
  recorded : a.recorded.generate messages deadline (opening.logged []) =
    ((a.generate messages deadline opening).1,
      (a.generate messages deadline opening).2.logged (a.requests messages deadline opening))
  answered : ∀ r ∈ rounds, r.reply.toolCalls ≠ [] ∧ r.Answered
  length_le : rounds.length ≤ a.maxSteps
  requests_eq : a.requests messages deadline opening =
    (List.range (min (rounds.length + 1) a.maxSteps)).map fun k => history messages (rounds.take k)
  requests_le : (a.requests messages deadline opening).length ≤ a.maxSteps
  returns_iff : ∀ reply s', a.generate messages deadline opening = (.done reply, s') ↔
    rounds.length < a.maxSteps ∧
      a.model.generate (history messages rounds) none deadline s = (.done (.message reply), s') ∧
        reply.toolCalls = []
  fails_iff : ∀ f s', a.generate messages deadline opening = (.failed f, s') ↔
    (rounds.length = a.maxSteps ∧ f = .stepLimit a.maxSteps ∧ s' = s) ∨
      (rounds.length < a.maxSteps ∧
        Concludes a.model a.tools deadline messages rounds s (.failed f) s')
  longer_extends : ∀ more, a.maxSteps ≤ more →
    a.requests messages deadline opening <+: (a.bounded more).requests messages deadline opening
  longer_same : ∀ more, a.maxSteps ≤ more → rounds.length < a.maxSteps →
    (a.bounded more).requests messages deadline opening = a.requests messages deadline opening ∧
      (a.bounded more).generate messages deadline opening = a.generate messages deadline opening

theorem generate_converses (a : Agent σ) (messages : List Message) (hmessages : messages ≠ [])
    (deadline : Option Instant) (opening : Scene σ) :
    ∃ rounds s, a.Converses messages deadline opening rounds s := by
  obtain ⟨rounds, s, hconversed, hover⟩ := a.exists_over messages deadline opening
  refine ⟨rounds, s, ?_⟩
  exact {
    conversed := hconversed
    recorded := recorded_generate hmessages hconversed hover
    answered := hconversed.answered
    length_le := by
      rcases hover with hlength | ⟨hlength, -⟩ <;> omega
    requests_eq := requests_of_over hmessages hconversed hover
    requests_le := by
      rw [requests_of_over hmessages hconversed hover, List.length_map, List.length_range]
      exact Nat.min_le_right ..
    returns_iff := fun _ _ => generate_eq_done_iff hmessages hconversed hover
    fails_iff := fun _ _ => generate_eq_failed_iff hmessages hconversed hover
    longer_extends := by
      intro more hmore
      rcases hover with hlength | ⟨hlength, ending, s', hconcludes⟩
      · exact bounded_of_gaveUp hmessages hconversed hlength hmore
      · have hsame := (bounded_of_concludes hmessages hconversed hlength hconcludes hmore).1
        exact ⟨[], by rw [List.append_nil, hsame]⟩
    longer_same := by
      intro more hmore hlength
      rcases hover with hfull | ⟨-, ending, s', hconcludes⟩
      · omega
      · exact bounded_of_concludes hmessages hconversed hlength hconcludes hmore }

/-! ### An agent with a door -/

def door : Tool Unit where
  typeName := "Door"
  name := "door"
  info? := none
  run _ := pure (.bool true)

def doorCall : ToolCall := { id := "call_1", name := "door", arguments := "" }

def porter : Agent Unit where
  model :=
    { ask := fun _ messages => pure <| .message <|
        if messages.length = 1 then .assistant "" [doorCall] else .assistant "It is open." }
  tools := { registry := { entries := [{ info := { name := "door" }, tool := door }] } }
  maxSteps := 12

theorem porter_converses :
    [Message.user "Is the door open?"] ≠ [] ∧
      (∃ rounds s, porter.Converses [.user "Is the door open?"] none { world := () } rounds s) ∧
      porter.requests [.user "Is the door open?"] none { world := () } =
        [[.user "Is the door open?"],
          [.user "Is the door open?", .assistant "" [doorCall],
            .tool "true" "call_1" (some "door")]] := by
  have hmessages : [Message.user "Is the door open?"] ≠ [] := by simp
  exact ⟨hmessages, generate_converses porter _ hmessages none { world := () }, rfl⟩

end ChatPipeline.Agent
