import ChatPipeline.Proofs.Agent.Recording

/-!
# The conversation of an agent

A round of a conversation is a reply that asks for tools, together with the answers of the tools.
The request that follows some rounds carries the messages of the caller and everything that was said
since (`history`).  How a conversation goes on is a matter of the model and the tools alone: rounds
are added (`Conversed`) until a request comes to something else (`Concludes`).  Recorded, a
conversation goes the same way and leaves the requests behind.
-/

namespace ChatPipeline

/-! ## Rounds -/

structure Round where
  reply : Message
  answers : List Message

/-- One tool message for each call, in the order of the calls, with the identifier and the name of
the call. -/
def Round.Answered (r : Round) : Prop :=
  r.answers.map (fun m => (m.role, m.toolCallId, m.name)) =
    r.reply.toolCalls.map fun call => (Role.tool, some call.id, some call.name)

def history (messages : List Message) (rounds : List Round) : List Message :=
  messages ++ rounds.flatMap fun r => r.reply :: r.answers

theorem history_nil (messages : List Message) : history messages [] = messages :=
  List.append_nil messages

theorem history_concat (messages : List Message) (rounds : List Round) (r : Round) :
    history messages (rounds ++ [r]) = history messages rounds ++ [r.reply] ++ r.answers := by
  simp [history]

def asked (messages : List Message) (rounds : List Round) : List (List Message) :=
  (List.range rounds.length).map fun k => history messages (rounds.take k)

private theorem asked_eq (messages : List Message) (rounds more : List Round) :
    asked messages rounds =
      (List.range rounds.length).map fun k => history messages ((rounds ++ more).take k) := by
  refine List.map_congr_left fun k hk => ?_
  have hle : k ≤ rounds.length := Nat.le_of_lt (List.mem_range.1 hk)
  rw [List.take_append_of_le_length hle]

theorem asked_append (messages : List Message) (rounds more : List Round) :
    asked messages rounds <+: asked messages (rounds ++ more) := by
  rw [asked_eq messages rounds more]
  unfold asked
  rw [List.length_append, List.range_add, List.map_append]
  exact List.prefix_append ..

private theorem asked_concat (messages : List Message) (rounds : List Round) (r : Round) :
    asked messages (rounds ++ [r]) = asked messages rounds ++ [history messages rounds] := by
  rw [asked_eq messages rounds [r]]
  unfold asked
  rw [List.length_append, List.length_singleton, List.range_succ, List.map_append,
    List.map_singleton, List.take_left]

/-! ## Tool batches -/

theorem Work.length_of_each {f : α → Work σ β} {as : List α} {deadline : Option Instant}
    {s s' : Scene σ} {bs : List β} (h : Work.each f as deadline s = (.done bs, s')) :
    bs.length = as.length := by
  induction as generalizing s bs with
  | nil =>
      cases h
      rfl
  | cons a as ih =>
      obtain ⟨b, between, -, hrest⟩ := Work.bind_eq_done.1 h
      obtain ⟨bs', after, htail, hlast⟩ := Work.bind_eq_done.1 hrest
      cases hlast
      rw [List.length_cons, List.length_cons, ih htail]

theorem ToolsNode.answer_eq_ok {config : ToolsConfig} {call : ToolCall} {r : ToolResult}
    {m : Message}
    (h : answer config call r = .ok m) :
    (m.role, m.toolCallId, m.name) = (Role.tool, some call.id, some call.name) := by
  unfold answer at h
  split at h
  · cases h
    rfl
  · split at h
    · cases h
    · cases h
      rfl

theorem ToolsNode.answers_eq_ok {config : ToolsConfig} {calls : List ToolCall}
    {results : List ToolResult} {ms : List Message} (hlength : results.length = calls.length)
    (h : answers config calls results = .ok ms) :
    ms.map (fun m => (m.role, m.toolCallId, m.name)) =
      calls.map fun call => (Role.tool, some call.id, some call.name) := by
  induction calls generalizing results ms with
  | nil =>
      cases results with
      | nil =>
          cases h
          rfl
      | cons r results => simp at hlength
  | cons call calls ih =>
      cases results with
      | nil => simp at hlength
      | cons r results =>
          simp only [answers, Outcome.bind_eq_ok, Outcome.pure_eq_ok] at h
          obtain ⟨m, hm, rest, hrest, rfl⟩ := h
          have htail := ih (by simpa using hlength) hrest
          rw [List.map_cons, List.map_cons, htail, answer_eq_ok hm]

theorem ToolsNode.answered_of_run {n : ToolsNode σ} {reply : Message} {deadline : Option Instant}
    {s s' : Scene σ} {ms : List Message} (h : n.run reply deadline s = (.done ms, s')) :
    Round.Answered { reply, answers := ms } := by
  unfold run at h
  cases hunknown : n.firstUnknown? reply.toolCalls with
  | some call =>
      rw [hunknown] at h
      cases h
  | none =>
      rw [hunknown] at h
      obtain ⟨results, between, hresults, hanswers⟩ := Work.bind_eq_done.1 h
      obtain ⟨hanswers, -⟩ := Work.ofOutcome_eq_done.1 hanswers
      exact answers_eq_ok (Work.length_of_each hresults) hanswers

/-! ## Conversations -/

section

variable (model : ChatModel σ) (tools : ToolsNode σ) (deadline : Option Instant)
  (messages : List Message)

/-- The model replied with calls and the tools answered them, round after round. -/
inductive Conversed (opening : Scene σ) : List Round → Scene σ → Prop where
  | opened : Conversed opening [] opening
  | round (hbefore : Conversed opening rounds s)
      (hreply : model.generate (history messages rounds) none deadline s =
        (.done (.message reply), between))
      (hcalls : reply.toolCalls ≠ []) (hanswers : tools.run reply deadline between = (.done ms, s')) :
      Conversed opening (rounds ++ [{ reply, answers := ms }]) s'

/-- What the request after some rounds comes to, where no further round comes of it. -/
inductive Concludes (rounds : List Round) (s : Scene σ) : Ending Message → Scene σ → Prop where
  | answered
      (hreply : model.generate (history messages rounds) none deadline s =
        (.done (.message reply), s'))
      (hcalls : reply.toolCalls = []) : Concludes rounds s (.done reply) s'
  | modelFailed
      (hreply : model.generate (history messages rounds) none deadline s = (.failed f, s')) :
      Concludes rounds s (.failed f) s'
  | modelExpired
      (hreply : model.generate (history messages rounds) none deadline s = (.expired, s')) :
      Concludes rounds s .expired s'
  | notMessage (hreply : model.generate (history messages rounds) none deadline s = (.done v, s'))
      (hother : ChatModel.replyMessage v = .error f) : Concludes rounds s (.failed f) s'
  | toolsFailed
      (hreply : model.generate (history messages rounds) none deadline s =
        (.done (.message reply), between))
      (hcalls : reply.toolCalls ≠ []) (hbatch : tools.run reply deadline between = (.failed f, s')) :
      Concludes rounds s (.failed f) s'
  | toolsExpired
      (hreply : model.generate (history messages rounds) none deadline s =
        (.done (.message reply), between))
      (hcalls : reply.toolCalls ≠ []) (hbatch : tools.run reply deadline between = (.expired, s')) :
      Concludes rounds s .expired s'

end

variable {model : ChatModel σ} {tools : ToolsNode σ} {deadline : Option Instant}
  {messages : List Message} {opening s s' : Scene σ} {rounds : List Round} {ending : Ending Message}

theorem Conversed.next (h : Conversed model tools deadline messages opening rounds s) :
    (∃ ending s', Concludes model tools deadline messages rounds s ending s') ∨
      ∃ r s', Conversed model tools deadline messages opening (rounds ++ [r]) s' := by
  rcases hreply : model.generate (history messages rounds) none deadline s with ⟨v | f | _, between⟩
  · cases hmessage : ChatModel.replyMessage v with
    | error f => exact .inl ⟨_, _, .notMessage hreply hmessage⟩
    | ok reply =>
        have hv : v = .message reply := by
          unfold ChatModel.replyMessage at hmessage
          split at hmessage
          · cases hmessage
            rfl
          · cases hmessage
        subst hv
        by_cases hcalls : reply.toolCalls = []
        · exact .inl ⟨_, _, .answered hreply hcalls⟩
        · rcases hbatch : tools.run reply deadline between with ⟨ms | f | _, s'⟩
          · exact .inr ⟨_, _, .round h hreply hcalls hbatch⟩
          · exact .inl ⟨_, _, .toolsFailed hreply hcalls hbatch⟩
          · exact .inl ⟨_, _, .toolsExpired hreply hcalls hbatch⟩
  · exact .inl ⟨_, _, .modelFailed hreply⟩
  · exact .inl ⟨_, _, .modelExpired hreply⟩

theorem Conversed.continues (h : Conversed model tools deadline messages opening rounds s)
    (n : Nat) :
    ∃ more s', Conversed model tools deadline messages opening (rounds ++ more) s' ∧
      (more.length = n ∨ more.length < n ∧
        ∃ ending s'', Concludes model tools deadline messages (rounds ++ more) s' ending s'') := by
  induction n with
  | zero => exact ⟨[], s, by simpa using h, .inl rfl⟩
  | succ n ih =>
      obtain ⟨more, s', hmore, hfull | ⟨hshort, hconcluded⟩⟩ := ih
      · rcases hmore.next with hconcluded | ⟨r, s'', hround⟩
        · exact ⟨more, s', hmore, .inr ⟨by omega, hconcluded⟩⟩
        · refine ⟨more ++ [r], s'', by simpa using hround, .inl ?_⟩
          simp [hfull]
      · exact ⟨more, s', hmore, .inr ⟨by omega, hconcluded⟩⟩

theorem Conversed.answered (h : Conversed model tools deadline messages opening rounds s) :
    ∀ r ∈ rounds, r.reply.toolCalls ≠ [] ∧ r.Answered := by
  induction h with
  | opened => simp
  | round _ _ hcalls hanswers ih =>
      intro r hr
      rcases List.mem_append.1 hr with hold | hnew
      · exact ih r hold
      · cases List.mem_singleton.1 hnew
        exact ⟨hcalls, ToolsNode.answered_of_run hanswers⟩

/-! ## Recorded conversations -/

theorem Conversed.recorded (h : Conversed model tools deadline messages opening rounds s)
    (requests : List (List Message)) :
    Conversed model.recorded tools.recorded deadline messages (opening.logged requests) rounds
      (s.logged (requests ++ asked messages rounds)) := by
  induction h with
  | opened => simpa [asked] using Conversed.opened
  | round _ hreply hcalls hanswers ih =>
      rw [asked_concat, ← List.append_assoc]
      have hnoted := ChatModel.generate_recorded hreply
      have hsilent := (tools.silent_run _).apply_eq hanswers
      exact .round ih (hnoted _) hcalls (hsilent _)

theorem Concludes.recorded (h : Concludes model tools deadline messages rounds s ending s')
    (requests : List (List Message)) :
    Concludes model.recorded tools.recorded deadline messages rounds (s.logged requests) ending
      (s'.logged (requests ++ [history messages rounds])) := by
  cases h with
  | answered hreply hcalls => exact .answered (ChatModel.generate_recorded hreply _) hcalls
  | modelFailed hreply => exact .modelFailed (ChatModel.generate_recorded hreply _)
  | modelExpired hreply => exact .modelExpired (ChatModel.generate_recorded hreply _)
  | notMessage hreply hother => exact .notMessage (ChatModel.generate_recorded hreply _) hother
  | toolsFailed hreply hcalls hbatch =>
      exact .toolsFailed (ChatModel.generate_recorded hreply _) hcalls
        ((tools.silent_run _).apply_eq hbatch _)
  | toolsExpired hreply hcalls hbatch =>
      exact .toolsExpired (ChatModel.generate_recorded hreply _) hcalls
        ((tools.silent_run _).apply_eq hbatch _)

end ChatPipeline
