import ChatPipeline.Proofs.Sequencing
import ChatPipeline.Agent

/-!
# Recording the requests of an agent

What an agent asks its model is not part of what it returns.  A recorded agent works in a world with
a list of requests beside it: its model notes every request before it answers as it did, and its
tools do what they did.  Work that is silent leaves the list alone (`Silent`).  Everything an agent
does with its tools is silent, so the list holds the requests to the model and nothing else.
-/

namespace ChatPipeline

/-! ## Requests beside a world -/

structure Logged (σ : Type) where
  world : σ
  requests : List (List Message) := []

def Scene.logged (s : Scene σ) (requests : List (List Message)) : Scene (Logged σ) where
  now := s.now
  world := { world := s.world, requests }

def Work.beside (w : Work σ α) : Work (Logged σ) α := fun deadline scene =>
  let ended := w deadline { now := scene.now, world := scene.world.world }
  (ended.1, ended.2.logged scene.world.requests)

def Work.note (messages : List Message) : Work (Logged σ) Unit :=
  change fun l => { l with requests := l.requests ++ [messages] }

/-! ## Silent work -/

/-- Work that does what other work does and leaves the requests as they are. -/
def Silent (w : Work (Logged σ) α) (v : Work σ α) : Prop :=
  ∀ deadline s requests, w deadline (s.logged requests) =
    ((v deadline s).1, (v deadline s).2.logged requests)

namespace Silent

theorem apply_eq {w : Work (Logged σ) α} {v : Work σ α} (h : Silent w v) {deadline : Option Instant}
    {s s' : Scene σ} {ending : Ending α} (hv : v deadline s = (ending, s'))
    (requests : List (List Message)) :
    w deadline (s.logged requests) = (ending, s'.logged requests) := by
  rw [h, hv]

theorem beside (w : Work σ α) : Silent w.beside w := fun _ _ _ => rfl

theorem pure (a : α) : Silent (Pure.pure a : Work (Logged σ) α) (Pure.pure a : Work σ α) :=
  fun _ _ _ => rfl

theorem fail (f : Failure) : Silent (Work.fail f : Work (Logged σ) α) (Work.fail f) :=
  fun _ _ _ => rfl

theorem clock : Silent (Work.clock : Work (Logged σ) Instant) Work.clock :=
  fun _ _ _ => rfl

theorem ofOutcome (x : Outcome α) :
    Silent (Work.ofOutcome x : Work (Logged σ) α) (Work.ofOutcome x) := by
  cases x with
  | ok a => exact pure a
  | error f => exact fail f

theorem bind {w : Work (Logged σ) α} {v : Work σ α} {k : α → Work (Logged σ) β}
    {l : α → Work σ β} (hw : Silent w v) (hk : ∀ a, Silent (k a) (l a)) :
    Silent (w >>= k) (v >>= l) := by
  intro deadline s requests
  rw [Work.bind_apply, Work.bind_apply, hw]
  rcases v deadline s with ⟨a | f | _, s'⟩
  · exact hk a deadline s' requests
  · rfl
  · rfl

theorem attempt {w : Work (Logged σ) α} {v : Work σ α} (h : Silent w v) :
    Silent (Work.attempt w) (Work.attempt v) := by
  intro deadline s requests
  unfold Work.attempt
  rw [h]
  rcases v deadline s with ⟨a | f | _, s'⟩
  · rfl
  · cases hf : f.isExit <;> simp [hf]
  · rfl

theorem within {w : Work (Logged σ) α} {v : Work σ α} (h : Silent w v) (duration : Nat) :
    Silent (Work.within duration w) (Work.within duration v) := by
  intro deadline s requests
  unfold Work.within
  have hnow : (s.logged requests).now = s.now := rfl
  simp only [hnow, h (some (Work.earlier deadline (s.now + duration))) s requests]
  rcases v (some (Work.earlier deadline (s.now + duration))) s with ⟨a | f | _, s'⟩
  · rfl
  · rfl
  · cases deadline.any (· < s.now + duration) <;> rfl

theorem map {w : Work (Logged σ) α} {v : Work σ α} (h : Silent w v) (f : α → β) :
    Silent (f <$> w) (f <$> v) :=
  h.bind fun a => pure (f a)

theorem limit {w : Work (Logged σ) α} {v : Work σ α} (h : Silent w v) (l : Limit) :
    Silent (l.apply w) (l.apply v) := by
  unfold Limit.apply
  split
  · split
    · exact h.within _
    · exact h.map some
  · exact pure none

theorem each {f : α → Work (Logged σ) β} {g : α → Work σ β} (h : ∀ a, Silent (f a) (g a))
    (as : List α) : Silent (Work.each f as) (Work.each g as) := by
  induction as with
  | nil => exact pure []
  | cons a as ih =>
      refine (h a).bind fun b => ?_
      exact ih.bind fun bs => pure (b :: bs)

end Silent

/-! ## Recorded tools -/

def Tool.recorded (t : Tool σ) : Tool (Logged σ) where
  typeName := t.typeName
  name := t.name
  info? := t.info?
  run v := (t.run v).beside
  room := t.room

def Registry.recorded (r : Registry σ) : Registry (Logged σ) where
  entries := r.entries.map fun e => { info := e.info, tool := e.tool.recorded }

def ToolsNode.recorded (n : ToolsNode σ) : ToolsNode (Logged σ) where
  config := n.config
  registry := n.registry.recorded

theorem Registry.get?_recorded (r : Registry σ) (name : String) :
    r.recorded.get? name = (r.get? name).map Tool.recorded := by
  unfold Registry.get? Registry.find? Registry.recorded
  rw [List.find?_map, Option.map_map, Option.map_map]
  rfl

theorem Registry.contains_recorded (r : Registry σ) (name : String) :
    r.recorded.contains name = r.contains name := by
  unfold Registry.contains Registry.find? Registry.recorded
  rw [List.find?_map, Option.isSome_map]
  rfl

theorem Tool.silent_invoke (t : Tool σ) (arguments : String) :
    Silent (t.recorded.invoke arguments) (t.invoke arguments) := by
  refine (Silent.ofOutcome _).bind fun payload => ?_
  exact (Silent.beside _).bind fun result => Silent.ofOutcome _

namespace Execution

private theorem silent_limited {w : Work (Logged σ) α} {v : Work σ α} (h : Silent w v)
    (limit : Option Limit) : Silent (limited limit w) (limited limit v) := by
  unfold limited
  split
  · split
    · exact h.limit _
    · exact h.map some
  · exact h.map some

private theorem silent_judge (r : Registry σ) (limit : Option Limit) (call : ToolCall) :
    Silent (judge r.recorded limit call) (judge r limit call) := by
  unfold judge
  rw [Registry.get?_recorded]
  cases r.get? call.name with
  | none => exact Silent.pure _
  | some tool =>
      have hinvoke := silent_limited (tool.silent_invoke call.arguments) limit
      exact hinvoke.attempt.bind fun ending => Silent.ofOutcome _

private theorem silent_execute (r : Registry σ) (limit : Option Limit) (call : ToolCall) :
    Silent (execute r.recorded limit call) (execute r limit call) := by
  refine Silent.clock.bind fun started => ?_
  refine (silent_judge r limit call).bind fun verdict => ?_
  exact Silent.clock.bind fun ended => Silent.pure _

end Execution

theorem ToolsNode.silent_run (n : ToolsNode σ) (m : Message) :
    Silent (n.recorded.run m) (n.run m) := by
  have hunknown : n.recorded.firstUnknown? m.toolCalls = n.firstUnknown? m.toolCalls := by
    unfold firstUnknown?
    simp only [recorded, Registry.contains_recorded]
  unfold run
  rw [hunknown]
  cases n.firstUnknown? m.toolCalls with
  | some call => exact Silent.fail _
  | none =>
      have hexecute : Silent (n.recorded.execute m.toolCalls none) (n.execute m.toolCalls none) :=
        Silent.each (fun call => Execution.silent_execute _ _ call) m.toolCalls
      exact hexecute.bind fun results => Silent.ofOutcome _

/-! ## Recorded agents -/

def ChatModel.recorded (m : ChatModel σ) : ChatModel (Logged σ) where
  tools := m.tools
  ask tools messages := do
    Work.note messages
    (m.ask tools messages).beside

def Agent.recorded (a : Agent σ) : Agent (Logged σ) where
  model := a.model.recorded
  tools := a.tools.recorded
  maxSteps := a.maxSteps

theorem ChatModel.generate_recorded {m : ChatModel σ} {messages : List Message}
    {deadline : Option Instant} {s s' : Scene σ} {ending : Ending Value}
    (h : m.generate messages none deadline s = (ending, s')) (requests : List (List Message)) :
    m.recorded.generate messages none deadline (s.logged requests) =
      (ending, s'.logged (requests ++ [messages])) :=
  (Silent.beside (m.generate messages)).apply_eq h (requests ++ [messages])

def Agent.requests (a : Agent σ) (messages : List Message) (deadline : Option Instant)
    (opening : Scene σ) : List (List Message) :=
  (a.recorded.generate messages deadline (opening.logged [])).2.world.requests

end ChatPipeline
