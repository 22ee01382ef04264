import ChatPipeline.Proofs.Checking
import ChatPipeline.Completion

/-!
# Messages told to a service and told back

A service is told a message and sends choices, each with a content that may be null and with calls
of any type.  `sentOf` reads what a message says to the service as such a choice.  Two things hold
together (`generate_retells`).  A service that sends back what an assistant message told it makes
the model answer with that message.  And whatever a service sends, it is told again with the next
request: every call of a function in its place, and nothing of the other calls.

Null and the empty text are one and the same content, and arguments that are null or empty become
the arguments of an empty object; nothing else is lost.
-/

namespace ChatPipeline

open ChatPipeline.Text ChatPipeline.Validation

namespace Completion

/-! ## What a service sends -/

structure SentCall where
  id : String
  type : String
  name : String
  arguments : Option String
  deriving DecidableEq, Repr

structure Sent where
  content : Option String
  calls : List SentCall
  deriving DecidableEq, Repr

def SentCall.offered (c : SentCall) : OfferedCall where
  id := .text c.id
  type := .text c.type
  name := .text c.name
  arguments := Value.ofOption .text c.arguments

def Sent.choice (s : Sent) : Choice where
  content := Value.ofOption .text s.content
  toolCalls := s.calls.map SentCall.offered

def textOr (default : String) (s : Option String) : String :=
  if s.getD "" = "" then default else s.getD ""

def SentCall.kept (c : SentCall) : ToolCall where
  id := c.id
  name := c.name
  arguments := textOr "\x7b\x7d" c.arguments

def SentCall.ofCall (c : ToolCall) : SentCall where
  id := c.id
  type := "function"
  name := c.name
  arguments := some c.arguments

def Sent.functions (s : Sent) : List SentCall := s.calls.filter (·.type == "function")

def Sent.Named (s : Sent) : Prop := ∀ c ∈ s.functions, c.name ≠ ""

/-! ## What a service is told -/

def sentCallOf (v : Value) : SentCall where
  id := v.partText "id"
  type := v.partText "type"
  name := (v.part "function").partText "name"
  arguments := ((v.part "function").part "arguments").text?

def sentOf (v : Value) : Sent where
  content := (v.part "content").text?
  calls := (v.parts "tool_calls").map sentCallOf

@[simp] theorem sentCallOf_encodeCall (c : ToolCall) :
    sentCallOf (encodeCall c) = SentCall.ofCall c := rfl

private theorem sentOf_encodeMessage (content : String) (calls : List ToolCall) :
    sentOf (encodeMessage (.assistant content calls)) =
      { content := if calls ≠ [] ∧ content = "" then none else some content
        calls := calls.map SentCall.ofCall } := by
  cases calls with
  | nil => simp [sentOf, encodeMessage, Message.assistant, Message.hasToolCalls, Value.parts,
      Value.part, Entries.get?, Table.lookup_cons, Value.text?]
  | cons call calls =>
      by_cases hcontent : content = "" <;>
        simp [sentOf, encodeMessage, Message.assistant, Message.hasToolCalls, Value.parts,
          Value.part, Entries.get?, Table.lookup_cons, Value.text?, hcontent, Function.comp_def]

/-! ## How it is decoded -/

theorem orText_ofOption (s : Option String) (default : String) :
    orText (Value.ofOption .text s) default = .text (textOr default s) := by
  cases s with
  | none => rfl
  | some s => by_cases hs : s = "" <;> simp [orText, Value.ofOption, Value.truthy, textOr, hs]

private theorem validate_call {name : String} (hname : name ≠ "") (id arguments : String) :
    ToolCall.validate
        (.dict [("id", .text id), ("name", .text name), ("arguments", .text arguments)]) =
      .ok { id, name, arguments } := by
  have hchecked : ToolCall.checkName (.text name) = .ok name := by
    change (if name.isEmpty then _ else Checked.ok name) = _
    rw [if_neg (by simpa using hname)]
  refine Checked.toOutcome_eq_ok.2 (Checked.seq_eq_ok.2 ⟨_, _, Checked.seq_eq_ok.2 ⟨_, _,
    Checked.seq_eq_ok.2 ⟨_, _, rfl, ?_, rfl⟩, rfl, rfl⟩, rfl, rfl⟩)
  exact Checked.under_eq_ok.2 hchecked

private theorem decodeCall_offered {c : SentCall} (hname : c.name ≠ "") :
    decodeCall c.offered = .ok c.kept := by
  unfold decodeCall
  dsimp only [SentCall.offered]
  rw [orText_ofOption]
  exact validate_call hname c.id _

private theorem compose_assistant (content : String) (calls : List ToolCall) :
    Message.compose .assistant [.text content, .tuple (calls.map .toolCall)] [] =
      .ok (.assistant content calls) := by
  have hcalls : Message.checkToolCalls (.tuple (calls.map .toolCall)) = .ok calls :=
    checkItemsFrom_map (f := Value.toolCall) (fun _ => rfl) calls 0
  refine Outcome.bind_eq_ok.2
    ⟨⟨[("content", .text content), ("tool_calls", .tuple (calls.map .toolCall))], []⟩, rfl, ?_⟩
  -- the role, the content, the calls, and two fields that are absent
  refine Checked.toOutcome_eq_ok.2 (Checked.seq_eq_ok.2 ⟨_, _, Checked.seq_eq_ok.2 ⟨_, _,
    Checked.seq_eq_ok.2 ⟨_, _, Checked.seq_eq_ok.2 ⟨_, _, rfl, rfl, rfl⟩, ?_, rfl⟩, rfl, rfl⟩,
    rfl, rfl⟩)
  exact Checked.under_eq_ok.2 hcalls

private theorem mapM_decodeCall {calls : List SentCall} (hnames : ∀ c ∈ calls, c.name ≠ "") :
    (calls.map SentCall.offered).mapM decodeCall = .ok (calls.map SentCall.kept) :=
  Outcome.mapM_map_eq_ok fun c hc => decodeCall_offered (hnames c hc)

def Sent.message (s : Sent) : Message :=
  .assistant (s.content.getD "") (s.functions.map SentCall.kept)

private theorem decodeChoice_choice {s : Sent} (hnamed : s.Named) :
    decodeChoice s.choice = .ok s.message := by
  have hfunctions : s.choice.toolCalls.filter isFunction = s.functions.map SentCall.offered := by
    simp only [Sent.choice, Sent.functions, List.filter_map]
    rfl
  have hcontent : orText s.choice.content "" = .text (s.content.getD "") := by
    rw [Sent.choice, orText_ofOption]
    by_cases h : s.content.getD "" = "" <;> simp [textOr, h]
  unfold decodeChoice
  rw [hfunctions, mapM_decodeCall hnamed, hcontent]
  exact compose_assistant _ _

/-! ## There and back -/

theorem textOr_getD_of_ne {s : String} (hs : s ≠ "") (default : String) :
    textOr default (some s) = s := by
  simp [textOr, hs]

private theorem kept_ofCall {c : ToolCall} (harguments : c.arguments ≠ "") :
    (SentCall.ofCall c).kept = c := by
  simp [SentCall.kept, SentCall.ofCall, textOr_getD_of_ne harguments]

/-- A message as an assistant gives it.  That calls have names is checked when they are made. -/
structure Told (m : Message) : Prop where
  role : m.role = .assistant
  toolCallId : m.toolCallId = none
  name : m.name = none
  calls_named : ∀ c ∈ m.toolCalls, c.name ≠ ""
  calls_given : ∀ c ∈ m.toolCalls, c.arguments ≠ ""

theorem Told.eq_assistant {m : Message} (h : Told m) : m = .assistant m.content m.toolCalls := by
  obtain ⟨role, content, calls, id, name⟩ := m
  cases h.role
  cases h.toolCallId
  cases h.name
  rfl

private theorem functions_ofCalls (content : Option String) (calls : List ToolCall) :
    ({ content, calls := calls.map SentCall.ofCall } : Sent).functions =
      calls.map SentCall.ofCall := by
  simp [Sent.functions, SentCall.ofCall]

private theorem decodeChoice_of_told {m : Message} (h : Told m) :
    decodeChoice (sentOf (encodeMessage m)).choice = .ok m := by
  have hkept : ∀ c ∈ m.toolCalls, (SentCall.kept ∘ SentCall.ofCall) c = c :=
    fun c hc => kept_ofCall (h.calls_given c hc)
  rw [h.eq_assistant, sentOf_encodeMessage, decodeChoice_choice]
  · rw [Sent.message, functions_ofCalls, List.map_map, List.map_congr_left hkept, List.map_id']
    split
    · rename_i hempty
      rw [hempty.2]
      rfl
    · rfl
  · rw [Sent.Named, functions_ofCalls, List.forall_mem_map]
    exact h.calls_named

/-- What is told again of a choice: the calls of functions, with the arguments that were kept. -/
def Sent.retold (s : Sent) : List SentCall :=
  s.functions.map fun c => { c with arguments := some (textOr "\x7b\x7d" c.arguments) }

private theorem sentOf_message (s : Sent) :
    (sentOf (encodeMessage s.message)).content.getD "" = s.content.getD "" ∧
      (sentOf (encodeMessage s.message)).calls = s.retold := by
  rw [Sent.message, sentOf_encodeMessage]
  constructor
  · dsimp only
    split
    · rename_i hempty
      exact hempty.2.symm
    · rfl
  · rw [Sent.retold, List.map_map]
    refine List.map_congr_left fun c hc => ?_
    have htype : c.type = "function" := by simpa using (List.mem_filter.1 hc).2
    simp only [Function.comp_apply, SentCall.ofCall, SentCall.kept, htype]

private theorem generate_of_decoded {model : String} {bound : List ToolInfo}
    {complete : Value → Work σ Completion} {messages : List Message}
    {tools : Option (List ToolInfo)} {deadline : Option Instant} {s s' : Scene σ} {choice : Choice}
    {more : List Choice} {m : Message}
    (hcomplete : complete (request model (tools.getD bound) messages) deadline s =
      (.done (choice :: more), s'))
    (hchoice : decodeChoice choice = .ok m) :
    (ChatModel.ofService model complete bound).generate messages tools deadline s =
      (.done (.message m), s') := by
  change (complete (request model (tools.getD bound) messages) >>= fun completion =>
    Work.ofOutcome (decode model completion) >>= fun reply =>
      pure (Value.message reply)) deadline s = _
  rw [Work.bind_apply, hcomplete]
  dsimp only [decode]
  rw [hchoice]
  rfl

/-! ## Requests and answers -/

/-- A model whose service sends back what it was told of an assistant message answers with that
message.  Whatever its service sends, the answer tells it again, less the calls of anything but
functions, and with arguments where there were none. -/
theorem generate_retells (model : String) (bound : List ToolInfo)
    (complete : Value → Work σ Completion) (messages : List Message)
    (tools : Option (List ToolInfo)) (deadline : Option Instant) (s s' : Scene σ)
    (more : List Choice) :
    (∀ m, Told m →
      complete (request model (tools.getD bound) messages) deadline s =
        (.done ((sentOf (encodeMessage m)).choice :: more), s') →
      (ChatModel.ofService model complete bound).generate messages tools deadline s =
        (.done (.message m), s')) ∧
    ∀ sent : Sent, sent.Named →
      complete (request model (tools.getD bound) messages) deadline s =
        (.done (sent.choice :: more), s') →
      ∃ reply, (ChatModel.ofService model complete bound).generate messages tools deadline s =
          (.done (.message reply), s') ∧
        (sentOf (encodeMessage reply)).content.getD "" = sent.content.getD "" ∧
        (sentOf (encodeMessage reply)).calls = sent.retold := by
  constructor
  · intro m hm hcomplete
    exact generate_of_decoded hcomplete (decodeChoice_of_told hm)
  · intro sent hnamed hcomplete
    exact ⟨sent.message, generate_of_decoded hcomplete (decodeChoice_choice hnamed),
      sentOf_message sent⟩

def askingWeather : Message :=
  .assistant "" [{ id := "call_1", name := "get_weather", arguments := "\x7b\"city\": \"Oslo\"\x7d" }]

def mixedCalls : Sent where
  content := none
  calls := [{ id := "call_1", type := "custom", name := "", arguments := none },
    { id := "call_2", type := "function", name := "get_weather", arguments := none }]

def sending (choice : Choice) (_ : Value) : Work Unit Completion := pure [choice]

theorem weather_retold :
    (ChatModel.ofService "m" (sending (sentOf (encodeMessage askingWeather)).choice)).generate
        [.user "hi"] none none { world := () } = (.done (.message askingWeather), { world := () }) ∧
      ∃ reply, (ChatModel.ofService "m" (sending mixedCalls.choice)).generate
          [.user "hi"] none none { world := () } = (.done (.message reply), { world := () }) ∧
        (sentOf (encodeMessage reply)).content.getD "" = "" ∧
        (sentOf (encodeMessage reply)).calls =
          [{ id := "call_2", type := "function", name := "get_weather", arguments := some "\x7b\x7d" }] := by
  constructor
  · exact (generate_retells "m" [] _ [.user "hi"] none none { world := () } { world := () } []).1
      askingWeather ⟨rfl, rfl, rfl, by decide, by decide⟩ rfl
  · exact (generate_retells "m" [] _ [.user "hi"] none none { world := () } { world := () } []).2
      mixedCalls (by unfold Sent.Named; decide) rfl

end Completion

end ChatPipeline
