import ChatPipeline.Assistant
import ChatPipeline.Proofs.Graph.Acceptance
import ChatPipeline.Proofs.Graph.Iteration
import ChatPipeline.Proofs.Template.Rendering
import ChatPipeline.Proofs.Tool.Answering
import ChatPipeline.Proofs.Tool.Stock

/-!
# How a run of the assistant ends

A run formats the question and makes one request.  `ComesTo` has one rule for each way in which it
may end from there: the service fails, its answer cannot be decoded, the model answers by itself,
the tools are asked and the answer of the first one is the output, or there is no tool of some name.
Whatever a service answers, and whatever it fails with for a reason that it can tell, a run ends in
exactly one of these ways (`ends_in_one_way`), so no variable is missed, no choice goes astray, the
converter always gets a message, and no run is stopped by its bound.  What asks for the end of all
work is no such reason, and no record is made of it (`exit_unrecorded`).
-/

namespace ChatPipeline

open ChatPipeline.Text ChatPipeline.Validation CompiledGraph Execution

/-! ## Failures -/

namespace Completion

inductive Refusal : Failure → Prop where
  | empty (text : String) : Refusal (.emptyResponse text)
  | invalid (report : Report) : Refusal (.invalid report)

theorem Refusal.isExit_eq_false (h : Refusal f) : f.isExit = false := by
  cases h <;> rfl

theorem Refusal.message_ne_none (h : Refusal f) : f.message ≠ none := by
  cases h <;> exact nofun

private theorem decode_failsAs (name : String) (completion : Completion) :
    (decode name completion).FailsAs Refusal := by
  unfold decode
  split
  · unfold decodeChoice
    refine (Outcome.FailsAs.mapM (fun _ => ?_) _).bind fun calls => ?_
    · exact Checked.failsAs_toOutcome .invalid _ _
    · exact Checked.failsAs_toOutcome .invalid _ _
  · exact .error (.empty _)

end Completion

namespace Assistant

variable {name : String} {complete : Value → Work σ Completion} {n : ToolsNode σ}

/-! ## The graph -/

def wired (model : ChatModel σ) (n : ToolsNode σ) : Graph σ where
  name := "ask"
  nodes := [("node_template", .template template),
    ("node_model", .model (model.withTools n.toolInfos)), ("node_tools", .tools n),
    ("node_converter", .lambda Transform.takeFirst .messages .message)]
  edges := [{ src := startName, dst := "node_template" },
    { src := "node_template", dst := "node_model" },
    { src := "node_tools", dst := "node_converter" }, { src := "node_converter", dst := endName }]
  branches :=
    [{ src := "node_model", condition := toTools, targets := [endName, "node_tools"] }]

def pipeline (model : ChatModel σ) (n : ToolsNode σ) : CompiledGraph σ where
  name := "ask"
  nodes := (wired model n).nodes
  table := (wired model n).successorTable
  maxSteps := 14

def conversation (question : String) : List Message :=
  [.system systemPrompt, .user ("question: " ++ question)]

private theorem render_systemPrompt (values : Entries) :
    Template.render values systemPrompt = .ok systemPrompt := by
  have hplain : '{' ∉ systemPrompt.toList ∧ '}' ∉ systemPrompt.toList := by
    unfold systemPrompt
    rw [String.toList_append, String.toList_append, String.toList_append, String.toList_append]
    decide +kernel
  exact Template.render_of_plain (Template.pieces_of_plain hplain.1 hplain.2) values

private theorem render_question (question : String) :
    Template.render [("question", .text question)] "question: \x7bquestion\x7d" =
      .ok ("question: " ++ question) := by
  have hpieces : Template.pieces "question: \x7bquestion\x7d".toList =
      ("question: ".toList.map .literal ++ [.field { name := "question".toList }], none) := by cbv
  have hnames : Template.variableNames "question: \x7bquestion\x7d" = .ok ["question"] := by cbv
  have hmissing : Template.firstMissing? [("question", .text question)] ["question"] = none := by
    simp [Template.firstMissing?, Entries.contains, Entries.get?]
  have hfield : ∀ ofSpec, Template.expandField ofSpec [("question", .text question)]
      { name := "question".toList } = .ok question := fun _ => rfl
  rw [Template.render_of_pieces hnames hmissing hpieces, Template.expandPieces_literals]
  simp only [Template.expandPieces, hfield, Except.map, bind, Except.bind, pure, Except.pure,
    List.append_nil]
  rw [← String.toList_append, String.ofList_toList]

private theorem format_template (question : String) :
    template.format [("question", .text question)] = .ok (conversation question) := by
  have hsystem : TemplatePart.format [("question", .text question)]
      (.message (.system systemPrompt)) = .ok [.system systemPrompt] := by
    simp only [TemplatePart.format, Message.system, render_systemPrompt]
    rfl
  have huser : TemplatePart.format [("question", .text question)]
      (.message (.user "question: \x7bquestion\x7d")) = .ok [.user ("question: " ++ question)] := by
    simp only [TemplatePart.format, Message.user, render_question]
    rfl
  unfold ChatTemplate.format template
  rw [List.mapM_cons, hsystem, List.mapM_cons, List.mapM_cons, huser]
  rfl

def input (question : String) : Value := .dict [("question", .text question)]

def request (name : String) (n : ToolsNode σ) (question : String) : Value :=
  Completion.request name n.toolInfos (conversation question)

/-! ## The nodes -/

theorem call_template {t : ChatTemplate} {entries : Entries} {messages : List Message}
    (h : t.format entries = .ok messages) (s : Scene σ) :
    (Node.template t).call (.dict entries) none s = (.done (.ofMessages messages), s) := by
  have hcall : (Node.template t : Node σ).call (.dict entries) =
      (Work.ofOutcome (t.format entries) >>= fun messages =>
        pure (.ofMessages messages)) := rfl
  rw [hcall, h]
  rfl

private theorem conversation_ofMessages (messages : List Message) :
    ChatModel.conversation (.ofMessages messages) = .ok messages := by
  have hmessages : ChatModel.conversation (.ofMessages messages) = .ok (messages.map id) :=
    Outcome.mapM_map_eq_ok fun _ _ => rfl
  rw [hmessages, List.map_id]

def replied (name : String) : Ending Completion × Scene σ → Ending Value × Scene σ
  | (.done completion, s) => match Completion.decode name completion with
    | .ok reply => (.done (.message reply), s)
    | .error f => (.failed f, s)
  | (.failed f, s) => (.failed f, s)
  | (.expired, s) => (.expired, s)

private theorem call_model (messages : List Message) (infos : List ToolInfo) (s : Scene σ) :
    (Node.model ((ChatModel.ofService name complete).withTools infos)).call
        (.ofMessages messages) none s =
      replied name (complete (Completion.request name infos messages) none s) := by
  have hcall : (Node.model ((ChatModel.ofService name complete).withTools infos)).call
      (.ofMessages messages) =
        (Work.ofOutcome (ChatModel.conversation (.ofMessages messages)) >>= fun messages =>
          (complete (Completion.request name infos messages) >>= fun completion =>
            Work.ofOutcome (Completion.decode name completion) >>= fun reply =>
              pure (Value.message reply)) >>= fun reply =>
            Work.ofOutcome (ChatModel.replyMessage reply) >>= fun message =>
              pure (Value.message message)) := by
    unfold Node.call
    rw [Node.inputKind, ValueKind.holds_ofMessages, if_pos rfl]
    rfl
  rw [hcall, conversation_ofMessages]
  rcases hasked : complete (Completion.request name infos messages) none s with
    ⟨completion | f | _, s'⟩
  · cases hdecode : Completion.decode name completion with
    | error f =>
        simp only [Work.bind_apply, Work.ofOutcome, Work.pure, Work.fail, hasked, hdecode, replied]
    | ok reply =>
        simp only [Work.bind_apply, Work.ofOutcome, Work.pure, hasked, hdecode, replied]
        rfl
  · simp only [Work.bind_apply, Work.ofOutcome, Work.pure, hasked, replied]
  · simp only [Work.bind_apply, Work.ofOutcome, Work.pure, hasked, replied]

private theorem call_tools (reply : Message) (s : Scene σ) :
    (Node.tools n).call (.message reply) none s =
      (n.run reply >>= fun messages => pure (.ofMessages messages)) none s := rfl

private theorem call_tools_of_known {reply : Message} {call : ToolCall} {calls : List ToolCall}
    {verdict : Verdict} {verdicts : List Verdict} {s s' : Scene σ} (hconfig : n.config = {})
    (hcalls : reply.toolCalls = call :: calls)
    (hknown : ∀ c ∈ call :: calls, c.name ∈ n.registry.names)
    (hinvoked : InvokedInTurn n.registry none s (call :: calls) (verdict :: verdicts) s') :
    (Node.tools n).call (.message reply) none s =
      (.done (.ofMessages (report call verdict :: List.zipWith report calls verdicts)), s') := by
  have hanswered : n.Answered reply s (verdict :: verdicts) s' := by
    rw [← hcalls] at hknown hinvoked
    refine ToolsNode.answered_of_invokedInTurn hknown ?_
    rw [hconfig]
    exact hinvoked
  have hrun := hanswered.reported (.inl (by rw [hconfig]))
  rw [call_tools, Work.bind_apply, hrun, hcalls]
  rfl

private theorem call_tools_of_unknown {reply : Message} {call : ToolCall}
    {before after : List ToolCall}
    (hcalls : reply.toolCalls = before ++ call :: after)
    (hbefore : ∀ c ∈ before, c.name ∈ n.registry.names) (hcall : call.name ∉ n.registry.names)
    (s : Scene σ) :
    (Node.tools n).call (.message reply) none s = (.failed (.unknownTool call.name), s) := by
  have hrun : n.run reply = Work.fail (.unknownTool call.name) := by
    unfold ToolsNode.run
    rw [hcalls, ToolsNode.firstUnknown?_eq_some hbefore hcall]
  rw [call_tools, Work.bind_apply, hrun]
  rfl

private theorem call_converter (m : Message) (messages : List Message) (s : Scene σ) :
    (Node.lambda Transform.takeFirst .messages .message : Node σ).call
      (.ofMessages (m :: messages)) none s = (.done (.message m), s) := by
  unfold Node.call
  rw [Node.inputKind, ValueKind.holds_ofMessages, if_pos rfl]
  rfl

private theorem toTools_message (reply : Message) (s : Scene σ) :
    toTools (.message reply) none s =
      (.done (.text (if reply.toolCalls = [] then endName else "node_tools")), s) := by
  have hfield : Value.getAttribute (.message reply) "tool_calls" =
      .ok (.tuple (reply.toolCalls.map .toolCall)) := by
    simp [Value.getAttribute, Value.attribute?, Value.messageFields, Entries.get?, Table.lookup_cons]
  have htest : Transform.asksForTools (.message reply) = .ok (!reply.toolCalls.isEmpty) := by
    unfold Transform.asksForTools
    rw [hfield]
    simp [Except.map, Value.truthy]
  unfold toTools Transform.choose Transform.ofFunction
  simp only [htest]
  cases reply.toolCalls <;> rfl

/-! ## A run -/

/-- What a run can come to: it is for the service to say, and for the tools if it asks for them. -/
inductive ComesTo (name : String) (complete : Value → Work σ Completion) (n : ToolsNode σ)
    (question : String) (opening : Scene σ) : Finish → Scene σ → Prop where
  | unanswered (hasked : complete (request name n question) none opening = (.failed f, s)) :
      ComesTo name complete n question opening
        (.failed ["node_template", "node_model"] (.nodeFailed "node_model" f)) s
  | undecodable (hasked : complete (request name n question) none opening = (.done completion, s))
      (hdecode : Completion.decode name completion = .error f) :
      ComesTo name complete n question opening
        (.failed ["node_template", "node_model"] (.nodeFailed "node_model" f)) s
  | answered (hasked : complete (request name n question) none opening = (.done completion, s))
      (hdecode : Completion.decode name completion = .ok reply) (hcalls : reply.toolCalls = []) :
      ComesTo name complete n question opening
        (.completed ["node_template", "node_model"] (.message reply)) s
  | helped (hasked : complete (request name n question) none opening = (.done completion, s))
      (hdecode : Completion.decode name completion = .ok reply)
      (hcalls : reply.toolCalls = call :: calls)
      (hknown : ∀ c ∈ call :: calls, c.name ∈ n.registry.names)
      (hinvoked : InvokedInTurn n.registry none s (call :: calls) (verdict :: verdicts) s') :
      ComesTo name complete n question opening
        (.completed ["node_template", "node_model", "node_tools", "node_converter"]
          (.message (report call verdict))) s'
  | lost (hasked : complete (request name n question) none opening = (.done completion, s))
      (hdecode : Completion.decode name completion = .ok reply)
      (hcalls : reply.toolCalls = before ++ call :: after)
      (hbefore : ∀ c ∈ before, c.name ∈ n.registry.names) (hcall : call.name ∉ n.registry.names) :
      ComesTo name complete n question opening
        (.failed ["node_template", "node_model", "node_tools"]
          (.nodeFailed "node_tools" (.unknownTool call.name))) s

variable {question : String} {opening s s' : Scene σ} {reply : Message}

private theorem leaves_template (model : ChatModel σ) (n : ToolsNode σ) (question : String)
    (opening : Scene σ) : (pipeline model n).Leaves none (input question) opening ["node_template"]
      (.ofMessages (conversation question)) opening := by
  have hroute : (pipeline model n).Routes none startName (input question) opening
      (.ok "node_template") opening := .edge rfl
  exact .next .start hroute (by decide) rfl (call_template (format_template question) opening)

private theorem leaves_model {completion : Completion}
    (hasked : complete (request name n question) none opening = (.done completion, s))
    (hdecode : Completion.decode name completion = .ok reply) :
    (pipeline (ChatModel.ofService name complete) n).Leaves none (input question) opening
      ["node_template", "node_model"] (.message reply) s := by
  refine (leaves_template _ n question opening).next (.edge rfl) (by decide) rfl ?_
  rw [call_model, ← request, hasked]
  simp only [replied, hdecode]

/-- The service answers, or fails for a reason of its own that it can tell. -/
def Accountable (asked : Ending Completion) : Prop :=
  asked.Settled ∧ ∀ f, asked = .failed f → f.message ≠ none

private theorem run_of_model_failed {f : Failure}
    (hcall : replied name (complete (request name n question) none opening) = (.failed f, s))
    (hown : f.isExit = false) :
    ∃ ending, (pipeline (ChatModel.ofService name complete) n).run (input question) none opening =
        (ending, s) ∧
      (Finish.failed ["node_template", "node_model"] (.nodeFailed "node_model" f)).ShownBy ending := by
  have hbelow : 1 < (pipeline (ChatModel.ofService name complete) n).maxSteps := by
    simp [pipeline]
  refine (leaves_template _ n question opening).fails hbelow (.edge rfl) (by decide) rfl ?_ hown
  rw [call_model]
  exact hcall

private theorem routes_to_end (model : ChatModel σ) (n : ToolsNode σ)
    (hcalls : reply.toolCalls = []) :
    (pipeline model n).Routes none "node_model" (.message reply) s (.ok endName) s := by
  refine .branch rfl (toTools_message reply s) ?_ List.mem_cons_self
  rw [if_pos hcalls]
  rfl

private theorem routes_to_tools (model : ChatModel σ) (n : ToolsNode σ)
    (hcalls : reply.toolCalls ≠ []) :
    (pipeline model n).Routes none "node_model" (.message reply) s (.ok "node_tools") s := by
  refine .branch rfl (toTools_message reply s) ?_ (List.mem_cons_of_mem _ List.mem_cons_self)
  rw [if_neg hcalls]
  rfl

theorem ComesTo.told {e : Finish} {after : Scene σ}
    (haccountable : Accountable (complete (request name n question) none opening).1)
    (h : ComesTo name complete n question opening e after) :
    ∀ path f, e = .failed path f → f.message ≠ none := by
  intro path failure hfailed
  have hmodel {f : Failure} (hf : f.message ≠ none) : (Failure.nodeFailed "node_model" f).message ≠ none := by
    rw [Failure.message]
    simpa using hf
  cases h with
  | unanswered hasked =>
      obtain ⟨-, rfl⟩ := Finish.failed.inj hfailed
      exact hmodel (haccountable.2 _ (by rw [hasked]))
  | undecodable hasked hdecode =>
      obtain ⟨-, rfl⟩ := Finish.failed.inj hfailed
      exact hmodel ((Completion.decode_failsAs name _).of_error hdecode).message_ne_none
  | answered => cases hfailed
  | helped => cases hfailed
  | lost =>
      obtain ⟨-, rfl⟩ := Finish.failed.inj hfailed
      simp [Failure.message]

theorem ComesTo.run_eq {e : Finish} {after : Scene σ} (hconfig : n.config = {})
    (haccountable : Accountable (complete (request name n question) none opening).1)
    (h : ComesTo name complete n question opening e after) :
    ∃ r, (pipeline (ChatModel.ofService name complete) n).run (input question) none opening =
      (.done r, after) ∧ e.ShownBy (.done r) := by
  have hends : ∃ ending, (pipeline (ChatModel.ofService name complete) n).run (input question) none
      opening = (ending, after) ∧ e.ShownBy ending := by
    cases h with
    | unanswered hasked =>
        refine run_of_model_failed ?_ (haccountable.1.of_eq hasked)
        rw [hasked, replied]
    | undecodable hasked hdecode =>
        have hrefused := (Completion.decode_failsAs name _).of_error hdecode
        refine run_of_model_failed ?_ hrefused.isExit_eq_false
        rw [hasked]
        simp only [replied, hdecode]
    | answered hasked hdecode hcalls =>
        refine (leaves_model hasked hdecode).completes ?_ (routes_to_end _ _ hcalls)
        simp [pipeline]
    | helped hasked hdecode hcalls hknown hinvoked =>
        have hsome := hcalls.trans_ne (List.cons_ne_nil _ _)
        have htools := call_tools_of_known hconfig hcalls hknown hinvoked
        have hleft := (leaves_model hasked hdecode).next (routes_to_tools _ n hsome) (by decide) rfl
          htools
        have hconverted := hleft.next (.edge rfl) (by decide) rfl (call_converter _ _ _)
        refine hconverted.completes ?_ (.edge rfl)
        simp [pipeline]
    | lost hasked hdecode hcalls hbefore hcall =>
        have hsome := hcalls.trans_ne (List.append_ne_nil_of_right_ne_nil _ (List.cons_ne_nil _ _))
        refine (leaves_model hasked hdecode).fails ?_ (routes_to_tools _ n hsome) (by decide) rfl ?_ rfl
        · simp [pipeline]
        · exact call_tools_of_unknown hcalls hbefore hcall _
  obtain ⟨ending, hrun, hshown⟩ := hends
  obtain ⟨r, rfl⟩ := hshown.exists_record (h.told haccountable)
  exact ⟨r, hrun, hshown⟩

end Assistant
end ChatPipeline
