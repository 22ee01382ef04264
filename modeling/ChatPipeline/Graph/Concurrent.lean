import ChatPipeline.Graph.Run

/-!
# Runs side by side

Several inputs run through one graph at the same time.  They share the world and nothing else: each
run has a time of its own, and a step is never interrupted.  The run that is earliest in time takes
the next step.  It goes on for as long as its steps take no time; after one that does, it waits
behind the runs that are no later.
-/

namespace ChatPipeline.CompiledGraph

/-- A run in progress, with its place among the inputs and its own time. -/
structure Turn where
  place : Nat
  record : RunRecord
  invocation : Invocation
  time : Instant

def enqueue (t : Turn) : List Turn → List Turn
  | [] => [t]
  | u :: queue => if t.time < u.time then t :: u :: queue else u :: enqueue t queue

theorem enqueue_perm (t : Turn) (queue : List Turn) : (enqueue t queue).Perm (t :: queue) := by
  induction queue with
  | nil => exact .refl _
  | cons u queue ih =>
    simp only [enqueue]
    split
    · exact .refl _
    · exact (ih.cons u).trans (.swap t u queue)

def resume (t : Turn) (i : Invocation) (now : Instant) (queue : List Turn) : List Turn :=
  let later := { t with invocation := i, time := now }
  if now = t.time then later :: queue else enqueue later queue

/-- Lets the runs of a queue take turns until all are over.  A run that ended gives its record,
under its place. -/
def takeTurns (g : CompiledGraph σ) : Nat → List Turn → Work σ (List (Nat × RunRecord))
  | 0, _ => Work.pure []
  | _, [] => Work.pure []
  | fuel + 1, t :: queue => fun deadline scene =>
    let (ending, after) := g.step t.invocation deadline { scene with now := t.time }
    let latest := { after with now := max scene.now after.now }
    match ending with
    | .done (.going i) => takeTurns g fuel (resume t i after.now queue) deadline latest
    | .done r =>
      match recordOf t.record (.ofInstant after.now) r with
      | .ok record =>
        Work.bind (takeTurns g fuel queue) (fun records => Work.pure ((t.place, record) :: records))
          deadline latest
      | .error f => (.failed f, latest)
    | .failed f => (.failed f, latest)
    | .expired => (.expired, latest)

def gather (g : CompiledGraph σ) (inputs : List Value) : Work σ (List RunRecord) := do
  let now ← Work.clock
  let turns := inputs.zipIdx.map fun (input, place) =>
    { place, record := g.opened now, invocation := start input, time := now : Turn }
  let records ← g.takeTurns (inputs.length * g.stepBound) turns
  return (List.range inputs.length).filterMap fun place => records.lookup place

end ChatPipeline.CompiledGraph
