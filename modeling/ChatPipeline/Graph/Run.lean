import ChatPipeline.Graph.Wiring
import ChatPipeline.Graph.Record

/-!
# Running graphs

A compiled graph walks from the start to the end, one step at a time: at a name, the node of that
name runs; after a name, what follows it is found.  `step` takes one such step, `advance` takes
steps until the run is over, and `run` turns the ending into a record.  A failure is described where
it is made, so a run that would end with a failure that has no text leaves no record: it fails
itself.
-/

namespace ChatPipeline

open ChatPipeline.Text

structure CompiledGraph (σ : Type) where
  name : String
  nodes : List (String × Node σ)
  table : SuccessorTable σ
  maxSteps : Nat

def spareSteps : Nat := 10

/-- Checks a graph and fixes it in the form in which it runs.  Without a bound of its own a run may
take ten steps more than there are nodes. -/
def Graph.compile (g : Graph σ) (maxSteps : Option Int) : Outcome (CompiledGraph σ) := do
  let table ← g.checkWiring
  let bound := maxSteps.getD (g.nodes.length + spareSteps)
  if bound < 1 then throw (.wiring .boundTooSmall)
  return { name := g.name, nodes := g.nodes, table, maxSteps := bound.toNat }

def Graph.closed (g : Graph σ) : Graph σ := { g with compiled := true }

/-- Where a run stands: about to run the node of a name, or about to find what follows one. -/
inductive Stage where
  | at (name : String)
  | after (name : String)
  deriving DecidableEq, Repr

structure Invocation where
  stage : Stage
  value : Value
  path : List String := []

namespace CompiledGraph

def nodeNames (g : CompiledGraph σ) : List String := g.nodes.map Prod.fst

def display (g : CompiledGraph σ) : String :=
  "<CompiledGraph " ++ quoted g.name ++ " nodes=" ++ Failure.displayNames g.nodeNames ++ ">"

def successors (g : CompiledGraph σ) (name : String) : List String := g.table.targetsOf name

/-! ## Steps -/

def start (input : Value) : Invocation := { stage := .after startName, value := input }

/-- What a step comes to: the run goes on, it reached the end, or something to be described went
wrong on a path. -/
inductive StepResult where
  | going (i : Invocation)
  | reached (i : Invocation)
  | failed (path : List String) (f : Failure)

def enter (i : Invocation) (name : String) (node : Node σ) : Work σ StepResult := do
  let path := i.path ++ [name]
  match ← Work.attempt (node.call i.value) with
  | .ok v => return .going { stage := .after name, value := v, path }
  | .error f => return .failed path (.nodeFailed name f)

def choose (i : Invocation) (branch : Branch σ) : Work σ StepResult := do
  match ← branch.decide i.value with
  | .ok name => return .going { i with stage := .at name }
  | .error f => return .failed i.path f

def step (g : CompiledGraph σ) (i : Invocation) : Work σ StepResult :=
  match i.stage with
  | .at name =>
    if name = endName then return .reached i
    else if g.maxSteps ≤ i.path.length then return .failed i.path (.stepLimit g.maxSteps)
    else
      match g.nodes.lookup name with
      | some node => enter i name node
      | none => Work.fail (Graph.missingKey name)
  | .after name =>
    match g.table.lookup name with
    | some (.fixed dst) => return .going { i with stage := .at dst }
    | some (.routed branch) => choose i branch
    | none => Work.fail (Graph.missingKey name)

def advance (g : CompiledGraph σ) : Nat → Invocation → Work σ StepResult
  | 0, i => fun _ scene => (.done (.failed i.path (.stepLimit g.maxSteps)), scene)
  | fuel + 1, i => fun deadline scene =>
    match g.step i deadline scene with
    | (.done (.going i), scene) => advance g fuel i deadline scene
    | (.done r, scene) => (.done r, scene)
    | (.failed f, scene) => (.failed f, scene)
    | (.expired, scene) => (.expired, scene)

/-- Every node that runs takes two steps, and finding out that the run is over takes two more. -/
def stepBound (g : CompiledGraph σ) : Nat := 2 * g.maxSteps + 2

/-! ## Runs -/

def recordOf (r : RunRecord) (now : Timestamp) : StepResult → Outcome RunRecord
  | .reached i => .ok ({ r with path := i.path }.completed now i.value)
  | .going i => .ok { r with path := i.path }
  | .failed path f => { r with path }.failed now (some f)

def opened (g : CompiledGraph σ) (now : Instant) : RunRecord :=
  RunRecord.started { metadata := [("graph", .text g.name)] } (.ofInstant now)

def run (g : CompiledGraph σ) (input : Value) : Work σ RunRecord := do
  let started ← Work.clock
  let result ← g.advance g.stepBound (start input)
  let ended ← Work.clock
  recordOf (g.opened started) (.ofInstant ended) result

def invoke (g : CompiledGraph σ) (input : Value) : Work σ Value := do
  let r ← g.run input
  match r.exception with
  | some f => Work.fail f
  | none => return r.output

def invokeWithin (g : CompiledGraph σ) (duration : Nat) (input : Value) : Work σ Value := do
  match ← Work.within duration (g.invoke input) with
  | some v => return v
  | none => Work.fail (.raised .cancelled [])

/-! ## Frozen graphs -/

def frozenProperty (property : String) : Failure :=
  .fault .attribute ("property " ++ quoted property ++ " of 'CompiledGraph' object has no setter")

end CompiledGraph

end ChatPipeline
