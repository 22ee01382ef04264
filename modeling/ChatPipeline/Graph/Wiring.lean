import ChatPipeline.Graph

/-!
# Wiring

Before a graph can run, its wiring is checked: every end of a connection is known, there is a way in
and a way out, every source has exactly one edge or branch, everything can be reached from the
start, and the kinds of values fit along every connection.  The first defect in this order is
reported.
-/

namespace ChatPipeline

open ChatPipeline.Text

inductive Successor (σ : Type) where
  | fixed (dst : String)
  | routed (branch : Branch σ)

def Successor.targets : Successor σ → List String
  | .fixed dst => [dst]
  | .routed branch => branch.targets

abbrev SuccessorTable (σ : Type) := List (String × Successor σ)

namespace SuccessorTable

def targetsOf (table : SuccessorTable σ) (name : String) : List String :=
  match table.lookup name with
  | some successor => successor.targets
  | none => []

/-! ## Reachability -/

/-- Goes through a queue of names that were seen; what follows them and is new joins the queue. -/
def visit (table : SuccessorTable σ) : Nat → List String → List String → List String
  | 0, seen, _ => seen
  | _, seen, [] => seen
  | fuel + 1, seen, current :: queue =>
    let fresh := ((table.targetsOf current).filter fun n => !seen.contains n).eraseDups
    visit table fuel (seen ++ fresh) (queue ++ fresh)

/-- Each visit takes one name from the queue, and only targets ever join it. -/
def visitBound (table : SuccessorTable σ) : Nat :=
  (table.flatMap fun (_, s) => s.targets).length + 1

def reachable (table : SuccessorTable σ) : List String :=
  visit table (visitBound table + 1) [startName] [startName]

end SuccessorTable

namespace Graph

def sources (g : Graph σ) : List String := g.edges.map (·.src) ++ g.branches.map (·.src)

def targets (g : Graph σ) : List String := g.edges.map (·.dst) ++ g.branches.flatMap (·.targets)

def successorTable (g : Graph σ) : SuccessorTable σ :=
  g.edges.map (fun e => (e.src, .fixed e.dst)) ++ g.branches.map (fun b => (b.src, .routed b))

/-! ## Defects -/

def edgeEndpoint? (g : Graph σ) (e : Edge) : Option Failure :=
  [e.src, e.dst].findSome? fun n =>
    if g.resolvable n then none else some (.unknownNode n (edgeContext e.src e.dst))

def branchEndpoint? (g : Graph σ) (b : Branch σ) : Option Failure :=
  (b.src :: b.targets).findSome? fun n =>
    if g.resolvable n then none else some (.unknownNode n ("branch after " ++ quoted b.src))

def unknownEndpoint? (g : Graph σ) : Option Failure :=
  (g.edges.findSome? g.edgeEndpoint?).or (g.branches.findSome? g.branchEndpoint?)

def entryDefect? (g : Graph σ) : Option WiringDefect :=
  if g.sources.contains startName then none else some .noEntry

def exitDefect? (g : Graph σ) : Option WiringDefect :=
  if g.targets.contains endName then none else some .noExit

def firstRepeated? : List String → List String → Option String
  | _, [] => none
  | seen, n :: rest => if seen.contains n then some n else firstRepeated? (seen ++ [n]) rest

def edgeConflict? (g : Graph σ) : Option WiringDefect :=
  (firstRepeated? [] (g.edges.map (·.src))).map .twoEdges

def branchConflict? (g : Graph σ) : Option WiringDefect :=
  let edgeSources := g.edges.map (·.src)
  (firstRepeated? edgeSources (g.branches.map (·.src))).map fun src =>
    if edgeSources.contains src then .edgeAndBranch src else .twoBranches src

def deadEnd? (g : Graph σ) : Option WiringDefect :=
  (g.nodeNames.find? fun n => !g.sources.contains n).map .noSuccessor

def unreachable? (g : Graph σ) : Option WiringDefect :=
  let reachable := g.successorTable.reachable
  ((g.nodeNames.find? fun n => !reachable.contains n).map WiringDefect.unreachable).or
    (if reachable.contains endName then none else some .endUnreachable)

def wiringDefect? (g : Graph σ) : Option WiringDefect :=
  g.entryDefect?.or <| g.exitDefect?.or <| g.edgeConflict?.or <| g.branchConflict?.or <|
    g.deadEnd?.or g.unreachable?

/-! ## Kinds along connections -/

def missingKey (name : String) : Failure := .raised .key [.text name]

def lookUp (g : Graph σ) (name : String) : Outcome (Node σ) :=
  match g.node? name with
  | some n => .ok n
  | none => .error (missingKey name)

def producedKind (g : Graph σ) (src : String) : Outcome ValueKind :=
  if src = startName then .ok g.inputKind else (g.lookUp src).map Node.outputKind

def checkConnection (g : Graph σ) (src : String) (produced : ValueKind) (dst : String) :
    Outcome Unit :=
  if dst = endName then .ok ()
  else do
    let node ← g.lookUp dst
    if produced.compatible node.inputKind then return ()
    else throw (.wiring (.incompatible src produced.name dst node.inputKind.name))

def checkSuccessor (g : Graph σ) (entry : String × Successor σ) : Outcome Unit := do
  let produced ← g.producedKind entry.1
  entry.2.targets.forM (g.checkConnection entry.1 produced)

/-! ## Checking -/

def checkWiring (g : Graph σ) : Outcome (SuccessorTable σ) :=
  match g.unknownEndpoint? with
  | some f => .error f
  | none =>
    match g.wiringDefect? with
    | some defect => .error (.wiring defect)
    | none => do
      g.successorTable.forM g.checkSuccessor
      return g.successorTable

end Graph

end ChatPipeline
