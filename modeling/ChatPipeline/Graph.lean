import ChatPipeline.Graph.Edge
import ChatPipeline.Node

/-!
# Graphs under construction

A graph has named nodes, edges and branches.  Two names are reserved: the start, from which the
first edge leads to the first node, and the end.  Every operation either gives a new graph or fails
and leaves the old one as it was; a compiled graph takes no more additions.
-/

namespace ChatPipeline

open ChatPipeline.Text

def startName : String := "start"

def endName : String := "end"

def isReserved (name : String) : Bool := name == startName || name == endName

structure Graph (σ : Type) where
  name : String := "graph"
  inputKind : ValueKind := .bindings
  nodes : List (String × Node σ) := []
  edges : List Edge := []
  branches : List (Branch σ) := []
  compiled : Bool := false

namespace Graph

def nodeNames (g : Graph σ) : List String := g.nodes.map Prod.fst

def node? (g : Graph σ) (name : String) : Option (Node σ) := g.nodes.lookup name

def resolvable (g : Graph σ) (name : String) : Bool := g.nodeNames.contains name || isReserved name

def display (g : Graph σ) : String :=
  "<Graph " ++ quoted g.name ++ " nodes=" ++ Failure.displayNames g.nodeNames ++ ">"

/-! ## Building -/

def ensureOpen (g : Graph σ) : Outcome Unit :=
  if g.compiled then .error .compiled else .ok ()

def addNode (g : Graph σ) (name : String) (node : Node σ) : Outcome (Graph σ) := do
  g.ensureOpen
  if isReserved name || g.nodeNames.contains name then throw (.duplicateName name)
  return { g with nodes := g.nodes ++ [(name, node)] }

def refuseNode (g : Graph σ) (v : Value) : Outcome (Graph σ) := do
  g.ensureOpen
  throw (.fault .type ("expected a Node, got " ++ v.typeName))

def edgeContext (src dst : String) : String := "edge " ++ src ++ "→" ++ dst

def requireResolvable (g : Graph σ) (context : String) (name : String) : Outcome Unit :=
  if g.resolvable name then .ok () else .error (.unknownNode name context)

def addEdge (g : Graph σ) (src dst : String) : Outcome (Graph σ) := do
  g.ensureOpen
  if src = endName then throw (.wiring .edgeFromEnd)
  if dst = startName then throw (.wiring .edgeToStart)
  g.requireResolvable (edgeContext src dst) src
  g.requireResolvable (edgeContext src dst) dst
  return { g with edges := g.edges ++ [{ src, dst }] }

def requireTarget (g : Graph σ) (src target : String) : Outcome Unit := do
  if target = startName then throw (.wiring .branchToStart)
  g.requireResolvable ("branch target after " ++ quoted src) target

def addBranch (g : Graph σ) (src : String) (condition : Option (Value → Work σ Value))
    (targets : List String) : Outcome (Graph σ) := do
  g.ensureOpen
  match condition with
  | none => throw (.fault .type "branch condition must be callable")
  | some condition =>
    let branch := Branch.leading src condition targets
    if branch.targets.isEmpty then throw (.wiring (.branchWithoutTargets src))
    if src = endName then throw (.wiring .branchFromEnd)
    g.requireResolvable "branch source" src
    branch.targets.forM (g.requireTarget src)
    return { g with branches := g.branches ++ [branch] }

end Graph

end ChatPipeline
