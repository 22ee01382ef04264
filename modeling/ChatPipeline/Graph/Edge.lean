import ChatPipeline.Message.Validation
import ChatPipeline.Work

/-!
# Edges and branches

An edge fixes what follows a node.  A branch chooses it at run time: a condition names one of the
targets that the branch declares.  The targets are a set, kept in order.
-/

namespace ChatPipeline

open ChatPipeline.Text ChatPipeline.Validation

inductive LinkKind where
  | static
  | branch
  deriving DecidableEq, Repr

namespace LinkKind

def name : LinkKind → String
  | .static => "static"
  | .branch => "branch"

def enumeration : Enumeration where
  name := "EdgeKind"
  members := [("STATIC", .text "static"), ("BRANCH", .text "branch")]
  mixin := .text

def check : Check LinkKind := fun v =>
  (enumeration.check v).andThen fun member =>
    .ok (if member.text? = some "branch" then .branch else .static)

end LinkKind

structure Edge where
  kind : LinkKind := .static
  src : String
  dst : String
  deriving DecidableEq, Repr

/-- A condition leaves the value that it is shown as it was. -/
structure Branch (σ : Type) where
  kind : LinkKind := .branch
  src : String
  condition : Value → Work σ Value
  targets : List String

namespace Edge

def display (e : Edge) : String := "<" ++ e.kind.name ++ ":" ++ e.src ++ "→" ++ e.dst ++ ">"

def make (entries : Entries) : Outcome Edge :=
  ((fun kind src dst => { kind, src, dst })
    <$> optional entries "kind" .static LinkKind.check
    <*> required entries "src" checkText
    <*> required entries "dst" checkText).toOutcome "GraphEdge"

end Edge

namespace Branch

def leading (src : String) (condition : Value → Work σ Value) (targets : List String) : Branch σ :=
  { src, condition, targets := Failure.sortNames targets }

def display (b : Branch σ) : String :=
  "<" ++ b.kind.name ++ ":" ++ b.src ++ "→\x7b" ++ Value.commaSeparated b.targets ++ "\x7d>"

def checkTargets : Check (List String) := fun v =>
  match elements? v with
  | some items => checkItems checkText items
  | none => reject "frozen_set_type" "Input should be a valid frozenset" v

def checkCondition (condition : Except Value (Value → Work σ Value)) :
    Checked (Value → Work σ Value) :=
  match condition with
  | .ok f => .ok f
  | .error v => .issue ⟨["condition"], "Input should be callable", "callable_type", v⟩

def make (entries : Entries) (condition : Except Value (Value → Work σ Value)) :
    Outcome (Branch σ) :=
  ((fun kind src condition targets =>
      { kind, src, condition, targets := Failure.sortNames targets })
    <$> optional entries "kind" .branch LinkKind.check
    <*> required entries "src" checkText
    <*> checkCondition condition
    <*> required entries "targets" checkTargets).toOutcome "GraphBranch"

def route? (b : Branch σ) (choice : Value) : Option String :=
  choice.text?.filter b.targets.contains

def decide (b : Branch σ) (v : Value) : Work σ (Outcome String) := do
  match ← Work.attempt (b.condition v) with
  | .error f => return .error (.branchFailed b.src f)
  | .ok choice =>
    match b.route? choice with
    | some name => return .ok name
    | none => return .error (.invalidRoute b.src choice b.targets)

/-- The decision, for who asks the branch itself.  What is wrong with a choice is described at once,
which fails where the choice or the failure of the condition cannot be written. -/
def resolve (b : Branch σ) (v : Value) : Work σ String := do
  match ← b.decide v with
  | .ok name => return name
  | .error f => Work.fail f.made

end Branch

/-- Setting an attribute of an edge or a branch fails with the text of the report alone. -/
def frozenLink (type attributeName : String) (v : Value) : Failure :=
  .telling .type (frozenInstance type attributeName v).message

end ChatPipeline
