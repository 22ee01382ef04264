import ChatPipeline.Value

/-!
# Kinds

The kinds of nodes, and the kinds of values that go from node to node.  Two kinds of values are
compatible if they are equal or one of them is unchecked.
-/

namespace ChatPipeline

inductive NodeKind where
  | template
  | model
  | tools
  | lambda
  deriving DecidableEq, Repr

namespace NodeKind

def name : NodeKind → String
  | .template => "template"
  | .model => "model"
  | .tools => "tools"
  | .lambda => "lambda"

def typeName : NodeKind → String
  | .template => "TemplateNode"
  | .model => "ModelNode"
  | .tools => "ToolsNode"
  | .lambda => "LambdaNode"

end NodeKind

inductive ValueKind where
  | bindings
  | messages
  | message
  | any
  deriving DecidableEq, Repr

namespace ValueKind

def all : List ValueKind := [.bindings, .messages, .message, .any]

def name : ValueKind → String
  | .bindings => "variables"
  | .messages => "messages"
  | .message => "message"
  | .any => "any"

def ofName? (s : String) : Option ValueKind := all.find? (·.name == s)

@[simp] theorem ofName?_name (k : ValueKind) : ofName? k.name = some k := by
  cases k <;> decide

def compatible (k l : ValueKind) : Bool := k = .any || l = .any || k = l

def holds (k : ValueKind) (v : Value) : Bool :=
  match k with
  | .any => true
  | .bindings => match v with
    | .dict _ => true
    | _ => false
  | .message => v.message?.isSome
  | .messages => v.messages?.isSome

@[simp] theorem holds_any (v : Value) : holds .any v = true := rfl

@[simp] theorem holds_ofMessages (ms : List Message) :
    holds .messages (Value.ofMessages ms) = true := by
  simp [holds]

end ValueKind

end ChatPipeline
