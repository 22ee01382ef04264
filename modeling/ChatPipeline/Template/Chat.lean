import ChatPipeline.Template.Render
import ChatPipeline.Message.Validation

/-!
# Chat templates

A chat template is a list of message templates and placeholders.  Formatting renders the content of
each message template and puts the messages of a history in the place of a placeholder; the contents
of a history are never rendered.
-/

namespace ChatPipeline

open ChatPipeline.Text ChatPipeline.Validation

inductive TemplatePart where
  | message (m : Message)
  | placeholder (name : String) (isOptional : Bool)
  deriving DecidableEq, Repr

namespace TemplatePart

def checkPlaceholder (entries : Entries) : Checked TemplatePart :=
  TemplatePart.placeholder <$> required entries "name" checkText
    <*> optional entries "optional" false checkBool

def makePlaceholder (name isOptional : Value) : Outcome TemplatePart :=
  (checkPlaceholder [("name", name), ("optional", isOptional)]).toOutcome "MessagesPlaceholder"

def ofValue (v : Value) : Outcome TemplatePart :=
  match v with
  | .message m => .ok (.message m)
  | _ => .error (.telling .type (v.display.map fun text => "unsupported template part: " ++ text))

def variableNames : TemplatePart → Outcome (List String)
  | .message m => Template.variableNames m.content
  | .placeholder name _ => .ok [name]

def notAHistory (name : String) (v : Value) : Failure :=
  .fault .type ("placeholder " ++ quoted name ++ " expects a list of messages, got " ++ v.typeName)

def history (name : String) (v : Value) : Outcome (List Message) :=
  match v with
  | .message m => .ok [m]
  | .list items | .tuple items => items.mapM Message.validate
  | _ => .error (notAHistory name v)

def format (values : Entries) : TemplatePart → Outcome (List Message)
  | .message m => do
    let content ← Template.render values m.content
    return [{ m with content }]
  | .placeholder name isOptional =>
    match Entries.get? values name with
    | some .none | none => if isOptional then .ok [] else .error (.missingVariable name)
    | some v => history name v

end TemplatePart

structure ChatTemplate where
  parts : List TemplatePart := []
  deriving DecidableEq, Repr

namespace ChatTemplate

def addVariables (names : List String) (part : TemplatePart) : Outcome (List String) := do
  let found ← part.variableNames
  return Template.addNames names found

def inputVariables (t : ChatTemplate) : Outcome (List String) := t.parts.foldlM addVariables []

def format (t : ChatTemplate) (values : Entries) : Outcome (List Message) := do
  let groups ← t.parts.mapM (TemplatePart.format values)
  return groups.flatten

def formatSignature : Signature :=
  { name := "ChatTemplate.format", receiver := true, optional := [("variables", .none)], collects := true }

def variableEntries (v : Value) : Outcome Entries :=
  match v with
  | .dict entries => .ok entries
  | _ => if v.truthy then .error (.fault .type ("'" ++ v.typeName ++ "' object is not a mapping"))
    else .ok []

/-- Formats with a mapping and with values given by name, which win over the mapping. -/
def formatWith (t : ChatTemplate) (mapping : Option Value) (named : Entries) :
    Outcome (List Message) := do
  let (bound, collected) ← formatSignature.bind mapping.toList named
  let given ← variableEntries ((Entries.get? bound "variables").getD .none)
  t.format (given.override collected)

end ChatTemplate

end ChatPipeline
