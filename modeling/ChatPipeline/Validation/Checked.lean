import ChatPipeline.Failure

/-!
# Checked results

A check either gives a result or a list of issues.  Checks of independent parts are combined with
`<*>`, which keeps the issues of both sides in order, so that one report shows everything at once.
-/

namespace ChatPipeline.Validation

def Checked (α : Type) := Except (List Issue) α

namespace Checked

def ok (a : α) : Checked α := Except.ok a

def issues (is : List Issue) : Checked α := Except.error is

def issue (i : Issue) : Checked α := issues [i]

def map (f : α → β) : Checked α → Checked β
  | .ok a => ok (f a)
  | .error is => issues is

def apply (f : Checked (α → β)) (a : Unit → Checked α) : Checked β :=
  match f, a () with
  | .ok f, .ok a => ok (f a)
  | .ok _, .error is => issues is
  | .error is, .ok _ => issues is
  | .error is, .error js => issues (is ++ js)

instance : Functor Checked := ⟨map, fun a => map fun _ => a⟩

instance : Applicative Checked where
  pure := ok
  seq := apply

/-- Goes on with the result; what follows depends on it, so issues end the check. -/
def andThen (c : Checked α) (f : α → Checked β) : Checked β :=
  match c with
  | .ok a => f a
  | .error is => issues is

def under (step : String) : Checked α → Checked α
  | .ok a => ok a
  | .error is => issues (is.map (Issue.under step))

def toOutcome (subject : String) : Checked α → Outcome α
  | .ok a => .ok a
  | .error is => .error (.invalid ⟨subject, is⟩)

end Checked

abbrev Check (α : Type) := Value → Checked α

def reject (kind expected : String) (input : Value) : Checked α :=
  .issue ⟨[], expected, kind, input⟩

def checkItemsFrom (check : Check α) : Nat → List Value → Checked (List α)
  | _, [] => .ok []
  | i, v :: rest =>
    List.cons <$> (check v).under (Text.decimal i) <*> checkItemsFrom check (i + 1) rest

def checkItems (check : Check α) (items : List Value) : Checked (List α) :=
  checkItemsFrom check 0 items

def checkEntries (check : Check α) : Entries → Checked (List (String × α))
  | [] => .ok []
  | (k, v) :: rest =>
    (fun a as => (k, a) :: as) <$> (check v).under k <*> checkEntries check rest

/-! ## Fields of an object -/

/-- A field that must be there; a missing one shows the whole object. -/
def required (entries : Entries) (key : String) (check : Check α) : Checked α :=
  match entries.get? key with
  | some v => (check v).under key
  | none => .issue ⟨[key], "Field required", "missing", .dict entries⟩

def optional (entries : Entries) (key : String) (default : α) (check : Check α) : Checked α :=
  match entries.get? key with
  | some v => (check v).under key
  | none => .ok default

def noExtra (entries : Entries) (declared : List String) : Checked Unit :=
  match entries.filter fun (k, _) => !declared.contains k with
  | [] => .ok ()
  | extra => .issues (extra.map fun (k, v) =>
      ⟨[k], "Extra inputs are not permitted", "extra_forbidden", v⟩)

def notAnObject (type : String) (v : Value) : Checked α :=
  reject "model_type" ("Input should be a valid dictionary or instance of " ++ type) v

end ChatPipeline.Validation
