import Mathlib.Algebra.Order.Floor.Semifield
import Mathlib.Data.Rat.Floor
import ChatPipeline.Proofs.Json.Notations
import ChatPipeline.Proofs.Json.Reading
import ChatPipeline.Proofs.Text.Integers
import ChatPipeline.Proofs.Weather.Request

/-!
# What is made of the answer of the weather service

The service answers with an object of any shape.  The weather tool should report a text and an
integer or fail because the answer says nothing of the weather (`Promised`).  It does so unless the
answer is misread: what should be a list of objects holds something else in front, or is something
else itself, the temperature is infinite, or the description is no text (`Misread`).  A body beyond
the limits of the reader is not read at all.  `weather_told` is that one of these holds of every
body.
-/

namespace ChatPipeline

open ChatPipeline.Text ChatPipeline.Validation ChatPipeline.Web

/-! ## Numbers -/

namespace Decimal

private theorem powerRatio_eq (base : Nat) (exponent : Int) :
    ((powerRatio base exponent).1 : ℚ) / (powerRatio base exponent).2 = (base : ℚ) ^ exponent := by
  unfold powerRatio
  split
  · rename_i hexponent
    obtain ⟨n, rfl⟩ := Int.eq_ofNat_of_zero_le hexponent
    simp
  · rename_i hexponent
    obtain ⟨n, rfl⟩ := Int.exists_eq_neg_ofNat (Int.le_of_lt (Int.not_le.1 hexponent))
    simp

/-- The integer that a value denotes.  A double denotes its whole part. -/
inductive Denotes : Value → Int → Prop where
  | int (i : Int) : Denotes (.int i) i
  | yes : Denotes (.bool true) 1
  | no : Denotes (.bool false) 0
  | float (hx : classify x = .finite negative significand exponent) :
    Denotes (.float x) (Json.signedValue negative ⌊(significand : ℚ) * 2 ^ exponent⌋₊)
  | text {s : String} (hs : IntegerText s.toList i) : Denotes (.text s) i

def IsInfinite (v : Value) : Prop := ∃ x negative, v = .float x ∧ classify x = .infinite negative

end Decimal

namespace Weather

open Decimal

private theorem truncate_of_finite {x : Float} {negative : Bool} {significand : Nat}
    {exponent : Int}
    (hx : classify x = .finite negative significand exponent) :
    truncate x = .ok (Json.signedValue negative ⌊(significand : ℚ) * 2 ^ exponent⌋₊) := by
  have hfloor : ⌊(significand : ℚ) * 2 ^ exponent⌋₊ =
      significand * (powerRatio 2 exponent).1 / (powerRatio 2 exponent).2 := by
    have hratio := powerRatio_eq 2 exponent
    rw [← Nat.floor_div_eq_div (K := ℚ)]
    push_cast at hratio ⊢
    rw [← hratio, mul_div_assoc]
  rw [hfloor, truncate, hx]
  rfl

private theorem denoted_eq {v : Value} {n : Int} (h : Denotes v n) : denoted v = .ok n := by
  cases h with
  | int => rfl
  | yes => rfl
  | no => rfl
  | float hx => exact truncate_of_finite hx
  | text hs => rw [denoted, anyScriptInteger_eq_some_iff.2 hs, Option.getD_some]

private theorem denoted_of_isInfinite {v : Value} (h : IsInfinite v) :
    denoted v = .error (.fault .overflow "cannot convert float infinity to integer") := by
  obtain ⟨x, negative, rfl, hx⟩ := h
  rw [denoted, truncate, hx]

private theorem denoted_of_unclear {v : Value} (hnone : ∀ n, ¬ Denotes v n)
    (hfinite : ¬ IsInfinite v) :
    denoted v = .ok 0 := by
  unfold denoted
  split
  · rename_i i
    exact absurd (.int i) (hnone i)
  · rename_i b
    cases b with
    | false => rfl
    | true => exact absurd .yes (hnone 1)
  · rename_i x
    cases hx : classify x with
    | nan => rw [truncate, hx]
    | infinite negative => exact absurd ⟨x, negative, rfl, hx⟩ hfinite
    | finite negative significand exponent => exact absurd (.float hx) (hnone _)
  · rename_i s
    cases hs : anyScriptInteger s with
    | none => rfl
    | some i => exact absurd (.text (anyScriptInteger_eq_some_iff.1 hs)) (hnone i)
  · rfl

/-! ## What an answer holds -/

/-- What is under a key, unless it is zero or empty. -/
def present? (entries : Entries) (key : String) : Option Value :=
  (Entries.get? entries key).filter Value.truthy

def isNumber : Value → Bool
  | .bool _ | .int _ | .float _ => true
  | _ => false

/-- The first of what should be a list of objects, or how the look into it fails. -/
inductive First : Value → Outcome Entries → Prop where
  | object (entries : Entries) (rest : List Value) : First (.list (.dict entries :: rest)) (.ok entries)
  | otherItem {v : Value} (hv : ∀ entries, v ≠ .dict entries) (rest : List Value) :
    First (.list (v :: rest)) (.error (v.noAttribute "get"))
  | character {s : String} {c : Char} {cs : List Char} (hs : s.toList = c :: cs) :
    First (.text s) (.error (Value.noAttribute (.text c.toString) "get"))
  | noList (entries : Entries) : First (.dict entries) (.error (.raised .key [.int 0]))
  | number {v : Value} (hv : isNumber v = true) : First v (.error v.notSubscriptable)

def IsCondition (answer condition : Entries) : Prop :=
  ∃ v, present? answer "current_condition" = some v ∧ First v (.ok condition)

/-- The temperature is what its field denotes, zero if there is none or it denotes nothing. -/
inductive Temperature (condition : Entries) : Int → Prop where
  | denoted (hfield : Entries.get? condition "temp_C" = some v) (hv : Denotes v n) :
    Temperature condition n
  | unclear (hnone : ∀ v, Entries.get? condition "temp_C" = some v → ∀ n, ¬ Denotes v n) :
    Temperature condition 0

def IsBoundless (condition : Entries) : Prop :=
  ∃ v, Entries.get? condition "temp_C" = some v ∧ IsInfinite v

inductive Description (condition : Entries) : Outcome Value → Prop where
  | none (hnone : present? condition "weatherDesc" = none) : Description condition (.ok (.text ""))
  | first (hsome : present? condition "weatherDesc" = some v) (hfirst : First v (.ok entries)) :
    Description condition (.ok ((Entries.get? entries "value").getD (.text "")))
  | failed (hsome : present? condition "weatherDesc" = some v) (hfirst : First v (.error f)) :
    Description condition (.error f)

/-! ## What comes of it -/

def reported (text : String) (degrees : Int) : Outcome Value :=
  .ok (.dict [("weather", .text text), ("temp", .int degrees)])

/-- What an answer should come to. -/
inductive Promised (answer : Entries) : Outcome Value → Prop where
  | report (hcondition : IsCondition answer condition) (hdegrees : Temperature condition degrees)
    (text : String) : Promised answer (reported text degrees)
  | noWeather (text : String) : Promised answer (.error (.weatherLookup text))

/-- The failures of an answer that says something of the weather, but not in the expected shape. -/
inductive Misread (answer : Entries) : Failure → Prop where
  | conditions (hsome : present? answer "current_condition" = some v) (hfirst : First v (.error f)) :
    Misread answer f
  | degrees (hcondition : IsCondition answer condition) (hboundless : IsBoundless condition) :
    Misread answer (.fault .overflow "cannot convert float infinity to integer")
  | descriptions (hcondition : IsCondition answer condition) (hbounded : ¬ IsBoundless condition)
    (hdescription : Description condition (.error f)) : Misread answer f
  | noText (hcondition : IsCondition answer condition) (hbounded : ¬ IsBoundless condition)
    (hdescription : Description condition (.ok v)) (hv : ∀ text, v ≠ .text text)
    (report : Report) : Misread answer (.invalid report)

inductive Told (city : String) (answer : Entries) : Outcome Value → Prop where
  | noWeather (hnone : present? answer "current_condition" = none) :
    Told city answer (.error (.weatherLookup ("no weather data for " ++ quoted city)))
  | report (hcondition : IsCondition answer condition) (hbounded : ¬ IsBoundless condition)
    (hdegrees : Temperature condition degrees)
    (hdescription : Description condition (.ok (.text text))) :
    Told city answer (reported text degrees)
  | misread (h : Misread answer f) : Told city answer (.error f)

/-! ## Looking into the answer -/

theorem First.element_eq {v : Value} {entries : Entries} (h : First v (.ok entries)) :
    v.element 0 = .ok (.dict entries) := by
  cases h
  rfl

theorem First.element_bind {v : Value} {f : Failure} (h : First v (.error f))
    {look : Value → Outcome α} (hlook : ∀ first f,
      (∀ key default, lookUp first key default = .error f) → look first = .error f) :
    v.element 0 >>= look = .error f := by
  cases h with
  | @otherItem first hv =>
      refine hlook first _ fun key default => ?_
      cases first with
      | dict entries => exact absurd rfl (hv entries)
      | _ => rfl
  | @character s c cs hs =>
      have helement : (Value.text s).element 0 = Value.ofElement (.text s)
          (s.toList[0]?.map fun c => .text c.toString) := rfl
      rw [helement, hs]
      exact hlook _ _ fun key default => rfl
  | noList => rfl
  | number hv =>
      cases v with
      | bool | int | float => rfl
      | _ => cases hv

private theorem exists_first {v : Value} (hv : Json.IsPlain v) (htruthy : v.truthy = true) :
    ∃ found, First v found := by
  cases hv with
  | none => cases htruthy
  | bool | int | float => exact ⟨_, .number rfl⟩
  | text s =>
      cases hs : s.toList with
      | nil =>
          rw [String.toList_eq_nil_iff] at hs
          subst hs
          cases htruthy
      | cons c cs => exact ⟨_, .character hs⟩
  | @list items =>
      cases items with
      | nil => cases htruthy
      | cons first rest =>
          cases first with
          | dict entries => exact ⟨_, .object entries rest⟩
          | _ =>
              refine ⟨_, .otherItem (fun entries h => ?_) rest⟩
              cases h
  | dict => exact ⟨_, .noList _⟩

theorem First.raised {v : Value} {f : Failure} (h : First v (.error f)) :
    ∃ kind details, f = .raised kind details := by
  cases h <;> exact ⟨_, _, rfl⟩

private theorem present?_eq_some {entries : Entries} {key : String} {v : Value}
    (h : present? entries key = some v) :
    Entries.get? entries key = some v ∧ v.truthy = true :=
  Option.filter_eq_some_iff.1 h

private theorem truthy_of_absent {entries : Entries} {key : String}
    (h : present? entries key = none) :
    ((Entries.get? entries key).getD .none).truthy = false := by
  unfold present? at h
  cases hfound : Entries.get? entries key with
  | none => rfl
  | some v => simpa [hfound] using h

/-! ### The description -/

theorem descriptionOf_eq {condition : Entries} {found : Outcome Value}
    (h : Description condition found) : descriptionOf (.dict condition) = found := by
  change (if ((Entries.get? condition "weatherDesc").getD .none).truthy = true then
    ((Entries.get? condition "weatherDesc").getD .none).element 0 >>= fun first =>
      lookUp first "value" (.text "") else .ok (.text "")) = found
  cases h with
  | none hnone => rw [truthy_of_absent hnone, if_neg Bool.false_ne_true]
  | first hsome hfirst =>
      obtain ⟨hfield, htruthy⟩ := present?_eq_some hsome
      rw [hfield, Option.getD_some, if_pos htruthy, hfirst.element_eq]
      rfl
  | failed hsome hfirst =>
      obtain ⟨hfield, htruthy⟩ := present?_eq_some hsome
      rw [hfield, Option.getD_some, if_pos htruthy]
      exact hfirst.element_bind fun first f hfails => hfails _ _

theorem First.isPlain {v : Value} {entries : Entries} (hv : Json.IsPlain v)
    (h : First v (.ok entries)) : Json.IsPlain (.dict entries) := by
  cases h
  cases hv with
  | list hitems => exact hitems _ List.mem_cons_self

private theorem isPlain_of_present? {entries : Entries} {key : String} {v : Value}
    (hentries : Json.IsPlain (.dict entries)) (h : present? entries key = some v) :
    Json.IsPlain v := by
  cases hentries with
  | dict hentries => exact hentries key v (present?_eq_some h).1

theorem Description.isPlain {condition : Entries} {v : Value}
    (hcondition : Json.IsPlain (.dict condition)) (h : Description condition (.ok v)) :
    Json.IsPlain v := by
  cases h with
  | none => exact .text ""
  | @first descriptions entries hsome hfirst =>
      cases hvalue : Entries.get? entries "value" with
      | none => exact .text ""
      | some w =>
          cases hfirst.isPlain (isPlain_of_present? hcondition hsome) with
          | dict hentries => exact hentries _ w hvalue

theorem Description.raised {condition : Entries} {f : Failure}
    (h : Description condition (.error f)) : ∃ kind details, f = .raised kind details := by
  cases h with
  | failed _ hfirst => exact hfirst.raised

private theorem exists_description {condition : Entries}
    (hcondition : Json.IsPlain (.dict condition)) :
    ∃ found, Description condition found := by
  cases hsome : present? condition "weatherDesc" with
  | none => exact ⟨_, .none hsome⟩
  | some v =>
      obtain ⟨found, hfirst⟩ := exists_first (isPlain_of_present? hcondition hsome)
        (present?_eq_some hsome).2
      cases found with
      | error f => exact ⟨_, .failed hsome hfirst⟩
      | ok entries => exact ⟨_, .first hsome hfirst⟩

/-! ### The current weather -/

def answerOf (city : String) (answer : Entries) : Outcome Value := do
  let found ← current city (.dict answer)
  ToolDeclaration.finish resultType found

private theorem current_eq (city : String) (answer : Entries) : current city (.dict answer) =
    if ((Entries.get? answer "current_condition").getD .none).truthy = true then do
      let condition ← ((Entries.get? answer "current_condition").getD .none).element 0
      let temperature ← denoted (← lookUp condition "temp_C" (.text ""))
      let description ← descriptionOf condition
      return .dict [("weather", description), ("temp", .int temperature)]
    else .error (.weatherLookup ("no weather data for " ++ quoted city)) := rfl

private theorem answerOf_of_absent {answer : Entries}
    (h : present? answer "current_condition" = none)
    (city : String) :
    answerOf city answer = .error (.weatherLookup ("no weather data for " ++ quoted city)) := by
  rw [answerOf, current_eq, truthy_of_absent h, if_neg Bool.false_ne_true]
  rfl

private theorem answerOf_of_first {answer : Entries} {v : Value} {f : Failure}
    (h : present? answer "current_condition" = some v) (hfirst : First v (.error f))
    (city : String) : answerOf city answer = .error f := by
  obtain ⟨hfield, htruthy⟩ := present?_eq_some h
  rw [answerOf, current_eq, hfield, Option.getD_some, if_pos htruthy, hfirst.element_bind]
  · rfl
  · intro first f hfails
    rw [hfails]
    rfl

private theorem answerOf_of_condition {answer condition : Entries}
    (h : IsCondition answer condition)
    (city : String) : answerOf city answer = (do
      let degrees ← denoted ((Entries.get? condition "temp_C").getD (.text ""))
      let description ← descriptionOf (.dict condition)
      ToolDeclaration.finish resultType (.dict [("weather", description), ("temp", .int degrees)])) := by
  obtain ⟨v, hsome, hfirst⟩ := h
  obtain ⟨hfield, htruthy⟩ := present?_eq_some hsome
  rw [answerOf, current_eq, hfield, Option.getD_some, if_pos htruthy, hfirst.element_eq]
  have hlookUp : lookUp (.dict condition) "temp_C" (.text "") =
      .ok ((Entries.get? condition "temp_C").getD (.text "")) := rfl
  simp only [bind, Except.bind, hlookUp]
  cases denoted ((Entries.get? condition "temp_C").getD (.text "")) with
  | error f => rfl
  | ok degrees => cases descriptionOf (.dict condition) <;> rfl

private theorem denoted_field {condition : Entries} (hbounded : ¬ IsBoundless condition) :
    ∃ degrees, denoted ((Entries.get? condition "temp_C").getD (.text "")) = .ok degrees ∧
      Temperature condition degrees := by
  cases hfield : Entries.get? condition "temp_C" with
  | none => exact ⟨0, rfl, .unclear (by rw [hfield]; nofun)⟩
  | some v =>
      by_cases hv : ∃ n, Denotes v n
      · obtain ⟨n, hv⟩ := hv
        exact ⟨n, denoted_eq hv, .denoted hfield hv⟩
      · rw [not_exists] at hv
        refine ⟨0, denoted_of_unclear hv fun hinfinite => hbounded ⟨v, hfield, hinfinite⟩, ?_⟩
        refine .unclear fun w hw => ?_
        rw [hfield] at hw
        cases hw
        exact hv

private theorem finish_text (text : String) (degrees : Int) :
    ToolDeclaration.finish resultType (.dict [("weather", .text text), ("temp", .int degrees)]) =
      reported text degrees := rfl

private theorem finish_other {v : Value} (hplain : Json.IsPlain v) (hv : ∀ text, v ≠ .text text)
    (degrees : Int) : ∃ report, ToolDeclaration.finish resultType
      (.dict [("weather", v), ("temp", .int degrees)]) = .error (.invalid report) := by
  cases hplain with
  | text s => exact absurd rfl (hv s)
  | _ => exact ⟨_, rfl⟩

private theorem answerOf_boundless {answer condition : Entries}
    (hcondition : IsCondition answer condition)
    (hboundless : IsBoundless condition) (city : String) : answerOf city answer =
      .error (.fault .overflow "cannot convert float infinity to integer") := by
  obtain ⟨v, hfield, hinfinite⟩ := hboundless
  rw [answerOf_of_condition hcondition, hfield, Option.getD_some, denoted_of_isInfinite hinfinite]
  rfl

private theorem answerOf_bounded {answer condition : Entries} {found : Outcome Value}
    (hcondition : IsCondition answer condition) (hbounded : ¬ IsBoundless condition)
    (hdescription : Description condition found) (city : String) :
    ∃ degrees, Temperature condition degrees ∧ answerOf city answer = (do
      let description ← found
      ToolDeclaration.finish resultType
        (.dict [("weather", description), ("temp", .int degrees)])) := by
  obtain ⟨degrees, hdenoted, hdegrees⟩ := denoted_field hbounded
  refine ⟨degrees, hdegrees, ?_⟩
  rw [answerOf_of_condition hcondition, hdenoted, descriptionOf_eq hdescription]
  rfl

theorem IsCondition.isPlain {answer condition : Entries} (h : IsCondition answer condition)
    (hanswer : Json.IsPlain (.dict answer)) : Json.IsPlain (.dict condition) := by
  obtain ⟨v, hsome, hfirst⟩ := h
  exact hfirst.isPlain (isPlain_of_present? hanswer hsome)

/-! ## Every answer -/

theorem told {answer : Entries} (hanswer : Json.IsPlain (.dict answer)) (city : String) :
    Told city answer (answerOf city answer) := by
  cases hsome : present? answer "current_condition" with
  | none =>
      rw [answerOf_of_absent hsome]
      exact .noWeather hsome
  | some v =>
  obtain ⟨found, hfirst⟩ := exists_first (isPlain_of_present? hanswer hsome)
    (present?_eq_some hsome).2
  cases found with
  | error f =>
      rw [answerOf_of_first hsome hfirst]
      exact .misread (.conditions hsome hfirst)
  | ok condition =>
  have hcondition : IsCondition answer condition := ⟨v, hsome, hfirst⟩
  have hplain := hcondition.isPlain hanswer
  by_cases hbounded : IsBoundless condition
  · rw [answerOf_boundless hcondition hbounded]
    exact .misread (.degrees hcondition hbounded)
  obtain ⟨found, hdescription⟩ := exists_description hplain
  obtain ⟨degrees, hdegrees, hanswered⟩ := answerOf_bounded hcondition hbounded hdescription city
  cases found with
  | error f =>
      rw [hanswered]
      exact .misread (.descriptions hcondition hbounded hdescription)
  | ok description =>
  by_cases htext : ∃ text, description = .text text
  · obtain ⟨text, rfl⟩ := htext
    rw [hanswered.trans (finish_text text degrees)]
    exact .report hcondition hbounded hdegrees hdescription
  · rw [not_exists] at htext
    obtain ⟨report, hfinish⟩ := finish_other (hdescription.isPlain hplain) htext degrees
    rw [hanswered.trans hfinish]
    exact .misread (.noText hcondition hbounded hdescription htext report)

theorem Misread.answerOf_eq {answer : Entries} {f : Failure} (h : Misread answer f)
    (hanswer : Json.IsPlain (.dict answer)) (city : String) :
    ∃ f', answerOf city answer = .error f' ∧ ∀ text, f' ≠ .weatherLookup text := by
  cases h with
  | conditions hsome hfirst =>
      obtain ⟨kind, details, rfl⟩ := hfirst.raised
      exact ⟨_, answerOf_of_first hsome hfirst city, nofun⟩
  | degrees hcondition hboundless =>
      exact ⟨_, answerOf_boundless hcondition hboundless city, nofun⟩
  | descriptions hcondition hbounded hdescription =>
      obtain ⟨degrees, -, hfails⟩ := answerOf_bounded hcondition hbounded hdescription city
      obtain ⟨kind, details, rfl⟩ := hdescription.raised
      exact ⟨_, hfails, nofun⟩
  | noText hcondition hbounded hdescription hv =>
      obtain ⟨degrees, -, hanswered⟩ := answerOf_bounded hcondition hbounded hdescription city
      obtain ⟨report, hfinish⟩ := finish_other
        (hdescription.isPlain (hcondition.isPlain hanswer)) hv degrees
      exact ⟨_, hanswered.trans hfinish, nofun⟩

private theorem promised_iff {answer : Entries} (hanswer : Json.IsPlain (.dict answer))
    (city : String) :
    Promised answer (answerOf city answer) ↔ ∀ f, ¬ Misread answer f := by
  constructor
  · intro hpromised f hmisread
    obtain ⟨f', hfails, hother⟩ := hmisread.answerOf_eq hanswer city
    rw [hfails] at hpromised
    cases hpromised with
    | noWeather text => exact hother text rfl
  · intro hread
    have htold := told hanswer city
    generalize answerOf city answer = found at htold ⊢
    cases htold with
    | noWeather => exact .noWeather _
    | report hcondition _ hdegrees => exact .report hcondition hdegrees _
    | misread h => exact absurd h (hread _)

/-! ## Every body -/

/-- What a body comes to, of which the longest whole number and the depth are known, where only so
much depth is read. -/
inductive Answered (depth : Nat) (city : String) (answer : Entries) (longest deepest : Nat) :
    Outcome Value → Prop where
  | told (hdigits : longest ≤ maxIntegerDigits) (hdepth : deepest ≤ depth)
    (h : Told city answer found) : Answered depth city answer longest deepest found
  | longInteger (hbeyond : ¬ (longest ≤ maxIntegerDigits ∧ deepest ≤ depth))
    (digits : Nat) : Answered depth city answer longest deepest
      (.error (.fault .value (Json.longIntegerMessage digits)))
  | tooDeep (hbeyond : ¬ (longest ≤ maxIntegerDigits ∧ deepest ≤ depth))
    (container : Json.Container) : Answered depth city answer longest deepest
      (.error (.fault .recursion (Json.depthMessage container)))

variable {answer : Entries} {depth longest deepest : Nat} {response : Response}

private theorem answer_of_read (hstatus : response.status = 200)
    (hread : Json.read depth (withoutMark response.body) = .ok (.dict answer)) (city : String) :
    Weather.answer depth city response = answerOf city answer := by
  have hguard : ¬ response.status ≠ 200 := not_not_intro hstatus
  have hbody : readBody depth response.body = .ok (.dict answer) := by
    rw [readBody, hread]
  rw [Weather.answer, readResponse, if_neg hguard, hbody]
  rfl

private theorem answer_of_limit (hstatus : response.status = 200) {f : Json.Fault}
    (hlimit : f.IsLimit)
    (hread : Json.read depth (withoutMark response.body) = .error f) (city : String) :
    (∃ digits, Weather.answer depth city response =
      .error (.fault .value (Json.longIntegerMessage digits))) ∨
    ∃ container, Weather.answer depth city response =
      .error (.fault .recursion (Json.depthMessage container)) := by
  have hguard : ¬ response.status ≠ 200 := not_not_intro hstatus
  rw [Weather.answer, readResponse, if_neg hguard, readBody, hread]
  cases hlimit with
  | longInteger digits => exact .inl ⟨digits, rfl⟩
  | tooDeep container => exact .inr ⟨container, rfl⟩

theorem answered (depth : Nat) (hstatus : response.status = 200)
    (hbody : Json.IsTextOf (.dict answer) longest deepest (withoutMark response.body).toList)
    (city : String) :
    Answered depth city answer longest deepest (Weather.answer depth city response) ∧
      (Promised answer (Weather.answer depth city response) ↔
        longest ≤ maxIntegerDigits ∧ deepest ≤ depth ∧ ∀ f, ¬ Misread answer f) := by
  have hsettles := hbody.settles depth
  cases hread : Json.read depth (withoutMark response.body) with
  | ok v =>
      rw [Json.read] at hread
      rw [hread] at hsettles
      cases hsettles with
      | within hdigits hdepth =>
          rw [answer_of_read hstatus hread]
          exact ⟨.told hdigits hdepth (told hbody.isPlain city),
            (promised_iff hbody.isPlain city).trans ⟨fun h => ⟨hdigits, hdepth, h⟩, fun h => h.2.2⟩⟩
  | error f =>
      rw [Json.read] at hread
      rw [hread] at hsettles
      cases hsettles with
      | beyond hbeyond hlimit =>
          have hnot : ¬ (longest ≤ maxIntegerDigits ∧ deepest ≤ depth ∧
              ∀ f, ¬ Misread answer f) := fun h => hbeyond ⟨h.1, h.2.1⟩
          obtain ⟨digits, hfails⟩ | ⟨container, hfails⟩ := answer_of_limit hstatus hlimit hread city
          · rw [hfails]
            exact ⟨.longInteger hbeyond digits, iff_of_false nofun hnot⟩
          · rw [hfails]
            exact ⟨.tooDeep hbeyond container, iff_of_false nofun hnot⟩

/-- Whatever the object in the body is, what the tool makes of it can be told, and it is what it
should be just where the body is read and not misread. -/
theorem weather_told (link : Link σ) (options : Options) (city : String) {deadline : Option Instant}
    {s s' : Scene σ} (hsend : send link options.timeout
      { address := address city, agent := options.agent } deadline s = (.done response, s'))
    (hstatus : response.status = 200)
    (hbody : Json.IsTextOf (.dict answer) longest deepest (withoutMark response.body).toList) :
    ∃ t found, tool link options = .ok t ∧
      t.run (cityPayload city) deadline s = Work.ofOutcome found deadline s' ∧
      Answered options.room city answer longest deepest found ∧
      (Promised answer found ↔
        longest ≤ maxIntegerDigits ∧ deepest ≤ options.room ∧ ∀ f, ¬ Misread answer f) := by
  obtain ⟨t, htool, hrun⟩ := exists_tool_run link options
  refine ⟨t, Weather.answer options.room city response, htool, ?_, answered options.room hstatus hbody city⟩
  rw [hrun, Work.bind_apply, Work.coroutine_eq_done.2 hsend]

/-! ### Two bodies -/

def answering (body : String) : Link Unit := .shared fun _ => pure { status := 200, body }

def ofDegrees (v : Value) : Entries := [("current_condition", .list [.dict [("temp_C", v)]])]

def degreesBody (text : String) : String :=
  Json.object ", " ": " [("current_condition", Json.array ", " [
    Json.object ", " ": " [("temp_C", text)]])]

private theorem isCondition_ofDegrees (v : Value) : IsCondition (ofDegrees v) [("temp_C", v)] :=
  ⟨_, rfl, .object _ _⟩

private theorem read_degreesBody {text : String} {v : Value} (h : Json.Spells text.toList v)
    (hnesting : Json.nesting v = 0) :
    Json.read Json.usualDepth (degreesBody text) = .ok (.dict (ofDegrees v)) := by
  obtain ⟨hcomma, hcolon⟩ := Json.separates_loose
  have hcondition : Json.Spells (Json.object ", " ": " [("temp_C", text)]).toList
      (.dict [("temp_C", v)]) :=
    Json.spells_object hcomma hcolon (.cons ⟨rfl, h⟩ .nil) (List.nodup_singleton _)
  have hconditions : Json.Spells
      (Json.array ", " [Json.object ", " ": " [("temp_C", text)]]).toList
      (.list [.dict [("temp_C", v)]]) :=
    Json.spells_array hcomma (.cons hcondition .nil)
  have hbody : Json.Spells (degreesBody text).toList (.dict (ofDegrees v)) :=
    Json.spells_object hcomma hcolon (.cons ⟨rfl, hconditions⟩ .nil) (List.nodup_singleton _)
  refine hbody.read_eq_ok ?_
  simp [ofDegrees, Json.nesting, Json.nestingIn, Json.nestingOf, hnesting, Json.usualDepth]

def mildBody : String := "\x7b\"current_condition\": [\x7b\"temp_C\": \" 21\"\x7d]\x7d"

private theorem send_answering (body : String) (timeout : Value) (request : Request)
    (s : Scene Unit) :
    send (answering body) timeout request none s = (.done { status := 200, body }, s) := rfl

theorem mild_told : ∃ longest deepest t found,
    Json.IsTextOf (.dict (ofDegrees (.text " 21"))) longest deepest (withoutMark mildBody).toList ∧
      tool (answering mildBody) {} = .ok t ∧
      t.run (cityPayload "Oslo") none { world := () } =
        Work.ofOutcome found none { world := () } ∧
      Promised (ofDegrees (.text " 21")) found := by
  have hread : Json.read Json.usualDepth (withoutMark mildBody) = .ok (.dict (ofDegrees (.text " 21"))) := by
    have hbody : withoutMark mildBody = degreesBody (Json.quote " 21") := by decide +kernel
    rw [hbody]
    exact read_degreesBody (Json.spells_text " 21") rfl
  obtain ⟨longest, deepest, hdigits, hdepth, hbody⟩ := Json.readChars_sound hread
  have hpromised : Promised (ofDegrees (.text " 21"))
      (answerOf "Oslo" (ofDegrees (.text " 21"))) := by
    have hbounded : ¬ IsBoundless [("temp_C", .text " 21")] := by
      rintro ⟨_, ⟨⟩, _, _, ⟨⟩, _⟩
    obtain ⟨degrees, hdegrees, hanswered⟩ :=
      answerOf_bounded (isCondition_ofDegrees _) hbounded (.none rfl) "Oslo"
    rw [hanswered]
    exact .report (isCondition_ofDegrees _) hdegrees ""
  obtain ⟨t, found, htool, hrun, -, hiff⟩ := weather_told (answering mildBody) {} "Oslo"
    (send_answering mildBody _ _ { world := () }) rfl hbody
  exact ⟨longest, deepest, t, found, hbody, htool, hrun,
    hiff.2 ⟨hdigits, hdepth, (promised_iff hbody.isPlain "Oslo").1 hpromised⟩⟩

def hotBody : String := "\x7b\"current_condition\": [\x7b\"temp_C\": 1e+999\x7d]\x7d"

private theorem spells_hot : Json.Spells "1e+999".toList (.float (ofDecimal false 1 999)) := by
  have htext : scientific Json.looseNumber ['1'] 1000 = "1e+999".toList := by decide +kernel
  have hdigits : Json.AllDigits ['1'] := List.forall_mem_singleton.2 rfl
  have hspells : Json.Spells (Json.signed false (scientific Json.looseNumber ['1'] 1000))
      (.float (ofDecimal false 1 999)) :=
    Json.spells_number (Json.isScalar_float _) fun rest hrest =>
      Json.readUnsigned_exponent rfl hdigits (List.cons_ne_nil _ _) 1000 hrest
  rw [htext] at hspells
  exact hspells

/-- A temperature beyond all doubles does not count as none, it ends the lookup. -/
theorem hot_not_promised : ∃ answer longest deepest t f,
    Json.IsTextOf (.dict answer) longest deepest (withoutMark hotBody).toList ∧
      tool (answering hotBody) {} = .ok t ∧
      t.run (cityPayload "Oslo") none { world := () } = (.failed f, { world := () }) ∧
      f = .fault .overflow "cannot convert float infinity to integer" ∧
      ¬ Promised answer (.error f) := by
  have hread : Json.read Json.usualDepth (withoutMark hotBody) =
      .ok (.dict (ofDegrees (.float (ofDecimal false 1 999)))) := by
    have hbody : withoutMark hotBody = degreesBody "1e+999" := by decide +kernel
    rw [hbody]
    exact read_degreesBody spells_hot rfl
  obtain ⟨longest, deepest, -, -, hbody⟩ := Json.readChars_sound hread
  have hinfinite : IsInfinite (.float (ofDecimal false 1 999)) :=
    ⟨_, false, rfl, by decide +kernel⟩
  have hstatus : ({ status := 200, body := hotBody } : Response).status = 200 := rfl
  have hanswer := answer_of_read hstatus hread "Oslo"
  rw [answerOf_boundless (isCondition_ofDegrees _) ⟨_, rfl, hinfinite⟩] at hanswer
  obtain ⟨t, htool, hrun⟩ := exists_tool_run (answering hotBody) {}
  refine ⟨_, longest, deepest, t, _, hbody, htool, ?_, rfl, nofun⟩
  rw [hrun, Work.bind_apply, Work.coroutine_eq_done.2 (send_answering hotBody _ _ _)]
  change Work.ofOutcome (Weather.answer Json.usualDepth "Oslo" { status := 200, body := hotBody })
    none _ = _
  rw [hanswer]
  rfl

end Weather

end ChatPipeline
