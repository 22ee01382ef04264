import ChatPipeline.Proofs.Template.Rendering
import ChatPipeline.Proofs.Template.Independence

/-!
# Values given by name

Values given by name stand over those of the mapping: formatting reads the two as the mapping that
is overridden by them (`formatWith_of_not_parameter`).  The names of the parameters themselves are
the exception.  A value under such a name is taken as a second value of the parameter, and the call
is refused for every template (`formatWith_of_parameter`), though a mapping may hold that name.
-/

namespace ChatPipeline

theorem Entries.get?_override {named : Entries} (hkeys : named.keys.Nodup) (entries : Entries)
    (n : String) : (entries.override named).get? n = (named.get? n).or (entries.get? n) := by
  induction named generalizing entries with
  | nil => rfl
  | cons entry named ih =>
      obtain ⟨k, v⟩ := entry
      obtain ⟨hk, hrest⟩ := List.nodup_cons.1 hkeys
      have hfirst : (entries.override ((k, v) :: named)).get? n =
          (get? named n).or ((entries.insert k v).get? n) := ih hrest _
      have hcons : get? ((k, v) :: named) n = if n == k then some v else get? named n :=
        Table.lookup_cons ..
      rw [hfirst, hcons, get?_insert]
      by_cases hn : n = k
      · subst hn
        have hlater : get? named n = none := by
          rw [get?, ← Option.not_isSome_iff_eq_none, Table.lookup_isSome_iff]
          exact hk
        simp [hlater]
      · simp [hn]

namespace ChatTemplate

/-- The names of the template itself and of the mapping. -/
def IsParameter (name : String) : Prop := name = "self" ∨ name = "variables"

private theorem isParameter_iff {name : String} :
    IsParameter name ↔ formatSignature.places.contains name := by
  simp [IsParameter, formatSignature, Signature.places]

def secondValue (name : String) : Failure :=
  .fault .type ("ChatTemplate.format() got multiple values for argument '" ++ name ++ "'")

private theorem fault_eq_secondValue {name : String} (h : IsParameter name) :
    formatSignature.fault ("got multiple values for argument " ++ Text.quoted name) =
      secondValue name := by
  rcases h with rfl | rfl <;> rfl

private theorem format_of_agree {values values' : Entries} (h : ∀ n, values.get? n = values'.get? n)
    (t : ChatTemplate) : t.format values = t.format values' := by
  rw [format, format, groups_congr fun part _ => TemplatePart.format_congr fun _ _ n _ => h n]

private theorem find?_parameter_eq_none {named : Entries} (h : ∀ n ∈ named.keys, ¬ IsParameter n) :
    named.find? (formatSignature.places.contains ·.1) = none := by
  rw [List.find?_eq_none]
  intro entry hentry hparameter
  exact h entry.1 (List.mem_map_of_mem hentry) (isParameter_iff.2 hparameter)

private theorem formatWith_of_parameter (t : ChatTemplate) (values before : Entries)
    {after : Entries}
    {name : String} {v : Value} (hbefore : ∀ n ∈ before.keys, ¬ IsParameter n)
    (hname : IsParameter name) :
    t.formatWith (some (.dict values)) (before ++ (name, v) :: after) =
      .error (secondValue name) := by
  have hfirst : (before ++ (name, v) :: after).find? (formatSignature.places.contains ·.1) =
      some (name, v) := by
    rw [List.find?_append, find?_parameter_eq_none hbefore, Option.none_or]
    simp only [List.find?_cons, isParameter_iff.1 hname]
  rw [formatWith_dict, hfirst]
  exact congrArg _ (fault_eq_secondValue hname)

private theorem formatWith_of_not_parameter (t : ChatTemplate) (values named : Entries)
    (h : ∀ n ∈ named.keys, ¬ IsParameter n) :
    t.formatWith (some (.dict values)) named = t.format (values.override named) := by
  rw [formatWith_dict, find?_parameter_eq_none h]

private theorem formatWith_empty_ne_ok {named : Entries} {n : String} (hn : n ∈ named.keys)
    (hparameter : IsParameter n) (values : Entries) (out : List Message) :
    formatWith {} (some (.dict values)) named ≠ .ok out := by
  rw [formatWith_dict]
  obtain ⟨entry, hentry, rfl⟩ := List.mem_map.1 hn
  cases hfirst : named.find? (formatSignature.places.contains ·.1) with
  | none => exact absurd (isParameter_iff.1 hparameter) (List.find?_eq_none.1 hfirst entry hentry)
  | some first => exact nofun

/-- A mapping with values given by name is formatted like the mapping that they override, whatever
the template, exactly where none of the names is that of a parameter.  The first name of a parameter
is refused, whatever the template. -/
theorem formatWith_overridden_iff (values named overridden : Entries) (hkeys : named.keys.Nodup)
    (hoverridden : ∀ n, overridden.get? n = (named.get? n).or (values.get? n)) :
    ((∀ t : ChatTemplate,
        t.formatWith (some (.dict values)) named = t.formatWith (some (.dict overridden)) []) ↔
      ∀ n ∈ named.keys, ¬ IsParameter n) ∧
    ∀ (before after : Entries) (name : String) (v : Value), named = before ++ (name, v) :: after →
      (∀ n ∈ before.keys, ¬ IsParameter n) → IsParameter name →
      ∀ t : ChatTemplate, t.formatWith (some (.dict values)) named = .error (secondValue name) := by
  have hmapping : ∀ t : ChatTemplate,
      t.formatWith (some (.dict overridden)) [] = t.format overridden := fun t =>
    formatWith_of_not_parameter t overridden [] nofun
  refine ⟨⟨fun h n hn hparameter => ?_, fun h t => ?_⟩, ?_⟩
  · refine formatWith_empty_ne_ok hn hparameter values [] ?_
    rw [h, hmapping]
    rfl
  · rw [formatWith_of_not_parameter t values named h, hmapping]
    refine format_of_agree (fun n => ?_) t
    rw [hoverridden, Entries.get?_override hkeys]
  · rintro before after name v rfl hbefore hname t
    exact formatWith_of_parameter t values before hbefore hname

def forecast : Entries := [("city", .text "Oslo"), ("day", .text "today")]

/-- A city given by name replaces the one in the mapping; of two parameters' names the first is
refused. -/
theorem forecast_overridden :
    (∀ t : ChatTemplate,
        t.formatWith (some (.dict forecast)) [("city", .text "Rome")] =
          t.formatWith (some (.dict [("city", .text "Rome"), ("day", .text "today")])) []) ∧
      ∀ t : ChatTemplate,
        t.formatWith (some (.dict forecast))
            [("city", .text "Rome"), ("self", .none), ("variables", .none)] =
          .error (secondValue "self") := by
  have hcity : ∀ n ∈ ["city"], ¬ IsParameter n := by simp [IsParameter]
  constructor
  · have hrome : forecast.override [("city", .text "Rome")] =
        [("city", .text "Rome"), ("day", .text "today")] := rfl
    rw [← hrome]
    exact (formatWith_overridden_iff forecast [("city", .text "Rome")] _ (by decide)
      (Entries.get?_override (by decide) _)).1.2 hcity
  · exact (formatWith_overridden_iff forecast _ _ (by decide)
      (Entries.get?_override (by decide) _)).2 [("city", .text "Rome")] _ _ _ rfl hcity (.inl rfl)

/-! ### A template that reads the name of a parameter -/

def echo : ChatTemplate where
  parts := [.message { role := .user, content := "\x7bvariables\x7d" }]

private theorem inputVariables_echo : echo.inputVariables = .ok ["variables"] := by cbv

private theorem format_echo :
    echo.format [("variables", .text "x")] = .ok [{ role := .user, content := "x" }] := by
  have hnames : Template.variableNames "\x7bvariables\x7d" = .ok ["variables"] := by cbv
  have hpieces : Template.pieces "\x7bvariables\x7d".toList =
      ([.field { name := "variables".toList }], none) := by cbv
  have hrendered :
      Template.render [("variables", .text "x")] "\x7bvariables\x7d" = .ok "x" := by
    rw [Template.render_of_pieces hnames rfl hpieces]
    rfl
  simp [format, echo, TemplatePart.format, hrendered, bind, Except.bind, pure, Except.pure]

/-- In the mapping the value is formatted; given by name it is refused. -/
theorem echo_refuses_named :
    echo.inputVariables = .ok ["variables"] ∧
      echo.formatWith (some (.dict (Entries.override [] [("variables", .text "x")]))) [] =
        .ok [{ role := .user, content := "x" }] ∧
      echo.formatWith (some (.dict [])) [("variables", .text "x")] =
        .error (secondValue "variables") := by
  refine ⟨inputVariables_echo, ?_, ?_⟩
  · rw [formatWith_of_not_parameter echo _ [] nofun]
    exact format_echo
  · exact formatWith_of_parameter echo [] [] nofun (.inr rfl)

end ChatTemplate

end ChatPipeline
