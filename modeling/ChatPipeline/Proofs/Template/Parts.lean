import ChatPipeline.Proofs.Checking
import ChatPipeline.Proofs.Template.Positions

/-!
# Formatting part by part

What a template gives is what its parts give, one after the other (`Gives`): a message template
gives one message, which differs from it in its content alone, and a placeholder gives the messages
of its history with their contents as they are.  What a template fails with is what the first of its
parts that fails does so by itself.  A missing variable is one that this part reads (`Lacks`).
-/

namespace ChatPipeline

open ChatPipeline.Text ChatPipeline.Validation

/-! ## Histories -/

def writtenContent? (entries : Entries) : Option String :=
  match entries.get? "content" with
  | some v => scalarText? v
  | none => some ""

/-- A value in a history is a message or the data of one. -/
inductive Recalls : Value → Message → Prop where
  | message (m : Message) : Recalls (.message m) m
  | data (h : Message.validate (.dict entries) = .ok m)
      (hcontent : writtenContent? entries = some m.content) : Recalls (.dict entries) m

/-- A history is a single message, or a list or tuple of what stands for messages. -/
inductive Spliced : Value → List Message → Prop where
  | single (m : Message) : Spliced (.message m) [m]
  | list (h : List.Forall₂ Recalls items ms) : Spliced (.list items) ms
  | tuple (h : List.Forall₂ Recalls items ms) : Spliced (.tuple items) ms

private theorem scalarText?_of_checkText {v : Value} {s : String} (h : checkText v = .ok s) :
    scalarText? v = some s := by
  cases v with
  | bytes octets =>
      rw [checkText] at h
      rw [scalarText?]
      cases hdecoded : decode? octets with
      | some t =>
          rw [hdecoded] at h
          cases h
          rfl
      | none =>
          rw [hdecoded] at h
          cases h
  | _ =>
      simp only [checkText, scalarText?] at h ⊢
      split at h
      case h_1 t ht =>
        cases h
        exact ht
      case h_2 => cases h

private theorem writtenContent?_of_validate {entries : Entries} {m : Message}
    (h : Message.validate (.dict entries) = .ok m) : writtenContent? entries = some m.content := by
  have hfields : Message.checkFields entries = .ok m := Checked.toOutcome_eq_ok.1 h
  -- the checks of the fields one by one, the last first
  obtain ⟨_, _, hcallId, -, rfl⟩ := Checked.seq_eq_ok.1 hfields
  obtain ⟨_, _, hcalls, -, rfl⟩ := Checked.seq_eq_ok.1 hcallId
  obtain ⟨_, _, hcontents, -, rfl⟩ := Checked.seq_eq_ok.1 hcalls
  obtain ⟨_, content, hrole, hcontent, rfl⟩ := Checked.seq_eq_ok.1 hcontents
  obtain ⟨role, -, rfl⟩ := Checked.map_eq_ok.1 hrole
  unfold writtenContent?
  unfold Validation.optional at hcontent
  cases hfound : entries.get? "content" with
  | none =>
      rw [hfound] at hcontent
      cases hcontent
      rfl
  | some v =>
      rw [hfound] at hcontent
      exact scalarText?_of_checkText (Checked.under_eq_ok.1 hcontent)

private theorem validate_eq_ok_iff (v : Value) (m : Message) :
    Message.validate v = .ok m ↔ Recalls v m := by
  constructor
  · intro h
    cases v with
    | message m' =>
        cases h
        exact .message m
    | dict entries => exact .data h (writtenContent?_of_validate h)
    | _ => cases h
  · rintro (_ | ⟨h, -⟩)
    · rfl
    · exact h

private theorem history_eq_ok_iff {name : String} {v : Value} {ms : List Message} :
    TemplatePart.history name v = .ok ms ↔ Spliced v ms := by
  constructor
  · intro h
    cases v with
    | message m =>
        cases h
        exact .single m
    | list items => exact .list ((Outcome.mapM_eq_ok_iff validate_eq_ok_iff).1 h)
    | tuple items => exact .tuple ((Outcome.mapM_eq_ok_iff validate_eq_ok_iff).1 h)
    | _ => cases h
  · rintro (_ | h | h)
    · rfl
    · exact (Outcome.mapM_eq_ok_iff validate_eq_ok_iff).2 h
    · exact (Outcome.mapM_eq_ok_iff validate_eq_ok_iff).2 h

/-! ## Parts -/

/-- A variable that is absent or null leaves out a placeholder. -/
def IsLeftOut (values : Entries) (name : String) : Prop :=
  values.get? name = none ∨ values.get? name = some .none

inductive Gives (values : Entries) : TemplatePart → List Message → Prop where
  | message (h : Template.render values m.content = .ok content) :
      Gives values (.message m) [{ m with content }]
  | leftOut (h : IsLeftOut values name) : Gives values (.placeholder name true) []
  | history (h : values.get? name = some v) (hms : Spliced v ms) :
      Gives values (.placeholder name isOptional) ms

theorem IsLeftOut.not_spliced {values : Entries} {name : String} {v : Value} {ms : List Message}
    (h : IsLeftOut values name) (hv : values.get? name = some v) : ¬ Spliced v ms := by
  rcases h with habsent | hnull
  · rw [habsent] at hv
    cases hv
  · rw [hnull] at hv
    cases hv
    exact nofun

namespace TemplatePart

variable {values : Entries} {name : String}

private theorem format_placeholder_of_leftOut (h : IsLeftOut values name) (isOptional : Bool) :
    (placeholder name isOptional).format values =
      if isOptional then .ok [] else .error (.missingVariable name) := by
  rw [format]
  rcases h with h | h <;> rw [h]

private theorem format_placeholder_of_not_leftOut (h : ¬ IsLeftOut values name)
    (isOptional : Bool) :
    ∃ v, values.get? name = some v ∧
      (placeholder name isOptional).format values = history name v := by
  obtain ⟨habsent, hnull⟩ := not_or.1 h
  obtain ⟨v, hv⟩ := Option.ne_none_iff_exists'.1 habsent
  refine ⟨v, hv, ?_⟩
  rw [format, hv]
  cases v with
  | none => exact absurd hv hnull
  | _ => rfl

theorem format_eq_ok_iff (part : TemplatePart) (ms : List Message) :
    part.format values = .ok ms ↔ Gives values part ms := by
  cases part with
  | message m =>
      rw [format, Outcome.bind_eq_ok]
      constructor
      · rintro ⟨content, hcontent, h⟩
        cases h
        exact .message hcontent
      · rintro (hcontent | _ | _)
        exact ⟨_, hcontent, rfl⟩
  | placeholder name isOptional =>
      by_cases hout : IsLeftOut values name
      · rw [format_placeholder_of_leftOut hout]
        constructor
        · intro h
          cases isOptional with
          | false => cases h
          | true =>
              cases h
              exact .leftOut hout
        · rintro (_ | _ | ⟨hv, hms⟩)
          · rfl
          · exact absurd hms (hout.not_spliced hv)
      · obtain ⟨v, hv, hformat⟩ := format_placeholder_of_not_leftOut hout isOptional
        rw [hformat, history_eq_ok_iff]
        constructor
        · exact .history hv
        · rintro (_ | h | ⟨hv', hms⟩)
          · exact absurd h hout
          · rw [hv] at hv'
            cases hv'
            exact hms

/-! ## Missing variables -/

/-- A variable that a part reads has no value; for a placeholder that is not optional, null is none
either. -/
inductive Lacks (values : Entries) (name : String) : TemplatePart → Prop where
  | message (hnames : Template.variableNames m.content = .ok names) (hname : name ∈ names)
      (habsent : values.get? name = none) : Lacks values name (.message m)
  | placeholder (h : IsLeftOut values name) : Lacks values name (.placeholder name false)

theorem Lacks.mem_variableNames {part : TemplatePart} (h : Lacks values name part) :
    ∃ found, part.variableNames = .ok found ∧ name ∈ found := by
  cases h with
  | message hnames hname habsent => exact ⟨_, hnames, hname⟩
  | placeholder h => exact ⟨_, rfl, List.mem_singleton_self _⟩

end TemplatePart

theorem Template.render_missing {values : Entries} {text name : String}
    (h : render values text = .error (.missingVariable name)) :
    ∃ names, variableNames text = .ok names ∧ name ∈ names ∧ values.get? name = none := by
  generalize he : Failure.missingVariable name = e at h
  cases hnames : variableNames text with
  | error refusal =>
      have hrefusal := (failsAs_variablesWithin _ _).of_error hnames
      simp only [render, hnames, bind, Except.bind, Except.error.injEq] at h
      subst h he
      cases hrefusal
  | ok names =>
      refine ⟨names, rfl, ?_⟩
      cases hmissing : firstMissing? values names with
      | some n =>
          rw [render_of_missing hnames hmissing] at h
          subst he
          cases h
          exact ⟨List.mem_of_find?_eq_some hmissing, by simpa [Entries.contains] using List.find?_some hmissing⟩
      | none =>
          rw [render_of_none_missing hnames hmissing] at h
          cases (failsAs_expandWithin _ _ _).of_error h with
          | ordinary hordinary => exact absurd (he ▸ hordinary) (not_isOrdinary_missingVariable name)
          | positional => cases he

theorem TemplatePart.failsAs_history (name : String) (v : Value) :
    (history name v).FailsAs fun e => ∀ n, e ≠ .missingVariable n := by
  unfold history
  have hitems : ∀ items : List Value,
      (items.mapM Message.validate).FailsAs fun e => ∀ n, e ≠ .missingVariable n := by
    refine fun items => Outcome.FailsAs.mapM (fun item => ?_) items
    exact Checked.failsAs_toOutcome (fun _ _ => nofun) _ _
  split
  · exact .ok _
  · exact hitems _
  · exact hitems _
  · exact .error fun _ => nofun

theorem TemplatePart.lacks_of_format {values : Entries} {name : String} {part : TemplatePart}
    (h : part.format values = .error (.missingVariable name)) : Lacks values name part := by
  cases part with
  | message m =>
      rw [format] at h
      cases hrendered : Template.render values m.content with
      | ok content =>
          rw [hrendered] at h
          cases h
      | error e =>
          rw [hrendered] at h
          cases h
          obtain ⟨names, hnames, hname, habsent⟩ := Template.render_missing hrendered
          exact .message hnames hname habsent
  | placeholder other isOptional =>
      by_cases hout : IsLeftOut values other
      · rw [format_placeholder_of_leftOut hout] at h
        cases isOptional with
        | true => cases h
        | false =>
            cases h
            exact .placeholder hout
      · obtain ⟨v, -, hformat⟩ := format_placeholder_of_not_leftOut hout isOptional
        rw [hformat] at h
        exact absurd rfl ((failsAs_history other v).of_error h name)

/-! ## Templates -/

namespace ChatTemplate

variable {t : ChatTemplate} {values : Entries}

private theorem format_single (part : TemplatePart) (values : Entries) :
    format ⟨[part]⟩ values = part.format values := by
  rw [format, List.mapM_cons, List.mapM_nil]
  cases part.format values with
  | error e => rfl
  | ok ms => simp [bind, Except.bind, pure, Except.pure]

theorem format_eq_ok_iff {out : List Message} :
    t.format values = .ok out ↔
      ∃ groups, List.Forall₂ (Gives values) t.parts groups ∧ groups.flatten = out := by
  rw [format, Outcome.bind_eq_ok]
  simp only [Outcome.mapM_eq_ok_iff TemplatePart.format_eq_ok_iff, Outcome.pure_eq_ok]

private theorem format_eq_error_iff {e : Failure} :
    t.format values = .error e ↔ ∃ before part after, t.parts = before ++ part :: after ∧
      (∀ p ∈ before, ∃ ms, format ⟨[p]⟩ values = .ok ms) ∧ format ⟨[part]⟩ values = .error e := by
  simp only [format_single]
  constructor
  · intro h
    refine Outcome.exists_of_mapM_eq_error ?_
    rw [format] at h
    cases hgroups : t.parts.mapM (TemplatePart.format values) with
    | ok groups =>
        rw [hgroups] at h
        cases h
    | error e' =>
        rw [hgroups] at h
        cases h
        rfl
  · rintro ⟨before, part, after, hparts, hbefore, hpart⟩
    rw [format, hparts, Outcome.mapM_eq_error hbefore hpart]
    rfl

private theorem format_insert_empty {name : String} (hout : IsLeftOut values name)
    (hparts : ∀ part ∈ t.parts, part = .placeholder name true ∨
      ∀ found, part.variableNames = .ok found → name ∉ found) :
    t.format (values.insert name (.list [])) = t.format values := by
  rw [format, format, groups_congr fun part hpart => ?_]
  rcases hparts part hpart with rfl | hother
  · rw [TemplatePart.format_placeholder_of_leftOut hout]
    refine (TemplatePart.format_eq_ok_iff _ _).2 (.history ?_ (.list .nil))
    simp [Entries.get?_insert]
  · refine TemplatePart.format_congr fun found hfound n hn => ?_
    have hne : n ≠ name := by
      rintro rfl
      exact hother found hfound hn
    simp [Entries.get?_insert, hne]

/-- A template gives what its parts give, one after the other, and fails as the first of its parts
that fails does by itself.  A missing variable is one that this part reads and that has no value; it
is among the input variables, if these can be told at all.  An optional placeholder for a variable
that is absent or null gives what it gives for an empty list. -/
theorem format_part_by_part (t : ChatTemplate) (values : Entries) :
    (∀ out, t.format values = .ok out ↔
      ∃ groups, List.Forall₂ (Gives values) t.parts groups ∧ groups.flatten = out) ∧
    (∀ e, t.format values = .error e ↔ ∃ before part after, t.parts = before ++ part :: after ∧
      (∀ p ∈ before, ∃ ms, format ⟨[p]⟩ values = .ok ms) ∧ format ⟨[part]⟩ values = .error e) ∧
    (∀ name, t.format values = .error (.missingVariable name) →
      (∃ part ∈ t.parts, format ⟨[part]⟩ values = .error (.missingVariable name) ∧
        part.Lacks values name ∧ ∃ found, part.variableNames = .ok found ∧ name ∈ found) ∧
      ∀ names, t.inputVariables = .ok names → name ∈ names) ∧
    ∀ name, IsLeftOut values name →
      (∀ part ∈ t.parts, part = .placeholder name true ∨
        ∀ found, part.variableNames = .ok found → name ∉ found) →
      t.format (values.insert name (.list [])) = t.format values := by
  refine ⟨fun _ => format_eq_ok_iff, fun _ => format_eq_error_iff, fun name h => ?_,
    fun name => format_insert_empty⟩
  obtain ⟨before, part, after, hparts, -, hfailed⟩ := format_eq_error_iff.1 h
  have hpart : part ∈ t.parts := by simp [hparts]
  have hlacks := TemplatePart.lacks_of_format (format_single part values ▸ hfailed)
  obtain ⟨found, hfound, hname⟩ := hlacks.mem_variableNames
  exact ⟨⟨part, hpart, hfailed, hlacks, found, hfound, hname⟩,
    fun names hnames => mem_inputVariables hnames hpart hfound hname⟩

/-! ### A follow-up -/

def followUp : ChatTemplate where
  parts :=
    [.placeholder "past" true, .placeholder "question" false,
      .message { role := .user, content := "\x7btopic\x7d" }]

private theorem inputVariables_followUp :
    followUp.inputVariables = .ok ["past", "question", "topic"] := by
  cbv

def past : Value :=
  .tuple
    [.message { role := .assistant, content := "\x7btopic\x7d" },
      .dict [("role", .text "user"), ("content", .text "\x7b\x7b")]]

def told : Entries :=
  [("topic", .text "\x7brain\x7d"),
    ("question", .message { role := .user, content := "\x7bpast\x7d" }), ("past", past)]

private theorem render_told : Template.render told "\x7btopic\x7d" = .ok "\x7brain\x7d" := by
  have hnames : Template.variableNames "\x7btopic\x7d" = .ok ["topic"] := by cbv
  have hpieces : Template.pieces "\x7btopic\x7d".toList =
      ([.field { name := "topic".toList }], none) := by cbv
  rw [Template.render_of_pieces hnames rfl hpieces]
  rfl

private theorem spliced_past :
    Spliced past
      [{ role := .assistant, content := "\x7btopic\x7d" },
        { role := .user, content := "\x7b\x7b" }] :=
  .tuple (.cons (.message _) (.cons (.data rfl rfl) .nil))

/-- Braces in the values and in the history stay as they are; a question that is null is missing,
and a past that is absent is not. -/
theorem followUp_by_parts :
    followUp.format told =
        .ok [{ role := .assistant, content := "\x7btopic\x7d" },
          { role := .user, content := "\x7b\x7b" },
          { role := .user, content := "\x7bpast\x7d" },
          { role := .user, content := "\x7brain\x7d" }] ∧
      followUp.format [("question", .none)] = .error (.missingVariable "question") ∧
      "question" ∈ ["past", "question", "topic"] ∧
      IsLeftOut [("question", .none)] "past" ∧
      followUp.format (Entries.insert "past" (.list []) [("question", .none)]) =
        followUp.format [("question", .none)] := by
  have hquestion : followUp.format [("question", .none)] = .error (.missingVariable "question") := by
    refine ((format_part_by_part followUp _).2.1 _).2
      ⟨[.placeholder "past" true], .placeholder "question" false, _, rfl, ?_, rfl⟩
    exact List.forall_mem_singleton.2 ⟨[], rfl⟩
  refine ⟨?_, hquestion, ?_, .inl rfl, ?_⟩
  · refine ((format_part_by_part followUp told).1 _).2 ⟨[[_, _], [_], [_]], ?_, rfl⟩
    refine .cons (.history rfl spliced_past) (.cons (.history rfl (.single _)) (.cons ?_ .nil))
    exact .message render_told
  · exact ((format_part_by_part followUp _).2.2.1 _ hquestion).2 _ inputVariables_followUp
  · refine (format_part_by_part followUp _).2.2.2 "past" (.inl rfl) ?_
    have htopic : Template.variableNames "\x7btopic\x7d" = .ok ["topic"] := by cbv
    simp [followUp, TemplatePart.variableNames, htopic]

/-! ### A malformed text -/

def halfMalformed : ChatTemplate where
  parts :=
    [.message { role := .user, content := "\x7bx\x7d" },
      .message { role := .user, content := "\x7b" }]

/-- The first text is read and misses its variable; the second keeps the variables from being
listed. -/
theorem halfMalformed_misses_unlisted :
    halfMalformed.format [] = .error (.missingVariable "x") ∧
      ¬ ∃ names, halfMalformed.inputVariables = .ok names ∧ "x" ∈ names := by
  have hx : Template.variableNames "\x7bx\x7d" = .ok ["x"] := by cbv
  have hrefused : halfMalformed.inputVariables =
      .error (Template.valueFault "Single '\x7b' encountered in format string") := by cbv
  refine ⟨?_, ?_⟩
  · refine format_eq_error_iff.2 ⟨[], _, _, rfl, by simp, ?_⟩
    rw [format_single, TemplatePart.format, Template.render_of_missing hx rfl]
    rfl
  · rintro ⟨names, hnames, -⟩
    rw [hrefused] at hnames
    cases hnames

end ChatTemplate

end ChatPipeline
