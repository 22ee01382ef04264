import ChatPipeline.Proofs.Template.Expansion
import ChatPipeline.Template.Chat

/-!
# What a chat template depends on

The input variables of a template are all that formatting reads.  Two sets of values that agree on
the variables of a text are rendered alike, whether the text is rendered or an error is raised
(`render_congr`); a placeholder reads the one variable it is named after; and the input variables of
a template hold those of all its parts (`mem_inputVariables`).
-/

namespace ChatPipeline

namespace Template

variable {values values' : Entries}

private theorem expandWithin_congr {limit depth : Nat} {cs : List Char} (hdepth : cs.length < depth)
    (hagree : ∀ n ∈ mentioned depth cs, values.get? n = values'.get? n) :
    expandWithin values limit cs = expandWithin values' limit cs := by
  induction limit generalizing depth cs with
  | zero => rfl
  | succ limit ih =>
      obtain ⟨depth, rfl⟩ := Nat.exists_eq_add_one.2 (Nat.zero_lt_of_lt hdepth)
      rw [expandWithin_succ, expandWithin_succ]
      congr 1
      refine expandPieces_congr fun before f rest hpieces _ => ?_
      have hmem : Piece.field f ∈ (pieces cs).1 := by simp [hpieces]
      have hshorter := spec_length_lt hmem
      refine expandField_congr ?_ ?_
      · exact fieldValue_congr fun _ _ => hagree _ (mem_mentioned.2 ⟨f, hmem, .inl rfl⟩)
      · intro _ _ _ _ _
        have hspec : f.spec.length < depth := by omega
        exact ih hspec fun n hn => hagree n (mem_mentioned.2 ⟨f, hmem, .inr hn⟩)

private theorem firstMissing?_congr {names : List String}
    (hagree : ∀ n ∈ names, values.get? n = values'.get? n) :
    firstMissing? values names = firstMissing? values' names := by
  induction names with
  | nil => rfl
  | cons n names ih =>
      have hn := hagree n (List.mem_cons_self ..)
      have hrest := ih fun m hm => hagree m (List.mem_cons_of_mem _ hm)
      unfold firstMissing? Entries.contains at *
      rw [List.find?_cons, List.find?_cons, hn, hrest]

private theorem render_congr {text : String}
    (hagree : ∀ names, variableNames text = .ok names →
      ∀ n ∈ names, values.get? n = values'.get? n) :
    render values text = render values' text := by
  unfold render
  cases hnames : variableNames text with
  | error e => simp only [bind, Except.bind]
  | ok names =>
      have hfound := hagree names hnames
      obtain ⟨-, hmentioned⟩ := variableNames_eq_ok_iff.1 hnames
      have hexpand : expand values text = expand values' text := by
        refine expandWithin_congr (Nat.lt_succ_self _) fun n hn => hfound n ?_
        rw [← hmentioned]
        exact mem_addNames.2 (.inr hn)
      simp only [bind, Except.bind, firstMissing?_congr hfound, hexpand]

end Template

/-! ## Parts -/

theorem TemplatePart.format_congr {values values' : Entries} {part : TemplatePart}
    (hagree : ∀ names, part.variableNames = .ok names →
      ∀ n ∈ names, values.get? n = values'.get? n) :
    part.format values = part.format values' := by
  cases part with
  | message m =>
      rw [format, format, Template.render_congr hagree]
  | placeholder name isOptional =>
      rw [format, format, hagree [name] rfl name (List.mem_singleton_self name)]

/-! ## Templates -/

namespace ChatTemplate

private theorem mem_of_collected {parts : List TemplatePart} {names all : List String}
    (h : parts.foldlM addVariables names = .ok all) :
    (∀ n ∈ names, n ∈ all) ∧
      ∀ part ∈ parts, ∀ found, part.variableNames = .ok found → ∀ n ∈ found, n ∈ all := by
  induction parts generalizing names with
  | nil =>
      cases h
      simp
  | cons part parts ih =>
      rw [List.foldlM_cons, Outcome.bind_eq_ok] at h
      obtain ⟨added, hadded, hrest⟩ := h
      rw [addVariables, Outcome.bind_eq_ok] at hadded
      obtain ⟨found, hfound, hnames⟩ := hadded
      cases hnames
      obtain ⟨hkept, hparts⟩ := ih hrest
      refine ⟨fun n hn => hkept n (Template.mem_addNames.2 (.inl hn)), ?_⟩
      intro other hother found' hfound' n hn
      rcases List.mem_cons.1 hother with rfl | hmem
      · rw [hfound] at hfound'
        cases hfound'
        exact hkept n (Template.mem_addNames.2 (.inr hn))
      · exact hparts other hmem found' hfound' n hn

theorem mem_inputVariables {t : ChatTemplate} {names : List String}
    (h : t.inputVariables = .ok names) {part : TemplatePart} (hpart : part ∈ t.parts)
    {found : List String} (hfound : part.variableNames = .ok found) {n : String} (hn : n ∈ found) :
    n ∈ names :=
  (mem_of_collected h).2 part hpart found hfound n hn

theorem groups_congr {values values' : Entries} {parts : List TemplatePart}
    (hparts : ∀ part ∈ parts, part.format values = part.format values') :
    parts.mapM (TemplatePart.format values) = parts.mapM (TemplatePart.format values') := by
  induction parts with
  | nil => rw [List.mapM_nil, List.mapM_nil]
  | cons part parts ih =>
      have hpart := hparts part (List.mem_cons_self ..)
      have hrest := ih fun other hother => hparts other (List.mem_cons_of_mem _ hother)
      rw [List.mapM_cons, List.mapM_cons, hpart, hrest]

theorem format_congr {t : ChatTemplate} {names : List String}
    (hnames : t.inputVariables = .ok names)
    {values values' : Entries} (hagree : ∀ n ∈ names, values.get? n = values'.get? n) :
    t.format values = t.format values' := by
  have hgroups : t.parts.mapM (TemplatePart.format values) =
      t.parts.mapM (TemplatePart.format values') := by
    refine groups_congr fun part hpart => TemplatePart.format_congr fun found hfound n hn => ?_
    exact hagree n (mem_inputVariables hnames hpart hfound hn)
  rw [format, format, hgroups]

/-! ### Values given by name -/

theorem bindNamed_eq {bound : Entries} (hplaces : ∀ k ∈ formatSignature.places, bound.contains k)
    (collected named : Entries) :
    formatSignature.bindNamed bound collected named =
      match named.find? (formatSignature.places.contains ·.1) with
      | some (k, _) =>
        .error (formatSignature.fault ("got multiple values for argument " ++ Text.quoted k))
      | none => .ok (bound, collected ++ named) := by
  induction named generalizing collected with
  | nil => simp [Signature.bindNamed]
  | cons entry named ih =>
      obtain ⟨k, v⟩ := entry
      have hcollects : formatSignature.collects = true := rfl
      have hnamed : Entries.contains formatSignature.named k = false := rfl
      rw [Signature.bindNamed, List.find?_cons]
      by_cases hk : k ∈ formatSignature.places
      · simp [hk, hplaces k hk]
      · simp [hk, hnamed, hcollects, ih]

theorem formatWith_dict (t : ChatTemplate) (values named : Entries) :
    t.formatWith (some (.dict values)) named =
      match named.find? (formatSignature.places.contains ·.1) with
      | some (k, _) =>
        .error (formatSignature.fault ("got multiple values for argument " ++ Text.quoted k))
      | none => t.format (values.override named) := by
  let bound : Entries := [("self", .none), ("variables", .dict values)]
  have hbound : ∀ k ∈ formatSignature.places, bound.contains k := by
    simp [bound, Signature.places, formatSignature, Entries.contains, Entries.get?]
  have hvariables : bound.get? "variables" = some (.dict values) := by
    simp [bound, Entries.get?, Table.lookup_cons]
  -- every parameter is given, so none is missing and no default is used
  have hreceiver : formatSignature.receiver = true := rfl
  have hgiven : formatSignature.places.zip [.none, .dict values] = bound := rfl
  have hplaces : formatSignature.places.length = 2 := rfl
  have hmissing : formatSignature.required.filter (fun p => !bound.contains p) = [] := rfl
  have hdefaults : (formatSignature.optional ++ formatSignature.named).filter
      (fun p => !bound.contains p.1) = [] := by
    simp [bound, formatSignature, Entries.contains, Entries.get?, Table.lookup_cons]
  have hbind : formatSignature.bind [.dict values] named =
      formatSignature.bindNamed bound [] named := by
    simp only [Signature.bind, hreceiver, if_true, hgiven, bindNamed_eq hbound]
    cases named.find? (formatSignature.places.contains ·.1) with
    | some entry => rfl
    | none => simp [bind, Except.bind, hplaces, hmissing, hdefaults, pure, Except.pure]
  rw [formatWith, Option.toList_some, hbind, bindNamed_eq hbound]
  cases named.find? (formatSignature.places.contains ·.1) with
  | some entry => rfl
  | none => simp [bind, Except.bind, hvariables, variableEntries]

private theorem get?_override_congr {values values' : Entries} {n : String}
    (h : values.get? n = values'.get? n) (named : Entries) :
    (values.override named).get? n = (values'.override named).get? n := by
  induction named generalizing values values' with
  | nil => exact h
  | cons entry named ih =>
      obtain ⟨k, v⟩ := entry
      exact ih (by rw [Entries.get?_insert, Entries.get?_insert, h])

private theorem formatWith_congr {t : ChatTemplate} {names : List String}
    (hnames : t.inputVariables = .ok names) {values values' : Entries}
    (hagree : ∀ n ∈ names, values.get? n = values'.get? n) (named : Entries) :
    t.formatWith (some (.dict values)) named = t.formatWith (some (.dict values')) named := by
  have hformat : t.format (values.override named) = t.format (values'.override named) :=
    format_congr hnames fun n hn => get?_override_congr (hagree n hn) named
  rw [formatWith_dict, formatWith_dict, hformat]

/-- Formatting gives the same messages or the same error for values that agree on the input
variables, so a value under any other name makes no difference. -/
theorem format_reads_inputVariables (t : ChatTemplate) (names : List String)
    (hnames : t.inputVariables = .ok names) :
    (∀ values values' : Entries, (∀ n ∈ names, values.get? n = values'.get? n) →
      t.format values = t.format values' ∧
        ∀ named, t.formatWith (some (.dict values)) named =
          t.formatWith (some (.dict values')) named) ∧
      ∀ (values : Entries) (n : String) (v : Value), n ∉ names →
        t.format (values.insert n v) = t.format values ∧
          ∀ named, t.formatWith (some (.dict (values.insert n v))) named =
            t.formatWith (some (.dict values)) named := by
  refine ⟨fun values values' hagree => ⟨format_congr hnames hagree, formatWith_congr hnames hagree⟩,
    fun values n v hn => ?_⟩
  have hagree : ∀ m ∈ names, Entries.get? (values.insert n v) m = values.get? m := by
    intro m hm
    have hne : m ≠ n := by
      rintro rfl
      exact hn hm
    simp [Entries.get?_insert, hne]
  exact ⟨format_congr hnames hagree, formatWith_congr hnames hagree⟩

def statement : ChatTemplate where
  parts :=
    [.placeholder "past" true,
      .message { role := .user, content := "\x7bamount:\x7bwidth\x7d\x7d" }]

private theorem inputVariables_statement :
    statement.inputVariables = .ok ["past", "amount", "width"] := by
  cbv

theorem statement_ignores_currency :
    statement.inputVariables = .ok ["past", "amount", "width"] ∧
      "currency" ∉ ["past", "amount", "width"] ∧
      statement.format [("amount", .int 3), ("width", .int 2), ("currency", .text "EUR")] =
        statement.format [("amount", .int 3), ("width", .int 2)] := by
  have hnew : "currency" ∉ ["past", "amount", "width"] := by simp
  have hinsert : Entries.insert "currency" (.text "EUR") [("amount", .int 3), ("width", .int 2)] =
      [("amount", .int 3), ("width", .int 2), ("currency", .text "EUR")] := by
    simp [Entries.insert, Table.put]
  refine ⟨inputVariables_statement, hnew, ?_⟩
  rw [← hinsert]
  exact ((format_reads_inputVariables statement _ inputVariables_statement).2
    [("amount", .int 3), ("width", .int 2)] "currency" (.text "EUR") hnew).1

end ChatTemplate

end ChatPipeline
