import Mathlib.Data.List.TakeWhile
import ChatPipeline.Proofs.Template.Faults
import ChatPipeline.Proofs.Template.Rendering
import ChatPipeline.Proofs.Template.Independence

/-!
# Fields that stand for a position

A field whose variable is empty or a row of decimal digits stands for a position, and there are no
positions to take values from.  Such a field may stand in a text or, at any depth, in the spec of
another field (`Occurs`).  A text that holds one is never rendered.  Collecting the variables turns
away the empty ones alone: a row of digits is listed like a name, and every number that is listed
comes from such a field or is the name of a placeholder.
-/

namespace ChatPipeline

namespace Template

open ChatPipeline.Text

/-! ## Positions -/

def leadingNumber (name : List Char) : Nat :=
  ofDigits 10 ((name.takeWhile isDigit).filterMap digitValue?)

def IsNumeral (name : String) : Prop := name ≠ "" ∧ ∀ c ∈ name.toList, isDigit c

instance : DecidablePred IsNumeral := fun name =>
  decidable_of_iff (name ≠ "" ∧ name.toList.all isDigit) (by rw [IsNumeral, List.all_eq_true])

def Field.IsPositional (f : Field) : Prop := ∀ c ∈ rootName f.name, isDigit c

instance : DecidablePred Field.IsPositional := fun _ => decidable_of_iff _ List.all_eq_true

theorem isNumeral_ofList {name : List Char} :
    IsNumeral (String.ofList name) ↔ name ≠ [] ∧ ∀ c ∈ name, isDigit c := by
  simp [IsNumeral]

theorem position?_eq (name : List Char) :
    position? name =
      if maxNumber < leadingNumber name then
        .error (valueFault "Too many decimal digits in format string")
      else if name ≠ [] ∧ name.all isDigit then .ok (some (leadingNumber name))
      else .ok none := by
  unfold position? readNumber leadingNumber
  dsimp only
  split
  · rfl
  · by_cases hall : name.all isDigit
    · have htaken : name.takeWhile isDigit = name :=
        List.takeWhile_eq_self_iff.2 (List.all_eq_true.1 hall)
      have hrest : name.dropWhile isDigit = [] :=
        List.dropWhile_eq_nil_iff.2 (List.all_eq_true.1 hall)
      rw [htaken, hrest]
      cases name <;> simp [Except.map, hall]
    · have hrest : name.dropWhile isDigit ≠ [] := fun h =>
        hall (List.all_eq_true.2 (List.dropWhile_eq_nil_iff.1 h))
      simp [Except.map, hall, hrest]

private theorem isDigit_of_position?_eq_some {name : List Char} {n : Nat}
    (h : position? name = .ok (some n)) : ∀ c ∈ name, isDigit c := by
  rw [position?_eq] at h
  split at h
  · cases h
  · split at h
    case isTrue hnumeral => exact List.all_eq_true.1 hnumeral.2
    case isFalse => cases h

private theorem position?_ne_none {name : List Char} (hname : name ≠ [])
    (hall : ∀ c ∈ name, isDigit c) :
    position? name ≠ .ok none := by
  rw [position?_eq]
  split
  · exact nofun
  · rw [if_pos ⟨hname, List.all_eq_true.2 hall⟩]
    exact nofun

/-! ## Occurrences -/

/-- A field stands in a text or, at some depth, in the spec of a field of the text. -/
inductive Occurs (f : Field) : List Char → Prop where
  | here (h : Piece.field f ∈ (pieces cs).1) : Occurs f cs
  | inSpec (hg : Piece.field g ∈ (pieces cs).1) (h : Occurs f g.spec) : Occurs f cs

private theorem not_occurs_of_plain {cs : List Char} (h : pieces cs = (cs.map .literal, none))
    (f : Field) :
    ¬ Occurs f cs := by
  rintro (hmem | hmem) <;> simp [h] at hmem

private theorem mem_mentioned_iff_occurs {depth : Nat} {cs : List Char} (hdepth : cs.length < depth)
    {n : String} :
    n ∈ mentioned depth cs ↔ ∃ f, Occurs f cs ∧ String.ofList (rootName f.name) = n := by
  constructor
  · intro hn
    induction depth generalizing cs with
    | zero => simp [mentioned] at hn
    | succ depth ih =>
        obtain ⟨f, hf, rfl | hspec⟩ := mem_mentioned.1 hn
        · exact ⟨f, .here hf, rfl⟩
        · have hshorter := spec_length_lt hf
          obtain ⟨g, hg, hroot⟩ := ih (by omega) hspec
          exact ⟨g, .inSpec hf hg, hroot⟩
  · rintro ⟨f, hf, rfl⟩
    induction hf generalizing depth with
    | here hmem =>
        obtain ⟨depth, rfl⟩ := Nat.exists_eq_add_one.2 (Nat.zero_lt_of_lt hdepth)
        exact mem_mentioned.2 ⟨f, hmem, .inl rfl⟩
    | inSpec hg _ ih =>
        obtain ⟨depth, rfl⟩ := Nat.exists_eq_add_one.2 (Nat.zero_lt_of_lt hdepth)
        have hshorter := spec_length_lt hg
        exact mem_mentioned.2 ⟨_, hg, .inr (ih (by omega))⟩

private theorem rootName_ne_nil_of_readable {depth : Nat} {cs : List Char}
    (hread : Readable depth cs)
    (hdepth : cs.length < depth) {f : Field} (hf : Occurs f cs) : rootName f.name ≠ [] := by
  induction hf generalizing depth with
  | here hmem =>
      obtain ⟨depth, rfl⟩ := Nat.exists_eq_add_one.2 (Nat.zero_lt_of_lt hdepth)
      exact (hread.2 f hmem).1
  | inSpec hg _ ih =>
      obtain ⟨depth, rfl⟩ := Nat.exists_eq_add_one.2 (Nat.zero_lt_of_lt hdepth)
      have hshorter := spec_length_lt hg
      exact ih (hread.2 _ hg).2 (by omega)

/-! ## Collecting -/

inductive IsRefusal : Failure → Prop where
  | malformed (fault : MarkupFault) : IsRefusal (valueFault fault.message)
  | noVariable (cs : List Char) : IsRefusal (unsupportedPositional cs)

theorem IsRefusal.kind_eq {e : Failure} (h : IsRefusal e) : e.kind = "ValueError" := by
  cases h <;> rfl

private theorem isOrdinary_malformed (fault : MarkupFault) :
    IsOrdinary (valueFault fault.message) := by
  cases fault <;> exact .value (by decide)

theorem IsRefusal.isOrdinary {e : Failure} (h : IsRefusal e) : IsOrdinary e := by
  cases h with
  | malformed fault => exact isOrdinary_malformed fault
  | noVariable cs => exact .of_head (by simp)

private theorem failsAs_collect {ofSpec : List Char → Outcome (List String)}
    (hspec : ∀ spec, (ofSpec spec).FailsAs IsRefusal) (cs : List Char) (fault : Option MarkupFault)
    (ps : List Piece) (names : List String) :
    (collect ofSpec cs fault ps names).FailsAs IsRefusal := by
  induction ps generalizing names with
  | nil =>
      cases fault with
      | none => exact .ok _
      | some fault => exact .error (.malformed fault)
  | cons p ps ih =>
      cases p with
      | literal c => exact ih names
      | field f =>
          rw [collect]
          split
          · exact .error (.noVariable cs)
          · have hinner : (if f.spec.isEmpty then .ok [] else ofSpec f.spec).FailsAs IsRefusal := by
              split
              · exact .ok _
              · exact hspec _
            split
            case h_1 e he => exact .error (hinner.of_error he)
            case h_2 inner => exact ih _

theorem failsAs_variablesWithin (depth : Nat) (cs : List Char) :
    (variablesWithin depth cs).FailsAs IsRefusal := by
  induction depth generalizing cs with
  | zero => exact .ok _
  | succ depth ih => exact failsAs_collect ih _ _ _ _

private theorem variableNames_of_root_nil {text : String} {f : Field} (hf : Occurs f text.toList)
    (hroot : rootName f.name = []) : ∃ e, variableNames text = .error e := by
  cases hnames : variableNames text with
  | error e => exact ⟨e, rfl⟩
  | ok names =>
      obtain ⟨hread, -⟩ := variableNames_eq_ok_iff.1 hnames
      exact absurd hroot (rootName_ne_nil_of_readable hread (Nat.lt_succ_self _) hf)

private theorem numeral_mem_iff {text : String} {names : List String}
    (h : variableNames text = .ok names)
    {n : String} :
    n ∈ names ∧ IsNumeral n ↔
      ∃ f, Occurs f text.toList ∧ f.IsPositional ∧ String.ofList (rootName f.name) = n := by
  obtain ⟨hread, rfl⟩ := variableNames_eq_ok_iff.1 h
  rw [mem_addNames, mem_mentioned_iff_occurs (Nat.lt_succ_self _)]
  constructor
  · rintro ⟨hn | ⟨f, hf, rfl⟩, hnumeral⟩
    · simp at hn
    · exact ⟨f, hf, (isNumeral_ofList.1 hnumeral).2, rfl⟩
  · rintro ⟨f, hf, hpositional, rfl⟩
    have hroot := rootName_ne_nil_of_readable hread (Nat.lt_succ_self _) hf
    exact ⟨.inr ⟨f, hf, rfl⟩, isNumeral_ofList.2 ⟨hroot, hpositional⟩⟩

/-! ## Expanding -/

theorem fieldValue_ne_ok {values : Entries} {f : Field} (hf : f.IsPositional) (v : Value) :
    fieldValue values f.name ≠ .ok v := by
  intro h
  obtain ⟨hposition, hroot, -⟩ := fieldValue_eq_ok_iff.1 h
  exact position?_ne_none hroot hf hposition

/-- A text with a positional field is not expanded, however deep the field stands in it. -/
theorem expandWithin_ne_ok {values : Entries} {cs : List Char} {f : Field} (hf : Occurs f cs)
    (hpositional : f.IsPositional) (limit : Nat) (s : String) :
    expandWithin values limit cs ≠ .ok s := by
  induction hf generalizing limit s with
  | here hmem =>
      intro h
      cases limit with
      | zero => cases h
      | succ limit =>
          rw [expandWithin_succ, Outcome.map_eq_ok] at h
          obtain ⟨out, hout, -⟩ := h
          obtain ⟨t, ht⟩ := (expandPieces_eq_ok hout).2 f hmem
          obtain ⟨v, hvalue, -⟩ := expandField_eq_ok_iff.1 ht
          exact fieldValue_ne_ok hpositional v hvalue
  | @inSpec cs g hg hspec ih =>
      intro h
      cases limit with
      | zero => cases h
      | succ limit =>
          rw [expandWithin_succ, Outcome.map_eq_ok] at h
          obtain ⟨out, hout, -⟩ := h
          obtain ⟨t, ht⟩ := (expandPieces_eq_ok hout).2 g hg
          obtain ⟨v, -, shown, -, spec, hexpanded, -⟩ := expandField_eq_ok_iff.1 ht
          by_cases hopen : '{' ∈ g.spec
          · rw [if_pos (by simpa using hopen)] at hexpanded
            exact ih limit spec hexpanded
          · exact not_occurs_of_plain (pieces_spec_of_plain hg hopen) f hspec

inductive ExpansionFault (cs : List Char) : Failure → Prop where
  | ordinary (h : IsOrdinary e) : ExpansionFault cs e
  | positional (hf : Occurs f cs) (hpositional : f.IsPositional) : ExpansionFault cs positionalField

theorem ExpansionFault.of_spec {cs : List Char} {g : Field} (hg : Piece.field g ∈ (pieces cs).1)
    {e : Failure} (h : ExpansionFault g.spec e) : ExpansionFault cs e := by
  cases h with
  | ordinary h => exact .ordinary h
  | positional hf hpositional => exact .positional (.inSpec hg hf) hpositional

private theorem failsAs_fieldValue (values : Entries) {cs : List Char} {f : Field}
    (hf : Piece.field f ∈ (pieces cs).1) :
    (fieldValue values f.name).FailsAs (ExpansionFault cs) := by
  unfold fieldValue
  simp only [← rootName_eq_takeWhile]
  cases hposition : position? (rootName f.name) with
  | error e => exact .error (.ordinary ((ordinary_position? _).of_error hposition))
  | ok position =>
      have hpositional : (position.isSome || (rootName f.name).isEmpty) = true → f.IsPositional := by
        intro h c hc
        cases position with
        | some n => exact isDigit_of_position?_eq_some hposition c hc
        | none =>
            cases hroot : rootName f.name with
            | nil => simp [hroot] at hc
            | cons => simp [hroot] at h
      simp only [bind, Except.bind, throw, throwThe, MonadExceptOf.throw]
      split
      case isTrue h => exact .error (.positional (.here hf) (hpositional h))
      case isFalse =>
        split
        · exact .error (.ordinary (.raised (by decide) _))
        · exact (ordinary_followPath _ _ _).mono fun _ => .ordinary

private theorem failsAs_expandPieces {p : Failure → Prop} {ofField : Field → Outcome String}
    {fault : Option MarkupFault} (hfault : ∀ fault : MarkupFault, p (valueFault fault.message))
    {ps : List Piece} (hfields : ∀ f, Piece.field f ∈ ps → (ofField f).FailsAs p) :
    (expandPieces ofField fault ps).FailsAs p := by
  induction ps with
  | nil =>
      cases fault with
      | none => exact .ok _
      | some fault => exact .error (hfault fault)
  | cons piece ps ih =>
      have hrest := ih fun f hf => hfields f (List.mem_cons_of_mem _ hf)
      cases piece with
      | literal c => exact hrest.bind fun _ => .ok _
      | field f =>
          exact (hfields f (List.mem_cons_self ..)).bind fun _ => hrest.bind fun _ => .ok _

theorem failsAs_expandWithin (values : Entries) (limit : Nat) (cs : List Char) :
    (expandWithin values limit cs).FailsAs (ExpansionFault cs) := by
  induction limit generalizing cs with
  | zero => exact .error (.ordinary (.value (by decide)))
  | succ limit ih =>
      rw [expandWithin_succ]
      refine Outcome.FailsAs.map ?_ _
      refine failsAs_expandPieces (fun fault => .ordinary (isOrdinary_malformed fault)) ?_
      intro f hf
      unfold expandField
      refine (failsAs_fieldValue values hf).bind fun v => ?_
      refine ((ordinary_convert v f.conversion).mono fun _ => .ordinary).bind fun shown => ?_
      have hlayout : ∀ spec, (layout spec shown).FailsAs (ExpansionFault cs) := fun spec =>
        (ordinary_layout spec shown).mono fun _ => .ordinary
      dsimp only
      split
      · exact ((ih f.spec).mono fun _ => .of_spec hf).bind fun spec => hlayout _
      · exact hlayout _

/-! ## Rendering -/

theorem render_positional {values : Entries} {text : String}
    (h : render values text = .error positionalField) :
    ∃ names, variableNames text = .ok names ∧ ∃ n ∈ names, IsNumeral n := by
  cases hnames : variableNames text with
  | error e =>
      have hrefusal := (failsAs_variablesWithin _ _).of_error hnames
      simp only [render, hnames, bind, Except.bind, Except.error.injEq] at h
      exact absurd (h ▸ hrefusal.isOrdinary) not_isOrdinary_positionalField
  | ok names =>
      refine ⟨names, rfl, ?_⟩
      cases hmissing : firstMissing? values names with
      | some n =>
          rw [render_of_missing hnames hmissing] at h
          cases h
      | none =>
          rw [render_of_none_missing hnames hmissing] at h
          generalize he : positionalField = e at h
          cases (failsAs_expandWithin _ _ _).of_error h with
          | ordinary hordinary => exact absurd (he ▸ hordinary) not_isOrdinary_positionalField
          | positional hf hpositional =>
              obtain ⟨hn, hnumeral⟩ := (numeral_mem_iff hnames).2 ⟨_, hf, hpositional, rfl⟩
              exact ⟨_, hn, hnumeral⟩

end Template

/-! ## Templates -/

theorem ChatTemplate.exists_of_mem_collected {parts : List TemplatePart} {names all : List String}
    (h : parts.foldlM addVariables names = .ok all) {n : String} (hn : n ∈ all) :
    n ∈ names ∨ ∃ part ∈ parts, ∃ found, part.variableNames = .ok found ∧ n ∈ found := by
  induction parts generalizing names with
  | nil =>
      cases h
      exact .inl hn
  | cons part parts ih =>
      rw [List.foldlM_cons, Outcome.bind_eq_ok] at h
      obtain ⟨added, hadded, hrest⟩ := h
      rw [addVariables, Outcome.bind_eq_ok] at hadded
      obtain ⟨found, hfound, hnames⟩ := hadded
      cases hnames
      rcases ih hrest with hadded | ⟨other, hother, hlisted⟩
      · rcases Template.mem_addNames.1 hadded with hold | hnew
        · exact .inl hold
        · exact .inr ⟨part, List.mem_cons_self .., found, hfound, hnew⟩
      · exact .inr ⟨other, List.mem_cons_of_mem _ hother, hlisted⟩

namespace Template

/-- A positional field is refused if it has no variable and listed like a name if it is a number.
It is never rendered, and rendering complains of a position only where a number is listed; the
numbers that a template lists are such fields and the names of its placeholders. -/
theorem positional_refused_or_listed (text : String) :
    (∀ e, variableNames text = .error e → e.kind = "ValueError") ∧
      (∀ f, Occurs f text.toList → rootName f.name = [] → ∃ e, variableNames text = .error e) ∧
      (∀ names, variableNames text = .ok names → ∀ n, n ∈ names ∧ IsNumeral n ↔
        ∃ f, Occurs f text.toList ∧ f.IsPositional ∧ String.ofList (rootName f.name) = n) ∧
      (∀ values,
        (∀ f, Occurs f text.toList → f.IsPositional → ∀ s, render values text ≠ .ok s) ∧
          (render values text = .error positionalField →
            ∃ names, variableNames text = .ok names ∧ ∃ n ∈ names, IsNumeral n)) ∧
      ∀ (t : ChatTemplate) names, t.inputVariables = .ok names → ∀ n ∈ names, IsNumeral n →
        (∃ isOptional, .placeholder n isOptional ∈ t.parts) ∨
          ∃ m, .message m ∈ t.parts ∧ ∃ f, Occurs f m.content.toList ∧ f.IsPositional ∧
            String.ofList (rootName f.name) = n := by
  refine ⟨fun e he => ((failsAs_variablesWithin _ _).of_error he).kind_eq, ?_,
    fun names hnames n => numeral_mem_iff hnames, fun values => ⟨?_, render_positional⟩, ?_⟩
  · intro f hf hroot
    exact variableNames_of_root_nil hf hroot
  · intro f hf hpositional s hs
    obtain ⟨names, -, -, hexpanded⟩ := render_eq_ok_iff.1 hs
    exact expandWithin_ne_ok hf hpositional 2 s hexpanded
  · intro t names hnames n hn hnumeral
    rcases ChatTemplate.exists_of_mem_collected hnames hn with hnil | ⟨part, hpart, found, hfound, hlisted⟩
    · simp at hnil
    · cases part with
      | placeholder name isOptional =>
          cases hfound
          obtain rfl := List.mem_singleton.1 hlisted
          exact .inl ⟨isOptional, hpart⟩
      | message m => exact .inr ⟨m, hpart, (numeral_mem_iff hfound).1 ⟨hlisted, hnumeral⟩⟩

/-! ### A number in a text -/

def firstEntry : String := "\x7b0\x7d"

private theorem pieces_firstEntry :
    pieces firstEntry.toList = ([.field { name := ['0'] }], none) := by
  cbv

private theorem firstEntry_occurs : Occurs { name := ['0'] } firstEntry.toList := by
  refine .here ?_
  rw [pieces_firstEntry]
  exact List.mem_singleton_self _

private theorem zero_isPositional : Field.IsPositional { name := ['0'] } := by decide

private theorem variableNames_firstEntry : variableNames firstEntry = .ok ["0"] := by cbv

private theorem render_firstEntry :
    render [("0", .text "x")] firstEntry = .error positionalField := by
  rw [render_of_pieces variableNames_firstEntry rfl pieces_firstEntry]
  rfl

/-- The number is listed as a variable; with a value under that name, rendering complains of a
position. -/
theorem firstEntry_listed :
    Occurs { name := ['0'] } firstEntry.toList ∧ Field.IsPositional { name := ['0'] } ∧
      variableNames firstEntry = .ok ["0"] ∧
      render [("0", .text "x")] firstEntry = .error positionalField :=
  ⟨firstEntry_occurs, zero_isPositional, variableNames_firstEntry, render_firstEntry⟩

def firstAsWidth : String := "\x7bamount:\x7b0\x7d\x7d"

def nothingAsWidth : String := "\x7bamount:\x7b\x7d\x7d"

private theorem firstAsWidth_occurs : Occurs { name := ['0'] } firstAsWidth.toList := by
  have hamount : Piece.field { name := "amount".toList, spec := firstEntry.toList } ∈
      (pieces firstAsWidth.toList).1 := by
    have hpieces : (pieces firstAsWidth.toList).1 =
        [.field { name := "amount".toList, spec := firstEntry.toList }] := by cbv
    rw [hpieces]
    exact List.mem_singleton_self _
  exact .inSpec hamount firstEntry_occurs

private theorem nothingAsWidth_occurs : Occurs { name := [] } nothingAsWidth.toList := by
  have hamount : Piece.field { name := "amount".toList, spec := "\x7b\x7d".toList } ∈
      (pieces nothingAsWidth.toList).1 := by
    have hpieces : (pieces nothingAsWidth.toList).1 =
        [.field { name := "amount".toList, spec := "\x7b\x7d".toList }] := by cbv
    rw [hpieces]
    exact List.mem_singleton_self _
  have hwidth : Piece.field { name := [] } ∈ (pieces "\x7b\x7d".toList).1 := by
    have hpieces : (pieces "\x7b\x7d".toList).1 = [.field { name := [] }] := by cbv
    rw [hpieces]
    exact List.mem_singleton_self _
  exact .inSpec hamount (.here hwidth)

private theorem variableNames_firstAsWidth : variableNames firstAsWidth = .ok ["amount", "0"] := by
  cbv

def numbered : ChatTemplate where
  parts := [.placeholder "7" true, .message { role := .user, content := firstAsWidth }]

private theorem inputVariables_numbered : numbered.inputVariables = .ok ["7", "amount", "0"] := by
  cbv

/-- A width without a variable is refused; a width under a number is listed and never filled in. -/
theorem widths_refused_or_listed :
    (Occurs { name := [] } nothingAsWidth.toList ∧ ∃ e, variableNames nothingAsWidth = .error e) ∧
      (Occurs { name := ['0'] } firstAsWidth.toList ∧ Field.IsPositional { name := ['0'] } ∧
        variableNames firstAsWidth = .ok ["amount", "0"] ∧
        ("0" ∈ ["amount", "0"] ∧ IsNumeral "0") ∧
        ∀ s, render [("amount", .int 3), ("0", .int 5)] firstAsWidth ≠ .ok s) ∧
      (render [("0", .text "x")] firstEntry = .error positionalField ∧
        ∃ names, variableNames firstEntry = .ok names ∧ ∃ n ∈ names, IsNumeral n) ∧
      numbered.inputVariables = .ok ["7", "amount", "0"] ∧
      ((∃ isOptional, .placeholder "7" isOptional ∈ numbered.parts) ∨
        ∃ m, .message m ∈ numbered.parts ∧ ∃ f, Occurs f m.content.toList ∧ f.IsPositional ∧
          String.ofList (rootName f.name) = "7") := by
  have hnothing := positional_refused_or_listed nothingAsWidth
  have hwidth := positional_refused_or_listed firstAsWidth
  have hentry := positional_refused_or_listed firstEntry
  have hnames := variableNames_firstAsWidth
  refine ⟨⟨nothingAsWidth_occurs, hnothing.2.1 _ nothingAsWidth_occurs rfl⟩,
    ⟨firstAsWidth_occurs, zero_isPositional, hnames, ?_, ?_⟩, ⟨render_firstEntry, ?_⟩,
    inputVariables_numbered, ?_⟩
  · exact (hwidth.2.2.1 _ hnames "0").2 ⟨_, firstAsWidth_occurs, zero_isPositional, rfl⟩
  · exact (hwidth.2.2.2.1 _).1 _ firstAsWidth_occurs zero_isPositional
  · exact (hentry.2.2.2.1 _).2 render_firstEntry
  · exact hwidth.2.2.2.2 _ _ inputVariables_numbered "7" (by decide) (by decide)

end Template

end ChatPipeline
