import ChatPipeline.Proofs.Template.Expansion
import ChatPipeline.Proofs.Value.Access

/-!
# What the expansion of a field may fail with

Whatever is done with the value of a field, following its path, converting it or laying it out,
fails only with a fault that tells of the value or of the spec (`IsOrdinary`).  No such fault says
that a variable is missing or that a field stands for a position.
-/

namespace ChatPipeline.Template

open ChatPipeline.Text ChatPipeline.Decimal

/-! ## Ordinary faults -/

/-- A general fault with another text than that of a positional field. -/
inductive IsOrdinary : Failure → Prop where
  | raised (h : kind ≠ .value) (details : List Value) : IsOrdinary (.raised kind details)
  | value (h : text ≠ "Format string contains positional fields") : IsOrdinary (valueFault text)

abbrev Ordinary (x : Outcome α) : Prop := x.FailsAs IsOrdinary

/-- Most texts differ from that of a positional field in their first letter. -/
theorem IsOrdinary.of_head {text : String} (h : text.toList.head? ≠ some 'F') :
    IsOrdinary (valueFault text) := by
  refine .value fun heq => h ?_
  rw [heq]
  decide

theorem not_isOrdinary_positionalField : ¬ IsOrdinary positionalField := by
  intro h
  generalize he : positionalField = e at h
  cases h with
  | raised hkind details =>
      cases he
      exact hkind rfl
  | value htext =>
      cases he
      exact htext rfl

theorem not_isOrdinary_missingVariable (name : String) : ¬ IsOrdinary (.missingVariable name) :=
  nofun

private theorem ordinary_of_looks {x : Outcome α} (h : Value.Looks x) : Ordinary x := by
  refine h.mono fun f hf => ?_
  cases hf with | raised hkind details
  refine .raised ?_ details
  rintro rfl
  simp [Value.missKinds] at hkind

private theorem isOrdinary_unwritable : IsOrdinary .unwritable := .value (by decide)

private theorem ordinary_written (text : Option String) : Ordinary (Failure.written text) := by
  cases text with
  | some s => exact .ok s
  | none => exact .error isOrdinary_unwritable

/-! ## Layout -/

theorem isOrdinary_unknownCode (c : Char) (typeName : String) :
    IsOrdinary (unknownCode c typeName) :=
  .of_head (by simp)

private theorem ordinary_readNumber (cs : List Char) : Ordinary (readNumber cs) := by
  unfold readNumber
  dsimp only
  split
  · exact .error (.value (by decide))
  · exact .ok _

private theorem ordinary_takeGrouping (cs : List Char) : Ordinary (takeGrouping cs) := by
  unfold takeGrouping
  dsimp only
  split
  · split
    · exact .error (.value (by decide))
    · exact .ok _
  · exact .ok _

private theorem ordinary_takePrecision (cs : List Char) : Ordinary (takePrecision cs) := by
  unfold takePrecision
  split
  · refine (ordinary_readNumber _).bind fun found => ?_
    dsimp only
    split
    · exact .error (.value (by decide))
    · exact .ok _
  · exact .ok _

private theorem ordinary_checkGrouping (grouping : Option Grouping) (code : Option Char) :
    Ordinary (checkGrouping grouping code) := by
  unfold checkGrouping
  split
  · exact .ok _
  · exact .ok _
  · split
    · exact .ok _
    · exact .error (.of_head (by simp))

private theorem ordinary_parse (defaults : LayoutDefaults) (spec : List Char) :
    Ordinary (Layout.parse defaults spec) := by
  unfold Layout.parse
  -- what the flags are makes no difference; only the numbers and the groupings can fail
  rcases takeAlignment spec with ⟨fill, align, cs⟩
  rcases takeClass SignRule.ofChar? cs with ⟨sign, cs⟩
  rcases takeFlag 'z' cs with ⟨noNegativeZero, cs⟩
  rcases takeFlag '#' cs with ⟨alternate, cs⟩
  rcases (if fill.isNone then takeFlag '0' cs else (false, cs)) with ⟨zeroFill, cs⟩
  dsimp only
  refine (ordinary_readNumber _).bind fun ⟨n, count, cs⟩ => ?_
  refine (ordinary_takeGrouping _).bind fun ⟨grouping, cs⟩ => ?_
  refine (ordinary_takePrecision _).bind fun ⟨precision, cs⟩ => ?_
  dsimp only
  split
  · exact (ordinary_checkGrouping _ _).bind fun _ => .ok _
  · exact (ordinary_checkGrouping _ _).bind fun _ => .ok _
  · exact .error (.of_head (by simp))

private theorem ordinary_layoutText (spec : List Char) (s : String) :
    Ordinary (layoutText spec s) := by
  unfold layoutText
  split
  · exact .ok _
  · refine (ordinary_parse _ _).bind fun l => ?_
    refine .guard (isOrdinary_unknownCode _ _) ?_
    cases l.sign with
    | none =>
        refine .guard (IsOrdinary.value (by decide)) ?_
        refine .guard (IsOrdinary.value (by decide)) ?_
        exact .guard (IsOrdinary.value (by decide)) (.ok _)
    | some rule => cases rule <;> exact .error (IsOrdinary.value (by decide))

private theorem ordinary_placeFloat (l : Layout) (x : Float) : Ordinary (placeFloat l x) := by
  unfold placeFloat
  split
  · exact .error (.value (by decide))
  · exact .ok _

private theorem ordinary_layoutFloat (spec : List Char) (x : Float) :
    Ordinary (layoutFloat spec x) := by
  unfold layoutFloat
  split
  · exact .ok _
  · refine (ordinary_parse _ _).bind fun l => ?_
    split
    · exact ordinary_placeFloat _ _
    · split
      · exact ordinary_placeFloat _ _
      · exact .error (isOrdinary_unknownCode _ _)

private theorem ordinary_layoutCharacter (l : Layout) (i : Int) :
    Ordinary (layoutCharacter l i) := by
  unfold layoutCharacter
  refine .guard (.value (by decide)) ?_
  refine .guard (.value (by decide)) ?_
  refine .guard (.raised (by decide) _) ?_
  exact .guard (.raised (by decide) _) (.ok _)

private theorem ordinary_layoutInteger (l : Layout) (code : Char) (i : Int) :
    Ordinary (layoutInteger l code i) := by
  unfold layoutInteger
  refine .guard (.value (by decide)) ?_
  refine .guard (.value (by decide)) ?_
  split
  · exact ordinary_layoutCharacter _ _
  · exact .guard isOrdinary_unwritable (.ok _)

private theorem ordinary_layoutInt (typeName : String) (spec : List Char) (i : Int) :
    Ordinary (layoutInt typeName spec i) := by
  unfold layoutInt
  refine (ordinary_parse _ _).bind fun l => ?_
  dsimp only
  split
  · exact ordinary_layoutInteger _ _ _
  · split
    · split
      · exact ordinary_placeFloat _ _
      · exact .error (.raised (by decide) _)
    · exact .error (isOrdinary_unknownCode _ _)

theorem ordinary_layout (spec : List Char) (v : Value) : Ordinary (layout spec v) := by
  unfold layout
  split
  · exact ordinary_layoutText _ _
  · split
    · exact ordinary_written _
    · exact ordinary_layoutInt _ _ _
  · split
    · exact ordinary_written _
    · exact ordinary_layoutInt _ _ _
  · exact ordinary_layoutFloat _ _
  · exact ordinary_layoutText _ _
  · split
    · exact ordinary_written _
    · exact .error (.raised (by decide) _)

/-! ## Paths and conversions -/

theorem ordinary_position? (name : List Char) : Ordinary (position? name) :=
  (ordinary_readNumber name).map _

theorem ordinary_convert (v : Value) (conversion : Option Char) :
    Ordinary (convert v conversion) := by
  unfold convert
  split
  · exact .ok _
  · exact .ok _
  · exact (ordinary_written _).map _
  · exact (ordinary_written _).map _
  · exact (ordinary_written _).map _
  · exact .error (.of_head (by simp))

private theorem ordinary_getAttribute (v : Value) (name : String) :
    Ordinary (v.getAttribute name) := by
  unfold Value.getAttribute
  split
  · exact .ok _
  · exact .error (.raised (by decide) _)

private theorem ordinary_pathStep (v : Value) (path : List Char) : Ordinary (pathStep v path) := by
  unfold pathStep
  split
  · dsimp only
    split
    · exact .error (.value (by decide))
    · exact (ordinary_getAttribute _ _).bind fun _ => .ok _
  · dsimp only
    split
    · exact .error (.value (by decide))
    · refine (ordinary_position? _).bind fun index => ?_
      refine .guard (.value (by decide)) ?_
      split
      · exact (ordinary_of_looks (v.looks_element _)).bind fun _ => .ok _
      · exact (ordinary_of_looks (v.looks_entry _)).bind fun _ => .ok _
  · exact .error (.value (by decide))

theorem ordinary_followPath (fuel : Nat) (v : Value) (path : List Char) :
    Ordinary (followPath fuel v path) := by
  induction fuel generalizing v path with
  | zero => cases path <;> exact .ok _
  | succ fuel ih =>
      cases path with
      | nil => exact .ok _
      | cons c path => exact (ordinary_pathStep _ _).bind fun _ => ih _ _

end ChatPipeline.Template
