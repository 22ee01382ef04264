import ChatPipeline.Proofs.Template.Expansion

/-!
# Checking variables before expanding

Rendering collects the variables of a text and makes sure that they are there before it expands the
text.  The check turns away nothing that could be expanded (`variableNames_of_covered`), and where
the expansion would stop at a variable that is absent (`StopsAt`), the first absent name among the
collected ones is that variable (`StopsAt.find?_mentioned`).  So rendering gives a text exactly
where expanding does, and reports absent variables by name (`render_refines_expand`).
-/

namespace ChatPipeline.Template

private theorem variableNames_of_covered {values : Entries} {text : String}
    (h : Covered values (text.toList.length + 1) text.toList) :
    ∃ names, variableNames text = .ok names ∧ firstMissing? values names = none := by
  refine ⟨_, variableNames_eq_ok_iff.2 ⟨h.1, rfl⟩, ?_⟩
  unfold firstMissing?
  rw [find?_addNames, List.nil_append, List.find?_eq_none]
  intro n hn
  simp [h.2 n hn]

/-! ## Where an expansion stops -/

/-- The expansion of a text stops at a variable that is absent: everything before a field is
expanded, and then the variable is looked up, for the field itself or in the same way for its spec.
-/
inductive StopsAt (values : Entries) (absent : String) : Nat → List Char → Prop where
  | name (hpieces : (pieces cs).1 = before ++ .field f :: rest)
      (hbefore : ∀ g, Piece.field g ∈ before →
        ∃ t, expandField (expandWithin values depth) values g = .ok t)
      (hposition : position? (rootName f.name) = .ok none) (hroot : rootName f.name ≠ [])
      (hname : String.ofList (rootName f.name) = absent) (habsent : values.get? absent = none) :
      StopsAt values absent (depth + 1) cs
  | spec (hpieces : (pieces cs).1 = before ++ .field f :: rest)
      (hbefore : ∀ g, Piece.field g ∈ before →
        ∃ t, expandField (expandWithin values depth) values g = .ok t)
      (hvalue : fieldValue values f.name = .ok v) (hshown : convert v f.conversion = .ok shown)
      (hopen : '{' ∈ f.spec) (hspec : StopsAt values absent depth f.spec) :
      StopsAt values absent (depth + 1) cs

theorem StopsAt.expandWithin_eq {values : Entries} {absent : String} {depth : Nat} {cs : List Char}
    (h : StopsAt values absent depth cs) :
    expandWithin values depth cs = .error (.raised .key [.text absent]) := by
  induction h with
  | name hpieces hbefore hposition hroot hname habsent =>
      refine expandWithin_eq_error hpieces hbefore ?_
      rw [expandField, fieldValue_of_absent hposition hroot (hname ▸ habsent), hname]
      rfl
  | spec hpieces hbefore hvalue hshown hopen _ ih =>
      refine expandWithin_eq_error hpieces hbefore ?_
      rw [expandField, hvalue]
      simp [bind, Except.bind, hshown, hopen, ih]

private theorem find?_mentioned_of_expanded {values : Entries} {limit depth : Nat} {cs : List Char}
    {before rest : List Piece} (hpieces : (pieces cs).1 = before ++ rest)
    (hbefore : ∀ g, Piece.field g ∈ before →
      ∃ t, expandField (expandWithin values limit) values g = .ok t) :
    (mentioned (depth + 1) cs).find? (fun n => !values.contains n) =
      (rest.flatMap (Piece.names (mentioned depth))).find? (fun n => !values.contains n) := by
  rw [mentioned, hpieces, List.flatMap_append, List.find?_append, Option.or_eq_right_of_none]
  rw [List.find?_eq_none]
  intro n hn
  obtain ⟨c | g, hg, hnames⟩ := List.mem_flatMap.1 hn
  · simp [Piece.names] at hnames
  · obtain ⟨t, ht⟩ := hbefore g hg
    have hmem : Piece.field g ∈ (pieces cs).1 := by
      rw [hpieces]
      exact List.mem_append_left _ hg
    obtain ⟨-, hroot, -, hspec⟩ :=
      expandField_covered (fun _ _ hinner => expandWithin_eq_ok hinner) hmem ht depth
    rcases List.mem_cons.1 hnames with rfl | hinner
    · simp [hroot]
    · simp [hspec n hinner]

/-- The first absent name among those that are mentioned is the one the expansion stops at. -/
theorem StopsAt.find?_mentioned {values : Entries} {absent : String} {limit depth : Nat}
    {cs : List Char} (h : StopsAt values absent limit cs) (hdepth : cs.length < depth) :
    (mentioned depth cs).find? (fun n => !values.contains n) = some absent := by
  induction h generalizing depth with
  | name hpieces hbefore _ _ hname habsent =>
      obtain ⟨depth, rfl⟩ := Nat.exists_eq_add_one.2 (Nat.zero_lt_of_lt hdepth)
      rw [find?_mentioned_of_expanded hpieces hbefore, List.flatMap_cons, Piece.names,
        List.cons_append, List.find?_cons_of_pos (by simp [hname, Entries.contains, habsent]), hname]
  | @spec cs before rest limit v shown f hpieces hbefore hvalue _ _ _ ih =>
      obtain ⟨depth, rfl⟩ := Nat.exists_eq_add_one.2 (Nat.zero_lt_of_lt hdepth)
      obtain ⟨-, -, found, hfound, -⟩ := fieldValue_eq_ok_iff.1 hvalue
      have hmem : Piece.field f ∈ (pieces cs).1 := by
        rw [hpieces]
        simp
      have hshorter := spec_length_lt hmem
      -- the variable of the field itself is there; the absent one is in its spec
      rw [find?_mentioned_of_expanded hpieces hbefore, List.flatMap_cons, Piece.names,
        List.cons_append, List.find?_cons_of_neg (by simp [Entries.contains, hfound]),
        List.find?_append, ih (by omega)]
      rfl

private theorem expandWithin_eq_of_extends {values values' : Entries} {depth : Nat} {cs : List Char}
    (hstops : ∀ absent, ¬ StopsAt values absent depth cs)
    (hextends : ∀ n v, values.get? n = some v → values'.get? n = some v) :
    expandWithin values depth cs = expandWithin values' depth cs := by
  induction depth generalizing cs with
  | zero => rfl
  | succ depth ih =>
      rw [expandWithin_succ, expandWithin_succ]
      congr 1
      refine expandPieces_congr fun before f rest hpieces hbefore => expandField_congr ?_ ?_
      · refine fieldValue_congr fun hposition hroot => ?_
        cases hfound : values.get? (String.ofList (rootName f.name)) with
        | none => exact absurd (.name hpieces hbefore hposition hroot rfl hfound) (hstops _)
        | some v => exact (hextends _ v hfound).symm
      · intro v shown hvalue hshown hopen
        exact ih fun absent hspec => hstops absent (.spec hpieces hbefore hvalue hshown hopen hspec)

/-! ## Rendering -/

theorem render_of_missing {values : Entries} {text n : String} {names : List String}
    (hnames : variableNames text = .ok names) (hmissing : firstMissing? values names = some n) :
    render values text = .error (.missingVariable n) := by
  simp [render, hnames, hmissing, bind, Except.bind, throw, throwThe, MonadExceptOf.throw]

theorem render_of_none_missing {values : Entries} {text : String} {names : List String}
    (hnames : variableNames text = .ok names) (hmissing : firstMissing? values names = none) :
    render values text = expand values text := by
  simp [render, hnames, hmissing, bind, Except.bind]

theorem render_of_pieces {values : Entries} {text : String} {names : List String} {ps : List Piece}
    {fault : Option MarkupFault} (hnames : variableNames text = .ok names)
    (hmissing : firstMissing? values names = none) (hpieces : pieces text.toList = (ps, fault)) :
    render values text =
      (expandPieces (expandField (expandWithin values 1) values) fault ps).map String.ofList := by
  rw [render_of_none_missing hnames hmissing, expand, expandWithin_succ, hpieces]

theorem render_eq_ok_iff {values : Entries} {text s : String} :
    render values text = .ok s ↔ ∃ names, variableNames text = .ok names ∧
      firstMissing? values names = none ∧ expand values text = .ok s := by
  constructor
  · intro h
    cases hnames : variableNames text with
    | error e => simp [render, hnames, bind, Except.bind] at h
    | ok names =>
        cases hmissing : firstMissing? values names with
        | some n =>
            rw [render_of_missing hnames hmissing] at h
            cases h
        | none => exact ⟨names, rfl, hmissing, render_of_none_missing hnames hmissing ▸ h⟩
  · rintro ⟨names, hnames, hmissing, h⟩
    rw [render_of_none_missing hnames hmissing, h]

theorem expandPieces_literals (ofField : Field → Outcome String) (fault : Option MarkupFault)
    (cs : List Char) (rest : List Piece) :
    expandPieces ofField fault (cs.map .literal ++ rest) =
      (expandPieces ofField fault rest).map (cs ++ ·) := by
  induction cs with
  | nil => cases hrest : expandPieces ofField fault rest <;> simp [hrest, Except.map]
  | cons c cs ih =>
      simp only [List.map_cons, List.cons_append, expandPieces, ih]
      cases expandPieces ofField fault rest <;> rfl

theorem render_of_plain {text : String} (h : pieces text.toList = (text.toList.map .literal, none))
    (values : Entries) : render values text = .ok text := by
  have hnames : variableNames text = .ok [] :=
    variableNames_eq_ok_iff.2 ⟨readable_of_plain h _, by rw [mentioned_of_plain h]; rfl⟩
  rw [render_of_pieces hnames rfl h, ← List.append_nil (text.toList.map _), expandPieces_literals]
  simp [expandPieces, Except.map]

/-- Rendering gives a text exactly where expanding gives that text.  Where expanding would stop at
an absent variable, rendering names the variable; otherwise no variable was missed. -/
theorem render_refines_expand (values : Entries) (text : String) :
    (∀ s, render values text = .ok s ↔ expand values text = .ok s) ∧
      (∀ absent, StopsAt values absent 2 text.toList →
        expand values text = .error (.raised .key [.text absent]) ∧
          ∀ names, variableNames text = .ok names →
            render values text = .error (.missingVariable absent)) ∧
      ((∀ absent, ¬ StopsAt values absent 2 text.toList) → ∀ values' : Entries,
        (∀ n v, values.get? n = some v → values'.get? n = some v) →
          expand values text = expand values' text) := by
  refine ⟨fun s => ⟨fun h => ?_, fun h => ?_⟩, fun absent hstops => ⟨hstops.expandWithin_eq, ?_⟩,
    fun hstops values' hextends => expandWithin_eq_of_extends hstops hextends⟩
  · obtain ⟨names, -, -, hexpanded⟩ := render_eq_ok_iff.1 h
    exact hexpanded
  · obtain ⟨names, hnames, hmissing⟩ := variableNames_of_covered (expandWithin_eq_ok h _)
    exact render_eq_ok_iff.2 ⟨names, hnames, hmissing, h⟩
  · intro names hnames
    obtain ⟨-, rfl⟩ := variableNames_eq_ok_iff.1 hnames
    refine render_of_missing hnames ?_
    rw [firstMissing?, find?_addNames, List.nil_append]
    exact hstops.find?_mentioned (Nat.lt_succ_self _)

/-! ### An amount in a width -/

def amountInWidth : String := "\x7bamount:\x7bwidth\x7d\x7d"

private theorem amountInWidth_stops :
    StopsAt [("amount", .int 3)] "width" 2 amountInWidth.toList := by
  have hamount : (pieces amountInWidth.toList).1 =
      [] ++ [.field { name := "amount".toList, spec := "\x7bwidth\x7d".toList }] := by cbv
  have hwidth : (pieces "\x7bwidth\x7d".toList).1 =
      [] ++ [.field { name := "width".toList }] := by cbv
  refine .spec hamount (by simp) rfl rfl (by decide) ?_
  exact .name hwidth (by simp) rfl (by decide) rfl rfl

private theorem variableNames_amountInWidth :
    variableNames amountInWidth = .ok ["amount", "width"] := by
  cbv

/-- A width that is absent is reported, though an amount alone would have been shown. -/
theorem render_amountInWidth :
    StopsAt [("amount", .int 3)] "width" 2 amountInWidth.toList ∧
      variableNames amountInWidth = .ok ["amount", "width"] ∧
      expand [("amount", .int 3)] amountInWidth = .error (.raised .key [.text "width"]) ∧
      render [("amount", .int 3)] amountInWidth = .error (.missingVariable "width") :=
  have h := (render_refines_expand [("amount", .int 3)] amountInWidth).2.1 "width" amountInWidth_stops
  ⟨amountInWidth_stops, variableNames_amountInWidth, h.1, h.2 _ variableNames_amountInWidth⟩

end ChatPipeline.Template
