import ChatPipeline.Proofs.Template.Variables

/-!
# Expanding a text

The expansion of a text goes through its pieces from the left and stops at the first field that
fails. What is collected from a text is not what is expanded: the collector goes into specs at every
depth, while the expander stops at a depth and reads specs without braces as they are.  They agree
all the same: a text that can be expanded is readable at every depth and mentions no variable that
is absent (`expandWithin_eq_ok`).
-/

namespace ChatPipeline.Template

/-! ## Fields -/

theorem rootName_eq_takeWhile (name : List Char) :
    rootName name = name.takeWhile fun c => c != '.' && c != '[' := by
  unfold rootName
  induction name with
  | nil => rfl
  | cons c name ih =>
      by_cases hdot : c = '.'
      · simp [hdot]
      · by_cases hbracket : c = '['
        · simp [hbracket]
        · simpa [hdot, hbracket] using ih

theorem fieldValue_eq_ok_iff {values : Entries} {name : List Char} {v : Value} :
    fieldValue values name = .ok v ↔
      position? (rootName name) = .ok none ∧ rootName name ≠ [] ∧
        ∃ found, values.get? (String.ofList (rootName name)) = some found ∧
          followPath (name.drop (rootName name).length).length found
            (name.drop (rootName name).length) = .ok v := by
  unfold fieldValue
  simp only [← rootName_eq_takeWhile, Outcome.bind_eq_ok, Outcome.guard_eq_ok, Bool.or_eq_true,
    Option.isSome_iff_ne_none, List.isEmpty_iff, not_or, Classical.not_not]
  constructor
  · rintro ⟨position, hposition, ⟨rfl, hroot⟩, h⟩
    refine ⟨hposition, hroot, ?_⟩
    cases hfound : values.get? (String.ofList (rootName name)) with
    | none => simp [hfound, throw, throwThe, MonadExceptOf.throw] at h
    | some found => exact ⟨found, rfl, by simpa [hfound] using h⟩
  · rintro ⟨hposition, hroot, found, hfound, h⟩
    exact ⟨none, hposition, ⟨rfl, hroot⟩, by simpa [hfound] using h⟩

theorem fieldValue_of_absent {values : Entries} {name : List Char}
    (hposition : position? (rootName name) = .ok none) (hroot : rootName name ≠ [])
    (habsent : values.get? (String.ofList (rootName name)) = none) :
    fieldValue values name = .error (.raised .key [.text (String.ofList (rootName name))]) := by
  unfold fieldValue
  simp [← rootName_eq_takeWhile, hposition, hroot, habsent, bind, Except.bind, throw, throwThe,
    MonadExceptOf.throw]

theorem expandField_eq_ok_iff {ofSpec : List Char → Outcome String} {values : Entries} {f : Field}
    {s : String} :
    expandField ofSpec values f = .ok s ↔
      ∃ v, fieldValue values f.name = .ok v ∧ ∃ shown, convert v f.conversion = .ok shown ∧
        ∃ spec, (if f.spec.contains '{' then ofSpec f.spec else .ok (String.ofList f.spec)) =
          .ok spec ∧ layout spec.toList shown = .ok s := by
  unfold expandField
  simp only [Outcome.bind_eq_ok]
  split <;> simp only [Outcome.bind_eq_ok]

/-! ## Pieces -/

theorem expandPieces_eq_ok {ofField : Field → Outcome String} {fault : Option MarkupFault}
    {ps : List Piece} {out : List Char} (h : expandPieces ofField fault ps = .ok out) :
    fault = none ∧ ∀ f, Piece.field f ∈ ps → ∃ s, ofField f = .ok s := by
  induction ps generalizing out with
  | nil =>
      cases fault with
      | none => simp
      | some fault => simp [expandPieces] at h
  | cons p ps ih =>
      cases p with
      | literal c =>
          rw [expandPieces, Outcome.bind_eq_ok] at h
          obtain ⟨tail, htail, -⟩ := h
          simpa using ih htail
      | field f =>
          simp only [expandPieces, Outcome.bind_eq_ok] at h
          obtain ⟨head, hhead, tail, htail, -⟩ := h
          obtain ⟨hfault, hfields⟩ := ih htail
          refine ⟨hfault, ?_⟩
          intro g hg
          rcases List.mem_cons.1 hg with heq | hmem
          · cases heq
            exact ⟨head, hhead⟩
          · exact hfields g hmem

private theorem expandPieces_eq_error {ofField : Field → Outcome String}
    {fault : Option MarkupFault}
    {before rest : List Piece} {f : Field} {e : Failure}
    (hbefore : ∀ g, Piece.field g ∈ before → ∃ t, ofField g = .ok t) (hf : ofField f = .error e) :
    expandPieces ofField fault (before ++ .field f :: rest) = .error e := by
  induction before with
  | nil =>
      rw [List.nil_append, expandPieces, hf]
      rfl
  | cons p before ih =>
      have htail := ih fun g hg => hbefore g (List.mem_cons_of_mem _ hg)
      cases p with
      | literal c =>
          rw [List.cons_append, expandPieces, htail]
          rfl
      | field g =>
          obtain ⟨t, ht⟩ := hbefore g (List.mem_cons_self ..)
          rw [List.cons_append, expandPieces, ht, htail]
          rfl

theorem expandWithin_succ (values : Entries) (depth : Nat) (cs : List Char) :
    expandWithin values (depth + 1) cs =
      (expandPieces (expandField (expandWithin values depth) values) (pieces cs).2
        (pieces cs).1).map String.ofList := by
  rw [expandWithin]
  rcases pieces cs with ⟨ps, fault⟩
  cases h : expandPieces (expandField (expandWithin values depth) values) fault ps <;>
    simp [h, bind, Except.bind, pure, Except.pure, Except.map]

theorem expandWithin_eq_error {values : Entries} {depth : Nat} {cs : List Char}
    {before rest : List Piece} {f : Field} {e : Failure}
    (hpieces : (pieces cs).1 = before ++ .field f :: rest)
    (hbefore : ∀ g, Piece.field g ∈ before →
      ∃ t, expandField (expandWithin values depth) values g = .ok t)
    (hf : expandField (expandWithin values depth) values f = .error e) :
    expandWithin values (depth + 1) cs = .error e := by
  rw [expandWithin_succ, hpieces, expandPieces_eq_error hbefore hf]
  rfl

/-! ## What an expansion depends on -/

theorem expandPieces_congr {ofField ofField' : Field → Outcome String} {fault : Option MarkupFault}
    {ps : List Piece}
    (h : ∀ before f rest, ps = before ++ .field f :: rest →
      (∀ g, Piece.field g ∈ before → ∃ t, ofField g = .ok t) → ofField f = ofField' f) :
    expandPieces ofField fault ps = expandPieces ofField' fault ps := by
  induction ps with
  | nil => rfl
  | cons p ps ih =>
      cases p with
      | literal c =>
          have htail : expandPieces ofField fault ps = expandPieces ofField' fault ps := by
            refine ih fun before f rest hps hbefore => h (.literal c :: before) f rest ?_ ?_
            · rw [hps, List.cons_append]
            · simpa using hbefore
          rw [expandPieces, expandPieces, htail]
      | field f =>
          have hfield : ofField f = ofField' f := h [] f ps rfl (by simp)
          rw [expandPieces, expandPieces, ← hfield]
          cases hf : ofField f with
          | error e => rfl
          | ok t =>
              have htail : expandPieces ofField fault ps = expandPieces ofField' fault ps := by
                refine ih fun before g rest hps hbefore => h (.field f :: before) g rest ?_ ?_
                · rw [hps, List.cons_append]
                · intro g' hg'
                  rcases List.mem_cons.1 hg' with heq | hmem
                  · cases heq
                    exact ⟨t, hf⟩
                  · exact hbefore g' hmem
              rw [htail]

theorem fieldValue_congr {values values' : Entries} {name : List Char}
    (h : position? (rootName name) = .ok none → rootName name ≠ [] →
      values.get? (String.ofList (rootName name)) = values'.get? (String.ofList (rootName name))) :
    fieldValue values name = fieldValue values' name := by
  unfold fieldValue
  simp only [← rootName_eq_takeWhile]
  cases hposition : position? (rootName name) with
  | error e => rfl
  | ok position =>
      by_cases hfree : position = none ∧ rootName name ≠ []
      · rw [h (hfree.1 ▸ hposition) hfree.2]
      · -- both are refused as positional
        have hrefused : (position.isSome || (rootName name).isEmpty) = true := by
          cases position <;> simp_all
        simp [bind, Except.bind, hrefused, throw, throwThe, MonadExceptOf.throw]

theorem expandField_congr {ofSpec ofSpec' : List Char → Outcome String} {values values' : Entries}
    {f : Field} (hvalue : fieldValue values f.name = fieldValue values' f.name)
    (hspec : ∀ v shown, fieldValue values f.name = .ok v → convert v f.conversion = .ok shown →
      '{' ∈ f.spec → ofSpec f.spec = ofSpec' f.spec) :
    expandField ofSpec values f = expandField ofSpec' values' f := by
  unfold expandField
  rw [← hvalue]
  cases hv : fieldValue values f.name with
  | error e => rfl
  | ok v =>
      cases hshown : convert v f.conversion with
      | error e => simp [bind, Except.bind, hshown]
      | ok shown =>
          by_cases hopen : '{' ∈ f.spec
          · simp [bind, Except.bind, hshown, hopen, hspec v shown hv hshown hopen]
          · simp [bind, Except.bind, hshown, hopen]

/-! ## What can be expanded -/

/-- A text is fine for some variables where it is readable and mentions none that is absent. -/
def Covered (values : Entries) (depth : Nat) (cs : List Char) : Prop :=
  Readable depth cs ∧ ∀ n ∈ mentioned depth cs, values.contains n

private theorem covered_of_plain {cs : List Char} (h : pieces cs = (cs.map .literal, none))
    (values : Entries) (depth : Nat) : Covered values depth cs :=
  ⟨readable_of_plain h depth, by simp [mentioned_of_plain h]⟩

private theorem covered_succ_iff {values : Entries} {depth : Nat} {cs : List Char} :
    Covered values (depth + 1) cs ↔ (pieces cs).2 = none ∧
      ∀ f, Piece.field f ∈ (pieces cs).1 → rootName f.name ≠ [] ∧
        values.contains (String.ofList (rootName f.name)) ∧ Covered values depth f.spec := by
  simp only [Covered, Readable, mem_mentioned]
  constructor
  · rintro ⟨⟨hfault, hread⟩, hnames⟩
    refine ⟨hfault, fun f hf => ⟨(hread f hf).1, hnames _ ⟨f, hf, .inl rfl⟩, (hread f hf).2, ?_⟩⟩
    exact fun n hn => hnames n ⟨f, hf, .inr hn⟩
  · rintro ⟨hfault, hfields⟩
    refine ⟨⟨hfault, fun f hf => ⟨(hfields f hf).1, (hfields f hf).2.2.1⟩⟩, ?_⟩
    rintro n ⟨f, hf, rfl | hn⟩
    · exact (hfields f hf).2.1
    · exact (hfields f hf).2.2.2 n hn

theorem expandField_covered {values : Entries} {ofSpec : List Char → Outcome String}
    (hspec : ∀ spec s, ofSpec spec = .ok s → ∀ depth, Covered values depth spec) {cs : List Char}
    {f : Field} (hf : Piece.field f ∈ (pieces cs).1) {s : String}
    (h : expandField ofSpec values f = .ok s) (depth : Nat) :
    rootName f.name ≠ [] ∧ values.contains (String.ofList (rootName f.name)) ∧
      Covered values depth f.spec := by
  obtain ⟨v, hvalue, shown, -, spec, hexpanded, -⟩ := expandField_eq_ok_iff.1 h
  obtain ⟨-, hroot, found, hfound, -⟩ := fieldValue_eq_ok_iff.1 hvalue
  refine ⟨hroot, by simp [Entries.contains, hfound], ?_⟩
  by_cases hopen : '{' ∈ f.spec
  · rw [if_pos (by simpa using hopen)] at hexpanded
    exact hspec f.spec spec hexpanded depth
  · exact covered_of_plain (pieces_spec_of_plain hf hopen) values depth

theorem expandWithin_eq_ok {values : Entries} {limit : Nat} {cs : List Char} {s : String}
    (h : expandWithin values limit cs = .ok s) (depth : Nat) : Covered values depth cs := by
  -- on the limit of the expansion; the depth to which the text is covered is another matter
  induction limit generalizing cs s depth with
  | zero => simp [expandWithin] at h
  | succ limit ih =>
      cases depth with
      | zero => exact ⟨trivial, by simp [mentioned]⟩
      | succ depth =>
          rw [expandWithin_succ, Outcome.map_eq_ok] at h
          obtain ⟨out, hout, -⟩ := h
          obtain ⟨hfault, hfields⟩ := expandPieces_eq_ok hout
          refine covered_succ_iff.2 ⟨hfault, ?_⟩
          intro f hf
          obtain ⟨t, ht⟩ := hfields f hf
          exact expandField_covered (fun _ _ hinner => ih hinner) hf ht depth

end ChatPipeline.Template
