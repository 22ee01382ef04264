import ChatPipeline.Proofs.Template.Pieces
import ChatPipeline.Proofs.Sequencing
import ChatPipeline.Template.Render

/-!
# Which variables a text mentions

`mentioned` lists the variables of a text as they stand in it, the repeated ones included, and
`Readable` says what a text must be like for them to be collected.  Collecting them succeeds on
readable texts and gives what is mentioned, each name where it occurs first
(`variablesWithin_eq_ok_iff`); for finding the first name with some property the repeated ones make
no difference (`find?_addNames`).
-/

namespace ChatPipeline.Template

/-! ## Collected names -/

theorem addNames_nil (names : List String) : addNames names [] = names := rfl

theorem addNames_cons (names found : List String) (n : String) :
    addNames names (n :: found) =
      addNames (if n ∈ names then names else names ++ [n]) found := by
  simp [addNames]

private theorem addNames_append (names found more : List String) :
    addNames names (found ++ more) = addNames (addNames names found) more :=
  List.foldl_append

theorem mem_addNames {names found : List String} {n : String} :
    n ∈ addNames names found ↔ n ∈ names ∨ n ∈ found := by
  induction found generalizing names with
  | nil => simp [addNames_nil]
  | cons m found ih =>
      rw [addNames_cons, ih, List.mem_cons]
      by_cases hm : m ∈ names
      · rw [if_pos hm]
        constructor
        · rintro (h | h)
          · exact .inl h
          · exact .inr (.inr h)
        · rintro (h | rfl | h)
          · exact .inl h
          · exact .inl hm
          · exact .inr h
      · rw [if_neg hm, List.mem_append, List.mem_singleton, or_assoc]

private theorem addNames_addNames (names started found : List String) :
    addNames names (addNames started found) = addNames (addNames names started) found := by
  induction found generalizing started with
  | nil => rfl
  | cons n found ih =>
      rw [addNames_cons, ih, addNames_cons]
      by_cases hn : n ∈ started
      · rw [if_pos hn, if_pos (mem_addNames.2 (.inr hn))]
      · rw [if_neg hn, addNames_append, addNames_cons, addNames_nil]

theorem find?_addNames (p : String → Bool) (names found : List String) :
    (addNames names found).find? p = (names ++ found).find? p := by
  induction found generalizing names with
  | nil => rw [addNames_nil, List.append_nil]
  | cons n found ih =>
      rw [addNames_cons, ih]
      by_cases hn : n ∈ names
      · rw [if_pos hn, List.find?_append, List.find?_append]
        cases hp : p n with
        | false => rw [List.find?_cons_of_neg (by simp [hp])]
        | true =>
            obtain ⟨m, hm⟩ := Option.isSome_iff_exists.1 (List.find?_isSome.2 ⟨n, hn, hp⟩)
            rw [hm]
            rfl
      · rw [if_neg hn, List.append_assoc]
        rfl

/-! ## Mentioned names -/

def Piece.names (ofSpec : List Char → List String) : Piece → List String
  | .literal _ => []
  | .field f => String.ofList (rootName f.name) :: ofSpec f.spec

def mentioned : Nat → List Char → List String
  | 0, _ => []
  | depth + 1, cs => (pieces cs).1.flatMap (Piece.names (mentioned depth))

/-- A text that is read without a fault, in which every field has a variable, down to a depth. -/
def Readable : Nat → List Char → Prop
  | 0, _ => True
  | depth + 1, cs => (pieces cs).2 = none ∧
      ∀ f, .field f ∈ (pieces cs).1 → rootName f.name ≠ [] ∧ Readable depth f.spec

theorem mem_mentioned {depth : Nat} {cs : List Char} {n : String} :
    n ∈ mentioned (depth + 1) cs ↔ ∃ f, Piece.field f ∈ (pieces cs).1 ∧
      (n = String.ofList (rootName f.name) ∨ n ∈ mentioned depth f.spec) := by
  rw [mentioned, List.mem_flatMap]
  constructor
  · rintro ⟨c | f, hmem, hn⟩
    · simp [Piece.names] at hn
    · exact ⟨f, hmem, List.mem_cons.1 hn⟩
  · rintro ⟨f, hmem, hn⟩
    exact ⟨.field f, hmem, List.mem_cons.2 hn⟩

theorem mentioned_of_plain {cs : List Char} (h : pieces cs = (cs.map .literal, none))
    (depth : Nat) :
    mentioned depth cs = [] := by
  cases depth with
  | zero => rfl
  | succ depth => simp [mentioned, h, Piece.names, List.flatMap_map]

theorem readable_of_plain {cs : List Char} (h : pieces cs = (cs.map .literal, none)) (depth : Nat) :
    Readable depth cs := by
  cases depth with
  | zero => trivial
  | succ depth => simp [Readable, h]

/-! ## Collecting -/

theorem variablesWithin_nil (depth : Nat) : variablesWithin depth [] = .ok [] := by
  cases depth with
  | zero => rfl
  | succ depth => simp [variablesWithin, pieces_nil, collect]

private theorem collect_field {ofSpec : List Char → Outcome (List String)}
    (hnil : ofSpec [] = .ok [])
    (cs : List Char) (fault : Option MarkupFault) (f : Field) (ps : List Piece)
    (names : List String) :
    collect ofSpec cs fault (.field f :: ps) names =
      if rootName f.name = [] then .error (unsupportedPositional cs)
      else
        match ofSpec f.spec with
        | .error e => .error e
        | .ok inner =>
          collect ofSpec cs fault ps (addNames names (String.ofList (rootName f.name) :: inner)) := by
  have hsame : (if f.spec.isEmpty then .ok [] else ofSpec f.spec) = ofSpec f.spec := by
    cases hspec : f.spec <;> simp [hnil]
  rw [collect, hsame]
  change (if (rootName f.name).isEmpty then _ else _) = _
  by_cases hroot : rootName f.name = []
  · exact (if_pos (List.isEmpty_iff.2 hroot)).trans (if_pos hroot).symm
  · exact (if_neg (mt List.isEmpty_iff.1 hroot)).trans (if_neg hroot).symm

private theorem collect_eq_ok_iff {ofSpec : List Char → Outcome (List String)}
    {good : List Char → Prop}
    {inner : List Char → List String} (hnil : ofSpec [] = .ok [])
    (hspec : ∀ spec found, ofSpec spec = .ok found ↔ good spec ∧ addNames [] (inner spec) = found)
    {cs : List Char} {fault : Option MarkupFault} {ps : List Piece} {names found : List String} :
    collect ofSpec cs fault ps names = .ok found ↔
      (fault = none ∧ ∀ f, .field f ∈ ps → rootName f.name ≠ [] ∧ good f.spec) ∧
        addNames names (ps.flatMap (Piece.names inner)) = found := by
  induction ps generalizing names with
  | nil =>
      cases fault <;> simp [collect, addNames_nil]
  | cons p ps ih =>
      cases p with
      | literal c => simp [collect, ih, Piece.names]
      | field f =>
          simp only [List.mem_cons, Piece.field.injEq, forall_eq_or_imp, List.flatMap_cons,
            Piece.names, List.cons_append, collect_field hnil]
          by_cases hroot : rootName f.name = []
          · simp [hroot]
          · rw [if_neg hroot]
            cases hinner : ofSpec f.spec with
            | error e =>
                have hbad : ¬ good f.spec := by
                  intro hgood
                  have hok := (hspec f.spec _).2 ⟨hgood, rfl⟩
                  rw [hinner] at hok
                  cases hok
                simp [hbad]
            | ok collected =>
                obtain ⟨hgood, rfl⟩ := (hspec f.spec collected).1 hinner
                simp only [ih, hroot, hgood, ne_eq, not_false_eq_true, true_and]
                rw [addNames_cons, addNames_addNames, addNames_nil, addNames_cons, addNames_append]

private theorem variablesWithin_eq_ok_iff {depth : Nat} {cs : List Char} {names : List String} :
    variablesWithin depth cs = .ok names ↔
      Readable depth cs ∧ addNames [] (mentioned depth cs) = names := by
  induction depth generalizing cs names with
  | zero => simp [variablesWithin, Readable, mentioned, addNames_nil]
  | succ depth ih =>
      unfold variablesWithin Readable mentioned
      exact collect_eq_ok_iff (variablesWithin_nil depth) fun _ _ => ih

theorem variableNames_eq_ok_iff {text : String} {names : List String} :
    variableNames text = .ok names ↔
      Readable (text.toList.length + 1) text.toList ∧
        addNames [] (mentioned (text.toList.length + 1) text.toList) = names :=
  variablesWithin_eq_ok_iff

end ChatPipeline.Template
