import ChatPipeline.Template.Markup

/-!
# What a text is read into

Every field of a text was read from a shorter part of it, and the spec of a field is shorter still.
A spec ends at the first closing brace that no opening brace before it accounts for, so a spec
without an opening brace has no closing brace either; such a spec is read as it stands.
-/

namespace ChatPipeline.Template

/-! ## Specs -/

theorem specSpan_close_notMem {cs s r : List Char} (h : specSpan 0 cs = .ok (s, r))
    (hopen : '{' ∉ s) : '}' ∉ s := by
  induction cs generalizing s with
  | nil => simp [specSpan] at h
  | cons c rest ih =>
      by_cases hclose : c = '}'
      · simp only [specSpan, hclose, if_true, Except.ok.injEq, Prod.mk.injEq] at h
        simp [← h.1]
      · cases hs : specSpan (if c = '{' then 1 else 0) rest with
        | error fault => simp [specSpan, hclose, hs, Except.map] at h
        | ok found =>
            obtain ⟨s', r'⟩ := found
            simp only [specSpan, hclose, if_false, Nat.zero_add, hs, Except.map, Except.ok.injEq,
              Prod.mk.injEq] at h
            obtain ⟨rfl, rfl⟩ := h
            rw [List.mem_cons, not_or] at hopen
            have hne : c ≠ '{' := fun heq => hopen.1 heq.symm
            rw [if_neg hne] at hs
            rw [List.mem_cons, not_or]
            exact ⟨fun heq => hclose heq.symm, ih hs hopen.2⟩

private theorem readSpec_close_notMem {name cs r : List Char} {conversion : Option Char} {f : Field}
    (h : readSpec name conversion cs = .ok (f, r)) (hopen : '{' ∉ f.spec) : '}' ∉ f.spec := by
  unfold readSpec at h
  cases hs : specSpan 0 cs with
  | error fault => simp [hs, Except.map] at h
  | ok found =>
      simp only [hs, Except.map, Except.ok.injEq, Prod.mk.injEq] at h
      obtain ⟨rfl, rfl⟩ := h
      exact specSpan_close_notMem hs hopen

private theorem readField_close_notMem {cs r : List Char} {f : Field}
    (h : readField cs = .ok (f, r))
    (hopen : '{' ∉ f.spec) : '}' ∉ f.spec := by
  have plain : ∀ {g : Field} {r' : List Char}, g.spec = [] →
      (.ok (g, r') : Except MarkupFault (Field × List Char)) = .ok (f, r) → '}' ∉ f.spec := by
    intro g r' hg heq
    cases heq
    simp [hg]
  unfold readField at h
  split at h
  · cases h
  · split at h
    · exact plain rfl h
    · split at h
      · exact readSpec_close_notMem h hopen
      · split at h
        · cases h
        · cases h
        · exact plain rfl h
        · exact readSpec_close_notMem h hopen
        · cases h

/-! ## Pieces -/

theorem pieces_nil : pieces [] = ([], none) := by
  simp [pieces]

theorem pieces_cons_of_plain {c : Char} (hopen : c ≠ '{') (hclose : c ≠ '}') (rest : List Char) :
    pieces (c :: rest) = (.literal c :: (pieces rest).1, (pieces rest).2) := by
  rw [pieces.eq_def]
  simp [hopen, hclose]

theorem pieces_of_plain {cs : List Char} (hopen : '{' ∉ cs) (hclose : '}' ∉ cs) :
    pieces cs = (cs.map .literal, none) := by
  induction cs with
  | nil => exact pieces_nil
  | cons c rest ih =>
      rw [List.mem_cons, not_or] at hopen hclose
      rw [pieces_cons_of_plain (fun h => hopen.1 h.symm) (fun h => hclose.1 h.symm),
        ih hopen.2 hclose.2]
      rfl

private theorem exists_readField_of_mem_pieces {cs : List Char} {f : Field}
    (h : Piece.field f ∈ (pieces cs).1) :
    ∃ inner after, readField inner = .ok (f, after) ∧ inner.length < cs.length := by
  -- on the calls of `pieces`: a field is the one read here, or one of the rest of the text
  fun_induction pieces cs with
  | case1 => simp at h
  | case2 c hbrace => simp at h
  | case3 c rest ps fault hrest hbrace ih =>
      obtain ⟨inner, after, hread, hlength⟩ := ih (by simpa [hrest] using h)
      simp only [List.length_cons]
      exact ⟨inner, after, hread, by omega⟩
  | case4 c rest hbrace hclose => simp at h
  | case5 c hbrace d rest hne hclose fault hread => simp at h
  | case6 c hbrace d rest hne hclose g after hread ps fault hrest ih =>
      rcases List.mem_cons.1 h with heq | hmem
      · cases heq
        exact ⟨d :: rest, after, hread, by simp⟩
      · obtain ⟨inner, after', hread', hlength⟩ := ih (by simpa [hrest] using hmem)
        have hshorter := readField_length hread
        simp only [List.length_cons] at hshorter ⊢
        exact ⟨inner, after', hread', by omega⟩
  | case7 c rest hbrace ps fault hrest ih =>
      obtain ⟨inner, after, hread, hlength⟩ := ih (by simpa [hrest] using h)
      simp only [List.length_cons]
      exact ⟨inner, after, hread, by omega⟩

theorem spec_length_lt {cs : List Char} {f : Field} (h : Piece.field f ∈ (pieces cs).1) :
    f.spec.length < cs.length := by
  obtain ⟨inner, after, hread, hlength⟩ := exists_readField_of_mem_pieces h
  have hshorter := readField_length hread
  omega

theorem pieces_spec_of_plain {cs : List Char} {f : Field} (h : Piece.field f ∈ (pieces cs).1)
    (hopen : '{' ∉ f.spec) : pieces f.spec = (f.spec.map .literal, none) := by
  obtain ⟨inner, after, hread, -⟩ := exists_readField_of_mem_pieces h
  exact pieces_of_plain hopen (readField_close_notMem hread hopen)

end ChatPipeline.Template
