import Mathlib.Data.List.Basic
import ChatPipeline.Text.Lines

/-!
# Reports of one text on a line

A report with a line feed after each of its texts is cut into the lines of the texts
(`mem_lines_report`).  No line has a line boundary in it, so a text comes back whole just where it
has none (`lines_of_unbroken`, `unbroken_of_mem_lines`).
-/

namespace ChatPipeline.Text

variable {c : Char} {current cs rest line : List Char}

private theorem linesFrom_cons (h : c = '\r' → rest.head? ≠ some '\n') :
    linesFrom current (c :: rest) =
    if isLineBoundary c then current.reverse :: linesFrom [] rest
    else linesFrom (c :: current) rest := by
  refine linesFrom.eq_3 current c rest fun after hc hrest => ?_
  subst hrest
  exact h hc rfl

private theorem head?_append_newline (hpair : ∀ after, c = '\r' → cs = '\n' :: after → False)
    (hend : ¬ (c = '\r' ∧ cs = [])) (rest : List Char) :
    c = '\r' → (cs ++ '\n' :: rest).head? ≠ some '\n' := by
  intro hc
  cases cs with
  | nil => exact absurd ⟨hc, rfl⟩ hend
  | cons d cs => simpa using fun hd => hpair cs hc (by rw [hd])

private theorem ne_return_of_not_boundary (hc : ¬ isLineBoundary c = true) (rest : List Char) :
    c = '\r' → rest.head? ≠ some '\n' := by
  rintro rfl
  exact absurd rfl hc

private theorem linesFrom_append (current cs rest : List Char) :
    linesFrom current (cs ++ '\n' :: rest) =
      linesFrom current (cs ++ ['\n']) ++ linesFrom [] rest := by
  fun_induction linesFrom current cs with
  | case1 => rfl
  | case2 => rfl
  | case3 current cs ih =>
      change current.reverse :: linesFrom [] (cs ++ '\n' :: rest) =
        current.reverse :: (linesFrom [] (cs ++ ['\n']) ++ linesFrom [] rest)
      rw [ih]
  | case4 current c cs hpair hc ih =>
      by_cases hend : c = '\r' ∧ cs = []
      · obtain ⟨rfl, rfl⟩ := hend
        rfl
      · have halone := head?_append_newline hpair hend
        rw [List.cons_append, List.cons_append, linesFrom_cons (halone rest),
          linesFrom_cons (halone []), if_pos hc, if_pos hc, ih, List.cons_append]
  | case5 current c cs _ hc ih =>
      have halone := ne_return_of_not_boundary hc
      rw [List.cons_append, List.cons_append, linesFrom_cons (halone _), linesFrom_cons (halone _),
        if_neg hc, if_neg hc, ih]

private theorem mem_linesFrom_newline (hline : line ≠ []) (current cs : List Char) :
    line ∈ linesFrom current (cs ++ ['\n']) ↔ line ∈ linesFrom current cs := by
  fun_induction linesFrom current cs with
  | case1 current hcurrent =>
      obtain rfl := List.isEmpty_iff.1 hcurrent
      exact ⟨fun h => absurd (List.mem_singleton.1 h) hline, nofun⟩
  | case2 => rfl
  | case3 current cs ih =>
      change line ∈ current.reverse :: linesFrom [] (cs ++ ['\n']) ↔ _
      rw [List.mem_cons, List.mem_cons, ih]
  | case4 current c cs hpair hc ih =>
      by_cases hend : c = '\r' ∧ cs = []
      · obtain ⟨rfl, rfl⟩ := hend
        rfl
      · rw [List.cons_append, linesFrom_cons (head?_append_newline hpair hend []), if_pos hc,
          List.mem_cons, List.mem_cons, ih]
  | case5 current c cs _ hc ih =>
      rw [List.cons_append, linesFrom_cons (ne_return_of_not_boundary hc _), if_neg hc, ih]

private theorem linesFrom_of_unbroken (h : ∀ c ∈ cs, isLineBoundary c = false) (current : List Char)
    (hne : current ++ cs ≠ []) : linesFrom current cs = [current.reverse ++ cs] := by
  induction cs generalizing current with
  | nil =>
      rw [List.append_nil] at hne
      rw [linesFrom, if_neg (by simpa using hne), List.append_nil]
  | cons c cs ih =>
      obtain ⟨hc, hcs⟩ := List.forall_mem_cons.1 h
      rw [← Bool.not_eq_true] at hc
      rw [linesFrom_cons (ne_return_of_not_boundary hc _), if_neg hc, ih hcs (c :: current) (by simp),
        List.reverse_cons, List.append_assoc, List.singleton_append]

private theorem unbroken_of_mem_linesFrom (hcurrent : ∀ c ∈ current, isLineBoundary c = false)
    (h : line ∈ linesFrom current cs) : ∀ c ∈ line, isLineBoundary c = false := by
  have hreversed : ∀ {current : List Char}, (∀ c ∈ current, isLineBoundary c = false) →
      ∀ c ∈ current.reverse, isLineBoundary c = false :=
    fun h c hc => h c (List.mem_reverse.1 hc)
  fun_induction linesFrom current cs with
  | case1 => cases h
  | case2 =>
      rw [List.mem_singleton.1 h]
      exact hreversed hcurrent
  | case3 current cs ih =>
      rcases List.mem_cons.1 h with rfl | h
      · exact hreversed hcurrent
      · exact ih (List.forall_mem_nil _) h
  | case4 current c cs _ _ ih =>
      rcases List.mem_cons.1 h with rfl | h
      · exact hreversed hcurrent
      · exact ih (List.forall_mem_nil _) h
  | case5 current c cs _ hc ih =>
      exact ih (List.forall_mem_cons.2 ⟨Bool.eq_false_iff.2 hc, hcurrent⟩) h

/-! ## Texts -/

theorem mem_lines_iff {s line : String} : line ∈ lines s ↔ line.toList ∈ linesFrom [] s.toList := by
  rw [lines, List.mem_map]
  constructor
  · rintro ⟨cs, hcs, rfl⟩
    rwa [String.toList_ofList]
  · exact fun h => ⟨line.toList, h, String.ofList_toList⟩

theorem lines_of_unbroken {s : String} (h : ∀ c ∈ s.toList, isLineBoundary c = false)
    (hne : s ≠ "") : lines s = [s] := by
  have hcs : ([] : List Char) ++ s.toList ≠ [] := by simpa using hne
  rw [lines, linesFrom_of_unbroken h [] hcs]
  simp

theorem unbroken_of_mem_lines {s line : String} (h : line ∈ lines s) :
    ∀ c ∈ line.toList, isLineBoundary c = false :=
  unbroken_of_mem_linesFrom (List.forall_mem_nil _) (mem_lines_iff.1 h)

private theorem mem_linesFrom_report (hline : line ≠ []) (texts : List (List Char)) :
    line ∈ linesFrom [] (texts.flatMap (· ++ ['\n'])) ↔ ∃ cs ∈ texts, line ∈ linesFrom [] cs := by
  induction texts with
  | nil => simp [linesFrom]
  | cons cs texts ih =>
      rw [List.flatMap_cons, List.append_assoc, List.singleton_append, linesFrom_append,
        List.mem_append, mem_linesFrom_newline hline, ih, List.exists_mem_cons_iff]

theorem mem_lines_report {texts : List String} {line : String} (hline : line ≠ "") :
    line ∈ lines (String.join (texts.map (· ++ "\n"))) ↔ ∃ s ∈ texts, line ∈ lines s := by
  have hreport : (String.join (texts.map (· ++ "\n"))).toList =
      (texts.map String.toList).flatMap (· ++ ['\n']) := by
    simp [String.toList_join, List.flatMap_map]
  rw [mem_lines_iff, hreport, mem_linesFrom_report (by simpa using hline)]
  simp [mem_lines_iff]

end ChatPipeline.Text
