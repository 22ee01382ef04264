import Mathlib.Data.List.DropRight
import ChatPipeline.Text.Blank

/-!
# Trimmed texts

A trimmed text neither begins nor ends with a blank, so trimming it again changes nothing
(`trim_trim`), and it is empty only where there was nothing but blanks (`isEmpty_trim`).
-/

namespace ChatPipeline.Text

private theorem trimBy_eq_rdropWhile (blank : Char → Bool) (cs : List Char) :
    trimBy blank cs = (cs.dropWhile blank).rdropWhile blank := rfl

private theorem trimBy_eq_nil_iff {blank : Char → Bool} {cs : List Char} :
    trimBy blank cs = [] ↔ ∀ c ∈ cs, blank c = true := by
  rw [trimBy_eq_rdropWhile, List.rdropWhile_eq_nil_iff]
  constructor
  · intro h
    have hnil : cs.dropWhile blank = [] := by
      rw [← List.dropWhile_idempotent blank cs]
      exact List.dropWhile_eq_nil_iff.2 h
    exact List.dropWhile_eq_nil_iff.1 hnil
  · intro h c hc
    exact h c ((List.dropWhile_sublist blank).mem hc)

private theorem trimBy_trimBy (blank : Char → Bool) (cs : List Char) :
    trimBy blank (trimBy blank cs) = trimBy blank cs := by
  rw [trimBy_eq_rdropWhile blank (trimBy blank cs), trimBy_eq_rdropWhile blank cs]
  have hstart : ((cs.dropWhile blank).rdropWhile blank).dropWhile blank =
      (cs.dropWhile blank).rdropWhile blank := by
    obtain ⟨after, hafter⟩ := List.rdropWhile_prefix blank (cs.dropWhile blank)
    have hfirst := List.head?_dropWhile_not blank cs
    cases htrimmed : (cs.dropWhile blank).rdropWhile blank with
    | nil => rfl
    | cons c rest =>
        rw [htrimmed] at hafter
        rw [← hafter, List.cons_append, List.head?_cons] at hfirst
        exact List.dropWhile_cons_of_neg (by simp [hfirst])
  rw [hstart, List.rdropWhile_idempotent]

theorem trim_trim (s : String) : trim (trim s) = trim s := by
  rw [trim, trim, String.toList_ofList, trimBy_trimBy]

theorem isEmpty_trim (s : String) : (trim s).isEmpty = isAllBlank s := by
  rw [Bool.eq_iff_iff, String.isEmpty_iff, trim, isAllBlank, List.all_eq_true,
    ← trimBy_eq_nil_iff]
  exact String.ofList_eq_empty_iff

end ChatPipeline.Text
