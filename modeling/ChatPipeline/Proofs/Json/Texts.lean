import ChatPipeline.Proofs.Text.Digits
import ChatPipeline.Json.Writer

/-!
# Quoted texts read back

A quoted text is read back as it was (`readString_quote`), whatever follows its closing quote.  Each
character is written as itself or as one escape, and the reader takes exactly that off
(`readText_escapeChar`), so one induction on the characters does the rest.
-/

namespace ChatPipeline.Json

open ChatPipeline.Text

/-! ## Escapes -/

theorem hexValue?_digitChar {d : Nat} (h : d < 16) : hexValue? (digitChar d) = some d := by
  revert d
  decide

private theorem paddedDigits_of_control {n : Nat} (h : n < 0x20) :
    paddedDigits 16 4 n = ['0', '0', digitChar (n / 16), digitChar (n % 16)] := by
  rw [paddedDigits, digits_eq (by omega)]
  by_cases hzero : n = 0
  · subst hzero
    rfl
  · rw [if_neg hzero]
    by_cases hsmall : n < 16
    · rw [Nat.digits_of_lt 16 n hzero hsmall, Nat.div_eq_of_lt hsmall, Nat.mod_eq_of_lt hsmall]
      rfl
    · rw [Nat.digits_def' (by omega) (by omega), Nat.digits_of_lt 16 (n / 16) (by omega) (by omega)]
      rfl

private theorem readHex_control {n : Nat} (h : n < 0x20) (rest : List Char) :
    readHex (paddedDigits 16 4 n ++ rest) = some (n, rest) := by
  have hzero : hexValue? '0' = some 0 := rfl
  rw [paddedDigits_of_control h]
  simp only [List.cons_append, List.nil_append, readHex, hzero,
    hexValue?_digitChar (d := n / 16) (by omega), hexValue?_digitChar (d := n % 16) (by omega)]
  simp only [Option.bind_eq_bind, Option.bind_some, Option.some.injEq, Prod.mk.injEq, and_true]
  omega

private theorem readUnicode_control {c : Char} (h : c.toNat < 0x20) {rest : List Char}
    (hrest : rest ≠ []) :
    readUnicode (paddedDigits 16 4 c.toNat ++ rest) = .ok (c, rest) := by
  have hnonempty : rest.isEmpty = false := by simpa using hrest
  have hlow : isHighSurrogate c.toNat = false := by
    simp only [isHighSurrogate, Bool.and_eq_false_iff, decide_eq_false_iff_not]
    omega
  have hunit : unitChar c.toNat = c := by
    rw [unitChar, if_neg (by omega), Char.ofNat_toNat]
  simp only [readUnicode, readHex_control h, hnonempty, hlow, hunit, Bool.false_eq_true, if_false]

/-! ## Texts -/

theorem readText_plain {c : Char} (hquote : c ≠ '"') (hbackslash : c ≠ '\\')
    (hcontrol : ¬ c.toNat < 0x20) (opening fuel : Nat) (rest : List Char) :
    readText opening (fuel + 1) (c :: rest) =
      (readText opening fuel rest).map fun (s, r) => (c :: s, r) := by
  rw [readText.eq_def]
  split <;> simp_all

private theorem readText_escapeChar (opening fuel : Nat) (c : Char) {rest : List Char}
    (hrest : rest ≠ []) :
    readText opening (fuel + 1) (escapeChar c ++ rest) =
      (readText opening fuel rest).map fun (s, r) => (c :: s, r) := by
  unfold escapeChar
  split
  · rename_i h
    rcases h with rfl | rfl <;> rfl
  · rename_i hspecial
    rw [not_or] at hspecial
    split
    · subst_vars
      rfl
    split
    · subst_vars
      rfl
    split
    · subst_vars
      rfl
    split
    · subst_vars
      rfl
    split
    · subst_vars
      rfl
    split
    · rename_i hcontrol
      simp only [List.cons_append, readText, readUnicode_control hcontrol hrest]
    · rename_i hcontrol
      exact readText_plain hspecial.1 hspecial.2 hcontrol opening fuel rest

private theorem readText_escaped (opening : Nat) (cs rest : List Char) {fuel : Nat}
    (hfuel : cs.length < fuel) :
    readText opening fuel (cs.flatMap escapeChar ++ '"' :: rest) = .ok (cs, rest) := by
  induction cs generalizing fuel with
  | nil =>
      obtain ⟨fuel, rfl⟩ := Nat.exists_eq_add_one.2 hfuel
      rfl
  | cons c cs ih =>
      obtain ⟨fuel, rfl⟩ := Nat.exists_eq_add_one.2 (Nat.zero_lt_of_lt hfuel)
      rw [List.length_cons, Nat.add_lt_add_iff_right] at hfuel
      rw [List.flatMap_cons, List.append_assoc, readText_escapeChar opening fuel c (by simp),
        ih hfuel]
      rfl

theorem length_le_length_flatMap {f : α → List β} (h : ∀ a, 1 ≤ (f a).length) (as : List α) :
    as.length ≤ (as.flatMap f).length := by
  induction as with
  | nil => exact Nat.le_refl 0
  | cons a as ih =>
      have hone := h a
      rw [List.flatMap_cons, List.length_append, List.length_cons]
      omega

private theorem length_escapeChar_pos (c : Char) : 1 ≤ (escapeChar c).length := by
  unfold escapeChar
  repeat' split
  all_goals simp

theorem toList_quote (s : String) :
    (quote s).toList = '"' :: (s.toList.flatMap escapeChar ++ ['"']) := by
  simp [quote]

theorem readString_quote (s : String) (rest : List Char) :
    readString (s.toList.flatMap escapeChar ++ '"' :: rest) = .ok (s, rest) := by
  have hlength := length_le_length_flatMap length_escapeChar_pos s.toList
  rw [readString,
    readText_escaped _ _ _ (by simp only [List.length_append, List.length_cons]; omega)]
  simp [Except.map]

end ChatPipeline.Json
