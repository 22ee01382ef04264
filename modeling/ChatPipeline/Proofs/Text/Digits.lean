import Mathlib.Data.Nat.Digits.Lemmas
import ChatPipeline.Json.Reader

/-!
# Digits written and read

The digits of a number are those that `Nat.digits` gives, most significant first, with one digit for
zero (`digits_eq`).  Their value is the number again, and none but zero starts with a zero.
-/

namespace ChatPipeline.Text

/-! ## Digits as characters -/

theorem digitValue?_digitChar {d : Nat} (h : d < 10) : digitValue? (digitChar d) = some d := by
  revert d
  decide

theorem isAsciiDigit_digitChar {d : Nat} (h : d < 10) : isAsciiDigit (digitChar d) = true := by
  revert d
  decide

private theorem digitChar_ne {d : Nat} (h : d < 10) (hd : d ≠ 0) : digitChar d ≠ '0' := by
  revert d
  decide

/-! ## Numbers as digits -/

theorem digits_go {base : Nat} (hbase : 2 ≤ base) (n : Nat) (acc : List Char) :
    digits.go base n acc =
      (if n = 0 then ['0'] else (Nat.digits base n).reverse.map digitChar) ++ acc := by
  induction n using Nat.strongRecOn generalizing acc with
  | ind n ih =>
      rw [digits.go]
      by_cases hsmall : n < base
      · rw [dif_pos (.inl hsmall)]
        by_cases hzero : n = 0
        · subst hzero
          rfl
        · simp [hzero, Nat.digits_of_lt base n hzero hsmall]
      · have hbig : ¬ (n < base ∨ base < 2) := by omega
        have hquotient : n / base ≠ 0 := by
          rw [Nat.div_ne_zero_iff]
          omega
        have hless : n / base < n := Nat.div_lt_self (by omega) (by omega)
        have hdigits : Nat.digits base n = n % base :: Nat.digits base (n / base) :=
          Nat.digits_def' (by omega) (by omega)
        rw [dif_neg hbig, ih (n / base) hless, if_neg hquotient, if_neg (by omega), hdigits]
        simp

theorem digits_eq {base : Nat} (hbase : 2 ≤ base) (n : Nat) :
    digits base n = if n = 0 then ['0'] else (Nat.digits base n).reverse.map digitChar := by
  rw [digits, if_neg (by omega), digits_go hbase, List.append_nil]

private theorem ofDigits_eq_foldl (base : Nat) (ds : List Nat) :
    ofDigits base ds = Nat.ofDigits base ds.reverse := by
  rw [Nat.ofDigits_eq_foldr, List.foldr_reverse, ofDigits]
  congr 1
  funext n d
  simp
  ring

private theorem values_digits (n : Nat) :
    (digits 10 n).filterMap digitValue? =
      if n = 0 then [0] else (Nat.digits 10 n).reverse := by
  rw [digits_eq (by omega)]
  split
  · rfl
  · rw [List.filterMap_map]
    have hvalue : ∀ d ∈ (Nat.digits 10 n).reverse, (digitValue? ∘ digitChar) d = some d := by
      intro d hd
      exact digitValue?_digitChar (Nat.digits_lt_base (by omega) (List.mem_reverse.1 hd))
    rw [List.filterMap_congr hvalue, List.filterMap_some]

theorem digitsValue_digits (n : Nat) : Json.digitsValue (digits 10 n) = n := by
  rw [Json.digitsValue, values_digits, ofDigits_eq_foldl]
  split
  · simp_all
  · rw [List.reverse_reverse, Nat.ofDigits_digits]

theorem isAsciiDigit_of_mem_digits {n : Nat} {c : Char} (h : c ∈ digits 10 n) :
    isAsciiDigit c = true := by
  rw [digits_eq (by omega)] at h
  split at h
  · rw [List.mem_singleton.1 h]
    rfl
  · obtain ⟨d, hd, rfl⟩ := List.mem_map.1 h
    exact isAsciiDigit_digitChar (Nat.digits_lt_base (by omega) (List.mem_reverse.1 hd))

theorem length_digits_le {n k : Nat} (hk : 0 < k) (h : n < 10 ^ k) : (digits 10 n).length ≤ k := by
  rw [digits_eq (by omega)]
  split
  · exact hk
  · rw [List.length_map, List.length_reverse]
    exact (Nat.digits_length_le_iff (by omega) n).2 h

theorem digits_cases (n : Nat) :
    digits 10 n = ['0'] ∨ ∃ c rest, digits 10 n = c :: rest ∧ c ≠ '0' := by
  rw [digits_eq (by omega)]
  split
  · exact .inl rfl
  · rename_i hn
    have hne : Nat.digits 10 n ≠ [] := Nat.digits_ne_nil_iff_ne_zero.2 hn
    have hlast := Nat.getLast_digit_ne_zero 10 hn
    have hlt : (Nat.digits 10 n).getLast hne < 10 :=
      Nat.digits_lt_base (by omega) (List.getLast_mem hne)
    obtain ⟨init, last, hsplit⟩ : ∃ init last, Nat.digits 10 n = init ++ [last] :=
      ⟨_, _, (List.dropLast_append_getLast hne).symm⟩
    simp only [hsplit, List.getLast_append_singleton] at hlast hlt
    exact .inr ⟨digitChar last, init.reverse.map digitChar, by simp [hsplit],
      digitChar_ne hlt hlast⟩

end ChatPipeline.Text
