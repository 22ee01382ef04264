import ChatPipeline.Proofs.Text.Octets
import ChatPipeline.Web.Escape

/-!
# Escapes read back

An escaped text holds nothing but the characters that are kept and octets, each as a percent sign
and two digits (`escape_isEscaped`).  Where the percent sign itself is not kept, reading the escapes
gives the octets of the text again, so no two texts are escaped alike (`decode?_unescape_escape`).
-/

namespace ChatPipeline.Web

open ChatPipeline.Text

/-! ## What an escaped text holds -/

def isUpperHex (c : Char) : Bool := ('0' ≤ c && c ≤ '9') || ('A' ≤ c && c ≤ 'F')

inductive IsEscaped (keep : Char → Bool) : List Char → Prop where
  | nil : IsEscaped keep []
  | kept {c : Char} (hkeep : keep c = true) (hrest : IsEscaped keep rest) : IsEscaped keep (c :: rest)
  | octet {high low : Char} (hhigh : isUpperHex high = true) (hlow : isUpperHex low = true)
    (hrest : IsEscaped keep rest) : IsEscaped keep ('%' :: high :: low :: rest)

variable {keep : Char → Bool}

theorem IsEscaped.append {front back : List Char} (hfront : IsEscaped keep front)
    (hback : IsEscaped keep back) : IsEscaped keep (front ++ back) := by
  induction hfront with
  | nil => exact hback
  | kept hkeep _ ih => exact .kept hkeep ih
  | octet hhigh hlow _ ih => exact .octet hhigh hlow ih

theorem IsEscaped.forall_mem {p : Char → Prop} {cs : List Char} (h : IsEscaped keep cs)
    (hkept : ∀ c, keep c = true → p c) (hhex : ∀ c, isUpperHex c = true → p c) (hpercent : p '%') :
    ∀ c ∈ cs, p c := by
  induction h with
  | nil => exact List.forall_mem_nil _
  | kept hkeep _ ih => exact List.forall_mem_cons.2 ⟨hkept _ hkeep, ih⟩
  | octet hhigh hlow _ ih =>
      exact List.forall_mem_cons.2 ⟨hpercent, List.forall_mem_cons.2 ⟨hhex _ hhigh,
        List.forall_mem_cons.2 ⟨hhex _ hlow, ih⟩⟩⟩

/-! ## Digits -/

theorem isUpperHex_hexDigit {d : Nat} (h : d < 16) : isUpperHex (hexDigit d) = true := by
  revert d
  decide

private theorem hexValue?_hexDigit {d : Nat} (h : d < 16) : hexValue? (hexDigit d) = some d := by
  revert d
  decide

private theorem octet_digits_lt (b : UInt8) : b.toNat / 16 < 16 ∧ b.toNat % 16 < 16 := by
  have hb := b.toNat_lt
  omega

/-! ## Escaping -/

theorem escapeOctets_isEscaped (octets : List UInt8) :
    IsEscaped keep (octets.flatMap escapeOctet) := by
  induction octets with
  | nil => exact .nil
  | cons b octets ih =>
      obtain ⟨hhigh, hlow⟩ := octet_digits_lt b
      exact .octet (isUpperHex_hexDigit hhigh) (isUpperHex_hexDigit hlow) ih

private theorem escapeChar_isEscaped (c : Char) : IsEscaped keep (escapeChar keep c) := by
  unfold escapeChar
  split
  · rename_i hkeep
    exact .kept hkeep .nil
  · exact escapeOctets_isEscaped _

theorem escape_isEscaped (keep : Char → Bool) (s : String) :
    IsEscaped keep (escape keep s).toList := by
  rw [escape, String.toList_ofList]
  induction s.toList with
  | nil => exact .nil
  | cons c cs ih =>
      rw [List.flatMap_cons]
      exact (escapeChar_isEscaped c).append ih

theorem escape_of_kept {s : String} (h : ∀ c ∈ s.toList, keep c = true) : escape keep s = s := by
  have hself : ∀ cs : List Char, (∀ c ∈ cs, keep c = true) → cs.flatMap (escapeChar keep) = cs := by
    intro cs hcs
    induction cs with
    | nil => rfl
    | cons c cs ih =>
        obtain ⟨hc, hrest⟩ := List.forall_mem_cons.1 hcs
        rw [List.flatMap_cons, ih hrest, escapeChar, if_pos hc, List.singleton_append]
  rw [escape, hself _ h, String.ofList_toList]

/-! ## Reading escapes -/

theorem unescape_escapeOctet (b : UInt8) (rest : List Char) :
    unescape (escapeOctet b ++ rest) = b :: unescape rest := by
  obtain ⟨hhigh, hlow⟩ := octet_digits_lt b
  have hvalue : b.toNat / 16 * 16 + b.toNat % 16 = b.toNat := by omega
  rw [escapeOctet, List.cons_append, List.cons_append, List.cons_append, List.nil_append, unescape,
    hexValue?_hexDigit hhigh, hexValue?_hexDigit hlow]
  simp only [hvalue, UInt8.ofNat_toNat]

private theorem unescape_escapeOctets (octets : List UInt8) (rest : List Char) :
    unescape (octets.flatMap escapeOctet ++ rest) = octets ++ unescape rest := by
  induction octets with
  | nil => rfl
  | cons b octets ih =>
      rw [List.flatMap_cons, List.append_assoc, unescape_escapeOctet, ih, List.cons_append]

private theorem unescape_cons {c : Char} (hc : c ≠ '%') (rest : List Char) :
    unescape (c :: rest) = String.utf8EncodeChar c ++ unescape rest := by
  rw [unescape]
  rintro a b after rfl
  exact absurd rfl hc

private theorem unescape_escapeChar (hpercent : keep '%' = false) (c : Char) (rest : List Char) :
    unescape (escapeChar keep c ++ rest) = String.utf8EncodeChar c ++ unescape rest := by
  unfold escapeChar
  split
  · rename_i hkeep
    have hc : c ≠ '%' := by
      rintro rfl
      rw [hpercent] at hkeep
      cases hkeep
    exact unescape_cons hc rest
  · exact unescape_escapeOctets _ rest

theorem unescape_escape (hpercent : keep '%' = false) (s : String) :
    unescape (escape keep s).toList = s.toList.flatMap String.utf8EncodeChar := by
  rw [escape, String.toList_ofList]
  induction s.toList with
  | nil => rfl
  | cons c cs ih => rw [List.flatMap_cons, unescape_escapeChar hpercent, ih, List.flatMap_cons]

/-- An escaped text is read as the text it was made of. -/
theorem decode?_unescape_escape (hpercent : keep '%' = false) (s : String) :
    decode? (unescape (escape keep s).toList) = some s := by
  rw [unescape_escape hpercent, decode?_octets]

/-! ## Names within a path -/

theorem isAlphanum_iff {c : Char} : c.isAlphanum = true ↔
    (65 ≤ c.toNat ∧ c.toNat ≤ 90 ∨ 97 ≤ c.toNat ∧ c.toNat ≤ 122) ∨ 48 ≤ c.toNat ∧ c.toNat ≤ 57 := by
  have hranges : c.isAlphanum = ((decide (65 ≤ c.val ∧ c.val ≤ 90) ||
      decide (97 ≤ c.val) && decide (c.val ≤ 122)) ||
      decide (48 ≤ c.val) && decide (c.val ≤ 57)) := rfl
  rw [hranges]
  simp only [Bool.or_eq_true, Bool.and_eq_true, decide_eq_true_eq, UInt32.le_iff_toNat_le]
  rfl

theorem toNat_lt_of_isPathName {c : Char} (h : isPathName c = true) : c.toNat < 0x80 := by
  simp only [isPathName, isUnreserved, Bool.or_eq_true, isAlphanum_iff, List.contains_iff_mem,
    List.mem_cons, List.not_mem_nil, or_false, beq_iff_eq] at h
  rcases h with (h | rfl | rfl | rfl | rfl) | rfl
  · omega
  all_goals decide

theorem isPathName_of_isUpperHex {c : Char} (h : isUpperHex c = true) : isPathName c = true := by
  have hc : c.isAlphanum = true := by
    simp only [isUpperHex, Bool.or_eq_true, Bool.and_eq_true, decide_eq_true_eq] at h
    rw [isAlphanum_iff]
    rcases h with ⟨hlow, hhigh⟩ | ⟨hlow, hhigh⟩
    · exact .inr ⟨hlow, hhigh⟩
    · have hletter : c.toNat ≤ 90 := Nat.le_trans hhigh (by decide)
      exact .inl (.inl ⟨hlow, hletter⟩)
  simp [isPathName, isUnreserved, hc]

end ChatPipeline.Web
