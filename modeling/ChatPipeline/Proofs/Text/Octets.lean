import ChatPipeline.Text.Bytes

/-!
# Octets read back

The octets of a character are read as that character, whatever follows them: the first octet tells
how many continuation octets there are, and rules out those with which the character could have been
written shorter, or would be half of a pair.  So the octets of a text are read as the text
(`decode?_octets`).
-/

namespace ChatPipeline.Text

private theorem toNat_ofNat_octet {n : Nat} (h : n < 256) : (UInt8.ofNat n).toNat = n := by
  rw [UInt8.toNat_ofNat', Nat.mod_eq_of_lt h]

/-! ## First octets -/

theorem of?_lead_two {n : Nat} (hlow : 0x80 ≤ n) (hhigh : n < 0x800) :
    Lead.of? (n / 64 % 0x20 + 0xc0) = some ⟨1, n / 64, 0x80, 0xbf⟩ := by
  have hrange : 0xc2 ≤ n / 64 % 0x20 + 0xc0 ∧ n / 64 % 0x20 + 0xc0 ≤ 0xdf := by omega
  have hbits : n / 64 % 0x20 + 0xc0 - 0xc0 = n / 64 := by omega
  rw [Lead.of?, if_pos hrange, hbits]

private theorem exists_of?_lead_three {n : Nat} (hlow : 0x800 ≤ n) (hhigh : n < 0x10000)
    (hpair : n < 0xd800 ∨ 0xdfff < n) :
    ∃ low high, Lead.of? (n / 4096 % 0x10 + 0xe0) = some ⟨2, n / 4096, low, high⟩ ∧
      low ≤ n / 64 % 0x40 + 0x80 ∧ n / 64 % 0x40 + 0x80 ≤ high := by
  have hfirst : n / 4096 % 0x10 + 0xe0 = n / 4096 + 0xe0 := by omega
  rw [hfirst, Lead.of?, if_neg (by omega)]
  by_cases he0 : n / 4096 = 0
  · exact ⟨0xa0, 0xbf, by rw [if_pos (by omega), he0], by omega, by omega⟩
  by_cases hed : n / 4096 = 0xd
  · exact ⟨0x80, 0x9f, by rw [if_neg (by omega), if_pos (by omega), hed], by omega, by omega⟩
  · refine ⟨0x80, 0xbf, ?_, by omega, by omega⟩
    rw [if_neg (by omega), if_neg (by omega), if_pos (by omega), Nat.add_sub_cancel]

private theorem exists_of?_lead_four {n : Nat} (hlow : 0x10000 ≤ n) (hhigh : n < 0x110000) :
    ∃ low high, Lead.of? (n / 262144 % 0x08 + 0xf0) = some ⟨3, n / 262144, low, high⟩ ∧
      low ≤ n / 4096 % 0x40 + 0x80 ∧ n / 4096 % 0x40 + 0x80 ≤ high := by
  have hfirst : n / 262144 % 0x08 + 0xf0 = n / 262144 + 0xf0 := by omega
  rw [hfirst, Lead.of?, if_neg (by omega), if_neg (by omega), if_neg (by omega), if_neg (by omega)]
  by_cases hf0 : n / 262144 = 0
  · exact ⟨0x90, 0xbf, by rw [if_pos (by omega), hf0], by omega, by omega⟩
  by_cases hf4 : n / 262144 = 4
  · exact ⟨0x80, 0x8f, by rw [if_neg (by omega), if_pos (by omega), hf4], by omega, by omega⟩
  · refine ⟨0x80, 0xbf, ?_, by omega, by omega⟩
    rw [if_neg (by omega), if_neg (by omega), if_pos (by omega), Nat.add_sub_cancel]

/-! ## Continuation octets -/

theorem continuation_succ {value low high count n : Nat} (hbyte : n < 256) (hlow : low ≤ n)
    (hhigh : n ≤ high) (rest : List UInt8) :
    continuation value low high (count + 1) (UInt8.ofNat n :: rest) =
      continuation (value * 64 + (n - 0x80)) 0x80 0xbf count rest := by
  rw [continuation, toNat_ofNat_octet hbyte, if_pos ⟨hlow, hhigh⟩]

private theorem continuation_tail (value count n : Nat) (rest : List UInt8) :
    continuation value 0x80 0xbf (count + 1) (UInt8.ofNat (n % 0x40 + 0x80) :: rest) =
      continuation (value * 64 + n % 0x40) 0x80 0xbf count rest := by
  rw [continuation_succ (by omega) (by omega) (by omega), Nat.add_sub_cancel]

/-! ## Characters -/

theorem characters_of_lead {n : Nat} (hbyte : n < 256) {lead : Lead}
    (hlead : Lead.of? n = some lead)
    (hbig : 0x80 ≤ n) {value : Nat} {octets rest : List UInt8}
    (htaken : continuation lead.bits lead.low lead.high lead.count (octets ++ rest) =
      (some value, rest)) :
    characters (UInt8.ofNat n :: (octets ++ rest)) = some (Char.ofNat value) :: characters rest := by
  rw [characters, toNat_ofNat_octet hbyte, if_neg (by omega), hlead]
  simp only [htaken, Option.map_some]

private theorem characters_utf8EncodeChar (c : Char) (rest : List UInt8) :
    characters (String.utf8EncodeChar c ++ rest) = some c :: characters rest := by
  have hc : Char.ofNat c.val.toNat = c := Char.ofNat_toNat c
  have hvalid : c.val.toNat < 0xd800 ∨ 0xdfff < c.val.toNat ∧ c.val.toNat < 0x110000 := c.valid
  unfold String.utf8EncodeChar
  generalize c.val.toNat = n at hc hvalid
  dsimp only
  split
  · rw [List.singleton_append, characters, toNat_ofNat_octet (by omega), if_pos (by omega), hc]
  split
  · have hvalue : n / 64 * 64 + n % 0x40 = n := by omega
    have htaken : continuation (n / 64) 0x80 0xbf 1 ([UInt8.ofNat (n % 0x40 + 0x80)] ++ rest) =
        (some n, rest) := by
      rw [List.singleton_append, continuation_tail, hvalue, continuation]
    rw [← hc]
    exact characters_of_lead (by omega) (of?_lead_two (by omega) (by omega)) (by omega) htaken
  split
  · obtain ⟨low, high, hlead, hlow, hhigh⟩ :=
      exists_of?_lead_three (n := n) (by omega) (by omega) (by omega)
    have hvalue : (n / 4096 * 64 + n / 64 % 0x40) * 64 + n % 0x40 = n := by omega
    have htaken : continuation (n / 4096) low high 2 ([UInt8.ofNat (n / 64 % 0x40 + 0x80),
        UInt8.ofNat (n % 0x40 + 0x80)] ++ rest) = (some n, rest) := by
      rw [List.cons_append, List.singleton_append, continuation_succ (by omega) hlow hhigh,
        Nat.add_sub_cancel, continuation_tail, hvalue, continuation]
    rw [← hc]
    exact characters_of_lead (by omega) hlead (by omega) htaken
  · obtain ⟨low, high, hlead, hlow, hhigh⟩ :=
      exists_of?_lead_four (n := n) (by omega) (by omega)
    have hvalue : ((n / 262144 * 64 + n / 4096 % 0x40) * 64 + n / 64 % 0x40) * 64 + n % 0x40 = n := by
      omega
    have htaken : continuation (n / 262144) low high 3 ([UInt8.ofNat (n / 4096 % 0x40 + 0x80),
        UInt8.ofNat (n / 64 % 0x40 + 0x80), UInt8.ofNat (n % 0x40 + 0x80)] ++ rest) =
          (some n, rest) := by
      rw [List.cons_append, List.cons_append, List.singleton_append,
        continuation_succ (by omega) hlow hhigh, Nat.add_sub_cancel, continuation_tail,
        continuation_tail, hvalue, continuation]
    rw [← hc]
    exact characters_of_lead (by omega) hlead (by omega) htaken

/-! ## Texts -/

theorem length_characters_le (octets : List UInt8) :
    (characters octets).length ≤ octets.length := by
  induction octets using characters.induct with
  | case1 => simp [characters]
  | case2 b rest hascii ih =>
      rw [characters, if_pos hascii, List.length_cons, List.length_cons]
      omega
  | case3 b rest hascii hlead ih =>
      simp only [characters, hascii, hlead, if_false, List.length_cons]
      omega
  | case4 b rest hascii lead hlead taken ih =>
      have htaken := continuation_length lead.bits lead.low lead.high lead.count rest
      simp only [characters, hascii, hlead, if_false, List.length_cons]
      exact Nat.succ_le_succ (Nat.le_trans ih htaken)

theorem length_decodeLossy_le (octets : List UInt8) :
    (decodeLossy octets).toList.length ≤ octets.length := by
  rw [decodeLossy, String.toList_ofList, List.length_map]
  exact length_characters_le octets

private theorem characters_octets (cs : List Char) :
    characters (cs.flatMap String.utf8EncodeChar) = cs.map some := by
  induction cs with
  | nil => simp [characters]
  | cons c cs ih => rw [List.flatMap_cons, characters_utf8EncodeChar, ih, List.map_cons]

theorem decode?_octets (s : String) :
    decode? (s.toList.flatMap String.utf8EncodeChar) = some s := by
  have hall : (s.toList.map some).mapM id = some s.toList := by
    rw [List.mapM_map]
    exact (List.mapM_pure (m := Option) (f := id)).trans (congrArg some (List.map_id _))
  rw [decode?, characters_octets, hall, Option.map_some, String.ofList_toList]

end ChatPipeline.Text
