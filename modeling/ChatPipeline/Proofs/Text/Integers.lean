import ChatPipeline.Decimal.Reading
import ChatPipeline.Proofs.Json.Grammar
import ChatPipeline.Proofs.Text.Digits
import ChatPipeline.Proofs.Text.Trimming

/-!
# Integers in any script

The texts that are read as an integer: digits of any script with single underscores between them, a
sign in front and blanks around (`IntegerText`).  The reader brings a text to ASCII and strips it in
stages; `anyScriptInteger_eq_some_iff` is that it reads just these texts, as the numbers that their
digits write.
-/

namespace ChatPipeline.Text

variable {blank : Char → Bool}

private theorem dropWhile_of_head? {cs : List Char} {c : Char} (h : cs.head? = some c)
    (hc : blank c = false) : cs.dropWhile blank = cs := by
  obtain ⟨rest, rfl⟩ := List.head?_eq_some_iff.1 h
  exact List.dropWhile_cons_of_neg (by simp [hc])

private theorem trimBy_map (f : Char → Char) (cs : List Char) :
    trimBy blank (cs.map f) = (trimBy (blank ∘ f) cs).map f := by
  rw [trimBy, List.dropWhile_map, ← List.map_reverse, List.dropWhile_map, ← List.map_reverse, trimBy]

private theorem trimBy_append {before cs after : List Char} {first last : Char}
    (hbefore : ∀ c ∈ before, blank c = true) (hafter : ∀ c ∈ after, blank c = true)
    (hhead : cs.head? = some first) (hfirst : blank first = false)
    (hend : cs.getLast? = some last) (hlast : blank last = false) :
    trimBy blank (before ++ cs ++ after) = cs := by
  have hstart : (cs ++ after).dropWhile blank = cs ++ after := by
    refine dropWhile_of_head? ?_ hfirst
    rw [List.head?_append, hhead, Option.some_or]
  have hback : cs.reverse.dropWhile blank = cs.reverse := by
    refine dropWhile_of_head? ?_ hlast
    rw [List.head?_reverse, hend]
  rw [trimBy, List.append_assoc, List.dropWhile_append_of_pos hbefore, hstart, List.reverse_append,
    List.dropWhile_append_of_pos (fun c hc => hafter c (List.mem_reverse.1 hc)), hback,
    List.reverse_reverse]

private theorem exists_trimBy_append (blank : Char → Bool) (cs : List Char) :
    ∃ before after, cs = before ++ trimBy blank cs ++ after ∧ (∀ c ∈ before, blank c = true) ∧
      ∀ c ∈ after, blank c = true := by
  have hback := List.takeWhile_append_dropWhile (p := blank) (l := (cs.dropWhile blank).reverse)
  refine ⟨cs.takeWhile blank, ((cs.dropWhile blank).reverse.takeWhile blank).reverse, ?_,
    fun c hc => List.mem_takeWhile_imp hc,
    fun c hc => List.mem_takeWhile_imp (List.mem_reverse.1 hc)⟩
  rw [trimBy, List.append_assoc, ← List.reverse_append, hback, List.reverse_reverse,
    List.takeWhile_append_dropWhile]

end ChatPipeline.Text

namespace ChatPipeline.Decimal

open ChatPipeline.Text

/-! ## The grammar -/

/-- Digits with the values they have; an underscore may stand between two of them. -/
inductive Grouped : List Char → List Nat → Prop where
  | last (hc : digitValue? c = some d) : Grouped [c] [d]
  | next (hc : digitValue? c = some d) (hrest : Grouped cs ds) : Grouped (c :: cs) (d :: ds)
  | apart (hc : digitValue? c = some d) (hrest : Grouped cs ds) : Grouped (c :: '_' :: cs) (d :: ds)

/-- Outside of ASCII every blank counts, within it the separator controls do not. -/
def isIntegerBlank (c : Char) : Bool := if c.toNat < 0x80 then isAsciiBlank c else isBlank c

inductive IntegerText : List Char → Int → Prop where
  | written {before signed after body : List Char} {negative : Bool} {ds : List Nat}
    (hbefore : ∀ c ∈ before, isIntegerBlank c = true) (hafter : ∀ c ∈ after, isIntegerBlank c = true)
    (hsign : Json.SignText negative signed body) (hbody : Grouped body ds)
    (hlength : ds.length ≤ maxDigits) :
    IntegerText (before ++ signed ++ after) (Json.signedValue negative (ofDigits 10 ds))

/-! ## Characters brought to ASCII -/

theorem digitValue?_asciiOf (c : Char) : digitValue? (asciiOf c) = digitValue? c := by
  unfold asciiOf
  split
  · rfl
  split
  · rename_i d hd
    rw [hd, digitValue?_digitChar (digitValue?_lt hd)]
  · rename_i hnone
    split
    · rw [hnone]
      rfl
    · rfl

private theorem isAsciiDigit_of_lt {c : Char} {d : Nat} (hsmall : c.toNat < 0x80)
    (h : digitValue? c = some d) : isAsciiDigit c = true := by
  rw [digitValue?, if_pos hsmall] at h
  split at h
  · rename_i hc
    simpa [isAsciiDigit] using hc
  · cases h

private theorem isAsciiDigit_asciiOf {c : Char} {d : Nat} (h : digitValue? c = some d) :
    isAsciiDigit (asciiOf c) = true := by
  unfold asciiOf
  split
  · rename_i hsmall
    exact isAsciiDigit_of_lt hsmall h
  · rw [h]
    exact isAsciiDigit_digitChar (digitValue?_lt h)

private theorem asciiOf_eq_iff {c mark : Char} (hsmall : mark.toNat < 0x80)
    (hdigit : digitValue? mark = none) (hblank : mark ≠ ' ') : asciiOf c = mark ↔ c = mark := by
  unfold asciiOf
  split
  · rfl
  · rename_i hbig
    have hne : c ≠ mark := by
      rintro rfl
      exact hbig hsmall
    refine iff_of_false ?_ hne
    split
    · rename_i d hd
      intro h
      rw [← h, digitValue?_digitChar (digitValue?_lt hd)] at hdigit
      cases hdigit
    · split
      · exact hblank.symm
      · exact hne

private theorem isBlank_of_digitValue? {c : Char} {d : Nat} (h : digitValue? c = some d) :
    isBlank c = false := by
  have hall : ∀ first ∈ digitZeros, ∀ i < 10, isBlank (Char.ofNat (first + i)) = false := by
    decide +kernel
  by_cases hsmall : c.toNat < 0x80
  · have hdigit := isAsciiDigit_of_lt hsmall h
    have hdigits : ∀ n < 0x80, isAsciiDigit (Char.ofNat n) = true → isBlank (Char.ofNat n) = false := by
      decide
    have hc := hdigits c.toNat hsmall
    rw [Char.ofNat_toNat] at hc
    exact hc hdigit
  · rw [digitValue?, if_neg hsmall] at h
    obtain ⟨first, hfound, rfl⟩ := Option.map_eq_some_iff.1 h
    have hrange := List.find?_some hfound
    simp only [Bool.and_eq_true, decide_eq_true_eq] at hrange
    have hc := hall first (List.mem_of_find?_eq_some hfound) (c.toNat - first) (by omega)
    rwa [Nat.add_sub_cancel' hrange.1, Char.ofNat_toNat] at hc

private theorem isAsciiBlank_asciiOf (c : Char) : isAsciiBlank (asciiOf c) = isIntegerBlank c := by
  unfold isIntegerBlank asciiOf
  split
  · rfl
  · rename_i hbig
    split
    · rename_i d hd
      have hall : ∀ d < 10, isAsciiBlank (digitChar d) = false := by decide
      rw [hall d (digitValue?_lt hd), isBlank_of_digitValue? hd]
    · split
      · rename_i hblank
        rw [hblank]
        rfl
      · rename_i hblank
        rw [Bool.not_eq_true] at hblank
        rw [hblank, isAsciiBlank]
        simp
        omega

private theorem isIntegerBlank_of_digitValue? {c : Char} {d : Nat} (h : digitValue? c = some d) :
    isIntegerBlank c = false := by
  have hdigits : ∀ n < 0x80, isAsciiDigit (Char.ofNat n) = true →
      isAsciiBlank (Char.ofNat n) = false := by
    decide
  unfold isIntegerBlank
  split
  · rename_i hsmall
    have hc := hdigits c.toNat hsmall
    rw [Char.ofNat_toNat] at hc
    exact hc (isAsciiDigit_of_lt hsmall h)
  · exact isBlank_of_digitValue? h

/-! ## Signs -/

theorem Grouped.exists_head {cs : List Char} {ds : List Nat} (h : Grouped cs ds) :
    ∃ c d rest, cs = c :: rest ∧ digitValue? c = some d := by
  cases h with
  | last hc => exact ⟨_, _, _, rfl, hc⟩
  | next hc => exact ⟨_, _, _, rfl, hc⟩
  | apart hc => exact ⟨_, _, _, rfl, hc⟩

private theorem takeSign_map {signed body : List Char} {negative : Bool} {ds : List Nat}
    (hsign : Json.SignText negative signed body) (hbody : Grouped body ds) :
    takeSign (signed.map asciiOf) = (negative, body.map asciiOf) := by
  cases hsign with
  | absent =>
      obtain ⟨c, d, rest, rfl, hc⟩ := hbody.exists_head
      have hascii := digitValue?_asciiOf c
      rw [hc] at hascii
      rw [List.map_cons]
      generalize asciiOf c = first at hascii
      unfold takeSign
      split
      · rename_i h
        cases h
        cases hascii
      · rename_i h
        cases h
        cases hascii
      · rfl
  | plus => rfl
  | minus => rfl

private theorem exists_signText {signed rest : List Char} {negative : Bool}
    (h : takeSign (signed.map asciiOf) = (negative, rest)) :
    ∃ body, Json.SignText negative signed body ∧ rest = body.map asciiOf := by
  unfold takeSign at h
  split at h
  · rename_i hplus
    cases h
    obtain ⟨c, body, rfl, hc, rfl⟩ := List.map_eq_cons_iff.1 hplus
    rw [asciiOf_eq_iff (by decide) (by decide) (by decide)] at hc
    subst hc
    exact ⟨body, .plus body, rfl⟩
  · rename_i hminus
    cases h
    obtain ⟨c, body, rfl, hc, rfl⟩ := List.map_eq_cons_iff.1 hminus
    rw [asciiOf_eq_iff (by decide) (by decide) (by decide)] at hc
    subst hc
    exact ⟨body, .minus body, rfl⟩
  · cases h
    exact ⟨signed, .absent signed, rfl⟩

/-! ## Groups of digits -/

theorem Grouped.map {cs : List Char} {ds : List Nat} (h : Grouped cs ds) :
    Grouped (cs.map asciiOf) ds := by
  induction h with
  | last hc => exact .last ((digitValue?_asciiOf _).trans hc)
  | next hc _ ih => exact .next ((digitValue?_asciiOf _).trans hc) ih
  | apart hc _ ih => exact .apart ((digitValue?_asciiOf _).trans hc) ih

theorem Grouped.of_map {cs m : List Char} {ds : List Nat} (h : Grouped m ds)
    (hm : cs.map asciiOf = m) : Grouped cs ds := by
  induction h generalizing cs with
  | last hc =>
      obtain ⟨c, rest, rfl, rfl, hrest⟩ := List.map_eq_cons_iff.1 hm
      obtain rfl := List.map_eq_nil_iff.1 hrest
      exact .last ((digitValue?_asciiOf c).symm.trans hc)
  | next hc _ ih =>
      obtain ⟨c, rest, rfl, rfl, hrest⟩ := List.map_eq_cons_iff.1 hm
      exact .next ((digitValue?_asciiOf c).symm.trans hc) (ih hrest)
  | apart hc _ ih =>
      obtain ⟨c, rest, rfl, rfl, hrest⟩ := List.map_eq_cons_iff.1 hm
      obtain ⟨mark, after, rfl, hmark, hafter⟩ := List.map_eq_cons_iff.1 hrest
      rw [asciiOf_eq_iff (by decide) (by decide) (by decide)] at hmark
      subst hmark
      exact .apart ((digitValue?_asciiOf c).symm.trans hc) (ih hafter)

private theorem ne_underscore {c : Char} {d : Nat} (h : digitValue? c = some d) : c ≠ '_' := by
  rintro rfl
  cases h

theorem Grouped.getLast? {cs : List Char} {ds : List Nat} (h : Grouped cs ds) :
    ∃ c d, cs.getLast? = some c ∧ digitValue? c = some d := by
  induction h with
  | last hc => exact ⟨_, _, rfl, hc⟩
  | next _ _ ih =>
      obtain ⟨c, d, hlast, hc⟩ := ih
      exact ⟨c, d, by rw [List.getLast?_cons, hlast, Option.getD_some], hc⟩
  | apart _ _ ih =>
      obtain ⟨c, d, hlast, hc⟩ := ih
      exact ⟨c, d, by
        rw [List.getLast?_cons, List.getLast?_cons, hlast, Option.getD_some, Option.getD_some], hc⟩

def doubledUnderscore (cs : List Char) : Bool :=
  (cs.zip (cs.drop 1)).any fun (a, b) => a == '_' && b == '_'

private theorem doubledUnderscore_cons (a b : Char) (cs : List Char) :
    doubledUnderscore (a :: b :: cs) = ((a == '_' && b == '_') || doubledUnderscore (b :: cs)) := rfl

theorem Grouped.doubledUnderscore {cs : List Char} {ds : List Nat} (h : Grouped cs ds) :
    doubledUnderscore cs = false := by
  induction h with
  | last => rfl
  | next hc hrest ih =>
      obtain ⟨c, d, rest, rfl, -⟩ := hrest.exists_head
      rw [doubledUnderscore_cons, ih]
      simp [ne_underscore hc]
  | apart hc hrest ih =>
      obtain ⟨c, d, rest, rfl, hfirst⟩ := hrest.exists_head
      rw [doubledUnderscore_cons, doubledUnderscore_cons, ih]
      simp [ne_underscore hc, ne_underscore hfirst]

theorem Grouped.values {cs : List Char} {ds : List Nat} (h : Grouped cs ds) :
    (cs.filter (· != '_')).map digitValue? = ds.map some := by
  induction h with
  | last hc => simp [ne_underscore hc, hc]
  | next hc _ ih => simp [ne_underscore hc, hc, ih]
  | apart hc _ ih => simp [ne_underscore hc, hc, ih]

private theorem exists_grouped : ∀ cs : List Char, cs ≠ [] → cs.head? ≠ some '_' →
    cs.getLast? ≠ some '_' → doubledUnderscore cs = false →
    (∀ c ∈ cs, c ≠ '_' → ∃ d, digitValue? c = some d) → ∃ ds, Grouped cs ds
  | [], hnonempty, _, _, _, _ => absurd rfl hnonempty
  | [c], _, hhead, _, _, hdigits => by
    obtain ⟨d, hd⟩ := hdigits c (List.mem_singleton_self c) fun h => hhead (congrArg some h)
    exact ⟨[d], .last hd⟩
  | c :: next :: rest, _, hhead, hlast, hpairs, hdigits => by
    obtain ⟨d, hd⟩ := hdigits c List.mem_cons_self fun h => hhead (congrArg some h)
    rw [doubledUnderscore_cons, Bool.or_eq_false_iff] at hpairs
    rw [List.getLast?_cons_cons] at hlast
    obtain ⟨-, hrest⟩ := List.forall_mem_cons.1 hdigits
    by_cases hnext : next = '_'
    · subst hnext
      cases rest with
      | nil => exact absurd rfl hlast
      | cons first rest =>
          rw [doubledUnderscore_cons, Bool.or_eq_false_iff] at hpairs
          rw [List.getLast?_cons_cons] at hlast
          have hfirst : (first :: rest).head? ≠ some '_' := by simpa using hpairs.2.1
          obtain ⟨ds, hds⟩ := exists_grouped (first :: rest) (List.cons_ne_nil _ _) hfirst hlast
            hpairs.2.2 (List.forall_mem_cons.1 hrest).2
          exact ⟨d :: ds, .apart hd hds⟩
    · obtain ⟨ds, hds⟩ := exists_grouped (next :: rest) (List.cons_ne_nil _ _)
        (fun h => hnext (Option.some.inj h)) hlast hpairs.2 hrest
      exact ⟨d :: ds, .next hd hds⟩

/-! ## The digits that are read -/

theorem stripUnderscores_eq (cs : List Char) :
    stripUnderscores cs = if cs.head? = some '_' ∨ cs.getLast? = some '_' then none
      else if doubledUnderscore cs then none else some (cs.filter (· != '_')) := rfl

theorem Grouped.stripUnderscores {cs : List Char} {ds : List Nat} (h : Grouped cs ds) :
    stripUnderscores cs = some (cs.filter (· != '_')) := by
  obtain ⟨c, d, rest, rfl, hc⟩ := h.exists_head
  obtain ⟨e, d', hlast, he⟩ := h.getLast?
  have hends : ¬ ((c :: rest).head? = some '_' ∨ (c :: rest).getLast? = some '_') := by
    rw [hlast, List.head?_cons, Option.some.injEq, Option.some.injEq, not_or]
    exact ⟨ne_underscore hc, ne_underscore he⟩
  rw [stripUnderscores_eq, if_neg hends, h.doubledUnderscore, if_neg Bool.false_ne_true]

theorem Grouped.exists_digitValue? {cs : List Char} {ds : List Nat} (h : Grouped cs ds) {c : Char}
    (hc : c ∈ cs) (hmark : c ≠ '_') : ∃ d, digitValue? c = some d := by
  have hvalue : digitValue? c ∈ ds.map some := by
    rw [← h.values]
    exact List.mem_map_of_mem (List.mem_filter.2 ⟨hc, by simpa using hmark⟩)
  obtain ⟨d, -, hd⟩ := List.mem_map.1 hvalue
  exact ⟨d, hd.symm⟩

theorem Grouped.digitsNumber {cs : List Char} {ds : List Nat} (h : Grouped cs ds) :
    digitsNumber (cs.filter (· != '_')) = ofDigits 10 ds := by
  have hvalues : (cs.filter (· != '_')).filterMap digitValue? = ds := by
    have hmapped := congrArg (List.filterMap id) h.values
    rwa [List.filterMap_map, List.filterMap_map, Function.id_comp, Function.id_comp,
      List.filterMap_some] at hmapped
  rw [Decimal.digitsNumber, hvalues]

theorem Grouped.filter_isAsciiDigit {cs : List Char} {ds : List Nat} (h : Grouped cs ds) :
    (cs.map asciiOf).filter isAsciiDigit = (cs.map asciiOf).filter (· != '_') := by
  refine List.filter_congr fun c hc => ?_
  by_cases hmark : c = '_'
  · subst hmark
    rfl
  · obtain ⟨d, hd⟩ := h.map.exists_digitValue? hc hmark
    obtain ⟨original, -, rfl⟩ := List.mem_map.1 hc
    rw [isAsciiDigit_asciiOf ((digitValue?_asciiOf original).symm.trans hd)]
    simpa using hmark

theorem Grouped.length_filter {cs : List Char} {ds : List Nat} (h : Grouped cs ds) :
    ((cs.map asciiOf).filter isAsciiDigit).length = ds.length := by
  rw [h.filter_isAsciiDigit, ← List.length_map (f := digitValue?), h.map.values, List.length_map]

theorem Grouped.allDigits {cs : List Char} {ds : List Nat} (h : Grouped cs ds) :
    allDigits ((cs.map asciiOf).filter (· != '_')) = true := by
  rw [← h.filter_isAsciiDigit, Decimal.allDigits, Bool.and_eq_true, List.all_eq_true]
  refine ⟨?_, fun c hc => (List.mem_filter.1 hc).2⟩
  rw [Bool.not_eq_true', List.isEmpty_eq_false_iff, ← List.length_pos_iff, h.length_filter]
  cases h <;> exact Nat.succ_pos _

private theorem exists_digitValue?_of_isAsciiDigit {c : Char} (h : isAsciiDigit c = true) :
    ∃ d, digitValue? c = some d := by
  simp only [isAsciiDigit, Bool.and_eq_true, decide_eq_true_eq] at h
  have hsmall : c.toNat < 0x80 := Nat.lt_of_le_of_lt h.2 (by decide)
  exact ⟨_, by rw [digitValue?, if_pos hsmall, if_pos h]⟩

private theorem groupedDigits?_map_eq_some_iff {cs : List Char} {n : Nat} :
    groupedDigits? (cs.map asciiOf) = some n ↔ ∃ ds, Grouped cs ds ∧ ofDigits 10 ds = n := by
  constructor
  · intro h
    obtain ⟨digits, hdigits, hn⟩ := Option.bind_eq_some_iff.1 h
    rw [stripUnderscores_eq] at hdigits
    split at hdigits
    · cases hdigits
    rename_i hends
    rw [not_or] at hends
    split at hdigits
    · cases hdigits
    rename_i hpairs
    rw [Bool.not_eq_true] at hpairs
    cases hdigits
    split at hn
    · rename_i hall
      rw [allDigits, Bool.and_eq_true, List.all_eq_true] at hall
      have hnonempty : cs.map asciiOf ≠ [] := by
        intro hnil
        rw [hnil] at hall
        cases hall.1
      obtain ⟨ds, hds⟩ := exists_grouped _ hnonempty hends.1 hends.2 hpairs fun c hc hmark =>
        exists_digitValue?_of_isAsciiDigit (hall.2 c (List.mem_filter.2 ⟨hc, by simpa using hmark⟩))
      rw [hds.digitsNumber] at hn
      exact ⟨ds, hds.of_map rfl, Option.some.inj hn⟩
    · cases hn
  · rintro ⟨ds, hds, rfl⟩
    rw [groupedDigits?, hds.map.stripUnderscores, Option.bind_some, if_pos hds.allDigits,
      hds.map.digitsNumber]

/-! ## Texts read as an integer -/

theorem exists_head? {signed body : List Char} {negative : Bool} {ds : List Nat}
    (hsign : Json.SignText negative signed body) (hbody : Grouped body ds) :
    ∃ c, signed.head? = some c ∧ isIntegerBlank c = false := by
  cases hsign with
  | absent =>
      obtain ⟨c, d, rest, rfl, hc⟩ := hbody.exists_head
      exact ⟨c, rfl, isIntegerBlank_of_digitValue? hc⟩
  | plus => exact ⟨'+', rfl, rfl⟩
  | minus => exact ⟨'-', rfl, rfl⟩

private theorem exists_getLast? {signed body : List Char} {negative : Bool} {ds : List Nat}
    (hsign : Json.SignText negative signed body) (hbody : Grouped body ds) :
    ∃ c, signed.getLast? = some c ∧ isIntegerBlank c = false := by
  obtain ⟨c, d, hlast, hc⟩ := hbody.getLast?
  obtain ⟨before, rfl⟩ := hsign.suffix
  exact ⟨c, by rw [List.getLast?_append, hlast, Option.some_or], isIntegerBlank_of_digitValue? hc⟩

private theorem anyScriptInteger_eq {s : String} {negative : Bool} {rest : List Char}
    (h : takeSign ((trimBy isIntegerBlank s.toList).map asciiOf) = (negative, rest)) :
    anyScriptInteger s = if maxDigits < (rest.filter isAsciiDigit).length then none
      else (groupedDigits? rest).map (Json.signedValue negative) := by
  have hblank : isAsciiBlank ∘ asciiOf = isIntegerBlank := funext isAsciiBlank_asciiOf
  rw [← hblank, ← trimBy_map] at h
  unfold anyScriptInteger
  dsimp only
  rw [h]
  cases groupedDigits? rest <;> rfl

theorem anyScriptInteger_eq_some_iff {s : String} {i : Int} :
    anyScriptInteger s = some i ↔ IntegerText s.toList i := by
  constructor
  · intro h
    obtain ⟨negative, rest, htake⟩ :
        ∃ negative rest, takeSign ((trimBy isIntegerBlank s.toList).map asciiOf) = (negative, rest) :=
      ⟨_, _, rfl⟩
    obtain ⟨body, hsign, rfl⟩ := exists_signText htake
    rw [anyScriptInteger_eq htake] at h
    split at h
    · cases h
    · rename_i hshort
      obtain ⟨n, hn, rfl⟩ := Option.map_eq_some_iff.1 h
      obtain ⟨ds, hbody, rfl⟩ := groupedDigits?_map_eq_some_iff.1 hn
      rw [hbody.length_filter, Nat.not_lt] at hshort
      obtain ⟨before, after, hsplit, hbefore, hafter⟩ :=
        exists_trimBy_append isIntegerBlank s.toList
      rw [hsplit]
      exact .written hbefore hafter hsign hbody hshort
  · intro h
    generalize hcs : s.toList = cs at h
    obtain ⟨hbefore, hafter, hsign, hbody, hlength⟩ := h
    obtain ⟨first, hhead, hfirst⟩ := exists_head? hsign hbody
    obtain ⟨last, hend, hlast⟩ := exists_getLast? hsign hbody
    have htake := takeSign_map hsign hbody
    rw [← trimBy_append hbefore hafter hhead hfirst hend hlast, ← hcs] at htake
    rw [anyScriptInteger_eq htake, hbody.length_filter, if_neg (Nat.not_lt.2 hlength),
      groupedDigits?_map_eq_some_iff.2 ⟨_, hbody, rfl⟩, Option.map_some]

end ChatPipeline.Decimal
