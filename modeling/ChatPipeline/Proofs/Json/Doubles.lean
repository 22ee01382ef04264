import Mathlib.Data.List.DropRight
import ChatPipeline.Proofs.Json.Numbers

/-!
# Doubles read back

Two notations that lay out the same digits differently are read as the same double, since the reader
counts places and does not see the layout: with the point anywhere among the digits, or with an
exponent, `spells_finite` gives `readBack`.  Only where zeros fill the space up to the point do they
enter the digits, and there no notation uses an exponent.
-/

namespace ChatPipeline.Json

open ChatPipeline.Text ChatPipeline.Decimal

/-! ## Zeros in front -/

theorem digitsValue_zeros (k : Nat) (ds : List Char) :
    digitsValue (List.replicate k '0' ++ ds) = digitsValue ds := by
  have hzero : digitValue? '0' = some 0 := rfl
  induction k with
  | zero => rfl
  | succ k ih =>
      rw [List.replicate_succ, List.cons_append, digitsValue, List.filterMap_cons, hzero]
      rw [digitsValue] at ih
      exact ih

private theorem digitsValue_paddedDigits (width n : Nat) :
    digitsValue (paddedDigits 10 width n) = n := by
  rw [paddedDigits, digitsValue_zeros, digitsValue_digits]

private theorem allDigits_zeros (k : Nat) : AllDigits (List.replicate k '0') := by
  intro c hc
  rw [List.eq_of_mem_replicate hc]
  rfl

theorem AllDigits.append {cs ds : List Char} (hcs : AllDigits cs) (hds : AllDigits ds) :
    AllDigits (cs ++ ds) := by
  intro c hc
  exact (List.mem_append.1 hc).elim (hcs c) (hds c)

private theorem allDigits_digits (n : Nat) : AllDigits (digits 10 n) := (isWhole_digits n).1

private theorem digits_ne_nil (n : Nat) : digits 10 n ≠ [] := by
  rcases digits_cases n with h | ⟨c, tail, h, -⟩ <;> simp [h]

/-! ## The digits of a double -/

theorem roundDiv_ge (num den : Nat) : num / den ≤ roundDiv num den := by
  unfold roundDiv
  dsimp only
  split
  · exact Nat.le_refl _
  split
  · omega
  split <;> omega

private theorem onGrid_ne_zero {n : Neighbourhood} {k : Int} {d : Digits}
    (h : n.onGrid k = some d) :
    d.digits ≠ 0 := by
  unfold Neighbourhood.onGrid at h
  dsimp only at h
  split at h
  · rename_i hlower _
    have hround := roundDiv_ge (n.value * (powerRatio 10 k).2) (n.den * (powerRatio 10 k).1)
    simp only [Bool.and_eq_true, decide_eq_true_eq] at hlower
    cases h
    dsimp only
    omega
  · rename_i hlower _
    simp only [Bool.and_eq_true, decide_eq_true_eq] at hlower
    cases h
    exact Nat.pos_iff_ne_zero.1 hlower.1
  · cases h
    exact Nat.succ_ne_zero _
  · cases h

private theorem coarsest_cases (n : Neighbourhood) (k : Int) (fuel : Nat) :
    n.coarsest k fuel = ⟨0, 0⟩ ∨ (n.coarsest k fuel).digits ≠ 0 := by
  induction fuel generalizing k with
  | zero =>
      rw [Neighbourhood.coarsest]
      by_cases h : n.value / n.den = 0
      · exact .inl (by rw [h])
      · exact .inr h
  | succ fuel ih =>
      rw [Neighbourhood.coarsest]
      cases h : n.onGrid k with
      | none => exact ih (k - 1)
      | some d => exact .inr (onGrid_ne_zero h)

def LeadsTo (ds : List Char) (point : Int) : Prop :=
  AllDigits ds ∧ ((∃ c tail, ds = c :: tail ∧ c ≠ '0') ∨ ds = ['0'] ∧ point = 1)

private theorem dropTrailingZeros_of_head {c : Char} (hc : c ≠ '0') {tail : List Char}
    (hdigits : AllDigits (c :: tail)) :
    ∃ kept, dropTrailingZeros (c :: tail) = c :: kept ∧ AllDigits (c :: kept) := by
  have hne : (c :: tail).rdropWhile (· == '0') ≠ [] := by
    rw [Ne, List.rdropWhile_eq_nil_iff]
    intro h
    exact hc (by simpa using h c List.mem_cons_self)
  have hprefix : (c :: tail).rdropWhile (· == '0') <+: c :: tail := List.rdropWhile_prefix _ _
  have hdrop : dropTrailingZeros (c :: tail) = (c :: tail).rdropWhile (· == '0') := by
    rw [dropTrailingZeros]
    split
    · rename_i hnil
      exact absurd hnil hne
    · rfl
  obtain ⟨d, kept, hkept⟩ := List.exists_cons_of_ne_nil hne
  obtain ⟨suffix, hsuffix⟩ := hprefix
  rw [hkept] at hsuffix
  cases hsuffix
  exact ⟨kept, by rw [hdrop, hkept], fun e he => hdigits e (by simp at he ⊢; tauto)⟩

private theorem digits_zero : digits 10 0 = ['0'] := by
  rw [digits_eq (by omega), if_pos rfl]

private theorem leadsTo_shortest (significand : Nat) (exponent : Int) :
    LeadsTo (dropTrailingZeros (shortest significand exponent).text)
      (shortest significand exponent).point := by
  have hcases : shortest significand exponent = ⟨0, 0⟩ ∨
      (shortest significand exponent).digits ≠ 0 := coarsest_cases _ _ _
  rcases hcases with hzero | hne
  · have htext : (⟨0, 0⟩ : Digits).text = ['0'] := digits_zero
    have hpoint : (⟨0, 0⟩ : Digits).point = 1 := by
      rw [Digits.point, Digits.count, digits_zero]
      rfl
    have hdrop : dropTrailingZeros ['0'] = ['0'] := rfl
    rw [hzero, htext, hpoint, hdrop]
    exact ⟨allDigits_zeros 1, .inr ⟨rfl, rfl⟩⟩
  · generalize shortest significand exponent = d at hne
    rcases digits_cases d.digits with hzero | ⟨c, tail, htext, hc⟩
    · exact absurd (by rw [← digitsValue_digits d.digits, hzero]; rfl) hne
    · have hdigits := allDigits_digits d.digits
      rw [htext] at hdigits
      obtain ⟨kept, hkept, hall⟩ := dropTrailingZeros_of_head hc hdigits
      rw [Digits.text, htext, hkept]
      exact ⟨hall, .inl ⟨c, kept, rfl, hc⟩⟩

/-! ## Reading a double -/

theorem exponentPart_signed {ds rest : List Char} (hds : AllDigits ds) (hne : ds ≠ [])
    (hrest : EndsDigits rest) :
    exponentPart ('e' :: '-' :: (ds ++ rest)) = some (-(digitsValue ds : Int), rest) ∧
      exponentPart ('e' :: '+' :: (ds ++ rest)) = some ((digitsValue ds : Int), rest) := by
  have hnonempty : ds.isEmpty = false := by simpa using hne
  constructor <;> simp [exponentPart, spanDigits_append hds hrest, hnonempty]

private theorem exponentPart_exponentText {style : NumberStyle} (hplus : style.exponentPlus = true)
    (exponent : Int) {rest : List Char} (hrest : EndsDigits rest) :
    exponentPart ('e' :: (exponentText style exponent ++ rest)) = some (exponent, rest) := by
  have hdigits : AllDigits (paddedDigits 10 style.exponentWidth exponent.natAbs) :=
    (allDigits_zeros _).append (allDigits_digits _)
  have hne : paddedDigits 10 style.exponentWidth exponent.natAbs ≠ [] := by
    simp [paddedDigits, digits_ne_nil]
  obtain ⟨hminus, hplain⟩ := exponentPart_signed hdigits hne hrest
  rw [digitsValue_paddedDigits] at hminus hplain
  by_cases hnegative : exponent < 0
  · rw [exponentText, if_pos hnegative, List.append_assoc, List.singleton_append, hminus]
    congr 2
    omega
  · rw [exponentText, if_neg hnegative, if_pos hplus, List.append_assoc, List.singleton_append,
      hplain]
    congr 2
    omega

private theorem readUnsigned_point {negative : Bool} {whole fraction rest : List Char}
    (hwhole : IsWhole whole) (hfraction : AllDigits fraction) (hne : fraction ≠ [])
    (hrest : Closes rest) :
    readUnsigned negative (whole ++ ('.' :: (fraction ++ rest))) =
      some (.ok (.float (ofDecimal negative (digitsValue (whole ++ fraction))
        (-(fraction.length : Int))), rest)) := by
  have hend : EndsDigits ('.' :: (fraction ++ rest)) := by simp [EndsDigits, isAsciiDigit]
  simp only [readUnsigned, integerPart_append hwhole hend,
    fractionPart_append hfraction hne hrest.endsDigits, hrest.exponentPart_eq, Bool.true_or,
    if_true, zero_sub]

theorem readUnsigned_exponent {negative : Bool} {style : NumberStyle}
    (hplus : style.exponentPlus = true) {ds : List Char} (hds : AllDigits ds) (hne : ds ≠ [])
    (point : Int) {rest : List Char} (hrest : Closes rest) :
    readUnsigned negative (scientific style ds point ++ rest) =
      some (.ok (.float (ofDecimal negative (digitsValue ds) (point - ds.length)), rest)) := by
  have hexponent := exponentPart_exponentText hplus (point - 1) hrest.endsDigits
  have hend : EndsDigits ('e' :: (exponentText style (point - 1) ++ rest)) := by
    simp [EndsDigits, isAsciiDigit]
  obtain ⟨d, fraction, rfl⟩ := List.exists_cons_of_ne_nil hne
  have hwhole : IsWhole [d] := by
    refine ⟨fun c hc => hds c (by simp_all), ?_⟩
    by_cases hd : d = '0'
    · exact .inl (by rw [hd])
    · exact .inr ⟨d, [], rfl, hd⟩
  cases fraction with
  | nil =>
      have htext : scientific style [d] point ++ rest =
          [d] ++ ('e' :: (exponentText style (point - 1) ++ rest)) := by
        simp [scientific]
      have hnone : fractionPart ('e' :: (exponentText style (point - 1) ++ rest)) = none := rfl
      rw [htext]
      simp only [readUnsigned, integerPart_append hwhole hend, hnone, hexponent]
      simp
  | cons e fraction =>
      have hfraction : AllDigits (e :: fraction) := fun c hc => hds c (List.mem_cons_of_mem d hc)
      have htext : scientific style (d :: e :: fraction) point ++ rest =
          [d] ++ ('.' :: (e :: fraction ++ ('e' :: (exponentText style (point - 1) ++ rest)))) := by
        simp [scientific]
      have hpoint : EndsDigits ('.' :: (e :: fraction ++
          ('e' :: (exponentText style (point - 1) ++ rest)))) := by
        simp [EndsDigits, isAsciiDigit]
      have hsum : point - 1 - ((e :: fraction).length : Int) =
          point - ((d :: e :: fraction).length : Int) := by
        simp only [List.length_cons]
        omega
      rw [htext]
      simp only [readUnsigned, integerPart_append hwhole hpoint,
        fractionPart_append hfraction (List.cons_ne_nil _ _) hend, hexponent, Bool.or_true, if_true,
        hsum]
      rfl

/-! ## The double that a text is read as -/

def FillsUp (ds : List Char) (point : Int) : Prop := ds.length ≤ point.toNat ∧ point ≤ 16

instance (ds : List Char) (point : Int) : Decidable (FillsUp ds point) := by
  unfold FillsUp
  infer_instance

def doubleOf (negative : Bool) (ds : List Char) (point : Int) : Float :=
  if FillsUp ds point then
    ofDecimal negative (digitsValue (ds ++ List.replicate (point.toNat - ds.length) '0' ++ ['0'])) (-1)
  else ofDecimal negative (digitsValue ds) (point - ds.length)

theorem LeadsTo.length_pos {ds : List Char} {point : Int} (h : LeadsTo ds point) :
    0 < ds.length := by
  rcases h.2 with ⟨c, tail, rfl, -⟩ | ⟨rfl, -⟩ <;> simp

section Positional

variable {negative : Bool} {ds rest : List Char} {point : Int}

private theorem readUnsigned_pointBefore (hds : LeadsTo ds point) (hpoint : point ≤ 0)
    (hrest : Closes rest) :
    readUnsigned negative ('0' :: '.' :: (List.replicate (-point).toNat '0' ++ ds ++ rest)) =
      some (.ok (.float (ofDecimal negative (digitsValue ds) (point - ds.length)), rest)) := by
  have hlength := hds.length_pos
  have hread := @readUnsigned_point negative ['0'] (List.replicate (-point).toNat '0' ++ ds) rest
    ⟨allDigits_zeros 1, .inl rfl⟩ ((allDigits_zeros _).append hds.1)
    (List.ne_nil_of_length_pos (by rw [List.length_append]; omega)) hrest
  have hvalue : digitsValue (['0'] ++ (List.replicate (-point).toNat '0' ++ ds)) = digitsValue ds :=
    (digitsValue_zeros 1 _).trans (digitsValue_zeros _ _)
  have hplaces : (-((List.replicate (-point).toNat '0' ++ ds).length : Int)) =
      point - ds.length := by
    rw [List.length_append, List.length_replicate]
    omega
  rwa [hvalue, hplaces] at hread

private theorem readUnsigned_pointAfter (hds : LeadsTo ds point) (zeros : Nat) (hrest : Closes rest)
    (hzeros : point = 1 → zeros = 0) :
    readUnsigned negative (ds ++ List.replicate zeros '0' ++ '.' :: ('0' :: rest)) =
      some (.ok (.float (ofDecimal negative
        (digitsValue (ds ++ List.replicate zeros '0' ++ ['0'])) (-1)), rest)) := by
  have hwhole : IsWhole (ds ++ List.replicate zeros '0') := by
    refine ⟨hds.1.append (allDigits_zeros _), ?_⟩
    rcases hds.2 with ⟨c, tail, rfl, hc⟩ | ⟨rfl, hone⟩
    · exact .inr ⟨c, _, rfl, hc⟩
    · exact .inl (by rw [hzeros hone]; rfl)
  exact readUnsigned_point hwhole (allDigits_zeros 1) (by simp) hrest

private theorem readUnsigned_pointBetween (hds : LeadsTo ds point) (hpos : 0 < point)
    (hpoint : point.toNat < ds.length) (hrest : Closes rest) :
    readUnsigned negative (ds.take point.toNat ++ '.' :: (ds.drop point.toNat ++ rest)) =
      some (.ok (.float (ofDecimal negative (digitsValue ds) (point - ds.length)), rest)) := by
  have hwhole : IsWhole (ds.take point.toNat) := by
    refine ⟨fun c hc => hds.1 c (List.mem_of_mem_take hc), ?_⟩
    rcases hds.2 with ⟨c, tail, rfl, hc⟩ | ⟨rfl, rfl⟩
    · obtain ⟨n, hn⟩ : ∃ n, point.toNat = n + 1 := ⟨point.toNat - 1, by omega⟩
      exact .inr ⟨c, tail.take n, by rw [hn, List.take_succ_cons], hc⟩
    · exact absurd hpoint (Nat.lt_irrefl 1)
  have hread := @readUnsigned_point negative _ (ds.drop point.toNat) rest hwhole
    (fun c hc => hds.1 c (List.mem_of_mem_drop hc))
    (List.ne_nil_of_length_pos (by rw [List.length_drop]; omega)) hrest
  have hplaces : (-((ds.drop point.toNat).length : Int)) = point - ds.length := by
    rw [List.length_drop]
    omega
  rwa [List.take_append_drop, hplaces] at hread

private theorem readUnsigned_positional (hds : LeadsTo ds point) (hpoint : point ≤ 16)
    (hrest : Closes rest) :
    readUnsigned negative (positional ds point ++ rest) =
      some (.ok (.float (doubleOf negative ds point), rest)) := by
  have hlength := hds.length_pos
  rw [positional]
  split
  · rename_i hsmall
    rw [doubleOf, if_neg (by unfold FillsUp; omega), ← readUnsigned_pointBefore hds hsmall hrest]
    rfl
  · rename_i hpos
    dsimp only
    split
    · rename_i hfill
      have hzeros : point = 1 → point.toNat - ds.length = 0 := by omega
      rw [doubleOf, if_pos ⟨hfill, hpoint⟩, ← readUnsigned_pointAfter hds _ hrest hzeros,
        List.append_assoc]
      rfl
    · rename_i hbetween
      rw [doubleOf, if_neg (fun h => hbetween h.1),
        ← readUnsigned_pointBetween hds (by omega) (by omega) hrest, List.append_assoc,
        List.cons_append]

end Positional

/-- The double that the text of a finite double is read as. -/
def readBack (negative : Bool) (significand : Nat) (exponent : Int) : Float :=
  if significand = 0 then ofDecimal negative 0 (-1)
  else
    doubleOf negative (dropTrailingZeros (shortest significand exponent).text)
      (shortest significand exponent).point

/-- The notations differ in where they change to an exponent, but not beyond sixteen digits. -/
def IsUsual (style : NumberStyle) : Prop :=
  style.exponentPlus = true ∧ style.leastPoint ≤ 0 ∧ style.greatestPoint = 16

private theorem spells_finite {style : NumberStyle} (hstyle : IsUsual style) {x : Float}
    {negative : Bool}
    {significand : Nat} {exponent : Int} (hx : classify x = .finite negative significand exponent) :
    Spells (style.format x).toList (.float (readBack negative significand exponent)) := by
  obtain ⟨hplus, hleast, hgreatest⟩ := hstyle
  have htext : ∀ body : List Char,
      (String.ofList (if negative then '-' :: body else body)).toList = signed negative body := by
    intro body
    rw [String.toList_ofList, signed]
  rw [NumberStyle.format, hx]
  dsimp only
  rw [htext]
  split
  · rename_i hzero
    rw [readBack, if_pos hzero]
    refine spells_number (isScalar_float _) fun rest hrest => ?_
    exact @readUnsigned_point negative ['0'] ['0'] rest ⟨allDigits_zeros 1, .inl rfl⟩
      (allDigits_zeros 1) (by simp) hrest
  · rename_i hnonzero
    have hds := leadsTo_shortest significand exponent
    rw [readBack, if_neg hnonzero]
    generalize dropTrailingZeros (shortest significand exponent).text = ds at hds
    generalize (shortest significand exponent).point = point at hds
    split
    · rename_i hplace
      refine spells_number (isScalar_float _) fun rest hrest => ?_
      exact readUnsigned_positional hds (by omega) hrest
    · rename_i hplace
      have hfill : ¬ FillsUp ds point := by
        have := hds.length_pos
        unfold FillsUp
        omega
      refine spells_number (isScalar_float _) fun rest hrest => ?_
      rw [doubleOf, if_neg hfill]
      exact readUnsigned_exponent hplus hds.1 (List.ne_nil_of_length_pos hds.length_pos) _ hrest

/-! ## The two notations -/

def looseDouble (x : Float) : Value :=
  match classify x with
  | .finite negative significand exponent => .float (readBack negative significand exponent)
  | .infinite negative => .float (infinity negative)
  | .nan => .float notANumber

def compactDouble (x : Float) : Value :=
  match classify x with
  | .finite negative significand exponent => .float (readBack negative significand exponent)
  | _ => .none

def IsFinite (x : Float) : Prop :=
  ∃ negative significand exponent, classify x = .finite negative significand exponent

theorem doubles_eq_iff (x : Float) : looseDouble x = compactDouble x ↔ IsFinite x := by
  unfold looseDouble compactDouble IsFinite
  cases classify x <;> simp

theorem spells_looseNumber (x : Float) : Spells (looseNumber.format x).toList (looseDouble x) := by
  cases hx : classify x with
  | finite negative significand exponent =>
      rw [looseDouble, hx]
      exact spells_finite ⟨rfl, by decide, rfl⟩ hx
  | infinite negative =>
      rw [looseDouble, NumberStyle.format, hx]
      cases negative with
      | false =>
          exact spells_scalar 'I' "nfinity".toList rfl (by decide) (isScalar_float _) fun _ _ => rfl
      | true =>
          exact spells_scalar '-' "Infinity".toList rfl (by decide) (isScalar_float _) fun _ _ => rfl
  | nan =>
      rw [looseDouble, NumberStyle.format, hx]
      exact spells_scalar 'N' "aN".toList rfl (by decide) (isScalar_float _) fun _ _ => rfl

theorem spells_compactNumber (x : Float) :
    Spells (compactNumber.format x).toList (compactDouble x) := by
  cases hx : classify x with
  | finite negative significand exponent =>
      rw [compactDouble, hx]
      exact spells_finite ⟨rfl, by decide, rfl⟩ hx
  | infinite negative =>
      rw [compactDouble, NumberStyle.format, hx]
      cases negative <;> exact spells_none
  | nan =>
      rw [compactDouble, NumberStyle.format, hx]
      exact spells_none

end ChatPipeline.Json
