import ChatPipeline.Proofs.Json.Spelling

/-!
# Numbers read back

A number ends where its digits do, so it is read in stages: the whole part, a fraction, an exponent.
Each stage takes its own characters off a text whose rest starts with none that the stage would also
take.
-/

namespace ChatPipeline.Json

open ChatPipeline.Text ChatPipeline.Decimal

/-! ## Digits in a text -/

def AllDigits (cs : List Char) : Prop := ∀ c ∈ cs, isAsciiDigit c = true

def IsWhole (cs : List Char) : Prop :=
  AllDigits cs ∧ (cs = ['0'] ∨ ∃ c tail, cs = c :: tail ∧ c ≠ '0')

def EndsDigits (rest : List Char) : Prop := ∀ c ∈ rest.head?, isAsciiDigit c = false

theorem spanDigits_append {ds rest : List Char} (hds : AllDigits ds) (hrest : EndsDigits rest) :
    spanDigits (ds ++ rest) = (ds, rest) := by
  have htake : rest.takeWhile isAsciiDigit = [] := by
    cases rest with
    | nil => rfl
    | cons c rest => simp [hrest c (by simp)]
  have hdrop : rest.dropWhile isAsciiDigit = rest := by
    cases rest with
    | nil => rfl
    | cons c rest => simp [hrest c (by simp)]
  rw [spanDigits, List.span_eq_takeWhile_dropWhile, List.takeWhile_append_of_pos hds,
    List.dropWhile_append_of_pos hds, htake, hdrop, List.append_nil]

theorem isWhole_digits (n : Nat) : IsWhole (digits 10 n) :=
  ⟨fun _ h => isAsciiDigit_of_mem_digits h, digits_cases n⟩

theorem integerPart_append {whole rest : List Char} (hwhole : IsWhole whole)
    (hrest : EndsDigits rest) : integerPart (whole ++ rest) = some (whole, rest) := by
  obtain ⟨hdigits, rfl | ⟨c, tail, rfl, hzero⟩⟩ := hwhole
  · rfl
  · have hspan := spanDigits_append hdigits hrest
    rw [List.cons_append] at hspan ⊢
    rw [integerPart.eq_def]
    split <;> simp_all [AllDigits]

/-! ## After the digits -/

theorem Closes.endsDigits {rest : List Char} (h : Closes rest) : EndsDigits rest := by
  intro c hc
  rcases h c hc with rfl | rfl | rfl <;> rfl

theorem Closes.exponentPart_eq {rest : List Char} (h : Closes rest) : exponentPart rest = none := by
  cases rest with
  | nil => rfl
  | cons c rest => rcases h c (by simp) with rfl | rfl | rfl <;> rfl

theorem Closes.fractionPart_eq {rest : List Char} (h : Closes rest) : fractionPart rest = none := by
  cases rest with
  | nil => rfl
  | cons c rest => rcases h c (by simp) with rfl | rfl | rfl <;> rfl

theorem fractionPart_append {ds rest : List Char} (hds : AllDigits ds) (hne : ds ≠ [])
    (hrest : EndsDigits rest) : fractionPart ('.' :: (ds ++ rest)) = some (ds, rest) := by
  simp [fractionPart, spanDigits_append hds hrest, hne]

/-! ## Whole numbers -/

theorem ne_of_digit {c d : Char} (hc : isAsciiDigit c = true) (hd : isAsciiDigit d = false) :
    c ≠ d := by
  rintro rfl
  exact Bool.false_ne_true (hd.symm.trans hc)

private theorem constant?_eq_none {cs : List Char}
    (h : ∀ name ∈ ["null", "true", "false", "NaN", "Infinity", "-Infinity"],
      name.toList.isPrefixOf cs = false) : constant? cs = none := by
  rw [constant?, List.findSome?_eq_none_iff]
  rintro ⟨name, v⟩ hentry
  have hname := h name (List.mem_map_of_mem (f := Prod.fst) hentry)
  simp [hname]

theorem constant?_of_digit {c : Char} (h : isAsciiDigit c = true) (rest : List Char) :
    constant? (c :: rest) = none ∧ constant? ('-' :: c :: rest) = none := by
  have hstart : ∀ d tail, isAsciiDigit d = false → (d :: tail).isPrefixOf (c :: rest) = false := by
    intro d tail hd
    simp [List.isPrefixOf, (ne_of_digit h hd).symm]
  constructor
  · refine constant?_eq_none ?_
    simp only [List.forall_mem_cons]
    exact ⟨hstart 'n' _ rfl, hstart 't' _ rfl, hstart 'f' _ rfl, hstart 'N' _ rfl,
      hstart 'I' _ rfl, hstart '-' _ rfl, by simp⟩
  · refine constant?_eq_none ?_
    simp only [List.forall_mem_cons]
    exact ⟨rfl, rfl, rfl, rfl, rfl, hstart 'I' _ rfl, by simp⟩

def signed (negative : Bool) (body : List Char) : List Char :=
  if negative then '-' :: body else body

private theorem head_of_readUnsigned {negative : Bool} {cs : List Char}
    {found : Except Fault (Value × List Char)}
    (h : readUnsigned negative cs = some found) :
    ∃ c tail, cs = c :: tail ∧ isAsciiDigit c = true := by
  cases cs with
  | nil => cases h
  | cons c tail =>
      by_cases hc : isAsciiDigit c = true
      · exact ⟨c, tail, rfl, hc⟩
      · have hnone : integerPart (c :: tail) = none := by
          rw [integerPart.eq_def]
          split
          · rename_i heq
            cases heq
            exact absurd rfl hc
          · simp_all
          · rfl
        rw [readUnsigned, hnone] at h
        cases h

theorem spells_number {negative : Bool} {body : List Char} {v : Value} (hscalar : IsScalar v)
    (hreads : ∀ rest, Closes rest →
      readUnsigned negative (body ++ rest) = some (.ok (v, rest))) :
    Spells (signed negative body) v := by
  obtain ⟨c, tail, hbody, hc⟩ := head_of_readUnsigned (hreads [] closes_nil)
  rw [List.append_nil] at hbody
  subst hbody
  have hne : ∀ d, isAsciiDigit d = false → c ≠ d := fun d hd => ne_of_digit hc hd
  cases negative with
  | true =>
      refine spells_scalar '-' (c :: tail) rfl (by decide) hscalar fun rest hrest => ?_
      rw [List.cons_append, readScalar, (constant?_of_digit hc _).2]
      dsimp only
      rw [← List.cons_append, hreads rest hrest]
      rfl
  | false =>
      refine spells_scalar c tail ?_ ?_ hscalar fun rest hrest => ?_
      · simp [isSpace, hne ' ' rfl, hne '\t' rfl, hne '\n' rfl, hne '\r' rfl]
      · simp [hne '{' rfl, hne '}' rfl, hne '[' rfl, hne ']' rfl, hne '\ufeff' rfl]
      · have hread := hreads rest hrest
        rw [List.cons_append] at hread
        rw [readScalar, (constant?_of_digit hc _).1]
        · dsimp only
          rw [hread]
          rfl
        · exact fun _ heq => hne '"' rfl (List.cons.inj heq).1
        · exact fun _ heq => hne '-' rfl (List.cons.inj heq).1

private theorem toList_signedDecimal (i : Int) :
    (signedDecimal i).toList = signed (decide (i < 0)) (digits 10 i.natAbs) := by
  unfold signedDecimal signed decimal
  by_cases h : i < 0 <;> simp [h]

theorem spells_int {i : Int} (h : i.natAbs < 10 ^ maxIntegerDigits) :
    Spells (signedDecimal i).toList (.int i) := by
  rw [toList_signedDecimal]
  refine spells_number (isScalar_int i) fun rest hrest => ?_
  have hlength : (digits 10 i.natAbs).length ≤ maxIntegerDigits := length_digits_le (by decide) h
  simp only [readUnsigned, integerPart_append (isWhole_digits _) hrest.endsDigits,
    hrest.fractionPart_eq, hrest.exponentPart_eq, Bool.or_self, Bool.false_eq_true, if_false,
    Nat.not_lt.2 hlength, digitsValue_digits, decide_eq_true_eq]
  congr 4
  split <;> omega

end ChatPipeline.Json
