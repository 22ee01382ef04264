import Mathlib.Data.List.TakeWhile
import ChatPipeline.Text.Blank
import ChatPipeline.Proofs.Json.Grammar

/-!
# Numbers and texts against the grammar

The reader of a single value takes off exactly what the grammar allows.  A relation of the grammar
holds of every way to stop, the reader stops where nothing more belongs to what it reads; so what it
takes off is allowed wherever it stops (`_sound`), and what is allowed is taken off where the rest
starts with nothing that the reader would also take.
-/

namespace ChatPipeline.Json

open ChatPipeline.Text ChatPipeline.Decimal

variable {cs rest after more ds : List Char} {negative : Bool} {c : Char}

/-! ## Limits -/

/-- The text goes beyond a limit, which says nothing about its grammar. -/
inductive Fault.IsLimit : Fault → Prop where
  | longInteger (digits : Nat) : IsLimit (.longInteger digits)
  | tooDeep (container : Container) : IsLimit (.tooDeep container)

inductive Settles (longest deepest depth : Nat) (a : α) : Except Fault α → Prop where
  | within (hdigits : longest ≤ maxIntegerDigits) (hdepth : deepest ≤ depth) :
    Settles longest deepest depth a (.ok a)
  | beyond {f : Fault} (hbeyond : ¬ (longest ≤ maxIntegerDigits ∧ deepest ≤ depth))
    (hlimit : f.IsLimit) : Settles longest deepest depth a (.error f)

def openings (cs : List Char) : Nat := cs.countP fun c => c == '[' || c == '{'

/-- What a text holds if this fault is found in it. -/
def Fault.CausedBy (depth : Nat) (cs : List Char) : Fault → Prop
  | .unmet .. => True
  | .longInteger digits =>
    maxIntegerDigits < digits ∧ ∃ ds, AllDigits ds ∧ ds.length = digits ∧ ds <:+: cs
  | .tooDeep _ => depth < openings cs

/-! ## Blanks -/

theorem blanks_skipSpace (cs : List Char) : Blanks cs (skipSpace cs) :=
  ⟨cs.takeWhile isSpace, fun _ hc => List.mem_takeWhile_imp hc,
    List.takeWhile_append_dropWhile.symm⟩

theorem Blanks.skipSpace_eq (h : Blanks cs rest) (hrest : ∀ c ∈ rest.head?, isSpace c = false) :
    skipSpace cs = rest := by
  obtain ⟨blanks, hblanks, rfl⟩ := h
  rw [skipSpace_blanks hblanks]
  cases rest with
  | nil => rfl
  | cons c rest => simp [skipSpace, hrest c (by simp)]

theorem Blanks.skipSpace_cons (h : Blanks cs (c :: rest)) (hc : isSpace c = false) :
    skipSpace cs = c :: rest :=
  h.skipSpace_eq (by simpa using hc)

/-! ## Where a number ends -/

def EndsNumber (rest : List Char) : Prop :=
  ∀ c ∈ rest.head?, isAsciiDigit c = false ∧ c ∉ ['.', 'e', 'E']

theorem EndsNumber.endsDigits (h : EndsNumber rest) : EndsDigits rest :=
  fun c hc => (h c hc).1

private theorem fractionPart_eq_none (h : ∀ c ∈ rest.head?, c ≠ '.') :
    fractionPart rest = none := by
  cases rest with
  | nil => rfl
  | cons c rest =>
      rw [fractionPart.eq_def]
      split
      · rename_i heq
        exact absurd (List.cons.inj heq).1 (h c (by simp))
      · rfl

theorem EndsNumber.fractionPart_eq (h : EndsNumber rest) : fractionPart rest = none :=
  fractionPart_eq_none fun c hc heq => (h c hc).2 (by simp [heq])

theorem EndsNumber.exponentPart_eq (h : EndsNumber rest) : exponentPart rest = none := by
  cases rest with
  | nil => rfl
  | cons c rest =>
      have hmark : ¬ (c = 'e' ∨ c = 'E') := by
        rintro (rfl | rfl) <;> exact (h _ rfl).2 (by simp)
      simp only [exponentPart, if_neg hmark]

theorem Blanks.endsNumber (h : Blanks cs rest) (hrest : Closes rest) : EndsNumber cs := by
  obtain ⟨blanks, hblanks, rfl⟩ := h
  intro c hc
  cases blanks with
  | nil => rcases hrest c hc with rfl | rfl | rfl <;> decide
  | cons b blanks =>
      have hspace : isSpace b = true := hblanks b (by simp)
      simp only [isSpace, Bool.or_eq_true, beq_iff_eq] at hspace
      cases Option.some.inj hc
      rcases hspace with ((rfl | rfl) | rfl) | rfl <;> decide

/-! ## The parts of a number -/

theorem spanDigits_sound (h : spanDigits cs = (ds, rest)) : AllDigits ds ∧ cs = ds ++ rest := by
  rw [spanDigits, List.span_eq_takeWhile_dropWhile] at h
  cases h
  exact ⟨fun _ hc => List.mem_takeWhile_imp hc, List.takeWhile_append_dropWhile.symm⟩

private theorem integerPart_sound (h : integerPart cs = some (ds, rest)) :
    IsWhole ds ∧ cs = ds ++ rest := by
  rw [integerPart.eq_def] at h
  split at h
  · cases h
    exact ⟨⟨by simp [AllDigits, isAsciiDigit], .inl rfl⟩, rfl⟩
  · rename_i c tail hzero
    split at h
    · rename_i hc
      obtain ⟨hdigits, happend⟩ := spanDigits_sound (Option.some.inj h)
      cases ds with
      | nil =>
          rw [spanDigits, List.span_eq_takeWhile_dropWhile, List.takeWhile_cons_of_pos hc] at h
          cases h
      | cons d ds =>
          have hd : d = c := (List.cons.inj happend).1.symm
          exact ⟨⟨hdigits, .inr ⟨d, ds, rfl, fun heq => hzero (hd ▸ heq)⟩⟩, happend⟩
    · cases h
  · cases h

private theorem fractionPart_sound (h : fractionPart cs = some (ds, rest)) :
    FractionText ds cs rest := by
  rw [fractionPart.eq_def] at h
  split at h
  · rename_i tail
    obtain ⟨hdigits, happend⟩ := spanDigits_sound (Prod.mk.eta (p := spanDigits tail)).symm
    simp only [Option.ite_none_left_eq_some, Option.some.injEq, Prod.mk.injEq] at h
    obtain ⟨hne, rfl, rfl⟩ := h
    exact ⟨by rw [← happend], hdigits, by simpa using hne⟩
  · cases h

def signPart : List Char → Bool × List Char
  | '-' :: rest => (true, rest)
  | '+' :: rest => (false, rest)
  | rest => (false, rest)

private theorem exponentPart_cons (mark : Char) (cs : List Char) :
    exponentPart (mark :: cs) =
      if mark = 'e' ∨ mark = 'E' then
        let (ds, rest) := spanDigits (signPart cs).2
        if ds.isEmpty then none
        else some (signedValue (signPart cs).1 (digitsValue ds), rest)
      else none := rfl

private theorem signPart_sound (cs : List Char) : SignText (signPart cs).1 cs (signPart cs).2 := by
  unfold signPart
  split
  · exact .minus _
  · exact .plus _
  · exact .absent _

theorem SignText.signPart_eq (h : SignText negative cs (ds ++ rest)) (hds : AllDigits ds)
    (hne : ds ≠ []) : signPart cs = (negative, ds ++ rest) := by
  obtain ⟨d, ds, rfl⟩ := List.exists_cons_of_ne_nil hne
  have hd : isAsciiDigit d = true := hds d (by simp)
  cases h with
  | absent =>
      rw [List.cons_append, signPart.eq_def]
      split
      · rename_i heq
        exact absurd (List.cons.inj heq).1 (ne_of_digit hd rfl)
      · rename_i heq
        exact absurd (List.cons.inj heq).1 (ne_of_digit hd rfl)
      · rfl
  | plus => rfl
  | minus => rfl

private theorem exponentPart_sound {e : Int} (h : exponentPart cs = some (e, rest)) :
    ExponentText e cs rest := by
  cases cs with
  | nil => cases h
  | cons mark tail =>
      have hsign := signPart_sound tail
      obtain ⟨hdigits, happend⟩ :=
        spanDigits_sound (Prod.mk.eta (p := spanDigits (signPart tail).2)).symm
      simp only [exponentPart_cons, Option.ite_none_right_eq_some, Option.ite_none_left_eq_some,
        Option.some.injEq, Prod.mk.injEq] at h
      obtain ⟨hmark, hne, rfl, rfl⟩ := h
      rw [happend] at hsign
      exact ⟨mark, _, _, tail, hmark, rfl, hsign, hdigits, by simpa using hne, rfl⟩

theorem ExponentText.exponentPart_eq {e : Int} (h : ExponentText e cs rest)
    (hrest : EndsDigits rest) : exponentPart cs = some (e, rest) := by
  obtain ⟨mark, negative, ds, after, hmark, rfl, hsign, hds, hne, rfl⟩ := h
  simp [exponentPart_cons, hmark, hsign.signPart_eq hds hne, spanDigits_append hds hrest, hne]

/-! ## Numbers -/

theorem readUnsigned_eq_some {found : Except Fault (Value × List Char)}
    (h : readUnsigned negative cs = some found) :
    ∃ ds after, IsWhole ds ∧ cs = ds ++ after ∧
      ((∃ fraction e rest, RealTail fraction e after rest ∧
          found = .ok (.float (ofDecimal negative (digitsValue (ds ++ fraction))
            (e - fraction.length)), rest)) ∨
        (ds.length ≤ maxIntegerDigits ∧
          found = .ok (.int (signedValue negative (digitsValue ds)), after)) ∨
        (maxIntegerDigits < ds.length ∧ found = .error (.longInteger ds.length))) := by
  cases hwhole : integerPart cs with
  | none => simp [readUnsigned, hwhole] at h
  | some part =>
      obtain ⟨ds, after⟩ := part
      obtain ⟨hds, rfl⟩ := integerPart_sound hwhole
      refine ⟨ds, after, hds, rfl, ?_⟩
      cases hfraction : fractionPart after with
      | some part =>
          obtain ⟨fraction, mid⟩ := part
          have hpoint := fractionPart_sound hfraction
          refine .inl ⟨fraction, ?_⟩
          cases hexponent : exponentPart mid with
          | some part =>
              obtain ⟨e, rest⟩ := part
              refine ⟨e, rest, .both hpoint (exponentPart_sound hexponent), ?_⟩
              simpa [readUnsigned, hwhole, hfraction, hexponent] using h.symm
          | none =>
              refine ⟨0, mid, .fraction hpoint, ?_⟩
              simpa [readUnsigned, hwhole, hfraction, hexponent] using h.symm
      | none =>
          cases hexponent : exponentPart after with
          | some part =>
              obtain ⟨e, rest⟩ := part
              refine .inl ⟨[], e, rest, .exponent (exponentPart_sound hexponent), ?_⟩
              simpa [readUnsigned, hwhole, hfraction, hexponent] using h.symm
          | none =>
              by_cases hlong : maxIntegerDigits < ds.length
              · refine .inr (.inr ⟨hlong, ?_⟩)
                simpa [readUnsigned, hwhole, hfraction, hexponent, hlong] using h.symm
              · refine .inr (.inl ⟨Nat.le_of_not_lt hlong, ?_⟩)
                simpa [readUnsigned, hwhole, hfraction, hexponent, hlong, signedValue] using h.symm

theorem FractionText.endsDigits {ds : List Char} (h : FractionText ds cs rest) : EndsDigits cs := by
  rw [h.1]
  intro c hc
  cases Option.some.inj hc
  rfl

theorem ExponentText.head {e : Int} (h : ExponentText e cs rest) :
    ∀ c ∈ cs.head?, isAsciiDigit c = false ∧ c ≠ '.' := by
  obtain ⟨mark, -, -, -, hmark, rfl, -⟩ := h
  intro c hc
  cases Option.some.inj hc
  rcases hmark with rfl | rfl <;> decide

theorem FractionText.fractionPart_eq {ds : List Char} (h : FractionText ds cs rest)
    (hrest : EndsDigits rest) : fractionPart cs = some (ds, rest) := by
  obtain ⟨rfl, hdigits, hne⟩ := h
  exact fractionPart_append hdigits hne hrest

theorem RealTail.endsDigits {fraction : List Char} {e : Int} (h : RealTail fraction e cs rest) :
    EndsDigits cs := by
  cases h with
  | fraction hfraction => exact hfraction.endsDigits
  | exponent hexponent => exact fun c hc => (hexponent.head c hc).1
  | both hfraction => exact hfraction.endsDigits

theorem NumberText.readUnsigned_settles {v : Value} {n : Nat} (h : NumberText negative v n cs rest)
    (hrest : EndsNumber rest) (depth : Nat) :
    ∃ found, readUnsigned negative cs = some found ∧ Settles n 0 depth (v, rest) found := by
  cases h with
  | @whole ds hds =>
      have hwhole := integerPart_append hds hrest.endsDigits
      by_cases hlong : maxIntegerDigits < ds.length
      · refine ⟨_, ?_, .beyond (by omega) (.longInteger ds.length)⟩
        simp [readUnsigned, hwhole, hrest.fractionPart_eq, hrest.exponentPart_eq, hlong]
      · refine ⟨_, ?_, .within (Nat.le_of_not_lt hlong) (Nat.zero_le depth)⟩
        simp [readUnsigned, hwhole, hrest.fractionPart_eq, hrest.exponentPart_eq, hlong,
          signedValue]
  | @real ds fraction e after _ hds htail =>
      have hwhole := integerPart_append hds htail.endsDigits
      refine ⟨_, ?_, .within (Nat.zero_le _) (Nat.zero_le depth)⟩
      cases htail with
      | fraction hfraction =>
          simp [readUnsigned, hwhole, hfraction.fractionPart_eq hrest.endsDigits,
            hrest.exponentPart_eq]
      | exponent hexponent =>
          simp [readUnsigned, hwhole, fractionPart_eq_none fun c hc => (hexponent.head c hc).2,
            hexponent.exponentPart_eq hrest.endsDigits]
      | both hfraction hexponent =>
          simp [readUnsigned, hwhole,
            hfraction.fractionPart_eq fun c hc => (hexponent.head c hc).1,
            hexponent.exponentPart_eq hrest.endsDigits]

/-! ## Quoted texts -/

theorem readHex_eq_some {n : Nat} : readHex cs = some (n, rest) ↔ HexText n cs rest := by
  constructor
  · intro h
    rw [readHex.eq_def] at h
    split at h
    · simp only [Option.bind_eq_bind, Option.bind_eq_some_iff, Option.some.injEq,
        Prod.mk.injEq] at h
      obtain ⟨x, hx, y, hy, z, hz, w, hw, rfl, rfl⟩ := h
      exact ⟨_, _, _, _, x, y, z, w, rfl, hx, hy, hz, hw, rfl⟩
    · cases h
  · rintro ⟨a, b, c, d, x, y, z, w, rfl, hx, hy, hz, hw, rfl⟩
    simp [readHex, hx, hy, hz, hw]

theorem HexText.unique {n m : Nat} (h : HexText n cs rest) (h' : HexText m cs after) : m = n := by
  have hsame := (readHex_eq_some.2 h').symm.trans (readHex_eq_some.2 h)
  exact (Prod.mk.inj (Option.some.inj hsame)).1

theorem LowEscape.cons_iff {low : Nat} :
    LowEscape low ('\\' :: 'u' :: cs) rest ↔ HexText low cs rest ∧ isLowSurrogate low = true := by
  constructor
  · rintro ⟨more, heq, hlow⟩
    cases heq
    exact hlow
  · exact fun hlow => ⟨cs, rfl, hlow⟩

private theorem readUnicode_eq_error {f : Fault} (h : readUnicode cs = .error f) :
    ∃ expected left, f = .unmet expected left := by
  rw [readUnicode.eq_def] at h
  repeat' split at h
  all_goals first | exact ⟨_, _, (Except.error.inj h).symm⟩ | cases h

/-- A first half whose second half would end the text stands for itself here, and the second half is
then refused where it is read. -/
theorem readUnicode_sound (h : readUnicode cs = .ok (c, rest)) :
    CharText c ('\\' :: 'u' :: cs) rest ∨ ∃ low, LowEscape low rest [] := by
  rw [readUnicode.eq_def] at h
  split at h
  · cases h
  · rename_i n after hhex
    replace hhex := readHex_eq_some.1 hhex
    split at h
    · cases h
    split at h
    · rename_i hhigh
      split at h
      · rename_i more
        split at h
        · rename_i low tail hlow
          replace hlow := readHex_eq_some.1 hlow
          split at h
          · rename_i hpair
            obtain ⟨rfl, rfl⟩ := Prod.mk.inj (Except.ok.inj h)
            rw [Bool.and_eq_true] at hpair
            exact .inl (.pair hhex hhigh (LowEscape.cons_iff.2 ⟨hlow, hpair.1⟩))
          · rename_i hpair
            obtain ⟨rfl, rfl⟩ := Prod.mk.inj (Except.ok.inj h)
            by_cases hlow' : isLowSurrogate low = true
            · have htail : tail = [] := by simpa [hlow'] using hpair
              exact .inr ⟨low, LowEscape.cons_iff.2 ⟨htail ▸ hlow, hlow'⟩⟩
            · refine .inl (.unit hhex fun _ other _ hescape => hlow' ?_)
              obtain ⟨hother, hisLow⟩ := LowEscape.cons_iff.1 hescape
              rwa [hlow.unique hother] at hisLow
        · rename_i hnone
          split at h
          · obtain ⟨rfl, rfl⟩ := Prod.mk.inj (Except.ok.inj h)
            refine .inl (.unit hhex fun _ other _ hescape => ?_)
            rw [LowEscape.cons_iff, ← readHex_eq_some, hnone] at hescape
            exact absurd hescape.1 nofun
          · cases h
      · rename_i hnot
        obtain ⟨rfl, rfl⟩ := Prod.mk.inj (Except.ok.inj h)
        refine .inl (.unit hhex fun _ low' tail' hescape => ?_)
        obtain ⟨more', heq, -⟩ := hescape
        exact hnot more' heq
    · rename_i hhigh
      obtain ⟨rfl, rfl⟩ := Prod.mk.inj (Except.ok.inj h)
      exact .inl (.unit hhex fun hhigh' => absurd hhigh' hhigh)

theorem LowEscape.readText_eq {low : Nat} (h : LowEscape low cs []) (opening fuel : Nat) :
    ∃ expected left, readText opening fuel cs = .error (.unmet expected left) := by
  obtain ⟨more, rfl, hhex, -⟩ := h
  cases fuel with
  | zero => exact ⟨_, _, rfl⟩
  | succ fuel =>
      refine ⟨.hexEscape, more.length + 1, ?_⟩
      simp [readText, readUnicode, readHex_eq_some.2 hhex]

private theorem readText_cases (opening fuel : Nat) (cs : List Char) :
    (∃ expected left, readText opening (fuel + 1) cs = .error (.unmet expected left)) ∨
      (∃ after, cs = '"' :: after ∧ readText opening (fuel + 1) cs = .ok ([], after)) ∨
      ∃ c after, CharText c cs after ∧ readText opening (fuel + 1) cs =
        (readText opening fuel after).map fun (s, r) => (c :: s, r) := by
  generalize hread : readText opening (fuel + 1) cs = read
  rw [readText.eq_def] at hread
  dsimp only at hread
  split at hread
  · exact .inl ⟨_, _, hread.symm⟩
  · exact .inr (.inl ⟨_, rfl, hread.symm⟩)
  · split at hread
    · rename_i hunicode
      obtain ⟨expected, left, rfl⟩ := readUnicode_eq_error hunicode
      exact .inl ⟨_, _, hread.symm⟩
    · rename_i hunicode
      rcases readUnicode_sound hunicode with hchar | ⟨low, hlow⟩
      · exact .inr (.inr ⟨_, _, hchar, hread.symm⟩)
      · obtain ⟨expected, left, hend⟩ := hlow.readText_eq opening fuel
        rw [hend] at hread
        exact .inl ⟨_, _, hread.symm⟩
  · split at hread
    · exact .inl ⟨_, _, hread.symm⟩
    · rename_i hmark
      exact .inr (.inr ⟨_, _, .escape hmark _, hread.symm⟩)
  · exact .inl ⟨_, _, hread.symm⟩
  · rename_i c after hquote hunicode hescape hlast
    split at hread
    · exact .inl ⟨_, _, hread.symm⟩
    · rename_i hcontrol
      have hbackslash : c ≠ '\\' := by
        rintro rfl
        cases after with
        | nil => exact hlast rfl rfl
        | cons mark after => exact hescape mark after rfl rfl
      exact .inr (.inr ⟨_, _, .plain (fun h => hquote h) hbackslash hcontrol _, hread.symm⟩)

private theorem readText_eq_error {opening fuel : Nat} {f : Fault}
    (h : readText opening fuel cs = .error f) : ∃ expected left, f = .unmet expected left := by
  induction fuel generalizing cs with
  | zero => exact ⟨_, _, (Except.error.inj h).symm⟩
  | succ fuel ih =>
      obtain ⟨_, _, hread⟩ | ⟨_, -, hread⟩ | ⟨c, after, -, hread⟩ := readText_cases opening fuel cs
      · rw [hread] at h
        exact ⟨_, _, (Except.error.inj h).symm⟩
      · rw [hread] at h
        cases h
      · rw [hread] at h
        cases hlater : readText opening fuel after with
        | error f' =>
            rw [hlater] at h
            cases h
            exact ih hlater
        | ok found =>
            rw [hlater] at h
            cases h

private theorem readText_sound {opening fuel : Nat} {chars : List Char}
    (h : readText opening fuel cs = .ok (chars, rest)) : BodyText chars cs ('"' :: rest) := by
  induction fuel generalizing cs chars with
  | zero => cases h
  | succ fuel ih =>
      obtain ⟨_, _, hread⟩ | ⟨after, rfl, hread⟩ | ⟨c, after, hchar, hread⟩ :=
        readText_cases opening fuel cs
      · rw [hread] at h
        cases h
      · rw [hread] at h
        cases h
        exact .done _
      · rw [hread] at h
        cases hlater : readText opening fuel after with
        | error f =>
            rw [hlater] at h
            cases h
        | ok found =>
            obtain ⟨chars, rest⟩ := found
            rw [hlater] at h
            cases h
            exact .char hchar (ih hlater)

private theorem readUnicode_pair {high low : Nat} (hhex : HexText high cs after)
    (hhigh : isHighSurrogate high = true) (hlow : LowEscape low after rest) (hne : rest ≠ []) :
    readUnicode cs = .ok (pairChar high low, rest) := by
  obtain ⟨more, rfl, hmore, hisLow⟩ := hlow
  simp [readUnicode, readHex_eq_some.2 hhex, hhigh, readHex_eq_some.2 hmore, hisLow, hne]

theorem BodyText.ne_nil {chars : List Char} (h : BodyText chars cs ('"' :: rest)) : cs ≠ [] := by
  rintro rfl
  exact List.cons_ne_nil _ _ (List.suffix_nil.1 h.suffix)

theorem BodyText.hexText {chars : List Char}
    (h : BodyText chars ('\\' :: 'u' :: cs) ('"' :: rest)) : ∃ n after, HexText n cs after := by
  cases h with
  | char hchar =>
      cases hchar with
      | plain _ hbackslash => exact absurd rfl hbackslash
      | escape hmark => cases hmark
      | pair hhex => exact ⟨_, _, hhex⟩
      | unit hhex => exact ⟨_, _, hhex⟩

private theorem readUnicode_unit {n : Nat} {chars : List Char} (hhex : HexText n cs after)
    (halone : isHighSurrogate n = true → ∀ low more, ¬ LowEscape low after more)
    (hbody : BodyText chars after ('"' :: rest)) :
    readUnicode cs = .ok (unitChar n, after) := by
  have hempty : after.isEmpty = false := by simpa using hbody.ne_nil
  rw [readUnicode.eq_def, readHex_eq_some.2 hhex]
  simp only [hempty, Bool.false_eq_true, if_false]
  split
  · rename_i hhigh
    split
    · rename_i more
      obtain ⟨low, tail, hlow⟩ := hbody.hexText
      have hother : isLowSurrogate low = false := by
        rw [Bool.eq_false_iff]
        exact fun hisLow => halone hhigh low tail (LowEscape.cons_iff.2 ⟨hlow, hisLow⟩)
      simp [readHex_eq_some.2 hlow, hother]
    · rfl
  · rfl

theorem CharText.readText_eq {chars : List Char} (h : CharText c cs after)
    (hbody : BodyText chars after ('"' :: rest)) (opening fuel : Nat) :
    readText opening (fuel + 1) cs =
      (readText opening fuel after).map fun (s, r) => (c :: s, r) := by
  cases h with
  | plain hquote hbackslash hcontrol =>
      exact readText_plain hquote hbackslash hcontrol opening fuel after
  | @escape mark _ hmark =>
      have hu : mark ≠ 'u' := by
        rintro rfl
        cases hmark
      rw [readText.eq_def]
      simp only [hmark]
  | pair hhex hhigh hlow => simp only [readText, readUnicode_pair hhex hhigh hlow hbody.ne_nil]
  | unit hhex halone => simp only [readText, readUnicode_unit hhex halone hbody]

theorem BodyText.readText_eq {chars : List Char} (h : BodyText chars cs ('"' :: rest))
    (opening : Nat) {fuel : Nat} (hfuel : cs.length < fuel) :
    readText opening fuel cs = .ok (chars, rest) := by
  obtain ⟨fuel, rfl⟩ := Nat.exists_eq_add_one.2 (Nat.zero_lt_of_lt hfuel)
  generalize hend : '"' :: rest = tail at h
  induction h generalizing fuel with
  | done =>
      cases hend
      rfl
  | char hchar hbody ih =>
      subst hend
      obtain ⟨first, tail, rfl, htail⟩ := hchar.suffix_tail
      have hlength := htail.length_le
      rw [List.length_cons, Nat.add_lt_add_iff_right] at hfuel
      obtain ⟨fuel, rfl⟩ := Nat.exists_eq_add_one.2 (Nat.zero_lt_of_lt hfuel)
      rw [hchar.readText_eq hbody, ih fuel (Nat.lt_of_le_of_lt hlength hfuel) rfl]
      rfl

theorem readString_sound {s : String} (h : readString cs = .ok (s, rest)) :
    QuotedText s ('"' :: cs) rest := by
  rw [readString] at h
  cases hread : readText (cs.length + 1) (cs.length + 1) cs with
  | error f =>
      rw [hread] at h
      cases h
  | ok found =>
      rw [hread] at h
      cases h
      exact ⟨cs, rfl, by simpa using readText_sound hread⟩

theorem readString_eq_error {f : Fault} (h : readString cs = .error f) :
    ∃ expected left, f = .unmet expected left := by
  rw [readString] at h
  cases hread : readText (cs.length + 1) (cs.length + 1) cs with
  | error f' =>
      rw [hread] at h
      cases h
      exact readText_eq_error hread
  | ok found =>
      rw [hread] at h
      cases h

theorem QuotedText.readString_eq {s : String} (h : QuotedText s ('"' :: cs) rest) :
    readString cs = .ok (s, rest) := by
  obtain ⟨body, heq, hbody⟩ := h
  cases heq
  rw [readString, hbody.readText_eq _ (Nat.lt_succ_self _)]
  simp [Except.map]

/-! ## Scalars -/

/-- What a result says about the text it was read from: it was taken off within the limits, or the
text holds what the fault is about. -/
inductive Accounts (depth : Nat) (cs : List Char) (takes : α → Nat → Nat → List Char → Prop) :
    Read α → Prop where
  | taken {a : α} {longest deepest : Nat} {rest : List Char}
    (hdigits : longest ≤ maxIntegerDigits) (hdepth : deepest ≤ depth)
    (htakes : takes a longest deepest rest) : Accounts depth cs takes (.ok (a, rest))
  | fault {f : Fault} (hfault : f.CausedBy depth cs) : Accounts depth cs takes (.error f)

theorem Accounts.imp {depth depth' : Nat} {takes takes' : α → Nat → Nat → List Char → Prop}
    {found : Read α} (h : Accounts depth cs takes found)
    (htakes : ∀ a longest deepest after, longest ≤ maxIntegerDigits → deepest ≤ depth →
      takes a longest deepest after → ∃ longest' deepest', longest' ≤ maxIntegerDigits ∧
        deepest' ≤ depth' ∧ takes' a longest' deepest' after)
    (hfault : ∀ f : Fault, f.CausedBy depth cs → f.CausedBy depth' more) :
    Accounts depth' more takes' found := by
  cases h with
  | taken hdigits hdepth h =>
      obtain ⟨_, _, hdigits', hdepth', h'⟩ := htakes _ _ _ _ hdigits hdepth h
      exact .taken hdigits' hdepth' h'
  | fault h => exact .fault (hfault _ h)

theorem Accounts.map {depth : Nat} {takes : α → Nat → Nat → List Char → Prop} {found : Read α}
    (h : Accounts depth cs takes found) (g : α → β) :
    Accounts depth cs (fun b longest deepest rest => ∃ a, g a = b ∧ takes a longest deepest rest)
      (found.map fun (a, rest) => (g a, rest)) := by
  cases h with
  | taken hdigits hdepth h => exact .taken hdigits hdepth ⟨_, rfl, h⟩
  | fault h => exact .fault h

theorem Fault.CausedBy.mono {f : Fault} {depth : Nat} (h : f.CausedBy depth rest)
    (hsuffix : rest <:+ cs) : f.CausedBy depth cs := by
  cases f with
  | unmet => trivial
  | longInteger digits =>
      obtain ⟨hlong, ds, hds, hlength, hinfix⟩ := h
      exact ⟨hlong, ds, hds, hlength, hinfix.trans hsuffix.isInfix⟩
  | tooDeep => exact Nat.lt_of_lt_of_le h (hsuffix.sublist.countP_le)

private theorem constant?_sound {v : Value} (h : constant? cs = some (v, rest)) :
    ScalarText v 0 cs rest := by
  obtain ⟨⟨name, w⟩, hname, hfound⟩ := List.exists_of_findSome?_eq_some h
  simp only [Option.ite_none_right_eq_some, Option.some.injEq, Prod.mk.injEq] at hfound
  obtain ⟨hstart, rfl, rfl⟩ := hfound
  obtain ⟨tail, rfl⟩ := List.isPrefixOf_iff_prefix.1 hstart
  have hdrop : (name.toList ++ tail).drop name.length = tail := by
    rw [← String.length_toList, List.drop_left]
  rw [hdrop]
  exact .constant hname tail

private theorem constant?_append {name : String} {v : Value} (h : (name, v) ∈ constants)
    (rest : List Char) : constant? (name.toList ++ rest) = some (v, rest) := by
  simp only [constants, List.mem_cons, Prod.mk.injEq, List.not_mem_nil, or_false] at h
  rcases h with ⟨rfl, rfl⟩ | ⟨rfl, rfl⟩ | ⟨rfl, rfl⟩ | ⟨rfl, rfl⟩ | ⟨rfl, rfl⟩ | ⟨rfl, rfl⟩ <;> rfl

private theorem readUnsigned_accounts (negative : Bool) (cs all : List Char) (depth : Nat) :
    Accounts depth cs (fun v n d rest => d = 0 ∧ NumberText negative v n cs rest)
      ((readUnsigned negative cs).getD (unmet .value all)) := by
  cases hread : readUnsigned negative cs with
  | none => exact .fault trivial
  | some found =>
      obtain ⟨ds, after, hds, rfl, ⟨fraction, e, rest, htail, rfl⟩ | ⟨hlength, rfl⟩ |
        ⟨hlong, rfl⟩⟩ := readUnsigned_eq_some hread
      · exact .taken (Nat.zero_le _) (Nat.zero_le _) ⟨rfl, .real hds htail⟩
      · exact .taken hlength (Nat.zero_le _) ⟨rfl, .whole hds after⟩
      · exact .fault ⟨hlong, ds, hds.1, rfl, (List.prefix_append ds after).isInfix⟩

theorem readScalar_accounts (cs : List Char) (depth : Nat) :
    Accounts depth cs (fun v n d rest => d = 0 ∧ ScalarText v n cs rest) (readScalar cs) := by
  rw [readScalar.eq_def]
  split
  · rename_i hconstant
    exact .taken (Nat.zero_le _) (Nat.zero_le _) ⟨rfl, constant?_sound hconstant⟩
  split
  · rename_i body _
    cases hread : readString body with
    | error f =>
        obtain ⟨expected, left, rfl⟩ := readString_eq_error hread
        exact .fault trivial
    | ok found => exact .taken (Nat.zero_le _) (Nat.zero_le _) ⟨rfl, .text (readString_sound hread)⟩
  · rename_i body _
    exact (readUnsigned_accounts true body ('-' :: body) depth).imp
      (fun _ _ _ _ hdigits hdepth h => ⟨_, _, hdigits, hdepth, h.1, .negative h.2⟩)
      (fun _ hfault => hfault.mono (List.suffix_cons '-' body))
  · exact (readUnsigned_accounts false cs cs depth).imp
      (fun _ _ _ _ hdigits hdepth h => ⟨_, _, hdigits, hdepth, h.1, .number h.2⟩) (fun _ => id)

theorem NumberText.head {v : Value} {n : Nat} (h : NumberText negative v n cs rest) :
    ∃ c tail, cs = c :: tail ∧ isAsciiDigit c = true := by
  obtain ⟨ds, after, hds, rfl⟩ : ∃ ds after, IsWhole ds ∧ cs = ds ++ after := by
    cases h with
    | whole hds => exact ⟨_, _, hds, rfl⟩
    | real hds => exact ⟨_, _, hds, rfl⟩
  obtain ⟨hdigits, rfl | ⟨c, tail, rfl, -⟩⟩ := hds
  · exact ⟨'0', after, rfl, rfl⟩
  · exact ⟨c, tail ++ after, rfl, hdigits c (by simp)⟩

private theorem isBlank_of_isAsciiDigit {c : Char} (h : isAsciiDigit c = true) :
    isBlank c = false := by
  rw [isAsciiDigit, Bool.and_eq_true, decide_eq_true_eq, decide_eq_true_eq] at h
  have hlow : 48 ≤ c.toNat := h.1
  have hhigh : c.toNat ≤ 57 := h.2
  rw [Bool.eq_false_iff]
  simp only [isBlank, ne_eq, Bool.or_eq_true, Bool.and_eq_true, decide_eq_true_eq, beq_iff_eq]
  omega

theorem isSpace_of_isBlank {c : Char} (h : isBlank c = false) : isSpace c = false := by
  rw [Bool.eq_false_iff]
  intro hspace
  simp only [isSpace, Bool.or_eq_true, beq_iff_eq] at hspace
  rcases hspace with ((rfl | rfl) | rfl) | rfl <;> cases h

theorem ScalarText.head {v : Value} {n : Nat} (h : ScalarText v n cs rest) :
    ∃ c tail, cs = c :: tail ∧ isBlank c = false ∧ c ∉ ['{', '[', ']', '}', '\ufeff'] := by
  cases h with
  | constant hname =>
      simp only [constants, List.mem_cons, Prod.mk.injEq, List.not_mem_nil, or_false] at hname
      rcases hname with ⟨rfl, -⟩ | ⟨rfl, -⟩ | ⟨rfl, -⟩ | ⟨rfl, -⟩ | ⟨rfl, -⟩ | ⟨rfl, -⟩ <;>
        exact ⟨_, _, rfl, by decide, by decide⟩
  | text hquoted =>
      obtain ⟨body, rfl, -⟩ := hquoted
      exact ⟨_, _, rfl, by decide, by decide⟩
  | number hnumber =>
      obtain ⟨c, tail, rfl, hc⟩ := hnumber.head
      have hne : ∀ d, isAsciiDigit d = false → c ≠ d := fun d hd => ne_of_digit hc hd
      refine ⟨c, tail, rfl, isBlank_of_isAsciiDigit hc, ?_⟩
      simp [hne '{' rfl, hne '}' rfl, hne '[' rfl, hne ']' rfl, hne '\ufeff' rfl]
  | negative => exact ⟨_, _, rfl, by decide, by decide⟩

theorem ScalarText.settles {v : Value} {n : Nat} (h : ScalarText v n cs rest)
    (hrest : EndsNumber rest) (depth : Nat) : Settles n 0 depth (v, rest) (readScalar cs) := by
  cases h with
  | constant hname =>
      rw [readScalar.eq_def, constant?_append hname]
      exact .within (Nat.zero_le _) (Nat.zero_le _)
  | text hquoted =>
      obtain ⟨body, rfl, hbody⟩ := hquoted
      have hread : readString body = .ok (_, rest) := QuotedText.readString_eq ⟨body, rfl, hbody⟩
      have hconstant : constant? ('"' :: body) = none := rfl
      rw [readScalar, hconstant]
      dsimp only
      rw [hread]
      exact .within (Nat.zero_le _) (Nat.zero_le _)
  | number hnumber =>
      obtain ⟨found, hread, hsettles⟩ := hnumber.readUnsigned_settles hrest depth
      obtain ⟨c, tail, rfl, hc⟩ := hnumber.head
      rw [readScalar, (constant?_of_digit hc tail).1]
      · dsimp only
        rwa [hread]
      · exact fun _ heq => ne_of_digit hc rfl (List.cons.inj heq).1
      · exact fun _ heq => ne_of_digit hc rfl (List.cons.inj heq).1
  | negative hnumber =>
      obtain ⟨found, hread, hsettles⟩ := hnumber.readUnsigned_settles hrest depth
      obtain ⟨c, tail, rfl, hc⟩ := hnumber.head
      rw [readScalar, (constant?_of_digit hc tail).2]
      dsimp only
      rwa [hread]

end ChatPipeline.Json
