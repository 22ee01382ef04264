import ChatPipeline.Proofs.Json.Reading
import ChatPipeline.Tool.Payload

/-!
# What arguments are decoded to

A tool should take blank arguments or the text of an object, and refuse every other text with an
error that names the tool (`Promised`).  So it does with a text that keeps to the limits of the
reader.  Beyond them the reader gives up whatever the text is, and its error goes out as it is:
without the name of the tool, and for a deep text not even as an error of value.  `Decoded` has one
rule for each situation, and `arguments_decoded` is that it holds of every text.
-/

namespace ChatPipeline

open ChatPipeline.Text ChatPipeline.Json

/-! ## Within and beyond the limits -/

/-- No run of digits that is too long, and not enough brackets to nest too deep. -/
structure Json.KeepsLimits (depth : Nat) (cs : List Char) : Prop where
  digits : ∀ ds, AllDigits ds → ds <:+: cs → ds.length ≤ maxIntegerDigits
  openings : Json.openings cs ≤ depth

/-- Every value of which this is the text goes beyond a limit. -/
def Json.IsBeyond (depth : Nat) (cs : List Char) : Prop :=
  ∀ v longest deepest, IsTextOf v longest deepest cs →
    ¬ (longest ≤ maxIntegerDigits ∧ deepest ≤ depth)

/-! ## What arguments come to -/

/-- What the arguments of a call should come to. -/
inductive Promised (tool text : String) : Outcome Entries → Prop where
  | blank (hblank : isAllBlank text = true) : Promised tool text (.ok [])
  | object (hblank : ¬ isAllBlank text = true)
    (htext : IsTextOf (.dict entries) longest deepest text.toList) :
    Promised tool text (.ok entries)
  | refused (hblank : ¬ isAllBlank text = true)
    (hnone : ∀ entries longest deepest, ¬ IsTextOf (.dict entries) longest deepest text.toList)
    (reason : String) : Promised tool text (.error (.fault .value (tool ++ ": " ++ reason)))

inductive Decoded (depth : Nat) (tool text : String) : Outcome Entries → Prop where
  | blank (hblank : isAllBlank text = true) : Decoded depth tool text (.ok [])
  | object (hblank : ¬ isAllBlank text = true) (hdigits : longest ≤ maxIntegerDigits)
    (hdepth : deepest ≤ depth) (htext : IsTextOf (.dict entries) longest deepest text.toList) :
    Decoded depth tool text (.ok entries)
  | noObject (hblank : ¬ isAllBlank text = true) (hdigits : longest ≤ maxIntegerDigits)
    (hdepth : deepest ≤ depth) (htext : IsTextOf v longest deepest text.toList)
    (hother : ∀ entries, v ≠ .dict entries) :
    Decoded depth tool text (.error (.fault .value (tool ++ ": arguments must be a JSON object")))
  | noJson (hblank : ¬ isAllBlank text = true)
    (hnone : ∀ v longest deepest, ¬ IsTextOf v longest deepest text.toList)
    (expected : Expectation) (left : Nat) :
    Decoded depth tool text (.error (.fault .value (tool ++ ": arguments are not valid JSON (" ++
      syntaxMessage text expected left ++ ")")))
  | longInteger (hblank : ¬ isAllBlank text = true) (hbeyond : IsBeyond depth text.toList) {digits : Nat}
    (hcause : (Fault.longInteger digits).CausedBy depth text.toList) :
    Decoded depth tool text (.error (.fault .value (longIntegerMessage digits)))
  | tooDeep (hblank : ¬ isAllBlank text = true) (hbeyond : IsBeyond depth text.toList)
    {container : Container} (hcause : (Fault.tooDeep container).CausedBy depth text.toList) :
    Decoded depth tool text (.error (.fault .recursion (depthMessage container)))

variable {tool text : String} {depth longest deepest : Nat} {v : Value}

theorem Json.isBeyond_of_error {cs : List Char} {f : Fault} (h : readChars depth cs = .error f) :
    IsBeyond depth cs := by
  rintro v longest deepest htext ⟨hdigits, hdepth⟩
  rw [readChars_eq_ok_iff.2 ⟨longest, deepest, hdigits, hdepth, htext⟩] at h
  cases h

theorem Json.not_isTextOf_of_unmet {cs : List Char} {expected : Expectation} {left : Nat}
    (h : readChars depth cs = .error (.unmet expected left)) (v : Value) (longest deepest : Nat) :
    ¬ IsTextOf v longest deepest cs := by
  intro htext
  have hsettles := htext.settles depth
  rw [h] at hsettles
  cases hsettles with
  | beyond _ hlimit => cases hlimit

theorem Json.IsTextOf.unique {cs : List Char} {w : Value} {longest' deepest' : Nat}
    (h : IsTextOf v longest deepest cs) (hdigits : longest ≤ maxIntegerDigits)
    (hdepth : deepest ≤ depth) (h' : IsTextOf w longest' deepest' cs) : w = v := by
  have hsettles := h'.settles depth
  rw [readChars_eq_ok_iff.2 ⟨longest, deepest, hdigits, hdepth, h⟩] at hsettles
  cases hsettles
  rfl

private theorem decoded (depth : Nat) (tool text : String) :
    Decoded depth tool text (decodeArguments depth tool text) := by
  unfold decodeArguments
  split
  · rename_i hblank
    exact .blank hblank
  · rename_i hblank
    split
    · rename_i entries hread
      obtain ⟨longest, deepest, hdigits, hdepth, htext⟩ := readChars_sound hread
      exact .object hblank hdigits hdepth htext
    · rename_i v hother hread
      obtain ⟨longest, deepest, hdigits, hdepth, htext⟩ := readChars_sound hread
      exact .noObject hblank hdigits hdepth htext hother
    · rename_i expected left hread
      exact .noJson hblank (not_isTextOf_of_unmet hread) expected left
    · rename_i digits hread
      exact .longInteger hblank (isBeyond_of_error hread) (readChars_causedBy hread)
    · rename_i container hread
      exact .tooDeep hblank (isBeyond_of_error hread) (readChars_causedBy hread)

theorem Decoded.promised {found : Outcome Entries} (h : Decoded depth tool text found)
    (hlimits : KeepsLimits depth text.toList) : Promised tool text found := by
  cases h with
  | blank hblank => exact .blank hblank
  | object hblank _ _ htext => exact .object hblank htext
  | noObject hblank hdigits hdepth htext hother =>
      have hcolon :
          ": arguments must be a JSON object" = ": " ++ "arguments must be a JSON object" := rfl
      rw [hcolon, ← String.append_assoc]
      refine .refused hblank (fun entries longest deepest hobject => ?_) _
      exact hother entries (htext.unique hdigits hdepth hobject).symm
  | noJson hblank hnone expected left =>
      have hcolon : ": arguments are not valid JSON (" = ": " ++ "arguments are not valid JSON (" :=
        rfl
      rw [hcolon, ← String.append_assoc, String.append_assoc, String.append_assoc]
      exact .refused hblank (fun entries => hnone (.dict entries)) _
  | longInteger _ _ hcause =>
      obtain ⟨hlong, ds, hds, rfl, hinfix⟩ := hcause
      exact absurd (hlimits.digits ds hds hinfix) (Nat.not_le_of_lt hlong)
  | tooDeep _ _ hcause => exact absurd hlimits.openings (Nat.not_le_of_lt hcause)

theorem Promised.eq_fault {f : Failure} (h : Promised tool text (.error f)) :
    ∃ reason, f = .fault .value (tool ++ ": " ++ reason) := by
  cases h with
  | refused _ _ reason => exact ⟨reason, rfl⟩

/-! ## Every text -/

/-- Arguments come to what they should, unless the text goes beyond a limit. -/
theorem arguments_decoded (depth : Nat) (tool text : String) :
    Decoded depth tool text (decodeArguments depth tool text) ∧
      (KeepsLimits depth text.toList → Promised tool text (decodeArguments depth tool text)) :=
  ⟨decoded depth tool text, (decoded depth tool text).promised⟩

def cityText : String := "\x7b\"city\": \"Oslo\"\x7d"

theorem city_promised : KeepsLimits usualDepth cityText.toList ∧
    Promised "weather" cityText (decodeArguments usualDepth "weather" cityText) := by
  have hlimits : KeepsLimits usualDepth cityText.toList := by
    refine ⟨fun ds _ hinfix => ?_, by decide +kernel⟩
    have hlength : cityText.toList.length ≤ maxIntegerDigits := by decide +kernel
    exact hinfix.length_le.trans hlength
  exact ⟨hlimits, (arguments_decoded usualDepth "weather" cityText).2 hlimits⟩

/-! ## Beyond the limits -/

theorem decodeArguments_beyond (htext : IsTextOf v longest deepest text.toList)
    (hbeyond : ¬ (longest ≤ maxIntegerDigits ∧ deepest ≤ depth)) (tool : String) :
    (∃ digits, decodeArguments depth tool text = .error (.fault .value (longIntegerMessage digits))) ∨
      ∃ container,
        decodeArguments depth tool text = .error (.fault .recursion (depthMessage container)) := by
  have hblank : ¬ isAllBlank text = true := by
    obtain ⟨c, hc, hcBlank⟩ := htext.exists_not_isBlank
    intro hall
    rw [List.all_eq_true.1 hall c hc] at hcBlank
    cases hcBlank
  have hsettles := htext.settles depth
  rw [decodeArguments, if_neg hblank, Json.read]
  generalize readChars depth text.toList = found at hsettles ⊢
  cases hsettles with
  | within hdigits hdepth => exact absurd ⟨hdigits, hdepth⟩ hbeyond
  | beyond _ hlimit =>
      cases hlimit with
      | longInteger digits => exact .inl ⟨digits, rfl⟩
      | tooDeep container => exact .inr ⟨container, rfl⟩

private theorem longIntegerMessage_ne (digits : Nat) (reason : String) :
    longIntegerMessage digits ≠ "t" ++ ": " ++ reason := by
  intro h
  unfold longIntegerMessage at h
  -- The limit is a number of four digits, which would be written out here.
  generalize decimal maxIntegerDigits = limit at h
  have hfirst := congrArg (fun s => s.toList.head?) h
  simp at hfirst

private theorem not_promised_of_beyond (htext : IsTextOf v longest deepest text.toList)
    (hbeyond : ¬ (longest ≤ maxIntegerDigits ∧ deepest ≤ depth)) :
    ¬ Promised "t" text (decodeArguments depth "t" text) := by
  intro h
  obtain ⟨digits, herror⟩ | ⟨container, herror⟩ := decodeArguments_beyond htext hbeyond "t"
  · rw [herror] at h
    obtain ⟨reason, hreason⟩ := h.eq_fault
    simp only [Failure.fault, Failure.raised.injEq, List.cons.injEq, Value.text.injEq, true_and,
      and_true] at hreason
    exact longIntegerMessage_ne digits reason hreason
  · rw [herror] at h
    obtain ⟨reason, hreason⟩ := h.eq_fault
    cases hreason

/-! ### A deep array -/

def nested : Nat → Value
  | 0 => .list []
  | n + 1 => .list [nested n]

private theorem nested_leads (n : Nat) (rest : List Char) :
    (Phrase.value (nested n)).Leads 0 (n + 1)
      (List.replicate (n + 1) '[' ++ (List.replicate (n + 1) ']' ++ rest)) rest := by
  induction n generalizing rest with
  | zero => exact .emptyArray ⟨[], List.forall_mem_nil _, rfl⟩
  | succ n ih =>
      rw [List.replicate_succ, List.replicate_succ' (a := ']'), List.append_assoc]
      exact .array ⟨[], List.forall_mem_nil _, rfl⟩
        (.lastItem (ih (']' :: rest)) ⟨[], List.forall_mem_nil _, rfl⟩)

def nestedText (n : Nat) : String :=
  String.ofList (List.replicate (n + 1) '[' ++ List.replicate (n + 1) ']')

private theorem nested_isTextOf (n : Nat) :
    IsTextOf (nested n) 0 (n + 1) (nestedText n).toList := by
  have hleads := nested_leads n []
  rw [List.append_nil] at hleads
  rw [nestedText, String.toList_ofList]
  exact ⟨_, [], ⟨[], List.forall_mem_nil _, rfl⟩, hleads, ⟨[], List.forall_mem_nil _, rfl⟩⟩

theorem deepArray_not_promised :
    ¬ Promised "t" (nestedText 1999) (decodeArguments usualDepth "t" (nestedText 1999)) :=
  not_promised_of_beyond (nested_isTextOf 1999) (by decide)

end ChatPipeline
