import ChatPipeline.Text.Digit

/-!
# Octets and text

UTF-8 read from octets.  `decodeLossy` puts the replacement character for each maximal prefix that
begins a character and cannot be completed, and for each octet that begins none; `decode?` refuses
such octets altogether.
-/

namespace ChatPipeline.Text

def encode (s : String) : List UInt8 := s.toUTF8.toList

/-- How a leading octet goes on: the number of continuation octets, the bits that the leading octet
gives, and the range of the first continuation octet. -/
structure Lead where
  count : Nat
  bits : Nat
  low : Nat
  high : Nat

def Lead.of? (b : Nat) : Option Lead :=
  if 0xc2 ≤ b ∧ b ≤ 0xdf then some ⟨1, b - 0xc0, 0x80, 0xbf⟩
  else if b = 0xe0 then some ⟨2, 0, 0xa0, 0xbf⟩
  else if b = 0xed then some ⟨2, 0xd, 0x80, 0x9f⟩
  else if 0xe1 ≤ b ∧ b ≤ 0xef then some ⟨2, b - 0xe0, 0x80, 0xbf⟩
  else if b = 0xf0 then some ⟨3, 0, 0x90, 0xbf⟩
  else if b = 0xf4 then some ⟨3, 4, 0x80, 0x8f⟩
  else if 0xf1 ≤ b ∧ b ≤ 0xf3 then some ⟨3, b - 0xf0, 0x80, 0xbf⟩
  else none

/-- Takes the continuation octets: the value with its bits added, or `none` at the first octet that
does not fit, and the octets after those taken. -/
def continuation (value low high : Nat) : Nat → List UInt8 → Option Nat × List UInt8
  | 0, rest => (some value, rest)
  | _ + 1, [] => (none, [])
  | n + 1, b :: rest =>
    if low ≤ b.toNat ∧ b.toNat ≤ high then
      continuation (value * 64 + (b.toNat - 0x80)) 0x80 0xbf n rest
    else (none, b :: rest)

theorem continuation_length (value low high n : Nat) (bytes : List UInt8) :
    (continuation value low high n bytes).2.length ≤ bytes.length := by
  induction n generalizing value low high bytes with
  | zero => simp [continuation]
  | succ n ih =>
    cases bytes with
    | nil => simp [continuation]
    | cons b rest =>
      simp only [continuation]
      split
      · exact Nat.le_trans (ih _ _ _ rest) (Nat.le_succ _)
      · exact Nat.le_refl _

def characters (bytes : List UInt8) : List (Option Char) :=
  match bytes with
  | [] => []
  | b :: rest =>
    if b.toNat < 0x80 then some (Char.ofNat b.toNat) :: characters rest
    else
      match Lead.of? b.toNat with
      | none => none :: characters rest
      | some lead =>
        let taken := continuation lead.bits lead.low lead.high lead.count rest
        taken.1.map Char.ofNat :: characters taken.2
termination_by bytes.length
decreasing_by
  all_goals simp only [List.length_cons]
  · omega
  · omega
  · have := continuation_length lead.bits lead.low lead.high lead.count rest
    omega

def decodeLossy (bytes : List UInt8) : String :=
  String.ofList ((characters bytes).map (·.getD '\ufffd'))

def decode? (bytes : List UInt8) : Option String :=
  ((characters bytes).mapM id).map String.ofList

/-! ## Hexadecimal text -/

def hexDigitValue (c : Char) : Nat := (digitValue? c).getD (c.toLower.toNat - 'a'.toNat + 10)

def octetsOfHex : List Char → List UInt8
  | a :: b :: rest => UInt8.ofNat (hexDigitValue a * 16 + hexDigitValue b) :: octetsOfHex rest
  | _ => []

def hexOfOctets (bytes : List UInt8) : String :=
  String.ofList (bytes.flatMap fun b => paddedDigits 16 2 b.toNat)

/-! ## Refused octets -/

def unfinished : String := "unexpected end of data"

/-- How far octets can be read: the position of the first that form no character, how many they are,
and why. -/
def firstFault (position : Nat) (bytes : List UInt8) : Option (Nat × Nat × String) :=
  match bytes with
  | [] => none
  | b :: rest =>
    if b.toNat < 0x80 then firstFault (position + 1) rest
    else
      match Lead.of? b.toNat with
      | none => some (position, 1, "invalid start byte")
      | some lead =>
        let taken := continuation lead.bits lead.low lead.high lead.count rest
        let count := 1 + (rest.length - taken.2.length)
        match taken.1 with
        | some _ => firstFault (position + count) taken.2
        | none => some (position, count,
            if taken.2.isEmpty then unfinished else "invalid continuation byte")
termination_by bytes.length
decreasing_by
  all_goals simp only [List.length_cons]
  · omega
  · have := continuation_length lead.bits lead.low lead.high lead.count rest
    omega

def decodingFault (bytes : List UInt8) : String :=
  match firstFault 0 bytes with
  | none => ""
  | some (position, count, reason) =>
    let place := if count == 1 then
        "byte 0x" ++ String.ofList (paddedDigits 16 2 ((bytes[position]?.getD 0).toNat)) ++
          " in position " ++ decimal position
      else "bytes in position " ++ decimal position ++ "-" ++ decimal (position + count - 1)
    "'utf-8' codec can't decode " ++ place ++ ": " ++ reason

end ChatPipeline.Text
