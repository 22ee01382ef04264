import ChatPipeline.Text.Bytes

/-!
# Percent escapes

Characters that cannot stand in an address are written as their UTF-8 octets, each a percent sign
and two hexadecimal digits.
-/

namespace ChatPipeline.Web

def hexDigit (d : Nat) : Char :=
  if d < 10 then Char.ofNat ('0'.toNat + d) else Char.ofNat ('A'.toNat + (d - 10))

def escapeOctet (b : UInt8) : List Char := ['%', hexDigit (b.toNat / 16), hexDigit (b.toNat % 16)]

def escapeChar (keep : Char → Bool) (c : Char) : List Char :=
  if keep c then [c] else (String.utf8EncodeChar c).flatMap escapeOctet

def escape (keep : Char → Bool) (s : String) : String :=
  String.ofList (s.toList.flatMap (escapeChar keep))

def isUnreserved (c : Char) : Bool := c.isAlphanum || ['_', '.', '-', '~'].contains c

def isPathName (c : Char) : Bool := isUnreserved c || c == '/'

/-! ## Reading escapes -/

def hexValue? (c : Char) : Option Nat :=
  if '0' ≤ c ∧ c ≤ '9' then some (c.toNat - '0'.toNat)
  else if 'A' ≤ c ∧ c ≤ 'F' then some (c.toNat - 'A'.toNat + 10)
  else if 'a' ≤ c ∧ c ≤ 'f' then some (c.toNat - 'a'.toNat + 10)
  else none

/-- The octets that a text with escapes stands for; a percent sign without two digits is itself. -/
def unescape (cs : List Char) : List UInt8 :=
  match cs with
  | [] => []
  | '%' :: a :: b :: rest =>
    match hexValue? a, hexValue? b with
    | some high, some low => UInt8.ofNat (high * 16 + low) :: unescape rest
    | _, _ => String.utf8EncodeChar '%' ++ unescape (a :: b :: rest)
  | c :: rest => String.utf8EncodeChar c ++ unescape rest

end ChatPipeline.Web
