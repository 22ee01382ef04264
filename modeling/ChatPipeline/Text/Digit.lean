/-!
# Decimal digits

Unicode 14 has 66 runs of ten decimal digits, each run in order from zero to nine.  The table lists
the zeros.
-/

namespace ChatPipeline.Text

def digitZeros : List Nat := [
  0x30, 0x660, 0x6f0, 0x7c0, 0x966, 0x9e6, 0xa66, 0xae6, 0xb66, 0xbe6, 0xc66, 0xce6, 0xd66,
  0xde6, 0xe50, 0xed0, 0xf20, 0x1040, 0x1090, 0x17e0, 0x1810, 0x1946, 0x19d0, 0x1a80, 0x1a90,
  0x1b50, 0x1bb0, 0x1c40, 0x1c50, 0xa620, 0xa8d0, 0xa900, 0xa9d0, 0xa9f0, 0xaa50, 0xabf0,
  0xff10, 0x104a0, 0x10d30, 0x11066, 0x110f0, 0x11136, 0x111d0, 0x112f0, 0x11450, 0x114d0,
  0x11650, 0x116c0, 0x11730, 0x118e0, 0x11950, 0x11c50, 0x11d50, 0x11da0, 0x16a60, 0x16ac0,
  0x16b50, 0x1d7ce, 0x1d7d8, 0x1d7e2, 0x1d7ec, 0x1d7f6, 0x1e140, 0x1e2f0, 0x1e950, 0x1fbf0]

def digitValue? (c : Char) : Option Nat :=
  if c.toNat < 0x80 then
    if '0' ≤ c ∧ c ≤ '9' then some (c.toNat - '0'.toNat) else none
  else
    (digitZeros.find? fun first => first ≤ c.toNat && c.toNat < first + 10).map (c.toNat - ·)

def isDigit (c : Char) : Bool := (digitValue? c).isSome

def isAsciiDigit (c : Char) : Bool := '0' ≤ c && c ≤ '9'

theorem digitValue?_lt {c : Char} {d : Nat} (h : digitValue? c = some d) : d < 10 := by
  unfold digitValue? at h
  split at h
  · split at h
    · rename_i _ hc
      have h0 : ('0' : Char).toNat ≤ c.toNat := hc.1
      have h9 : c.toNat ≤ ('9' : Char).toNat := hc.2
      have e0 : ('0' : Char).toNat = 48 := rfl
      have e9 : ('9' : Char).toNat = 57 := rfl
      simp only [Option.some.injEq] at h
      omega
    · simp at h
  · obtain ⟨first, hfirst, rfl⟩ := Option.map_eq_some_iff.1 h
    have := List.find?_some hfirst
    simp only [Bool.and_eq_true, decide_eq_true_eq] at this
    omega

def ofDigits (base : Nat) (ds : List Nat) : Nat := ds.foldl (fun n d => n * base + d) 0

/-! ## Writing digits -/

def digitChar (d : Nat) : Char :=
  if d < 10 then Char.ofNat ('0'.toNat + d) else Char.ofNat ('a'.toNat + (d - 10))

/-- The digits of a number, most significant first; zero has one digit. -/
def digits (base n : Nat) : List Char :=
  if base < 2 then [digitChar n] else go n []
where
  go (n : Nat) (acc : List Char) : List Char :=
    if _ : n < base ∨ base < 2 then digitChar n :: acc
    else go (n / base) (digitChar (n % base) :: acc)
  termination_by n
  decreasing_by exact Nat.div_lt_self (by omega) (by omega)

def decimal (n : Nat) : String := String.ofList (digits 10 n)

def signedDecimal (i : Int) : String :=
  if i < 0 then "-" ++ decimal i.natAbs else decimal i.natAbs

/-- An integer of more digits is neither read nor written. -/
def maxIntegerDigits : Nat := 4300

def isLong (i : Int) : Bool := decide (Nat.pow 10 maxIntegerDigits ≤ i.natAbs)

theorem isLong_eq_false {i : Int} :
    isLong i = false ↔ i.natAbs < Nat.pow 10 maxIntegerDigits := by
  rw [isLong, decide_eq_false_iff_not, Nat.not_le]

def paddedDigits (base width n : Nat) : List Char :=
  let ds := digits base n
  List.replicate (width - ds.length) '0' ++ ds

end ChatPipeline.Text
