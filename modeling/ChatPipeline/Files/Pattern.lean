import ChatPipeline.Text.Split

/-!
# File name patterns

A pattern is matched against a name unit by unit: a star stands for any run of units, a question
mark for any one, and brackets for one of those listed.  Two dialects read patterns differently in
detail; `octetDialect` is for names as octets, `characterDialect` for names as characters.
-/

namespace ChatPipeline.Files

structure Dialect where
  /-- The characters that negate a bracket when they stand first in it. -/
  negations : List Char
  /-- Whether a backslash takes the next unit as it is. -/
  escapes : Bool
  /-- Whether brackets may hold named classes of units. -/
  classes : Bool

def octetDialect : Dialect where
  negations := ['!', '^']
  escapes := true
  classes := true

def characterDialect : Dialect where
  negations := ['!']
  escapes := false
  classes := false

inductive Member where
  | range (low high : Nat)
  | named (className : List Char)
  deriving DecidableEq, Repr

inductive Token where
  | exactly (unit : Nat)
  | any
  | many
  | oneOf (negated : Bool) (members : List Member)
  | never
  deriving DecidableEq, Repr

/-! ## Classes -/

def isUpper (n : Nat) : Bool := 0x41 ≤ n && n ≤ 0x5a

def isLower (n : Nat) : Bool := 0x61 ≤ n && n ≤ 0x7a

def isDigitUnit (n : Nat) : Bool := 0x30 ≤ n && n ≤ 0x39

def isGraph (n : Nat) : Bool := 0x21 ≤ n && n ≤ 0x7e

def class? (name : List Char) : Option (Nat → Bool) :=
  match String.ofList name with
  | "alpha" => some fun n => isUpper n || isLower n
  | "upper" => some isUpper
  | "lower" => some isLower
  | "digit" => some isDigitUnit
  | "alnum" => some fun n => isUpper n || isLower n || isDigitUnit n
  | "xdigit" => some fun n => isDigitUnit n || (0x41 ≤ n && n ≤ 0x46) || (0x61 ≤ n && n ≤ 0x66)
  | "space" => some fun n => n == 0x20 || (0x9 ≤ n && n ≤ 0xd)
  | "blank" => some fun n => n == 0x20 || n == 0x9
  | "cntrl" => some fun n => n < 0x20 || n == 0x7f
  | "print" => some fun n => n == 0x20 || isGraph n
  | "graph" => some isGraph
  | "punct" => some fun n => isGraph n && !(isUpper n || isLower n || isDigitUnit n)
  | _ => none

def Member.holds (n : Nat) : Member → Bool
  | .range low high => low ≤ n && n ≤ high
  | .named name => ((class? name).map (· n)).getD false

/-! ## Matching -/

def Token.holds (n : Nat) : Token → Bool
  | .exactly unit => n == unit
  | .any => true
  | .oneOf negated members => members.any (Member.holds n) != negated
  | .many | .never => false

def suffixes : List Nat → List (List Nat)
  | [] => [[]]
  | n :: rest => (n :: rest) :: suffixes rest

def accepts : List Token → List Nat → Bool
  | [], units => units.isEmpty
  | .many :: tokens, units => (suffixes units).any (accepts tokens)
  | token :: tokens, units =>
    match units with
    | n :: rest => token.holds n && accepts tokens rest
    | [] => false

/-! ## Reading -/

def isChar (n : Nat) (c : Char) : Bool := n == c.toNat

def className? (units : List Nat) : Option (List Char × List Nat) :=
  let name := units.takeWhile fun n => isLower n
  match units.drop name.length with
  | a :: b :: rest => if isChar a ':' && isChar b ']' then some (name.map Char.ofNat, rest) else none
  | _ => none

def bracketUnit (d : Dialect) : List Nat → Option (Nat × List Nat)
  | [] => none
  | n :: rest =>
    if d.escapes && isChar n '\\' then
      match rest with
      | m :: rest => some (m, rest)
      | [] => none
    else some (n, rest)

def bracketClass? (d : Dialect) (units : List Nat) : Option (List Char × List Nat) :=
  match units with
  | a :: b :: rest => if d.classes && isChar a '[' && isChar b ':' then className? rest else none
  | _ => none

def bracketRange (d : Dialect) (units : List Nat) : Option (Member × List Nat) :=
  (bracketUnit d units).bind fun (low, rest) =>
    match rest with
    | hyphen :: next :: _ =>
      if isChar hyphen '-' && !isChar next ']' then
        (bracketUnit d (rest.drop 1)).map fun (high, rest) => (.range low high, rest)
      else some (.range low low, rest)
    | _ => some (.range low low, rest)

/-- The members up to the closing bracket, which is a member itself when it stands first. -/
def bracketMembers (d : Dialect) : Nat → Bool → List Nat → Option (List Member × List Nat)
  | 0, _, _ => none
  | fuel + 1, isFirst, units =>
    match units with
    | [] => none
    | n :: rest =>
      if isChar n ']' && !isFirst then some ([], rest)
      else
        let found := match bracketClass? d units with
          | some (name, rest) => some (Member.named name, rest)
          | none => bracketRange d units
        found.bind fun (m, rest) =>
          (bracketMembers d fuel false rest).map fun (ms, rest) => (m :: ms, rest)

def isKnown : Member → Bool
  | .range .. => true
  | .named name => (class? name).isSome

def bracketToken (negated : Bool) (members : List Member) : Token :=
  if members.all isKnown then .oneOf negated members else .never

/-- A bracket after its opening; one that is never closed is no bracket. -/
def bracket? (d : Dialect) (units : List Nat) : Option (Token × List Nat) :=
  let negated := units.head?.any fun n => d.negations.any (isChar n)
  let body := if negated then units.drop 1 else units
  (bracketMembers d (body.length + 1) true body).map fun (ms, rest) => (bracketToken negated ms, rest)

def readTokens (d : Dialect) : Nat → List Nat → List Token
  | 0, _ => []
  | _, [] => []
  | fuel + 1, n :: rest =>
    if isChar n '*' then .many :: readTokens d fuel rest
    else if isChar n '?' then .any :: readTokens d fuel rest
    else if d.escapes && isChar n '\\' then
      match rest with
      | m :: rest => .exactly m :: readTokens d fuel rest
      | [] => [.never]
    else if isChar n '[' then
      match bracket? d rest with
      | some (token, rest) => token :: readTokens d fuel rest
      | none => .exactly n :: readTokens d fuel rest
    else .exactly n :: readTokens d fuel rest

def tokens (d : Dialect) (units : List Nat) : List Token := readTokens d units.length units

/-! ## Patterns on names -/

def octets (s : String) : List Nat := s.toUTF8.toList.map UInt8.toNat

def characters (s : String) : List Nat := s.toList.map Char.toNat

def matchesOctets (pattern name : String) : Bool :=
  accepts (tokens octetDialect (octets pattern)) (octets name)

def matchesCharacters (pattern name : String) : Bool :=
  accepts (tokens characterDialect (characters pattern)) (characters name)

def isPattern (cs : List Char) : Bool := cs.any fun c => ['*', '?', '['].contains c

end ChatPipeline.Files
