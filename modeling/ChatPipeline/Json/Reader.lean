import ChatPipeline.Value
import ChatPipeline.Decimal.Binary
import ChatPipeline.Text.Digit

/-!
# Reading JSON text

`read` takes a whole text to a value, where the containers in it nest no deeper than there is room
for. Beyond the standard it takes `NaN`, `Infinity` and `-Infinity`; of several members under one
name the last value counts, at the place of the first.  Every fault carries the number of characters
left where it was found, which places it in the text.
-/

namespace ChatPipeline.Json

open ChatPipeline.Text ChatPipeline.Decimal

inductive Expectation where
  | value
  | name
  | colon
  | comma
  | closingQuote
  | noControl
  | escape
  | hexEscape
  | endOfText
  | noByteOrderMark
  deriving DecidableEq, Repr

def Expectation.message : Expectation → String
  | .value => "Expecting value"
  | .name => "Expecting property name enclosed in double quotes"
  | .colon => "Expecting ':' delimiter"
  | .comma => "Expecting ',' delimiter"
  | .closingQuote => "Unterminated string starting at"
  | .noControl => "Invalid control character at"
  | .escape => "Invalid \\escape"
  | .hexEscape => "Invalid \\uXXXX escape"
  | .endOfText => "Extra data"
  | .noByteOrderMark => "Unexpected UTF-8 BOM (decode using utf-8-sig)"

inductive Container where
  | object
  | array
  deriving DecidableEq, Repr

inductive Fault where
  | unmet (expected : Expectation) (left : Nat)
  | longInteger (digits : Nat)
  | tooDeep (container : Container)
  deriving DecidableEq, Repr

abbrev Read (α : Type) := Except Fault (α × List Char)

def unmet (expected : Expectation) (rest : List Char) : Except Fault α :=
  .error (.unmet expected rest.length)

def isSpace (c : Char) : Bool := c == ' ' || c == '\t' || c == '\n' || c == '\r'

def skipSpace (cs : List Char) : List Char := cs.dropWhile isSpace

/-! ## Numbers -/

def spanDigits (cs : List Char) : List Char × List Char := cs.span isAsciiDigit

def digitsValue (cs : List Char) : Nat := ofDigits 10 (cs.filterMap digitValue?)

def integerPart : List Char → Option (List Char × List Char)
  | '0' :: rest => some (['0'], rest)
  | c :: rest => if isAsciiDigit c then some (spanDigits (c :: rest)) else none
  | [] => none

def fractionPart : List Char → Option (List Char × List Char)
  | '.' :: rest =>
    let (ds, rest) := spanDigits rest
    if ds.isEmpty then none else some (ds, rest)
  | _ => none

def exponentPart : List Char → Option (Int × List Char)
  | c :: rest =>
    if c = 'e' ∨ c = 'E' then
      let (negative, rest) := match rest with
        | '-' :: r => (true, r)
        | '+' :: r => (false, r)
        | r => (false, r)
      let (ds, rest) := spanDigits rest
      if ds.isEmpty then none
      else some ((if negative then -(digitsValue ds : Int) else digitsValue ds), rest)
    else none
  | [] => none

def readUnsigned (negative : Bool) (cs : List Char) : Option (Except Fault (Value × List Char)) :=
  match integerPart cs with
  | none => none
  | some (whole, rest) =>
    let (fraction, rest, hasFraction) := match fractionPart rest with
      | some (ds, rest) => (ds, rest, true)
      | none => ([], rest, false)
    let (exponent, rest, hasExponent) := match exponentPart rest with
      | some (e, rest) => (e, rest, true)
      | none => (0, rest, false)
    if hasFraction || hasExponent then
      some (.ok (.float (ofDecimal negative (digitsValue (whole ++ fraction))
        (exponent - fraction.length)), rest))
    else if maxIntegerDigits < whole.length then some (.error (.longInteger whole.length))
    else
      let n : Int := digitsValue whole
      some (.ok (.int (if negative then -n else n), rest))

/-! ## Texts -/

def hexValue? (c : Char) : Option Nat :=
  if '0' ≤ c ∧ c ≤ '9' then some (c.toNat - 48)
  else if 'a' ≤ c ∧ c ≤ 'f' then some (c.toNat - 87)
  else if 'A' ≤ c ∧ c ≤ 'F' then some (c.toNat - 55)
  else none

def readHex (cs : List Char) : Option (Nat × List Char) :=
  match cs with
  | a :: b :: c :: d :: rest => do
    let a ← hexValue? a
    let b ← hexValue? b
    let c ← hexValue? c
    let d ← hexValue? d
    some (((a * 16 + b) * 16 + c) * 16 + d, rest)
  | _ => none

def isHighSurrogate (n : Nat) : Bool := 0xd800 ≤ n && n < 0xdc00

def isLowSurrogate (n : Nat) : Bool := 0xdc00 ≤ n && n < 0xe000

/-- The character of a code unit.  Half a pair on its own is no character and gets the replacement
character, so two names that differ in such halves alone are read as one. -/
def unitChar (n : Nat) : Char := if 0xd800 ≤ n ∧ n < 0xe000 then '\ufffd' else Char.ofNat n

def pairChar (high low : Nat) : Char :=
  Char.ofNat (0x10000 + (high - 0xd800) * 0x400 + (low - 0xdc00))

/-- The character of an escape `\uXXXX`, given the text after the `u`.  A high surrogate takes the
low one after it. -/
def readUnicode (afterU : List Char) : Read Char :=
  match readHex afterU with
  | none => .error (.unmet .hexEscape (afterU.length + 1))
  | some (n, rest) =>
    if rest.isEmpty then .error (.unmet .hexEscape (afterU.length + 1))
    else if isHighSurrogate n then
      match rest with
      | '\\' :: 'u' :: more =>
        match readHex more with
        | some (low, after) =>
          if isLowSurrogate low && !after.isEmpty then .ok (pairChar n low, after)
          else .ok (unitChar n, rest)
        | none => if more.length ≤ 4 then .ok (unitChar n, rest)
          else .error (.unmet .hexEscape (more.length + 1))
      | _ => .ok (unitChar n, rest)
    else .ok (unitChar n, rest)

def simpleEscape? : Char → Option Char
  | '"' => some '"'
  | '\\' => some '\\'
  | '/' => some '/'
  | 'b' => some '\x08'
  | 'f' => some '\x0c'
  | 'n' => some '\n'
  | 'r' => some '\r'
  | 't' => some '\t'
  | _ => none

/-- The characters up to the closing quote.  `opening` is what was left at the opening quote. -/
def readText (opening : Nat) : Nat → List Char → Read (List Char)
  | 0, _ => .error (.unmet .closingQuote opening)
  | fuel + 1, cs =>
    match cs with
    | [] => .error (.unmet .closingQuote opening)
    | '"' :: rest => .ok ([], rest)
    | '\\' :: 'u' :: rest =>
      match readUnicode rest with
      | .error f => .error f
      | .ok (c, after) => (readText opening fuel after).map fun (s, r) => (c :: s, r)
    | '\\' :: e :: rest =>
      match simpleEscape? e with
      | none => unmet .escape cs
      | some c => (readText opening fuel rest).map fun (s, r) => (c :: s, r)
    | ['\\'] => .error (.unmet .closingQuote opening)
    | c :: rest =>
      if c.toNat < 0x20 then unmet .noControl cs
      else (readText opening fuel rest).map fun (s, r) => (c :: s, r)

def readString (afterQuote : List Char) : Read String :=
  (readText (afterQuote.length + 1) (afterQuote.length + 1) afterQuote).map fun (s, r) =>
    (String.ofList s, r)

/-! ## Values -/

def constant? (cs : List Char) : Option (Value × List Char) :=
  [("null", Value.none), ("true", .bool true), ("false", .bool false), ("NaN", .float notANumber),
    ("Infinity", .float (infinity false)), ("-Infinity", .float (infinity true))].findSome?
    fun (name, v) =>
      if name.toList.isPrefixOf cs then some (v, cs.drop name.length) else none

def readScalar (cs : List Char) : Read Value :=
  match constant? cs with
  | some found => .ok found
  | none =>
    match cs with
    | '"' :: rest => (readString rest).map fun (s, r) => (.text s, r)
    | '-' :: rest => (readUnsigned true rest).getD (unmet .value cs)
    | _ => (readUnsigned false cs).getD (unmet .value cs)

/-- The depth that is left where little else is going on. -/
def usualDepth : Nat := 980

mutual

/-- Every step takes a character, so the text's length is fuel enough. -/
def readValue : Nat → Nat → List Char → Read Value
  | 0, _, cs => unmet .value cs
  | fuel + 1, depth, cs =>
    match cs with
    | '{' :: rest =>
      match depth with
      | 0 => .error (.tooDeep .object)
      | depth + 1 =>
        match skipSpace rest with
        | '}' :: after => .ok (.dict [], after)
        | start => (readMembers fuel depth [] start).map fun (es, r) => (.dict es, r)
    | '[' :: rest =>
      match depth with
      | 0 => .error (.tooDeep .array)
      | depth + 1 =>
        match skipSpace rest with
        | ']' :: after => .ok (.list [], after)
        | start => (readItems fuel depth start).map fun (vs, r) => (.list vs, r)
    | _ => readScalar cs

def readItems : Nat → Nat → List Char → Read (List Value)
  | 0, _, cs => unmet .value cs
  | fuel + 1, depth, cs =>
    match readValue fuel depth cs with
    | .error f => .error f
    | .ok (v, after) =>
      match skipSpace after with
      | ']' :: rest => .ok ([v], rest)
      | ',' :: rest => (readItems fuel depth (skipSpace rest)).map fun (vs, r) => (v :: vs, r)
      | rest => unmet .comma rest

def readMembers : Nat → Nat → Entries → List Char → Read Entries
  | 0, _, _, cs => unmet .value cs
  | fuel + 1, depth, entries, cs =>
    match cs with
    | '"' :: rest =>
      match readString rest with
      | .error f => .error f
      | .ok (key, after) =>
        match skipSpace after with
        | ':' :: rest =>
          match readValue fuel depth (skipSpace rest) with
          | .error f => .error f
          | .ok (v, after) =>
            let entries := Entries.insert key v entries
            match skipSpace after with
            | '}' :: rest => .ok (entries, rest)
            | ',' :: rest => readMembers fuel depth entries (skipSpace rest)
            | rest => unmet .comma rest
        | rest => unmet .colon rest
    | _ => unmet .name cs

end

def readChars (depth : Nat) (cs : List Char) : Except Fault Value :=
  match cs with
  | '\ufeff' :: _ => unmet .noByteOrderMark cs
  | _ =>
    match readValue (2 * cs.length + 2) depth (skipSpace cs) with
    | .error f => .error f
    | .ok (v, after) =>
      match skipSpace after with
      | [] => .ok v
      | rest => unmet .endOfText rest

def read (depth : Nat) (text : String) : Except Fault Value := readChars depth text.toList

/-! ## Messages -/

def place (cs : List Char) (position : Nat) : Nat × Nat :=
  let before := cs.take position
  (before.count '\n' + 1, (before.reverse.takeWhile (· != '\n')).length + 1)

def syntaxMessage (text : String) (expected : Expectation) (left : Nat) : String :=
  let cs := text.toList
  let position := cs.length - left
  let (line, column) := place cs position
  expected.message ++ ": line " ++ decimal line ++ " column " ++ decimal column ++ " (char " ++
    decimal position ++ ")"

def longIntegerMessage (digits : Nat) : String :=
  "Exceeds the limit (" ++ decimal maxIntegerDigits ++
    " digits) for integer string conversion: value has " ++ decimal digits ++
    " digits; use sys.set_int_max_str_digits() to increase the limit"

def depthMessage (container : Container) : String :=
  "maximum recursion depth exceeded while decoding a JSON " ++
    (match container with
      | .object => "object"
      | .array => "array") ++ " from a unicode string"

end ChatPipeline.Json
