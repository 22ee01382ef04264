import ChatPipeline.Failure

/-!
# Field layouts

The spec of a replacement field says how its value is laid out:
`[[fill]align][sign][z][#][0][width][grouping][.precision][code]`.  `Layout.parse` reads a spec,
`place` puts a number of known parts into the width, and `layoutText`, `layoutInt` and
`layoutFloat` lay out the three kinds of value that a spec applies to.
-/

namespace ChatPipeline.Template

open ChatPipeline.Text ChatPipeline.Decimal

inductive Alignment where
  | left
  | right
  | center
  | afterSign
  deriving DecidableEq, Repr

def Alignment.ofChar? : Char → Option Alignment
  | '<' => some .left
  | '>' => some .right
  | '^' => some .center
  | '=' => some .afterSign
  | _ => none

inductive SignRule where
  | plus
  | space
  | minus
  deriving DecidableEq, Repr

def SignRule.ofChar? : Char → Option SignRule
  | '+' => some .plus
  | ' ' => some .space
  | '-' => some .minus
  | _ => none

inductive Grouping where
  | comma
  | underscore
  deriving DecidableEq, Repr

def Grouping.char : Grouping → Char
  | .comma => ','
  | .underscore => '_'

structure Layout where
  fill : Char
  align : Alignment
  sign : Option SignRule
  noNegativeZero : Bool
  alternate : Bool
  width : Option Nat
  grouping : Option Grouping
  precision : Option Nat
  code : Option Char
  deriving DecidableEq, Repr

/-- What a spec leaves open is decided by the kind of value. -/
structure LayoutDefaults where
  typeName : String
  align : Alignment
  code : Option Char

/-! ## Reading a spec -/

def valueFault (text : String) : Failure := .fault .value text

def maxNumber : Nat := Nat.pow 2 63 - 1

def readNumber (cs : List Char) : Outcome (Nat × Nat × List Char) :=
  let ds := cs.takeWhile isDigit
  let n := ofDigits 10 (ds.filterMap digitValue?)
  if maxNumber < n then .error (valueFault "Too many decimal digits in format string")
  else .ok (n, ds.length, cs.dropWhile isDigit)

def showCode (c : Char) : String :=
  if 32 < c.toNat ∧ c.toNat < 128 then c.toString else "\\x" ++ String.ofList (digits 16 c.toNat)

def unknownCode (c : Char) (typeName : String) : Failure :=
  valueFault ("Unknown format code '" ++ showCode c ++ "' for object of type '" ++ typeName ++ "'")

def takeClass (accept : Char → Option α) : List Char → Option α × List Char
  | [] => (none, [])
  | c :: rest => match accept c with
    | some a => (some a, rest)
    | none => (none, c :: rest)

def takeFlag (flag : Char) (cs : List Char) : Bool × List Char :=
  match cs with
  | c :: rest => if c = flag then (true, rest) else (false, cs)
  | [] => (false, [])

/-- The fill character and the alignment; a fill is given only together with an alignment. -/
def takeAlignment (cs : List Char) : Option Char × Option Alignment × List Char :=
  match cs with
  | c :: d :: rest => match Alignment.ofChar? d with
    | some a => (some c, some a, rest)
    | none => match Alignment.ofChar? c with
      | some a => (none, some a, d :: rest)
      | none => (none, none, cs)
  | [c] => match Alignment.ofChar? c with
    | some a => (none, some a, [])
    | none => (none, none, cs)
  | [] => (none, none, [])

def bothGroupings : Failure := valueFault "Cannot specify both ',' and '_'."

def takeGrouping (cs : List Char) : Outcome (Option Grouping × List Char) :=
  let (comma, cs) := takeFlag ',' cs
  let (underscore, cs) := takeFlag '_' cs
  if underscore then
    if comma || (takeFlag ',' cs).1 then .error bothGroupings else .ok (some .underscore, cs)
  else .ok (if comma then some .comma else none, cs)

def takePrecision (cs : List Char) : Outcome (Option Nat × List Char) :=
  match cs with
  | '.' :: rest => do
    let (n, count, rest) ← readNumber rest
    if count = 0 then .error (valueFault "Format specifier missing precision")
    else .ok (some n, rest)
  | _ => .ok (none, cs)

def checkGrouping (grouping : Option Grouping) (code : Option Char) : Outcome Unit :=
  match grouping, code with
  | none, _ | some _, none => .ok ()
  | some g, some c =>
    if "defgEG%F".toList.contains c || (g == .underscore && "boxX".toList.contains c) then .ok ()
    else .error (valueFault
      ("Cannot specify '" ++ g.char.toString ++ "' with '" ++ showCode c ++ "'."))

def Layout.parse (defaults : LayoutDefaults) (spec : List Char) : Outcome Layout := do
  let (fill, align, cs) := takeAlignment spec
  let (sign, cs) := takeClass SignRule.ofChar? cs
  let (noNegativeZero, cs) := takeFlag 'z' cs
  let (alternate, cs) := takeFlag '#' cs
  let (zeroFill, cs) := if fill.isNone then takeFlag '0' cs else (false, cs)
  let (n, count, cs) ← readNumber cs
  let (grouping, cs) ← takeGrouping cs
  let (precision, cs) ← takePrecision cs
  let code ← match cs with
    | [] => .ok defaults.code
    | [c] => .ok (some c)
    | _ => .error (valueFault ("Invalid format specifier '" ++ String.ofList spec ++
        "' for object of type '" ++ defaults.typeName ++ "'"))
  checkGrouping grouping code
  .ok {
    fill := fill.getD (if zeroFill then '0' else ' ')
    align := align.getD
      (if zeroFill && defaults.align == .right then .afterSign else defaults.align)
    sign, noNegativeZero, alternate
    width := if count = 0 then none else some n
    grouping, precision, code }

/-! ## Placing -/

def padding (align : Alignment) (n : Nat) : Nat × Nat :=
  match align with
  | .left => (0, n)
  | .right | .afterSign => (n, 0)
  | .center => (n / 2, n - n / 2)

/-- A number ready to be placed: the sign, what stands before the digits, the digits that are
grouped and what follows them. -/
structure NumberParts where
  negative : Bool
  lead : List Char := []
  digits : List Char
  tail : List Char := []

def signText (rule : Option SignRule) (negative : Bool) : List Char :=
  if negative then ['-']
  else match rule with
    | some .plus => ['+']
    | some .space => [' ']
    | _ => []

/-- Digits in groups, given last digit first, with zeros added until a width is filled.  A group
that the width cuts short still gets one digit. -/
def groupReversed (separator : Char) (size : Nat) (fuel : Nat) (ds : List Char) (minWidth : Int) :
    List Char :=
  match fuel with
  | 0 => ds
  | fuel + 1 =>
    let len := min size (max (max ds.length minWidth.toNat) 1)
    let taken := ds.take len
    let group := taken ++ List.replicate (len - taken.length) '0'
    let rest := ds.drop len
    if rest.isEmpty ∧ minWidth - len ≤ 0 then group
    else group ++ separator :: groupReversed separator size fuel rest (minWidth - len - 1)

def groupDigits (separator : Option (Char × Nat)) (ds : List Char) (minWidth : Int) : List Char :=
  match separator with
  | none => List.replicate (minWidth.toNat - ds.length) '0' ++ ds
  | some (c, size) =>
    (groupReversed c size (ds.length + minWidth.toNat + 1) ds.reverse minWidth).reverse

def place (l : Layout) (groupSize : Nat) (parts : NumberParts) : String :=
  let sign := signText l.sign parts.negative
  let fixed := sign.length + parts.lead.length + parts.tail.length
  let width : Int := match l.width with
    | some w => w
    | none => -1
  let minWidth : Int := if l.fill = '0' ∧ l.align = .afterSign then width - fixed else 0
  let digits :=
    if parts.digits.isEmpty then []
    else groupDigits (l.grouping.map fun g => (g.char, groupSize)) parts.digits minWidth
  let pad := (width - (fixed + digits.length)).toNat
  let filler := List.replicate pad l.fill
  String.ofList <| match l.align with
    | .left => sign ++ parts.lead ++ digits ++ parts.tail ++ filler
    | .right => filler ++ sign ++ parts.lead ++ digits ++ parts.tail
    | .center =>
      filler.take (pad / 2) ++ sign ++ parts.lead ++ digits ++ parts.tail ++
        List.replicate (pad - pad / 2) l.fill
    | .afterSign => sign ++ parts.lead ++ filler ++ digits ++ parts.tail

/-! ## Texts -/

def layoutText (spec : List Char) (s : String) : Outcome String := do
  if spec.isEmpty then return s
  let l ← Layout.parse ⟨"str", .left, some 's'⟩ spec
  let code := l.code.getD 's'
  if code ≠ 's' then throw (unknownCode code "str")
  match l.sign with
  | some .space => throw (valueFault "Space not allowed in string format specifier")
  | some _ => throw (valueFault "Sign not allowed in string format specifier")
  | none => pure ()
  if l.noNegativeZero then
    throw (valueFault "Negative zero coercion (z) not allowed in string format specifier")
  if l.alternate then throw (valueFault "Alternate form (#) not allowed in string format specifier")
  if l.align = .afterSign then
    throw (valueFault "'=' alignment not allowed in string format specifier")
  let cs := match l.precision with
    | some p => s.toList.take p
    | none => s.toList
  let (before, after) := padding l.align (l.width.getD 0 - cs.length)
  return String.ofList (List.replicate before l.fill ++ cs ++ List.replicate after l.fill)

/-! ## Doubles -/

def exponentPart (exponent : Int) : List Char :=
  (if exponent < 0 then '-' else '+') :: paddedDigits 10 2 exponent.natAbs

/-- The point stays where digits follow it or the alternate form asks for it. -/
def withFraction (alternate : Bool) (whole fraction : List Char) : List Char × List Char :=
  if fraction.isEmpty ∧ !alternate then (whole, []) else (whole, '.' :: fraction)

structure FloatText where
  digits : List Char
  tail : List Char
  isZero : Bool

def fixedText (alternate : Bool) (places significand : Nat) (exponent : Int) : FloatText :=
  let n := toPlaces significand exponent places
  let ds := paddedDigits 10 (places + 1) n
  let (whole, tail) :=
    withFraction alternate (ds.take (ds.length - places)) (ds.drop (ds.length - places))
  ⟨whole, tail, n == 0⟩

def scientificText (alternate : Bool) (places significand : Nat) (exponent : Int) : FloatText :=
  let d : Digits :=
    if significand = 0 then ⟨0, 0⟩ else toSignificant significand exponent (places + 1)
  let ds := if significand = 0 then List.replicate (places + 1) '0' else d.text
  let (whole, tail) := withFraction alternate (ds.take 1) (ds.drop 1)
  let power := if significand = 0 then 0 else d.point - 1
  ⟨whole, tail ++ 'e' :: exponentPart power, significand == 0⟩

/-- Digits with the point at a place, positional up to a greatest place and scientific beyond it.
With `pointed`, a positional text has a digit after the point. -/
def floatingText (alternate pointed : Bool) (greatest : Int) (ds : List Char) (point : Int)
    (isZero : Bool) : FloatText :=
  if point ≤ -4 ∨ greatest < point then
    let (whole, tail) := withFraction alternate (ds.take 1) (ds.drop 1)
    ⟨whole, tail ++ 'e' :: exponentPart (point - 1), isZero⟩
  else
    let whole := if point ≤ 0 then ['0']
      else ds.take point.toNat ++ List.replicate (point.toNat - ds.length) '0'
    let fraction := if point ≤ 0 then List.replicate (-point).toNat '0' ++ ds
      else ds.drop point.toNat
    let fraction := if fraction.isEmpty ∧ pointed then ['0'] else fraction
    let (whole, tail) := withFraction alternate whole fraction
    ⟨whole, tail, isZero⟩

def generalText (alternate pointed : Bool) (precision significand : Nat) (exponent : Int) :
    FloatText :=
  let count := max precision 1
  let d : Digits := if significand = 0 then ⟨0, 0⟩ else toSignificant significand exponent count
  let shown := dropTrailingZeros d.text
  let ds := if alternate then shown ++ List.replicate (count - shown.length) '0' else shown
  floatingText alternate pointed (if pointed then (count : Int) - 1 else count) ds d.point
    (significand == 0)

def shortestText (alternate : Bool) (significand : Nat) (exponent : Int) : FloatText :=
  let d : Digits := if significand = 0 then ⟨0, 0⟩ else shortest significand exponent
  floatingText alternate true 16 (dropTrailingZeros d.text) d.point (significand == 0)

def finiteText (l : Layout) (code : Char) (significand : Nat) (exponent : Int) : FloatText :=
  let places := l.precision.getD 6
  match code with
  | 'e' => scientificText l.alternate places significand exponent
  | 'g' | 'n' => generalText l.alternate false places significand exponent
  | _ => fixedText l.alternate places significand exponent

def percentScale (x : Float) : Float := x * 100.0

def layoutFloatParts (l : Layout) (x : Float) : NumberParts :=
  let code := l.code.getD ' '
  let lower := code.toLower
  let scaled := if code = '%' then percentScale x else x
  let suffix := if code = '%' then ['%'] else []
  let cased (cs : List Char) : List Char := if code.isUpper then cs.map Char.toUpper else cs
  match classify scaled with
  | .nan => { negative := false, digits := [], tail := cased "nan".toList ++ suffix }
  | .infinite negative => { negative, digits := [], tail := cased "inf".toList ++ suffix }
  | .finite negative significand exponent =>
    let t := match l.code, l.precision with
      | none, none => shortestText l.alternate significand exponent
      | none, some p => generalText l.alternate true p significand exponent
      | some _, _ => finiteText l lower significand exponent
    { negative := negative && !(l.noNegativeZero && t.isZero)
      digits := t.digits
      tail := cased t.tail ++ suffix }

def maxPrecision : Nat := Nat.pow 2 31 - 1

def placeFloat (l : Layout) (x : Float) : Outcome String :=
  if maxPrecision < l.precision.getD 0 then .error (valueFault "precision too big")
  else .ok (place l 3 (layoutFloatParts l x))

def floatCodes : List Char := "eEfFgG%".toList

def layoutFloat (spec : List Char) (x : Float) : Outcome String := do
  if spec.isEmpty then return Decimal.display x
  let l ← Layout.parse ⟨"float", .right, none⟩ spec
  match l.code with
  | none => placeFloat l x
  | some c =>
    if floatCodes.contains c || c == 'n' then placeFloat l x else throw (unknownCode c "float")

/-! ## Integers -/

def layoutCharacter (l : Layout) (i : Int) : Outcome String := do
  if l.sign.isSome then
    throw (valueFault "Sign not allowed with integer format specifier 'c'")
  if l.alternate then
    throw (valueFault "Alternate form (#) not allowed with integer format specifier 'c'")
  if i < -(Nat.pow 2 63 : Nat) ∨ (Nat.pow 2 63 : Nat) ≤ i then
    throw (.fault .overflow "Python int too large to convert to C long")
  if i < 0 ∨ 0x10ffff < i then throw (.fault .overflow "%c arg not in range(0x110000)")
  return place l 3 { negative := false, digits := [], tail := [Char.ofNat i.toNat] }

def integerBase : Char → Nat × List Char
  | 'b' => (2, ['0', 'b'])
  | 'o' => (8, ['0', 'o'])
  | 'x' => (16, ['0', 'x'])
  | 'X' => (16, ['0', 'X'])
  | _ => (10, [])

def layoutInteger (l : Layout) (code : Char) (i : Int) : Outcome String := do
  if l.precision.isSome then throw (valueFault "Precision not allowed in integer format specifier")
  if l.noNegativeZero then
    throw (valueFault "Negative zero coercion (z) not allowed in integer format specifier")
  if code = 'c' then layoutCharacter l i
  else
    let (base, mark) := integerBase code
    if base = 10 ∧ isLong i then throw .unwritable
    let ds := digits base i.natAbs
    return place l (if base = 10 then 3 else 4) {
      negative := i < 0
      lead := if l.alternate then mark else []
      digits := if code = 'X' then ds.map Char.toUpper else ds }

def layoutInt (typeName : String) (spec : List Char) (i : Int) : Outcome String := do
  let l ← Layout.parse ⟨typeName, .right, some 'd'⟩ spec
  let code := l.code.getD 'd'
  if "bcdoxXn".toList.contains code then layoutInteger l code i
  else if floatCodes.contains code then
    match ofInt? i with
    | some x => placeFloat l x
    | none => throw (.fault .overflow "int too large to convert to float")
  else throw (unknownCode code typeName)

end ChatPipeline.Template
