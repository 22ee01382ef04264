import ChatPipeline.Validation.Scalar
import ChatPipeline.Work

/-!
# Points in time

A point in time counts microseconds; it may or may not be tied to a time zone, and two points can
only be compared if both are or neither is.  The written form is `YYYY-MM-DDTHH:MM:SS.ffffff±HH:MM`,
of which everything after the minutes, and the whole time of day, may be missing.
-/

namespace ChatPipeline

open ChatPipeline.Text ChatPipeline.Decimal ChatPipeline.Validation

structure Timestamp where
  microseconds : Int
  zoned : Bool
  deriving DecidableEq, Repr

namespace Timestamp

def epoch : Timestamp := ⟨0, true⟩

def ofInstant (t : Instant) : Timestamp := ⟨t / 1000, true⟩

def seconds (microseconds : Int) : Float :=
  nearest (microseconds < 0) microseconds.natAbs 1000000

def secondsSince (t start : Timestamp) : Outcome Float :=
  if t.zoned = start.zoned then .ok (seconds (t.microseconds - start.microseconds))
  else .error (.fault .type "can't subtract offset-naive and offset-aware datetimes")

/-! ## The calendar -/

def isLeap (year : Nat) : Bool := year % 4 == 0 && (year % 100 != 0 || year % 400 == 0)

def daysInMonth (year month : Nat) : Nat :=
  if month = 2 then (if isLeap year then 29 else 28)
  else if month = 4 ∨ month = 6 ∨ month = 9 ∨ month = 11 then 30
  else 31

def daysBeforeYear (year : Nat) : Nat :=
  let y := year - 1
  y * 365 + y / 4 - y / 100 + y / 400

def daysBeforeMonth (year month : Nat) : Nat :=
  (List.range (month - 1)).foldl (fun days m => days + daysInMonth year (m + 1)) 0

def dayNumber (year month day : Nat) : Int :=
  (daysBeforeYear year + daysBeforeMonth year month + (day - 1) : Nat) - (daysBeforeYear 1970 : Nat)

/-! ## Reading -/

def fixedDigits (fault : String) (n : Nat) (cs : List Char) : Except String (Nat × List Char) :=
  let ds := cs.take n
  if ds.length < n then .error "input is too short"
  else if ds.all isAsciiDigit then .ok (ofDigits 10 (ds.filterMap digitValue?), cs.drop n)
  else .error fault

def separator (fault : String) (c : Char) : List Char → Except String (List Char)
  | d :: rest => if d = c then .ok rest else .error fault
  | [] => .error "input is too short"

def readDate (cs : List Char) : Except String (Int × List Char) := do
  if cs.length < 10 then throw "input is too short"
  let dash := "invalid date separator, expected `-`"
  let (year, cs) ← fixedDigits "invalid character in year" 4 cs
  let cs ← separator dash '-' cs
  let (month, cs) ← fixedDigits "invalid character in month" 2 cs
  let cs ← separator dash '-' cs
  let (day, cs) ← fixedDigits "invalid character in day" 2 cs
  if month < 1 ∨ 12 < month then throw "month value is outside expected range of 1-12"
  if day < 1 ∨ daysInMonth year month < day then throw "day value is outside expected range"
  return (dayNumber year month day, cs)

/-- A fraction of a second in microseconds; more than six digits are cut off. -/
def readFraction (cs : List Char) : Except String (Nat × List Char) :=
  match cs with
  | c :: rest =>
    if c = '.' ∨ c = ',' then
      let ds := rest.takeWhile isAsciiDigit
      if ds.isEmpty then .error "second fraction missing digits"
      else
        let six := (ds ++ List.replicate 6 '0').take 6
        .ok (ofDigits 10 (six.filterMap digitValue?), rest.drop ds.length)
    else .ok (0, cs)
  | [] => .ok (0, cs)

def readZone (cs : List Char) : Except String (Option Int × List Char) :=
  match cs with
  | 'Z' :: rest | 'z' :: rest => .ok (some 0, rest)
  | c :: rest =>
    if c = '+' ∨ c = '-' ∨ c = '−' then do
      let (hours, cs) ← fixedDigits "invalid timezone hour" 2 rest
      let cs := match cs with
        | ':' :: more => more
        | _ => cs
      let (minutes, cs) ← fixedDigits "invalid timezone minute" 2 cs
      if 59 < minutes then throw "timezone minute value is outside expected range of 0-59"
      if 24 ≤ hours then throw "timezone offset must be less than 24 hours"
      let offset : Int := hours * 3600 + minutes * 60
      return (some (if c = '+' then offset else -offset), cs)
    else .ok (none, cs)
  | [] => .ok (none, [])

def readTime (cs : List Char) : Except String (Nat × List Char) := do
  let colon := "invalid time separator, expected `:`"
  let (hour, cs) ← fixedDigits "invalid character in hour" 2 cs
  let cs ← separator colon ':' cs
  let (minute, cs) ← fixedDigits "invalid character in minute" 2 cs
  let ((second, micro), cs) ← match cs with
    | ':' :: rest => do
      let (second, cs) ← fixedDigits "invalid character in second" 2 rest
      let (micro, cs) ← readFraction cs
      .ok ((second, micro), cs)
    | _ => .ok ((0, 0), cs)
  if 23 < hour then throw "hour value is outside expected range of 0-23"
  if 59 < minute then throw "minute value is outside expected range of 0-59"
  if 59 < second then throw "second value is outside expected range of 0-59"
  return (((hour * 60 + minute) * 60 + second) * 1000000 + micro, cs)

def isTimeSeparator (c : Char) : Bool := c == 'T' || c == 't' || c == ' ' || c == '_'

def read (cs : List Char) : Except String Timestamp := do
  let (day, cs) ← readDate cs
  match cs with
  | [] => return ⟨day * 86400 * 1000000, false⟩
  | c :: rest =>
    if !isTimeSeparator c then throw "unexpected extra characters at the end of the input"
    let (time, cs) ← readTime rest
    let (offset, cs) ← readZone cs
    if !cs.isEmpty then throw "unexpected extra characters at the end of the input"
    return ⟨day * 86400 * 1000000 + time - offset.getD 0 * 1000000, offset.isSome⟩

def dateFault (cs : List Char) (fault : String) : String :=
  match readDate cs with
  | .ok (_, []) => fault
  | .ok _ => "unexpected extra characters at the end of the input"
  | .error e => e

/-- Numbers count seconds, large ones milliseconds. -/
def ofNumber (i : Int) : Timestamp :=
  if i.natAbs ≤ 20000000000 then ⟨i * 1000000, true⟩ else ⟨i * 1000, true⟩

def check : Check Timestamp := fun v =>
  match v with
  | .int i => .ok (ofNumber i)
  | _ => match scalarText? v with
    | some s => match read s.toList with
      | .ok t => .ok t
      | .error fault => match laxInteger s with
        | .ok i => .ok (ofNumber i)
        | .error _ => reject "datetime_from_date_parsing"
            ("Input should be a valid datetime or date, " ++ dateFault s.toList fault) v
    | none => reject "datetime_type" "Input should be a valid datetime" v

end Timestamp

end ChatPipeline
