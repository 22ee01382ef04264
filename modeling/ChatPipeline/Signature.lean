import ChatPipeline.Value.Display
import ChatPipeline.Failure

/-!
# Signatures

The parameters of an operation that is called with a list of values and with named values: which are
required, which have a default, and which may be given by name only.  `Signature.bind` brings a call
into the form of one entry per parameter.
-/

namespace ChatPipeline

open ChatPipeline.Text

/-- `receiver` is set for an operation on an object, which takes the first place. -/
structure Signature where
  name : String
  receiver : Bool := false
  required : List String := []
  optional : Entries := []
  named : Entries := []
  collects : Bool := false

namespace Signature

def fault (s : Signature) (text : String) : Failure := .fault .type (s.name ++ "() " ++ text)

def places (s : Signature) : List String :=
  (if s.receiver then ["self"] else []) ++ s.required ++ s.optional.map Prod.fst

/-- `'a'`, `'a' and 'b'`, `'a', 'b', and 'c'` -/
def enumerate (names : List String) : String :=
  match names.map quoted with
  | [] => ""
  | [a] => a
  | [a, b] => a ++ " and " ++ b
  | qs => Value.commaSeparated qs.dropLast ++ ", and " ++ (qs.getLast?.getD "")

def countOf (n : Nat) (noun : String) : String :=
  decimal n ++ " " ++ noun ++ (if n == 1 then "" else "s")

/-- `byName` counts the values that can be given by name only. -/
def tooMany (s : Signature) (given byName : Nat) : Failure :=
  let most := s.places.length
  let least := most - s.optional.length
  let takes :=
    if s.optional.isEmpty then countOf most "positional argument"
    else "from " ++ decimal least ++ " to " ++ decimal most ++ " positional arguments"
  let were :=
    if byName == 0 then decimal given ++ (if given == 1 then " was" else " were")
    else countOf given "positional argument" ++ " (and " ++ countOf byName "keyword-only argument" ++
      ") were"
  s.fault ("takes " ++ takes ++ " but " ++ were ++ " given")

/-- Adds the named values; a name that already has one, or that is no parameter, is refused.  The
names of no parameter are collected where the operation takes any name. -/
def bindNamed (s : Signature) : Entries → Entries → Entries → Outcome (Entries × Entries)
  | bound, collected, [] => .ok (bound, collected)
  | bound, collected, (k, v) :: rest =>
    if s.places.contains k || s.named.contains k then
      if bound.contains k then .error (s.fault ("got multiple values for argument " ++ quoted k))
      else bindNamed s (bound ++ [(k, v)]) collected rest
    else if s.collects then bindNamed s bound (collected ++ [(k, v)]) rest
    else .error (s.fault ("got an unexpected keyword argument " ++ quoted k))

def bind (s : Signature) (values : List Value) (named : Entries) : Outcome (Entries × Entries) := do
  let values := if s.receiver then .none :: values else values
  let (bound, collected) ← s.bindNamed (s.places.zip values) [] named
  if s.places.length < values.length then
    throw (s.tooMany values.length (bound.filter fun (p, _) => s.named.contains p).length)
  let missing := s.required.filter fun p => !Entries.contains bound p
  if !missing.isEmpty then
    throw (s.fault ("missing " ++ countOf missing.length "required positional argument" ++ ": " ++
      enumerate missing))
  let defaults := (s.optional ++ s.named).filter fun (p, _) => !Entries.contains bound p
  return (bound ++ defaults, collected)

end Signature

end ChatPipeline
