import ChatPipeline.Web.Escape
import ChatPipeline.Text.Split
import ChatPipeline.Failure
import ChatPipeline.Decimal.Reading

/-!
# Web addresses

An address is taken apart into scheme, authority, path, query and fragment, and brought into normal
form on the way: the host in lower case, no port where it is the usual one, no `.` and `..` in the
path, and everything escaped that has to be.
-/

namespace ChatPipeline.Web

open ChatPipeline.Text

structure Address where
  scheme : String := ""
  user : String := ""
  host : String := ""
  port : Option Int := none
  path : String := ""
  query : Option String := none
  fragment : Option String := none
  deriving DecidableEq, Repr

/-! ## Path segments -/

/-- Takes one more segment; `..` takes the last one away, but never the empty one in front. -/
def pushSegment (segments : List (List Char)) (s : List Char) : List (List Char) :=
  if s = ['.'] then segments
  else if s = ['.', '.'] then (if segments = [[]] then segments else segments.dropLast)
  else segments ++ [s]

def withoutDots (path : List Char) : List Char := join '/' ((split '/' path).foldl pushSegment [])

/-! ## What may stand where -/

def isVisible (c : Char) : Bool := 0x20 ≤ c.toNat && c.toNat < 0x7f

def isKeptInFragment (c : Char) : Bool :=
  isVisible c && !([' ', '"', '<', '>', Char.ofNat 0x60].contains c)

def isKeptInQuery (c : Char) : Bool := isVisible c && !([' ', '"', '#', '<', '>'].contains c)

def isKeptInPath (c : Char) : Bool :=
  isKeptInQuery c && !([Char.ofNat 0x60, '?', '\x7b', '\x7d'].contains c)

/-! ## Taking apart -/

def maxLength : Nat := 65536

def invalid (text : String) : Failure := .fault (.other "InvalidURL") text

def firstControl? : Nat → List Char → Option (Char × Nat)
  | _, [] => none
  | i, c :: rest =>
    if c.toNat < 0x20 || c.toNat == 0x7f then some (c, i) else firstControl? (i + 1) rest

def isSchemeChar (c : Char) : Bool := c.isAlphanum || ['+', '.', '-'].contains c

def takeScheme (cs : List Char) : List Char × List Char :=
  match cs.dropWhile isSchemeChar, cs.head? with
  | ':' :: rest, some c =>
    if c.isAlpha || c == ':' then (cs.takeWhile isSchemeChar, rest) else ([], cs)
  | _, _ => ([], cs)

def takeAuthority (cs : List Char) : List Char × List Char :=
  match cs with
  | '/' :: '/' :: rest => rest.span fun c => !(['/', '?', '#'].contains c)
  | _ => ([], cs)

def usualPort? (scheme : String) : Option Int :=
  [("ftp", 21), ("http", 80), ("https", 443), ("ws", 80), ("wss", 443)].lookup scheme

def readPort (scheme : String) (cs : List Char) : Outcome (Option Int) :=
  if cs.isEmpty then .ok none
  else
    match Decimal.anyScriptInteger (String.ofList cs) with
    | some n => .ok (if usualPort? scheme = some n then none else some n)
    | none => .error (invalid ("Invalid port: " ++ quoted (String.ofList cs)))

def lower (cs : List Char) : String := String.ofList (cs.map Char.toLower)

def takeUser (cs : List Char) : List Char × List Char :=
  let host := (cs.reverse.takeWhile (· != '@')).reverse
  if cs.contains '@' then (cs.take (cs.length - host.length - 1), host) else ([], cs)

def ofParts (scheme : String) (authority path : List Char) (query fragment : Option (List Char)) :
    Outcome Address := do
  let (user, place) := takeUser authority
  let (host, port) := cut ':' place
  let port ← readPort scheme (port.getD [])
  let path := if scheme.isEmpty && authority.isEmpty then path else withoutDots path
  return {
    scheme, user := String.ofList user, host := lower host, port
    path := escape isKeptInPath (String.ofList path)
    query := query.map fun q => escape isKeptInQuery (String.ofList q)
    fragment := fragment.map fun f => escape isKeptInFragment (String.ofList f) }

def Address.parse (s : String) : Outcome Address :=
  let cs := s.toList
  if maxLength < cs.length then .error (invalid "URL too long")
  else
    match firstControl? 0 cs with
    | some (c, i) => .error (invalid ("Invalid non-printable ASCII character in URL, " ++
        quoted c.toString ++ " at position " ++ decimal i ++ "."))
    | none =>
      let (scheme, rest) := takeScheme cs
      let (authority, rest) := takeAuthority rest
      let (front, fragment) := cut '#' rest
      let (path, query) := cut '?' front
      ofParts (lower scheme) authority path query fragment

/-! ## Putting together -/

namespace Address

def authority (a : Address) : String :=
  (if a.user.isEmpty then "" else a.user ++ "@") ++ a.host ++
    (match a.port with
      | some n => ":" ++ signedDecimal n
      | none => "")

def queryText (a : Address) : String :=
  match a.query with
  | some q => "?" ++ q
  | none => ""

def target (a : Address) : String := (if a.path.isEmpty then "/" else a.path) ++ a.queryText

def text (a : Address) : String :=
  (if a.scheme.isEmpty then "" else a.scheme ++ ":") ++
    (if a.authority.isEmpty then "" else "//" ++ a.authority) ++ a.path ++ a.queryText ++
    (match a.fragment with
      | some f => "#" ++ f
      | none => "")

/-- The address under which others are found: what is asked for ends with a slash. -/
def asBase (a : Address) : Address :=
  if a.target.endsWith "/" then a
  else
    match a.query with
    | some q => { a with path := (if a.path.isEmpty then "/" else a.path), query := some (q ++ "/") }
    | none => { a with path := a.path ++ "/" }

end Address

end ChatPipeline.Web
