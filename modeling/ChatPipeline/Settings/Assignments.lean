import ChatPipeline.Text.Blank

/-!
# Assignment files

A file of assignments has one on a line: a name, an equals sign and a value, which may be quoted.  A
name on its own is an assignment without a value.  Lines that are none of this are skipped, comments
start with a hash sign, and `export` may stand in front of a name.
-/

namespace ChatPipeline

open ChatPipeline.Text

structure Assignment where
  name : String
  value : Option String
  deriving DecidableEq, Repr

namespace Assignment

abbrev Reader (α : Type) := List Char → Except (List Char) (α × List Char)

def isNewline (c : Char) : Bool := c == '\n' || c == '\r'

def isLineBlank (c : Char) : Bool := isBlank c && !isNewline c

def skipLineBlank (cs : List Char) : List Char := cs.dropWhile isLineBlank

/-! ## Quoted values -/

/-- The text up to the closing quote, its escapes still in it.  An escaped quote closes a text that
nothing else closes; `fallback` is the last such place. -/
def untilQuote (quote : Char) (read : List Char) (fallback : Option (List Char × List Char)) :
    List Char → Option (List Char × List Char)
  | [] => fallback
  | '\\' :: c :: rest =>
    if c = quote then
      untilQuote quote (c :: '\\' :: read) (some (('\\' :: read).reverse, rest)) rest
    else untilQuote quote ('\\' :: read) fallback (c :: rest)
  | c :: rest =>
    if c = quote then some (read.reverse, rest) else untilQuote quote (c :: read) fallback rest

def singleQuoteEscapes : List (Char × Char) := [('\\', '\\'), ('\'', '\'')]

def doubleQuoteEscapes : List (Char × Char) :=
  [('\\', '\\'), ('\'', '\''), ('"', '"'), ('a', '\x07'), ('b', '\x08'), ('f', '\x0c'), ('n', '\n'),
    ('r', '\r'), ('t', '\t'), ('v', '\x0b')]

def resolveEscapes (table : List (Char × Char)) : List Char → List Char
  | [] => []
  | '\\' :: c :: rest =>
    match table.lookup c with
    | some d => d :: resolveEscapes table rest
    | none => '\\' :: resolveEscapes table (c :: rest)
  | c :: rest => c :: resolveEscapes table rest

def readQuoted (quote : Char) (table : List (Char × Char)) (afterQuote : List Char) :
    Reader String :=
  fun start =>
    match untilQuote quote [] none afterQuote with
    | some (raw, rest) => .ok (String.ofList (resolveEscapes table raw), rest)
    | none => .error start

/-! ## Plain values -/

def beforeComment (cs : List Char) : List Char :=
  match cs with
  | [] => []
  | c :: rest =>
    if isBlank c && (rest.dropWhile isBlank).head? == some '#' then [] else c :: beforeComment rest

def dropBlankEnd (cs : List Char) : List Char := (cs.reverse.dropWhile isBlank).reverse

def readPlain : Reader String := fun cs =>
  let line := cs.takeWhile fun c => !isNewline c
  .ok (String.ofList (dropBlankEnd (beforeComment line)), cs.drop line.length)

def readValue : Reader String := fun cs =>
  match cs with
  | '\'' :: rest => readQuoted '\'' singleQuoteEscapes rest cs
  | '"' :: rest => readQuoted '"' doubleQuoteEscapes rest cs
  | _ => readPlain cs

/-! ## Lines -/

def keyword : List Char := "export".toList

def skipKeyword (cs : List Char) : List Char :=
  if keyword.isPrefixOf cs then
    let rest := cs.drop keyword.length
    if rest.head?.any isLineBlank then skipLineBlank rest else cs
  else cs

def isNameChar (c : Char) : Bool := !(c == '=' || c == '#' || isBlank c)

def readName : Reader (Option String) := fun cs =>
  match cs with
  | '#' :: _ => .ok (none, cs)
  | '\'' :: rest =>
    let name := rest.takeWhile (· != '\'')
    match rest.drop name.length with
    | _ :: after => if name.isEmpty then .error cs else .ok (some (String.ofList name), after)
    | [] => .error cs
  | _ =>
    let name := cs.takeWhile isNameChar
    if name.isEmpty then .error cs else .ok (some (String.ofList name), cs.drop name.length)

def readOptionalValue : Reader (Option String) := fun cs =>
  match cs with
  | '=' :: rest => (readValue (skipLineBlank rest)).map fun (value, rest) => (some value, rest)
  | _ => .ok (none, cs)

def readLineEnd : Reader Unit := fun cs =>
  let start := skipLineBlank cs
  let rest := if start.head? == some '#' then start.dropWhile fun c => !isNewline c else start
  match rest with
  | [] => .ok ((), [])
  | '\r' :: '\n' :: after => .ok ((), after)
  | c :: after => if isNewline c then .ok ((), after) else .error rest

def readLine : Reader (Option Assignment) := fun cs => do
  let (name, rest) ← readName (skipKeyword cs)
  let (value, rest) ← readOptionalValue (skipLineBlank rest)
  let (_, rest) ← readLineEnd rest
  return (name.map fun name => { name, value }, rest)

def skipLine (cs : List Char) : List Char :=
  match cs.dropWhile fun c => !isNewline c with
  | '\r' :: '\n' :: rest => '\n' :: rest
  | _ :: rest => rest
  | [] => []

/-- The assignments of a text, in order; every round reads at least one character. -/
def readAll : Nat → List Char → List Assignment
  | 0, _ => []
  | fuel + 1, cs =>
    match cs.dropWhile isBlank with
    | [] => []
    | start =>
      match readLine start with
      | .ok (found, rest) => found.toList ++ readAll fuel rest
      | .error place => readAll fuel (skipLine place)

def unifyNewlines : List Char → List Char
  | [] => []
  | '\r' :: '\n' :: rest => '\n' :: unifyNewlines rest
  | c :: rest => (if c = '\r' then '\n' else c) :: unifyNewlines rest

def parse (text : String) : List Assignment :=
  let cs := unifyNewlines text.toList
  readAll cs.length cs

end Assignment

end ChatPipeline
