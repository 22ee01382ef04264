import ChatPipeline.Text.Bytes
import ChatPipeline.Text.Digit

/-!
# Words of a shell command

A text as one word of a command line in messages: as it is where it can stand so, else in double
quotes if an apostrophe is the only reason to quote it, else in single quotes.  Octets that cannot
be shown leave the quotes and are escaped in `$'…'`.
-/

namespace ChatPipeline.Text

def isShown (n : Nat) : Bool := 0x20 ≤ n && n < 0x7f

def isPlainInWord (c : Char) : Bool :=
  c.isAlphanum || ['%', '+', ',', '-', '.', '/', ']', '_', '@'].contains c

def isComment (c : Char) : Bool := c == '#' || c == '~'

def isBrace (c : Char) : Bool := c == '\x7b' || c == '\x7d'

def isPlainWord (cs : List Char) : Bool :=
  match cs with
  | [] => false
  | [c] => isPlainInWord c
  | c :: rest => (isPlainInWord c || isBrace c) && rest.all fun d => isPlainInWord d || isComment d || isBrace d

def isPlainQuoted (c : Char) : Bool := isPlainInWord c || [' ', ':', '\''].contains c

def fitsDoubleQuotes (cs : List Char) : Bool :=
  match cs with
  | [] => false
  | c :: rest => cs.contains '\'' && (isPlainQuoted c || isComment c) && rest.all isPlainQuoted

def escapeLetter? (n : Nat) : Option Char :=
  [(0x7, 'a'), (0x8, 'b'), (0xc, 'f'), (0xa, 'n'), (0xd, 'r'), (0x9, 't'), (0xb, 'v')].lookup n

def escapeUnit (n : Nat) : List Char :=
  match escapeLetter? n with
  | some c => ['\\', c]
  | none => '\\' :: paddedDigits 8 3 n

/-- The octets of a text within single quotes; `escaping` tells whether the quotes are those of an
escape. -/
def singleQuoted (escaping : Bool) : List Nat → List Char
  | [] => []
  | n :: rest =>
    if n = '\''.toNat then ['\'', '\\', '\'', '\''] ++ singleQuoted false rest
    else if isShown n then
      (if escaping then ['\'', '\''] else []) ++ Char.ofNat n :: singleQuoted false rest
    else (if escaping then [] else ['\'', '$', '\'']) ++ escapeUnit n ++ singleQuoted true rest

def shellWord (s : String) : String :=
  let cs := s.toList
  if isPlainWord cs then s
  else if fitsDoubleQuotes cs then "\"" ++ s ++ "\""
  else String.ofList ('\'' :: singleQuoted false ((encode s).map UInt8.toNat) ++ ['\''])

end ChatPipeline.Text
