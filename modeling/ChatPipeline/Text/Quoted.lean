import ChatPipeline.Text.Printable
import ChatPipeline.Text.Digit

/-!
# Quoted text

The quoted form of a text or of a byte string, as it stands inside messages and inside the display
of a container.  A single quote delimits, unless the text holds a single quote and no double quote.
The backslash, the delimiter and every character that is not printable are escaped.
-/

namespace ChatPipeline.Text

/-- Single quotes, unless they would have to be escaped and double quotes would not. -/
def delimiter (cs : List Char) : Char :=
  if cs.contains '\'' && !cs.contains '"' then '"' else '\''

def numericEscape (c : Char) : List Char :=
  let n := c.toNat
  if n < 0x100 then '\\' :: 'x' :: paddedDigits 16 2 n
  else if n < 0x10000 then '\\' :: 'u' :: paddedDigits 16 4 n
  else '\\' :: 'U' :: paddedDigits 16 8 n

def escapeChar (quote c : Char) : List Char :=
  if c = quote ∨ c = '\\' then ['\\', c]
  else if c = '\n' then ['\\', 'n']
  else if c = '\r' then ['\\', 'r']
  else if c = '\t' then ['\\', 't']
  else if isPrintable c then [c]
  else numericEscape c

def quoted (s : String) : String :=
  let cs := s.toList
  let quote := delimiter cs
  String.ofList (quote :: cs.flatMap (escapeChar quote) ++ [quote])

def asciiOnly (s : String) : String :=
  String.ofList (s.toList.flatMap fun c => if c.toNat < 0x80 then [c] else numericEscape c)

def quotedBytes (bytes : List UInt8) : String :=
  let cs := bytes.map fun b => Char.ofNat b.toNat
  let quote := delimiter cs
  let body := cs.flatMap fun c => if c.toNat < 0x7f then escapeChar quote c else numericEscape c
  String.ofList ('b' :: quote :: body ++ [quote])

end ChatPipeline.Text
