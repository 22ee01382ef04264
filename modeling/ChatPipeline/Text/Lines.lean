/-!
# Lines

A text cut at line boundaries: the line feed, the carriage return (with a line feed after it taken
as one boundary), the vertical tab, the form feed, the separators `U+001C` to `U+001E`, the
next-line control and the line and paragraph separators.  A boundary at the end opens no further
line.
-/

namespace ChatPipeline.Text

def isLineBoundary (c : Char) : Bool :=
  let n := c.toNat
  (0xa ≤ n && n ≤ 0xd) || (0x1c ≤ n && n ≤ 0x1e) || n == 0x85 || n == 0x2028 || n == 0x2029

def linesFrom (current : List Char) : List Char → List (List Char)
  | [] => if current.isEmpty then [] else [current.reverse]
  | '\r' :: '\n' :: rest => current.reverse :: linesFrom [] rest
  | c :: rest =>
    if isLineBoundary c then current.reverse :: linesFrom [] rest
    else linesFrom (c :: current) rest

def lines (s : String) : List String := (linesFrom [] s.toList).map String.ofList

end ChatPipeline.Text
