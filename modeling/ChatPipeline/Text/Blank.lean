/-!
# Blank characters

White space as Unicode defines it for line and word boundaries, together with the four separator
control characters `U+001C` to `U+001F`.  `trim` removes it from both ends of a text.
-/

namespace ChatPipeline.Text

def isBlank (c : Char) : Bool :=
  let n := c.toNat
  (0x9 ≤ n && n ≤ 0xd) || (0x1c ≤ n && n ≤ 0x20) || n == 0x85 || n == 0xa0 || n == 0x1680 ||
    (0x2000 ≤ n && n ≤ 0x200a) || n == 0x2028 || n == 0x2029 || n == 0x202f || n == 0x205f ||
    n == 0x3000

/-- The part of blank space that ASCII has, less the separator controls. -/
def isAsciiBlank (c : Char) : Bool :=
  let n := c.toNat
  (0x9 ≤ n && n ≤ 0xd) || n == 0x20

def trimBy (blank : Char → Bool) (cs : List Char) : List Char :=
  ((cs.dropWhile blank).reverse.dropWhile blank).reverse

def trim (s : String) : String := String.ofList (trimBy isBlank s.toList)

def isAllBlank (s : String) : Bool := s.toList.all isBlank

/-! ## Words -/

def words (s : String) : List String :=
  let step (c : Char) (acc : List Char × List (List Char)) : List Char × List (List Char) :=
    if isBlank c then ([], if acc.1.isEmpty then acc.2 else acc.1 :: acc.2) else (c :: acc.1, acc.2)
  let (open_, closed) := s.toList.foldr step ([], [])
  (if open_.isEmpty then closed else open_ :: closed).map String.ofList

end ChatPipeline.Text
