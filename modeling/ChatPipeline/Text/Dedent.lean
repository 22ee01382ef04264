import ChatPipeline.Text.Blank

/-!
# Indented prose

A description that is written inside an indented block: tabs become blanks, the indentation that all
lines but the first share is taken off, and empty lines at both ends are dropped.
-/

namespace ChatPipeline.Text

def expandTabsFrom (column : Nat) : List Char → List Char
  | [] => []
  | '\t' :: rest =>
    let n := 8 - column % 8
    List.replicate n ' ' ++ expandTabsFrom (column + n) rest
  | c :: rest => c :: expandTabsFrom (if c = '\n' ∨ c = '\r' then 0 else column + 1) rest

def expandTabs (cs : List Char) : List Char := expandTabsFrom 0 cs

def splitAtChar (sep : Char) (cs : List Char) : List (List Char) :=
  match cs with
  | [] => [[]]
  | c :: rest =>
    match splitAtChar sep rest with
    | [] => [[c]]
    | first :: others => if c = sep then [] :: first :: others else (c :: first) :: others

def indentation (line : List Char) : Option Nat :=
  let content := line.dropWhile isBlank
  if content.isEmpty then none else some (line.length - content.length)

def dropEmptyEnds (lines : List (List Char)) : List (List Char) :=
  ((lines.reverse.dropWhile List.isEmpty).reverse).dropWhile List.isEmpty

def dedent (s : String) : String :=
  match splitAtChar '\n' (expandTabs s.toList) with
  | [] => ""
  | first :: rest =>
    let rest := match (rest.filterMap indentation).min? with
      | some margin => rest.map (·.drop margin)
      | none => rest
    let lines := dropEmptyEnds (first.dropWhile isBlank :: rest)
    "\n".intercalate (lines.map String.ofList)

end ChatPipeline.Text
