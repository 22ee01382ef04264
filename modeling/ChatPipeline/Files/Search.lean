import ChatPipeline.Files.Tree
import ChatPipeline.Files.Pattern

/-!
# Searching a tree

Two ways to find files by a pattern.  `search` goes through a directory and everything below it and
looks at the name of each file.  `expand` takes directory and pattern as one path whose parts may
all be patterns; it stays at the level that the path names, and a pattern finds names that start
with a point only if it starts with one itself.
-/

namespace ChatPipeline.Files

open ChatPipeline.Text

/-! ## Going down -/

mutual

/-- The paths of the files of a tree whose name passes a test; `path` and `name` are its own. -/
def Tree.filesWhere (test : String → Bool) (path name : String) : Tree → List String
  | .file _ => if test name then [path] else []
  | .directory entries => filesIn test path entries

def filesIn (test : String → Bool) (path : String) : List (String × Tree) → List String
  | [] => []
  | (name, t) :: rest => t.filesWhere test (below path name) name ++ filesIn test path rest

end

def baseName (path : String) : String := ((names path).getLast?).getD ""

def Place.filesBelow (p : Place) (test : String → Bool) (path : String) : List String :=
  match p.find? path with
  | some t => t.filesWhere test path (baseName path)
  | none => []

/-- A search takes a path that looks like one of its own options for one, and fails. -/
def isTakenForOption (path : String) : Bool :=
  (path.startsWith "-" && path != "-") || path == "("

/-- The files below a directory whose name matches a pattern, octet by octet; nothing if the search
fails.  An exclamation mark in the place of the directory negates the pattern. -/
def Place.search (p : Place) (directory pattern : String) : Option (List String) :=
  if isTakenForOption directory then none
  else if directory == "!" then some (p.filesBelow (fun name => !matchesOctets pattern name) ".")
  else some (p.filesBelow (matchesOctets pattern) directory)

/-! ## Path patterns -/

/-- The part of a path up to the last slash, without slashes at its end, and the part after it. -/
def splitLast (path : List Char) : List Char × List Char :=
  let base := (path.reverse.takeWhile (· != '/')).reverse
  let head := path.take (path.length - base.length)
  if head.all (· == '/') then (head, base) else ((head.reverse.dropWhile (· == '/')).reverse, base)

def isHidden (name : List Char) : Bool := name.head? == some '.'

def Place.namesLike (p : Place) (directory pattern : List Char) (directoriesOnly : Bool) :
    List (List Char) :=
  let path := if directory.isEmpty then "." else String.ofList directory
  let entries := ((p.find? path).map Tree.entries).getD []
  let candidates := entries.filter fun (name, t) =>
    (!directoriesOnly || !t.isFile) && (isHidden pattern || !isHidden name.toList)
  (candidates.map Prod.fst).filter (matchesCharacters (String.ofList pattern)) |>.map String.toList

def Place.nameIn (p : Place) (directory name : List Char) : List (List Char) :=
  let found := if name.isEmpty then p.isDirectory (String.ofList directory)
    else p.exists? (below (String.ofList directory) (String.ofList name))
  if found then [name] else []

def Place.expandWithin (p : Place) : Nat → Bool → List Char → List (List Char)
  | 0, _, _ => []
  | fuel + 1, directoriesOnly, path =>
    let (directory, base) := splitLast path
    if !isPattern path then
      let found := if base.isEmpty then p.isDirectory (String.ofList directory)
        else p.exists? (String.ofList path)
      if found then [path] else []
    else if directory.isEmpty then p.namesLike [] base directoriesOnly
    else
      let directories := if directory ≠ path ∧ isPattern directory then p.expandWithin fuel true directory
        else [directory]
      directories.flatMap fun d =>
        let found := if isPattern base then p.namesLike d base directoriesOnly else p.nameIn d base
        found.map fun name => (below (String.ofList d) (String.ofList name)).toList

/-- The files that a path pattern stands for, in the order of their paths. -/
def Place.expand (p : Place) (pattern : String) : List String :=
  let found := (p.expandWithin (pattern.length + 1) false pattern.toList).map String.ofList
  (found.filter p.isFile).mergeSort fun a b => decide (a ≤ b)

def patternIn (directory pattern : String) : String :=
  if pattern.startsWith "/" then pattern else below directory pattern

end ChatPipeline.Files
