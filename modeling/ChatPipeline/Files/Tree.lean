import ChatPipeline.Text.Split
import ChatPipeline.Text.Bytes
import ChatPipeline.Table

/-!
# File trees

A tree of directories and files, and the places in it.  A path leads from one place to another, one
name after the other, and a path that starts with a slash leads there from the root.  `..` leads
back, and at the root nowhere.
-/

namespace ChatPipeline.Files

open ChatPipeline.Text

inductive Tree where
  | file (octets : List UInt8)
  | directory (entries : List (String × Tree))
  deriving Inhabited

namespace Tree

def empty : Tree := .directory []

def isFile : Tree → Bool
  | .file _ => true
  | .directory _ => false

def entries : Tree → List (String × Tree)
  | .file _ => []
  | .directory entries => entries

def entry? (t : Tree) (name : String) : Option Tree := t.entries.lookup name

/-- Puts something at the end of a list of names; directories on the way are made, and one that is
there already is kept. -/
def put : Tree → List String → Tree → Tree
  | t, [], leaf => match t, leaf with
    | .directory entries, .directory [] => .directory entries
    | _, _ => leaf
  | t, name :: names, leaf =>
    .directory (Table.put name (put ((t.entry? name).getD empty) names leaf) t.entries)

end Tree

/-! ## Paths -/

inductive PathFault where
  | missing
  | notDirectory
  | nameTooLong
  deriving DecidableEq, Repr

def PathFault.message : PathFault → String
  | .missing => "No such file or directory"
  | .notDirectory => "Not a directory"
  | .nameTooLong => "File name too long"

/-- The names of a path, among them empty ones where slashes follow each other. -/
def names (path : String) : List String := (split '/' path.toList).map String.ofList

def below (path name : String) : String :=
  if path.isEmpty || path.endsWith "/" then path ++ name else path ++ "/" ++ name

def maxName : Nat := 255

def maxPath : Nat := 4095

/-! ## Places -/

/-- What is at a place, and the directories that lead there, the nearest first and the root last. -/
structure Place where
  here : Tree
  above : List Tree := []

namespace Place

def beneath (name : String) (t : Tree) : Place := { here := t, above := [.directory [(name, t)]] }

def root (p : Place) : Place := { here := (p.above.getLast?).getD p.here }

def step (p : Place) (name : String) : Except PathFault Place :=
  match p.here with
  | .file _ => .error .notDirectory
  | .directory entries =>
    if name.isEmpty || name == "." then .ok p
    else if name == ".." then
      match p.above with
      | parent :: rest => .ok ⟨parent, rest⟩
      | [] => .ok p
    else if maxName < name.utf8ByteSize then .error .nameTooLong
    else
      match entries.lookup name with
      | some t => .ok ⟨t, p.here :: p.above⟩
      | none => .error .missing

def origin (p : Place) (path : String) : Place := if path.startsWith "/" then p.root else p

def find (p : Place) (path : String) : Except PathFault Place :=
  if path.isEmpty then .error .missing
  else if maxPath < path.utf8ByteSize then .error .nameTooLong
  else (names path).foldlM step (p.origin path)

def find? (p : Place) (path : String) : Option Tree :=
  match p.find path with
  | .ok q => some q.here
  | .error _ => none

def exists? (p : Place) (path : String) : Bool := (p.find? path).isSome

def isFile (p : Place) (path : String) : Bool := (p.find? path).any Tree.isFile

def isDirectory (p : Place) (path : String) : Bool := (p.find? path).any fun t => !t.isFile

def read? (p : Place) (path : String) : Option (List UInt8) :=
  match p.find? path with
  | some (.file octets) => some octets
  | _ => none

def nearestIn (name : String) : List Tree → Option (List UInt8)
  | [] => none
  | t :: rest => match t.entry? name with
    | some (.file octets) => some octets
    | _ => nearestIn name rest

def nearest? (p : Place) (name : String) : Option (List UInt8) := nearestIn name (p.here :: p.above)

end Place

end ChatPipeline.Files
