import ChatPipeline.Files.Tree
import ChatPipeline.Value.Access

/-!
# Listings

A file tree as data: a list of paths, each with the content of a file, as a text or in hexadecimal
digits, or marked as a directory.
-/

namespace ChatPipeline.Files

open ChatPipeline.Text

def leafOfData (entry : Value) : Tree :=
  if (entry.part "dir").truthy then .empty
  else
    match (entry.part "hex").text? with
    | some hex => .file (octetsOfHex hex.toList)
    | none => .file (encode (entry.partText "content"))

def Tree.addData (t : Tree) (entry : Value) : Tree :=
  t.put (names (entry.partText "path")) (leafOfData entry)

def Tree.ofListing (entries : List Value) : Tree := entries.foldl addData empty

end ChatPipeline.Files
