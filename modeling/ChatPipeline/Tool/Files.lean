import ChatPipeline.Tool.Function
import ChatPipeline.Files.Search
import ChatPipeline.Text.Lines
import ChatPipeline.Text.ShellWord

/-!
# File tools

Two tools on a place in a file tree: one finds files by a pattern, the other gives the content of a
file.  The finder goes through the whole directory; where that search cannot be had, it expands the
pattern within the directory alone.
-/

namespace ChatPipeline

open ChatPipeline.Text ChatPipeline.Validation ChatPipeline.Files

namespace FileTools

/-! ## Commands -/

def refuseNull (s : String) : Outcome Unit :=
  if s.toList.contains '\x00' then .error (.fault .value "embedded null byte") else .ok ()

def reportedPaths (paths : List String) : List String :=
  let report := String.join (paths.map (· ++ "\n"))
  (lines report).filter fun line => !line.isEmpty

def findFiles (p : Place) (searchWorks : Bool) (directory pattern : String) :
    Outcome (List String) := do
  if !p.exists? directory then
    throw (.fault .missingFile ("directory does not exist: " ++ directory))
  refuseNull pattern
  match if searchWorks then p.search directory pattern else none with
  | some paths => return reportedPaths paths
  | none => return p.expand (patternIn directory pattern)

def listingOptions : List Char := ['A', 'b', 'e', 'E', 'n', 's', 't', 'T', 'u', 'v']

def longListingOptions : List String :=
  ["--show-all", "--number-nonblank", "--show-ends", "--number", "--squeeze-blank", "--show-tabs",
    "--show-nonprinting", "--help", "--version"]

def refusedOption (text : String) : String :=
  "cat: " ++ text ++ "\nTry 'cat --help' for more information."

def optionFault? (path : String) : Option String :=
  if path.startsWith "--" then
    if longListingOptions.any (·.startsWith path) || path == "--" then none
    else some (refusedOption ("unrecognized option '" ++ path ++ "'"))
  else
    match (path.toList.drop 1).find? fun c => !listingOptions.contains c with
    | some c => some (refusedOption ("invalid option -- '" ++ c.toString ++ "'"))
    | none => none

/-- The content of a file, or what is said instead.  An option in the place of a path lists nothing.
-/
def listing (p : Place) (path : String) : Except String (List UInt8) :=
  if path.startsWith "-" then
    match optionFault? path with
    | some fault => .error fault
    | none => .ok []
  else
    let fault (text : String) := "cat: " ++ shellWord path ++ ": " ++ text
    match p.find path with
    | .error f => .error (fault f.message)
    | .ok q => match q.here with
      | .file octets => .ok octets
      | .directory _ => .error (fault "Is a directory")

def readFile (p : Place) (path : String) : Outcome String := do
  refuseNull path
  match listing p path with
  | .ok octets => return decodeLossy octets
  | .error text => throw (.commandFailed ("cat " ++ path) 1 text)

/-! ## Tools -/

def textField (name : String) (description : String) : FieldInfo × Shape :=
  ({ name, description := some description }, .text)

def findRequest : RecordType where
  name := "FindFileRequest"
  fields := [textField "directory" "Directory to search in",
    textField "pattern" "File name pattern, e.g. *.py or test*.py"]

def catRequest : RecordType where
  name := "CatFileRequest"
  fields := [textField "file_path" "Path of the file to read"]

def textOf (request : Value) (name : String) : String :=
  ((request.attribute? name).bind Value.text?).getD ""

def findFile (p : Place) (searchWorks : Bool) : Outcome (Tool σ) :=
  Tool.ofFunction "find_file"
    "Search a directory for files whose name matches a pattern; returns the matching paths" findRequest
    (.coroutine fun request => do
      let paths ← findFiles p searchWorks (textOf request "directory") (textOf request "pattern")
      return .record "FindFileResult" [("files", .list (paths.map .text))] [])

def catFile (p : Place) : Outcome (Tool σ) :=
  Tool.ofFunction "cat_file" "Read a file and return its contents" catRequest
    (.coroutine fun request => do
      let content ← readFile p (textOf request "file_path")
      return .record "CatFileResult" [("content", .text content)] [])

end FileTools

end ChatPipeline
