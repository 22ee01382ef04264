import ChatPipeline.Value.Display

/-!
# Validation reports

A report lists everything that is wrong with one input: for each issue where it is, what was
expected and what stood there instead.
-/

namespace ChatPipeline.Validation

structure Issue where
  path : List String
  expected : String
  kind : String
  input : Value

structure Report where
  subject : String
  issues : List Issue

/-- Shown inputs take at most fifty octets; of longer ones the two ends are kept. -/
def displayLimit : Nat := 50

def utf8Size : List Char → Nat
  | [] => 0
  | c :: rest => c.utf8Size + utf8Size rest

def takeOctets : Nat → List Char → List Char
  | _, [] => []
  | n, c :: rest => if c.utf8Size ≤ n then c :: takeOctets (n - c.utf8Size) rest else []

def abridge (s : String) : String :=
  let cs := s.toList
  if utf8Size cs ≤ displayLimit then s
  else String.ofList (takeOctets 25 cs ++ ['.', '.', '.'] ++ (takeOctets 24 cs.reverse).reverse)

namespace Issue

def under (step : String) (i : Issue) : Issue := { i with path := step :: i.path }

def text (i : Issue) : String :=
  let place := if i.path.isEmpty then "" else ".".intercalate i.path ++ "\n"
  place ++ "  " ++ i.expected ++ " [type=" ++ i.kind ++ ", input_value=" ++ abridge i.input.shown ++
    ", input_type=" ++ i.input.typeName ++ "]"

end Issue

def Report.text (r : Report) : String :=
  let n := r.issues.length
  let head := Text.decimal n ++ " validation error" ++ (if n == 1 then "" else "s") ++ " for " ++ r.subject
  "\n".intercalate (head :: r.issues.map Issue.text)

end ChatPipeline.Validation
