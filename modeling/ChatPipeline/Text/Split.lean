/-!
# Cutting at a character

A text cut at every occurrence of a separator, and put together again.  There is one part more than
there are separators, so `join` undoes `split`.
-/

namespace ChatPipeline.Text

def pushFront (c : Char) : List (List Char) → List (List Char)
  | [] => [[c]]
  | part :: parts => (c :: part) :: parts

def split (separator : Char) : List Char → List (List Char)
  | [] => [[]]
  | c :: rest => if c = separator then [] :: split separator rest else pushFront c (split separator rest)

def join (separator : Char) : List (List Char) → List Char
  | [] => []
  | [part] => part
  | part :: parts => part ++ separator :: join separator parts

theorem split_ne_nil (separator : Char) (cs : List Char) : split separator cs ≠ [] := by
  induction cs with
  | nil => simp [split]
  | cons c rest ih =>
    simp only [split]
    split
    · simp
    · cases h : split separator rest <;> simp [pushFront]

theorem join_pushFront (separator c : Char) (parts : List (List Char)) :
    join separator (pushFront c parts) = c :: join separator parts := by
  match parts with
  | [] => rfl
  | [_] => rfl
  | _ :: _ :: _ => rfl

@[simp] theorem join_split (separator : Char) (cs : List Char) :
    join separator (split separator cs) = cs := by
  induction cs with
  | nil => rfl
  | cons c rest ih =>
    simp only [split]
    split
    · rename_i h
      cases hs : split separator rest with
      | nil => exact absurd hs (split_ne_nil separator rest)
      | cons part parts =>
        rw [← hs]
        simp only [join, hs, List.nil_append]
        rw [← hs, ih, h]
    · rw [join_pushFront, ih]

def cut (separator : Char) (cs : List Char) : List Char × Option (List Char) :=
  let first := cs.takeWhile (· != separator)
  match cs.drop first.length with
  | _ :: rest => (first, some rest)
  | [] => (first, none)

end ChatPipeline.Text
