/-!
# Template markup

A template text is literal characters and replacement fields.  A doubled brace stands for itself; a
field is `{name}`, `{name!conversion}`, `{name:spec}` or `{name!conversion:spec}`.  Within a name, a
bracket hides every character up to its closing bracket; within a spec, braces nest.

`pieces` reads a text from the left.  At the first malformed place it stops with a fault, and the
pieces before that place are still given: whoever reads them meets their own errors first.
-/

namespace ChatPipeline.Template

structure Field where
  name : List Char
  conversion : Option Char := none
  spec : List Char := []
  deriving DecidableEq, Repr

inductive Piece where
  | literal (c : Char)
  | field (f : Field)
  deriving DecidableEq, Repr

inductive MarkupFault where
  | loneOpen
  | loneClose
  | openInName
  | unclosedName
  | unclosedSpec
  | noConversion
  | noColon
  deriving DecidableEq, Repr

def MarkupFault.message : MarkupFault → String
  | .loneOpen => "Single '\x7b' encountered in format string"
  | .loneClose => "Single '\x7d' encountered in format string"
  | .openInName => "unexpected '\x7b' in field name"
  | .unclosedName => "expected '\x7d' before end of string"
  | .unclosedSpec => "unmatched '\x7b' in format spec"
  | .noConversion => "end of string while looking for conversion specifier"
  | .noColon => "expected ':' after conversion specifier"

/-! ## Fields -/

def nameSpan (bracketed : Bool) : List Char → Except MarkupFault (List Char × Char × List Char)
  | [] => .error .unclosedName
  | c :: rest =>
    if bracketed then (nameSpan (c != ']') rest).map fun (n, e, r) => (c :: n, e, r)
    else if c = '{' then .error .openInName
    else if c = '}' ∨ c = ':' ∨ c = '!' then .ok ([], c, rest)
    else (nameSpan (c == '[') rest).map fun (n, e, r) => (c :: n, e, r)

/-- The spec up to the brace that closes the field, at a depth of open braces. -/
def specSpan (depth : Nat) : List Char → Except MarkupFault (List Char × List Char)
  | [] => .error .unclosedSpec
  | c :: rest =>
    if c = '}' then
      match depth with
      | 0 => .ok ([], rest)
      | inner + 1 => (specSpan inner rest).map fun (s, r) => (c :: s, r)
    else (specSpan (if c = '{' then depth + 1 else depth) rest).map fun (s, r) => (c :: s, r)

def readSpec (name : List Char) (conversion : Option Char) (cs : List Char) :
    Except MarkupFault (Field × List Char) :=
  (specSpan 0 cs).map fun (spec, rest) => ({ name, conversion, spec }, rest)

def readField (cs : List Char) : Except MarkupFault (Field × List Char) :=
  match nameSpan false cs with
  | .error fault => .error fault
  | .ok (name, stop, rest) =>
    if stop = '}' then .ok ({ name }, rest)
    else if stop = ':' then readSpec name none rest
    else
      match rest with
      | [] => .error .noConversion
      | [_] => .error .unclosedSpec
      | conversion :: '}' :: rest => .ok ({ name, conversion := some conversion }, rest)
      | conversion :: ':' :: rest => readSpec name (some conversion) rest
      | _ => .error .noColon

theorem nameSpan_length {bracketed : Bool} {cs n r : List Char} {e : Char}
    (h : nameSpan bracketed cs = .ok (n, e, r)) : n.length + r.length < cs.length := by
  induction cs generalizing bracketed n with
  | nil => simp [nameSpan] at h
  | cons c rest ih =>
    have step : ∀ {b : Bool},
        (nameSpan b rest).map (fun (n, e, r) => (c :: n, e, r)) = .ok (n, e, r) →
          n.length + r.length < (c :: rest).length := by
      intro b hb
      cases hs : nameSpan b rest with
      | error fault => simp [hs, Except.map] at hb
      | ok found =>
        obtain ⟨n', e', r'⟩ := found
        simp only [hs, Except.map, Except.ok.injEq, Prod.mk.injEq] at hb
        obtain ⟨rfl, rfl, rfl⟩ := hb
        have := ih hs
        simp only [List.length_cons]
        omega
    simp only [nameSpan] at h
    split at h
    · exact step h
    · split at h
      · simp at h
      · split at h
        · simp only [Except.ok.injEq, Prod.mk.injEq] at h
          obtain ⟨rfl, -, rfl⟩ := h
          simp
        · exact step h

theorem specSpan_length {depth : Nat} {cs s r : List Char} (h : specSpan depth cs = .ok (s, r)) :
    s.length + r.length < cs.length := by
  induction cs generalizing depth s with
  | nil => simp [specSpan] at h
  | cons c rest ih =>
    have step : ∀ {d : Nat}, (specSpan d rest).map (fun (s, r) => (c :: s, r)) = .ok (s, r) →
        s.length + r.length < (c :: rest).length := by
      intro d hd
      cases hs : specSpan d rest with
      | error fault => simp [hs, Except.map] at hd
      | ok found =>
        obtain ⟨s', r'⟩ := found
        simp only [hs, Except.map, Except.ok.injEq, Prod.mk.injEq] at hd
        obtain ⟨rfl, rfl⟩ := hd
        have := ih hs
        simp only [List.length_cons]
        omega
    simp only [specSpan] at h
    split at h
    · split at h
      · simp only [Except.ok.injEq, Prod.mk.injEq] at h
        obtain ⟨rfl, rfl⟩ := h
        simp
      · exact step h
    · exact step h

theorem readSpec_length {name cs r : List Char} {conversion : Option Char} {f : Field}
    (h : readSpec name conversion cs = .ok (f, r)) : f.spec.length + r.length < cs.length := by
  simp only [readSpec] at h
  cases hs : specSpan 0 cs with
  | error fault => simp [hs, Except.map] at h
  | ok found =>
    simp only [hs, Except.map, Except.ok.injEq, Prod.mk.injEq] at h
    obtain ⟨rfl, rfl⟩ := h
    exact specSpan_length hs

theorem readField_length {cs r : List Char} {f : Field} (h : readField cs = .ok (f, r)) :
    f.spec.length + r.length < cs.length := by
  unfold readField at h
  split at h
  · simp at h
  · rename_i name stop rest hn
    have hlen := nameSpan_length hn
    split at h
    · simp only [Except.ok.injEq, Prod.mk.injEq] at h
      obtain ⟨rfl, rfl⟩ := h
      simp only [List.length_nil]
      omega
    · split at h
      · have := readSpec_length h
        omega
      · split at h
        · simp at h
        · simp at h
        · simp only [Except.ok.injEq, Prod.mk.injEq] at h
          obtain ⟨rfl, rfl⟩ := h
          simp only [List.length_cons, List.length_nil] at hlen ⊢
          omega
        · have := readSpec_length h
          simp only [List.length_cons] at hlen
          omega
        · simp at h

/-! ## Texts -/

/-- The pieces of a text, and the fault at which reading stopped, if it did. -/
def pieces (cs : List Char) : List Piece × Option MarkupFault :=
  match cs with
  | [] => ([], none)
  | c :: rest =>
    if c = '{' ∨ c = '}' then
      match rest with
      | [] => ([], some (if c = '{' then .loneOpen else .loneClose))
      | d :: rest' =>
        if d = c then
          let (ps, fault) := pieces rest'
          (.literal c :: ps, fault)
        else if c = '}' then ([], some .loneClose)
        else
          match _h : readField (d :: rest') with
          | .error fault => ([], some fault)
          | .ok (f, after) =>
            let (ps, fault) := pieces after
            (.field f :: ps, fault)
    else
      let (ps, fault) := pieces rest
      (.literal c :: ps, fault)
termination_by cs.length
decreasing_by
  · simp only [List.length_cons]
    omega
  · have := readField_length _h
    simp only [List.length_cons] at this ⊢
    omega
  · simp

end ChatPipeline.Template
