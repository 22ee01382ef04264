import ChatPipeline.Proofs.Template.Positions

/-!
# Texts made of literals and variables

A text can be written segment by segment: of a literal every brace twice and everything else once,
of a variable its name in braces.  Reading the text gives the segments back, whatever stands next to
what (`pieces_markup`), so rendering it puts the literals and the values side by side.  A value is
not read again, whatever braces it holds.  The one name that is written so and not read back starts
with a number too large for a position.
-/

namespace ChatPipeline.Template

open ChatPipeline.Text

/-! ## Segments -/

inductive Segment where
  | literal (text : String)
  | named (name : String)
  deriving DecidableEq, Repr

def doubled (cs : List Char) : List Char :=
  cs.flatMap fun c => if c = '{' ∨ c = '}' then [c, c] else [c]

namespace Segment

def markup : Segment → List Char
  | .literal text => doubled text.toList
  | .named name => '{' :: (name.toList ++ ['}'])

def read : Segment → List Piece
  | .literal text => text.toList.map .literal
  | .named name => [.field { name := name.toList }]

def shown (value : String → String) : Segment → String
  | .literal text => text
  | .named name => value name

def name? : Segment → Option String
  | .literal _ => none
  | .named name => some name

end Segment

def markup (segments : List Segment) : String := String.ofList (segments.flatMap Segment.markup)

def fieldMarks : List Char := ['.', '[', ']', '{', '}', ':', '!']

def Unmarked (name : List Char) : Prop := ∀ c ∈ name, c ∉ fieldMarks

instance : DecidablePred Unmarked := fun name =>
  decidable_of_iff (name.all (· ∉ fieldMarks)) (by simp [Unmarked])

/-- A name that can be written in braces and is then looked up as it stands. -/
structure IsVariable (name : String) : Prop where
  nonempty : name ≠ ""
  unmarked : Unmarked name.toList
  notNumeral : ¬ IsNumeral name
  inRange : leadingNumber name.toList ≤ maxNumber

/-! ## Reading -/

theorem nameSpan_of_unmarked {name : List Char} (h : Unmarked name)
    (rest : List Char) : nameSpan false (name ++ '}' :: rest) = .ok (name, '}', rest) := by
  induction name with
  | nil => rfl
  | cons c name ih =>
      obtain ⟨hc, hname⟩ := List.forall_mem_cons.1 h
      simp only [fieldMarks, List.mem_cons, List.not_mem_nil, or_false, not_or] at hc
      have hbracket : (c == '[') = false := by simp [hc]
      simp [nameSpan, hc, hbracket, ih hname, Except.map]

private theorem rootName_of_unmarked {name : List Char} (h : Unmarked name) :
    rootName name = name := by
  rw [rootName_eq_takeWhile, List.takeWhile_eq_self_iff]
  intro c hc
  have hmark := h c hc
  simp only [fieldMarks, List.mem_cons, not_or] at hmark
  simp [hmark]

private theorem pieces_cons_cons_of_brace {c : Char} (hbrace : c = '{' ∨ c = '}')
    (rest : List Char) :
    pieces (c :: c :: rest) = (.literal c :: (pieces rest).1, (pieces rest).2) := by
  rw [pieces.eq_def]
  simp [hbrace]

private theorem pieces_doubled (cs rest : List Char) :
    pieces (doubled cs ++ rest) = (cs.map .literal ++ (pieces rest).1, (pieces rest).2) := by
  induction cs with
  | nil => rfl
  | cons c cs ih =>
      by_cases hbrace : c = '{' ∨ c = '}'
      · have hdoubled : doubled (c :: cs) ++ rest = c :: c :: (doubled cs ++ rest) := by
          simp [doubled, hbrace]
        rw [hdoubled, pieces_cons_cons_of_brace hbrace, ih]
        rfl
      · have hsingle : doubled (c :: cs) ++ rest = c :: (doubled cs ++ rest) := by
          simp [doubled, hbrace]
        rw [not_or] at hbrace
        rw [hsingle, pieces_cons_of_plain hbrace.1 hbrace.2, ih]
        rfl

private theorem pieces_named {name : List Char} (hne : name ≠ []) (h : Unmarked name)
    (rest : List Char) :
    pieces ('{' :: (name ++ '}' :: rest)) =
      (.field { name } :: (pieces rest).1, (pieces rest).2) := by
  obtain ⟨c, tail, rfl⟩ := List.exists_cons_of_ne_nil hne
  have hread : readField (c :: (tail ++ '}' :: rest)) = .ok ({ name := c :: tail }, rest) := by
    rw [← List.cons_append, readField, nameSpan_of_unmarked h]
    rfl
  have hc := h c (List.mem_cons_self ..)
  simp only [fieldMarks, List.mem_cons, not_or] at hc
  rw [pieces.eq_def]
  simp only [List.cons_append, true_or, if_true, hc, if_false, Char.reduceEq]
  split
  case h_1 fault hfault => simp [hread] at hfault
  case h_2 f after hfield =>
    rw [hread] at hfield
    cases hfield
    rfl

private theorem pieces_markup {segments : List Segment}
    (h : ∀ name, .named name ∈ segments → name ≠ "" ∧ Unmarked name.toList) :
    pieces (markup segments).toList = (segments.flatMap Segment.read, none) := by
  rw [markup, String.toList_ofList]
  induction segments with
  | nil => exact pieces_nil
  | cons segment segments ih =>
      have hrest := ih fun name hname => h name (List.mem_cons_of_mem _ hname)
      cases segment with
      | literal text =>
          rw [List.flatMap_cons, Segment.markup, pieces_doubled, hrest]
          rfl
      | named name =>
          obtain ⟨hne, hunmarked⟩ := h name (List.mem_cons_self ..)
          have hwritten : Segment.markup (.named name) ++ segments.flatMap Segment.markup =
              '{' :: (name.toList ++ '}' :: segments.flatMap Segment.markup) := by
            simp [Segment.markup]
          rw [List.flatMap_cons, hwritten, pieces_named (by simpa using hne) hunmarked, hrest]
          rfl

/-! ## Variables -/

theorem addNames_eq_eraseDups {names : List String} (h : names.eraseDups = names)
    (found : List String) : addNames names found = (names ++ found).eraseDups := by
  induction found generalizing names with
  | nil => rw [addNames_nil, List.append_nil, h]
  | cons n found ih =>
      rw [addNames_cons]
      by_cases hn : n ∈ names
      · rw [if_pos hn, ih h, List.eraseDups_append, List.eraseDups_append]
        simp [List.removeAll, hn]
      · have hadded : (names ++ [n]).eraseDups = names ++ [n] := by
          simp [List.eraseDups_append, List.eraseDups_cons, List.removeAll, h, hn]
        rw [if_neg hn, ih hadded, List.append_assoc]
        rfl

private theorem addNames_nil_eq_eraseDups (found : List String) :
    addNames [] found = found.eraseDups :=
  addNames_eq_eraseDups rfl found

private theorem names_read {ofSpec : List Char → List String} (hnil : ofSpec [] = [])
    {segments : List Segment} (h : ∀ name, .named name ∈ segments → IsVariable name) :
    (segments.flatMap Segment.read).flatMap (Piece.names ofSpec) =
      segments.filterMap Segment.name? := by
  induction segments with
  | nil => rfl
  | cons segment segments ih =>
      have hrest := ih fun name hname => h name (List.mem_cons_of_mem _ hname)
      rw [List.flatMap_cons, List.flatMap_append, hrest, List.filterMap_cons]
      cases segment with
      | literal text => simp [Segment.read, Segment.name?, Piece.names, List.flatMap_map]
      | named name =>
          have hroot := rootName_of_unmarked (h name (List.mem_cons_self ..)).unmarked
          rw [Segment.read, List.flatMap_singleton, Piece.names, hnil, hroot, String.ofList_toList]
          rfl

private theorem mem_read {segments : List Segment} {f : Field}
    (hf : Piece.field f ∈ segments.flatMap Segment.read) :
    ∃ name, .named name ∈ segments ∧ f = { name := name.toList } := by
  obtain ⟨segment, hsegment, hpiece⟩ := List.mem_flatMap.1 hf
  cases segment with
  | literal text => simp [Segment.read] at hpiece
  | named name =>
      refine ⟨name, hsegment, ?_⟩
      simpa [Segment.read] using hpiece

private theorem mem_names {segments : List Segment} {name : String} :
    name ∈ segments.filterMap Segment.name? ↔ .named name ∈ segments := by
  rw [List.mem_filterMap]
  constructor
  · rintro ⟨_ | other, hsegment, h⟩
    · cases h
    · cases h
      exact hsegment
  · intro h
    exact ⟨_, h, rfl⟩

private theorem variableNames_markup {segments : List Segment}
    (hnames : ∀ name, .named name ∈ segments → IsVariable name) :
    variableNames (markup segments) = .ok (segments.filterMap Segment.name?).eraseDups := by
  have hpieces := pieces_markup fun name hname =>
    ⟨(hnames name hname).nonempty, (hnames name hname).unmarked⟩
  refine variableNames_eq_ok_iff.2 ⟨?_, ?_⟩
  · rw [Readable, hpieces]
    refine ⟨rfl, fun f hf => ?_⟩
    obtain ⟨name, hname, rfl⟩ := mem_read hf
    rw [rootName_of_unmarked (hnames name hname).unmarked]
    exact ⟨by simpa using (hnames name hname).nonempty, readable_of_plain pieces_nil _⟩
  · rw [mentioned, hpieces, names_read (mentioned_of_plain pieces_nil _) hnames,
      addNames_nil_eq_eraseDups]

/-! ## Values -/

theorem position?_of_isVariable {name : String} (h : IsVariable name) :
    position? name.toList = .ok none := by
  have hnumeral : ¬ (name.toList ≠ [] ∧ name.toList.all isDigit) := by
    rw [List.all_eq_true, ← isNumeral_ofList, String.ofList_toList]
    exact h.notNumeral
  rw [position?_eq, if_neg (Nat.not_lt.2 h.inRange), if_neg hnumeral]

private theorem expandField_named {name value : String} (hname : IsVariable name) {values : Entries}
    (hvalue : values.get? name = some (.text value)) (ofSpec : List Char → Outcome String) :
    expandField ofSpec values { name := name.toList } = .ok value := by
  have hroot := rootName_of_unmarked hname.unmarked
  have hfound : fieldValue values name.toList = .ok (.text value) := by
    refine fieldValue_eq_ok_iff.2 ⟨?_, ?_, .text value, ?_, ?_⟩
    · rw [hroot, position?_of_isVariable hname]
    · rw [hroot]
      simpa using hname.nonempty
    · rw [hroot, String.ofList_toList, hvalue]
    · rw [hroot, List.drop_length]
      rfl
  exact expandField_eq_ok_iff.2 ⟨.text value, hfound, .text value, rfl, "", rfl, rfl⟩

private theorem expandPieces_read {ofField : Field → Outcome String} {value : String → String}
    {segments : List Segment}
    (h : ∀ name, .named name ∈ segments → ofField { name := name.toList } = .ok (value name)) :
    expandPieces ofField none (segments.flatMap Segment.read) =
      .ok (segments.flatMap fun segment => (segment.shown value).toList) := by
  induction segments with
  | nil => rfl
  | cons segment segments ih =>
      have hrest := ih fun name hname => h name (List.mem_cons_of_mem _ hname)
      rw [List.flatMap_cons, List.flatMap_cons]
      cases segment with
      | literal text =>
          rw [Segment.read, expandPieces_literals, hrest]
          rfl
      | named name =>
          rw [Segment.read, List.singleton_append, expandPieces, h name (List.mem_cons_self ..), hrest]
          rfl

/-! ## Rendering -/

theorem expand_markup (segments : List Segment) (value : String → String) (values : Entries)
    (hnames : ∀ name, .named name ∈ segments → IsVariable name)
    (hvalues : ∀ name, .named name ∈ segments → values.get? name = some (.text (value name))) :
    expand values (markup segments) = .ok (String.join (segments.map (Segment.shown value))) := by
  have hpieces := pieces_markup fun name hname =>
    ⟨(hnames name hname).nonempty, (hnames name hname).unmarked⟩
  rw [expand, expandWithin_succ, hpieces, expandPieces_read fun name hname =>
    expandField_named (hnames name hname) (hvalues name hname) _]
  simp [Except.map, String.ext_iff, List.flatMap_map]

/-- The rendering of a text made of segments is the literals and the values side by side, and its
variables are the names in order of first use. -/
theorem render_markup (segments : List Segment) (value : String → String) (values : Entries)
    (hnames : ∀ name, .named name ∈ segments → IsVariable name)
    (hvalues : ∀ name, .named name ∈ segments → values.get? name = some (.text (value name))) :
    render values (markup segments) = .ok (String.join (segments.map (Segment.shown value))) ∧
      variableNames (markup segments) = .ok (segments.filterMap Segment.name?).eraseDups := by
  have hvariables := variableNames_markup hnames
  have hpresent : firstMissing? values (segments.filterMap Segment.name?).eraseDups = none := by
    unfold firstMissing?
    rw [List.find?_eq_none]
    intro n hn
    simp [Entries.contains, hvalues n (mem_names.1 (List.mem_eraseDups.1 hn))]
  exact ⟨(render_of_none_missing hvariables hpresent).trans
    (expand_markup segments value values hnames hvalues), hvariables⟩

/-! ### Braces next to a field -/

theorem city_isVariable : IsVariable "city" where
  nonempty := by decide
  unmarked := by decide
  notNumeral := by decide
  inRange := by decide

def cityInBraces : List Segment :=
  [.literal "\x7b", .named "city", .literal "\x7d or ", .named "city"]

/-- The braces of the literals stand once, and those of the value stay as they are. -/
theorem render_cityInBraces :
    markup cityInBraces = "\x7b\x7b\x7bcity\x7d\x7d\x7d or \x7bcity\x7d" ∧ IsVariable "city" ∧
      render [("city", .text "\x7bx\x7d")] (markup cityInBraces) =
        .ok "\x7b\x7bx\x7d\x7d or \x7bx\x7d" ∧
      variableNames (markup cityInBraces) = .ok ["city"] := by
  have hnamed : ∀ name, .named name ∈ cityInBraces → name = "city" := by
    simp [cityInBraces]
  have h := render_markup cityInBraces (fun _ => "\x7bx\x7d") [("city", .text "\x7bx\x7d")]
    (fun name hname => hnamed name hname ▸ city_isVariable)
    (fun name hname => by rw [hnamed name hname]; rfl)
  refine ⟨by decide, city_isVariable, ?_, ?_⟩
  · exact h.1
  · exact h.2

/-! ### A name that starts with a large number -/

def overlong : String := "9223372036854775808x"

private theorem pieces_overlong :
    pieces (markup [.named overlong]).toList = ([.field { name := overlong.toList }], none) := by
  refine pieces_markup fun name hname => ?_
  cases List.mem_singleton.1 hname
  decide

/-- The name is no number and holds no mark, and still its field cannot be filled in. -/
theorem overlong_refused :
    overlong ≠ "" ∧ Unmarked overlong.toList ∧ ¬ IsNumeral overlong ∧
      markup [.named overlong] = "\x7b9223372036854775808x\x7d" ∧
      render [(overlong, .text "v")] (markup [.named overlong]) =
        .error (valueFault "Too many decimal digits in format string") := by
  have hnames : variableNames (markup [.named overlong]) = .ok [overlong] := by cbv
  refine ⟨by decide, by decide, by decide, by decide, ?_⟩
  rw [render_of_pieces hnames rfl pieces_overlong]
  rfl

end ChatPipeline.Template
