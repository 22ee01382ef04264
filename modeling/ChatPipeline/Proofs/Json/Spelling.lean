import Mathlib.Data.List.Forall2
import ChatPipeline.Proofs.Json.Texts

/-!
# Texts that spell a value

Characters spell a value if the reader takes exactly them off any text that goes on after a value,
and gives the value, or the first container inside it that stands too deep.  A text that spells a
value does so inside arrays and objects too, whichever blanks the notation puts after its marks:
`spells_array` and `spells_object` are about both notations of the writer at once.
-/

namespace ChatPipeline.Json

open ChatPipeline.Text

/-! ## Where a text may stand -/

def Closes (rest : List Char) : Prop := ∀ c ∈ rest.head?, c = ',' ∨ c = ']' ∨ c = '}'

def Opens (cs : List Char) : Prop :=
  ∃ c tail, cs = c :: tail ∧ isSpace c = false ∧ c ∉ [']', '}', '\ufeff']

theorem closes_nil : Closes [] := by
  simp [Closes]

theorem closes_cons {c : Char} (h : c = ',' ∨ c = ']' ∨ c = '}') (rest : List Char) :
    Closes (c :: rest) := by
  simpa [Closes] using h

theorem Opens.skipSpace_append {cs : List Char} (h : Opens cs) (rest : List Char) :
    skipSpace (cs ++ rest) = cs ++ rest := by
  obtain ⟨c, tail, rfl, hspace, -⟩ := h
  simp [skipSpace, hspace]

theorem Opens.append_ne {cs : List Char} (h : Opens cs) {c : Char} (hc : c ∈ [']', '}', '\ufeff'])
    (rest after : List Char) : cs ++ rest ≠ c :: after := by
  obtain ⟨c, tail, rfl, -, hmarks⟩ := h
  intro heq
  cases heq
  exact hmarks hc

theorem skipSpace_blanks {blanks : List Char} (h : ∀ c ∈ blanks, isSpace c = true)
    (rest : List Char) :
    skipSpace (blanks ++ rest) = skipSpace rest := by
  rw [skipSpace, List.dropWhile_append_of_pos h]
  rfl

/-! ## Depth -/

mutual

def tooDeep? : Nat → Value → Option Container
  | 0, .list _ => some .array
  | 0, .dict _ => some .object
  | depth + 1, .list items => tooDeepItem? depth items
  | depth + 1, .dict entries => tooDeepMember? depth entries
  | _, _ => none

def tooDeepItem? (depth : Nat) : List Value → Option Container
  | [] => none
  | v :: rest => (tooDeep? depth v).or (tooDeepItem? depth rest)

def tooDeepMember? (depth : Nat) : List (String × Value) → Option Container
  | [] => none
  | (_, v) :: rest => (tooDeep? depth v).or (tooDeepMember? depth rest)

end

def IsScalar (v : Value) : Prop := ∀ depth, tooDeep? depth v = none

private theorem isScalar_none : IsScalar .none := fun depth => by cases depth <;> rfl

private theorem isScalar_bool (b : Bool) : IsScalar (.bool b) := fun depth => by cases depth <;> rfl

theorem isScalar_int (i : Int) : IsScalar (.int i) := fun depth => by cases depth <;> rfl

theorem isScalar_float (x : Float) : IsScalar (.float x) := fun depth => by cases depth <;> rfl

private theorem isScalar_text (s : String) : IsScalar (.text s) :=
  fun depth => by cases depth <;> rfl

mutual

def nesting : Value → Nat
  | .list items => nestingOf items + 1
  | .dict entries => nestingIn entries + 1
  | _ => 0

def nestingOf : List Value → Nat
  | [] => 0
  | v :: rest => max (nesting v) (nestingOf rest)

def nestingIn : List (String × Value) → Nat
  | [] => 0
  | (_, v) :: rest => max (nesting v) (nestingIn rest)

end

mutual

theorem tooDeep?_eq_none : ∀ (v : Value) {depth : Nat}, nesting v ≤ depth → tooDeep? depth v = none
  | .list items, depth + 1, h => tooDeepItem?_eq_none items (Nat.le_of_succ_le_succ h)
  | .dict entries, depth + 1, h => tooDeepMember?_eq_none entries (Nat.le_of_succ_le_succ h)
  | .none, _, _ => isScalar_none _
  | .bool b, _, _ => isScalar_bool b _
  | .int i, _, _ => isScalar_int i _
  | .float x, _, _ => isScalar_float x _
  | .text s, _, _ => isScalar_text s _
  | .bytes _, _, _ | .tuple _, _, _ | .set _, _, _ | .message _, _, _ | .toolCall _, _, _
  | .member .., _, _ | .record .., _, _ => by
      unfold tooDeep?
      split <;> simp_all

private theorem tooDeepItem?_eq_none :
    ∀ (items : List Value) {depth : Nat}, nestingOf items ≤ depth →
    tooDeepItem? depth items = none
  | [], _, _ => rfl
  | v :: rest, _, h => by
      rw [nestingOf, Nat.max_le] at h
      rw [tooDeepItem?, tooDeep?_eq_none v h.1, tooDeepItem?_eq_none rest h.2]
      rfl

private theorem tooDeepMember?_eq_none :
    ∀ (entries : Entries) {depth : Nat}, nestingIn entries ≤ depth →
    tooDeepMember? depth entries = none
  | [], _, _ => rfl
  | (_, v) :: rest, _, h => by
      rw [nestingIn, Nat.max_le] at h
      rw [tooDeepMember?, tooDeep?_eq_none v h.1, tooDeepMember?_eq_none rest h.2]
      rfl

end

def unlessTooDeep (found : Option Container) (a : α) : Except Fault α :=
  match found with
  | some container => .error (.tooDeep container)
  | none => .ok a

/-! ## Spelling -/

/-- The characters are a text of a value, wherever they stand. -/
structure Spells (cs : List Char) (v : Value) : Prop where
  opens : Opens cs
  reads : ∀ fuel depth rest, cs.length ≤ fuel → Closes rest →
    readValue fuel depth (cs ++ rest) = unlessTooDeep (tooDeep? depth v) (v, rest)

theorem Spells.read {text : String} {v : Value} (h : Spells text.toList v) (depth : Nat) :
    Json.read depth text = unlessTooDeep (tooDeep? depth v) v := by
  have hreads := h.reads (2 * text.toList.length + 2) depth [] (by omega) closes_nil
  have hskip := h.opens.skipSpace_append []
  rw [List.append_nil] at hreads hskip
  unfold Json.read readChars
  split
  · rename_i heq
    rw [← List.append_nil text.toList] at heq
    exact absurd heq (h.opens.append_ne (by simp) _ _)
  · rw [hskip, hreads]
    cases tooDeep? depth v <;> rfl

theorem Spells.read_eq_ok {text : String} {v : Value} (h : Spells text.toList v)
    {depth : Nat} (hnesting : nesting v ≤ depth) : Json.read depth text = .ok v := by
  rw [h.read, tooDeep?_eq_none v hnesting]
  rfl

/-! ### Scalars -/

theorem readValue_scalar {c : Char} (hobject : c ≠ '{') (harray : c ≠ '[') (fuel depth : Nat)
    (rest : List Char) : readValue (fuel + 1) depth (c :: rest) = readScalar (c :: rest) := by
  rw [readValue.eq_def]
  split <;> simp_all

theorem spells_scalar (c : Char) (tail : List Char) {v : Value} (hspace : isSpace c = false)
    (hmarks : c ∉ ['{', '}', '[', ']', '\ufeff']) (hscalar : IsScalar v)
    (hreads : ∀ rest, Closes rest → readScalar (c :: (tail ++ rest)) = .ok (v, rest)) :
    Spells (c :: tail) v := by
  simp only [List.mem_cons, not_or] at hmarks
  refine ⟨⟨c, tail, rfl, hspace, by simp [hmarks]⟩, fun fuel depth rest hfuel hrest => ?_⟩
  obtain ⟨fuel, rfl⟩ := Nat.exists_eq_add_one.2 (Nat.zero_lt_of_lt hfuel)
  rw [List.cons_append, readValue_scalar hmarks.1 hmarks.2.2.1, hreads rest hrest, hscalar depth]
  rfl

theorem spells_none : Spells "null".toList .none :=
  spells_scalar 'n' "ull".toList rfl (by decide) isScalar_none fun _ _ => rfl

theorem spells_bool (b : Bool) : Spells (writeBool b).toList (.bool b) := by
  cases b with
  | false =>
      exact spells_scalar 'f' "alse".toList rfl (by decide) (isScalar_bool false) fun _ _ => rfl
  | true => exact spells_scalar 't' "rue".toList rfl (by decide) (isScalar_bool true) fun _ _ => rfl

theorem spells_text (s : String) : Spells (quote s).toList (.text s) := by
  rw [toList_quote]
  refine spells_scalar '"' _ rfl (by decide) (isScalar_text s) fun rest _ => ?_
  have hconstant : constant? ('"' :: (s.toList.flatMap escapeChar ++ ['"'] ++ rest)) = none := rfl
  rw [readScalar, hconstant, List.append_assoc, List.singleton_append]
  dsimp only
  rw [readString_quote]
  rfl

/-! ### Containers -/

/-- A mark followed by nothing but blanks. -/
def Separates (mark : Char) (separator : List Char) : Prop :=
  ∃ blanks, separator = mark :: blanks ∧ ∀ c ∈ blanks, isSpace c = true

def trailing (separator : List Char) (texts : List (List Char)) : List Char :=
  texts.flatMap (separator ++ ·)

private theorem trailing_cons (separator text : List Char) (texts : List (List Char)) :
    trailing separator (text :: texts) = separator ++ (text ++ trailing separator texts) := by
  rw [trailing, List.flatMap_cons, List.append_assoc]
  rfl

private theorem intercalate_cons (separator text : List Char) (texts : List (List Char)) :
    separator.intercalate (text :: texts) = text ++ trailing separator texts := by
  induction texts generalizing text with
  | nil => simp [trailing]
  | cons next texts ih =>
      rw [List.intercalate_cons_cons, ih, trailing_cons, List.append_assoc]

theorem Separates.skipSpace_append {mark : Char} {separator : List Char}
    (h : Separates mark separator) (hmark : isSpace mark = false) (rest : List Char) :
    ∃ blanks, skipSpace (separator ++ rest) = mark :: (blanks ++ rest) ∧
      skipSpace (blanks ++ rest) = skipSpace rest := by
  obtain ⟨blanks, rfl, hblanks⟩ := h
  exact ⟨blanks, by simp [skipSpace, hmark], skipSpace_blanks hblanks rest⟩

theorem Separates.closes {separator : List Char} (h : Separates ',' separator) (rest : List Char) :
    Closes (separator ++ rest) := by
  obtain ⟨blanks, rfl, -⟩ := h
  exact closes_cons (.inl rfl) _

theorem Separates.length_pos {mark : Char} {separator : List Char} (h : Separates mark separator) :
    0 < separator.length := by
  obtain ⟨blanks, rfl, -⟩ := h
  simp

private theorem readItems_spelled {separator : List Char} (hseparator : Separates ',' separator)
    {text : List Char} {v : Value} (hfirst : Spells text v) {texts : List (List Char)}
    {vs : List Value} (hothers : List.Forall₂ Spells texts vs) {fuel : Nat} (depth : Nat)
    (rest : List Char) (hfuel : text.length + (trailing separator texts).length < fuel) :
    readItems fuel depth (text ++ (trailing separator texts ++ ']' :: rest)) =
      unlessTooDeep (tooDeepItem? depth (v :: vs)) (v :: vs, rest) := by
  induction hothers generalizing fuel text v with
  | nil =>
      obtain ⟨fuel, rfl⟩ := Nat.exists_eq_add_one.2 (Nat.zero_lt_of_lt hfuel)
      rw [trailing, List.flatMap_nil, List.length_nil] at hfuel
      rw [trailing, List.flatMap_nil, List.nil_append, readItems,
        hfirst.reads fuel depth _ (by omega) (closes_cons (by simp) rest)]
      cases hdeep : tooDeep? depth v <;>
        simp [unlessTooDeep, tooDeepItem?, hdeep, skipSpace, isSpace]
  | @cons next w texts vs hnext hothers ih =>
      obtain ⟨fuel, rfl⟩ := Nat.exists_eq_add_one.2 (Nat.zero_lt_of_lt hfuel)
      have hpos := hseparator.length_pos
      rw [trailing_cons, List.length_append, List.length_append] at hfuel
      have hlater := ih hnext (by omega : _ < fuel)
      rw [trailing_cons, List.append_assoc, List.append_assoc, readItems,
        hfirst.reads fuel depth _ (by omega) (hseparator.closes _)]
      cases hdeep : tooDeep? depth v with
      | some container => simp [unlessTooDeep, tooDeepItem?, hdeep]
      | none =>
          obtain ⟨blanks, hcomma, hblanks⟩ := hseparator.skipSpace_append rfl
            (next ++ (trailing separator texts ++ ']' :: rest))
          simp only [unlessTooDeep, hcomma, hblanks, hnext.opens.skipSpace_append, tooDeepItem?,
            hdeep, Option.none_or] at hlater ⊢
          rw [hlater]
          cases (tooDeep? depth w).or (tooDeepItem? depth vs) <;> rfl

private theorem toList_array (separator : String) (texts : List String) :
    (array separator texts).toList =
      '[' :: (separator.toList.intercalate (texts.map String.toList) ++ [']']) := by
  simp [array, String.toList_intercalate]

theorem spells_array {separator : String} (hseparator : Separates ',' separator.toList)
    {texts : List String} {vs : List Value}
    (h : List.Forall₂ (fun text v => Spells text.toList v) texts vs) :
    Spells (array separator texts).toList (.list vs) := by
  rw [toList_array]
  refine ⟨⟨'[', _, rfl, rfl, by decide⟩, fun fuel depth rest hfuel _ => ?_⟩
  obtain ⟨fuel, rfl⟩ := Nat.exists_eq_add_one.2 (Nat.zero_lt_of_lt hfuel)
  cases depth with
  | zero => rfl
  | succ depth =>
      cases h with
      | nil => rfl
      | @cons text v texts vs hfirst hothers =>
          have hothers' : List.Forall₂ Spells (texts.map String.toList) vs :=
            List.forall₂_map_left_iff.2 hothers
          rw [List.map_cons, intercalate_cons] at hfuel ⊢
          simp only [List.length_cons, List.length_append, List.length_nil] at hfuel
          have hitems := readItems_spelled hseparator hfirst hothers' depth rest
            (by omega : _ < fuel)
          simp only [List.cons_append, List.append_assoc, List.nil_append, readValue,
            hfirst.opens.skipSpace_append]
          split
          · rename_i heq
            exact absurd heq (hfirst.opens.append_ne (by simp) _ _)
          · rw [hitems, tooDeep?]
            cases tooDeepItem? depth (v :: vs) <;> rfl

/-! ### Objects -/

def SpellsMember (colon cs : List Char) (entry : String × Value) : Prop :=
  ∃ text, cs = (quote entry.1).toList ++ (colon ++ text) ∧ Spells text entry.2

private theorem insert_fresh {key : String} {entries : Entries} (h : key ∉ entries.map Prod.fst)
    (v : Value) :
    Entries.insert key v entries = entries ++ [(key, v)] := by
  induction entries with
  | nil => rfl
  | cons entry entries ih =>
      rw [List.map_cons, List.mem_cons, not_or] at h
      have hne : (entry.1 == key) = false := beq_eq_false_iff_ne.2 (Ne.symm h.1)
      have hput := ih h.2
      simp only [Entries.insert] at hput
      simp only [Entries.insert, Table.put, hne, hput, Bool.false_eq_true, if_false,
        List.cons_append]

private theorem fresh_of_nodup {before later : Entries} {entry : String × Value}
    (h : ((before ++ entry :: later).map Prod.fst).Nodup) : entry.1 ∉ before.map Prod.fst := by
  rw [List.map_append, List.map_cons, List.nodup_append] at h
  exact fun hmem => h.2.2 _ hmem _ List.mem_cons_self rfl

theorem SpellsMember.opens {colon cs : List Char} {entry : String × Value}
    (h : SpellsMember colon cs entry) : Opens cs := by
  obtain ⟨text, rfl, -⟩ := h
  exact ⟨'"', _, by rw [toList_quote, List.cons_append], rfl, by decide⟩

private theorem readMembers_member {colon cs : List Char} (hcolon : Separates ':' colon)
    {key : String} {v : Value} (hmember : SpellsMember colon cs (key, v)) {fuel : Nat}
    (hfuel : cs.length ≤ fuel) {depth : Nat} (before : Entries) {rest : List Char}
    (hrest : Closes rest) :
    readMembers (fuel + 1) depth before (cs ++ rest) =
      match unlessTooDeep (tooDeep? depth v) (v, rest) with
      | .error f => .error f
      | .ok (v, after) =>
        match skipSpace after with
        | '}' :: rest => .ok (Entries.insert key v before, rest)
        | ',' :: rest => readMembers fuel depth (Entries.insert key v before) (skipSpace rest)
        | rest => unmet .comma rest := by
  obtain ⟨text, rfl, htext⟩ := hmember
  simp only [List.length_append] at hfuel
  obtain ⟨blanks, hskip, hblanks⟩ := hcolon.skipSpace_append rfl (text ++ rest)
  simp only [toList_quote, List.cons_append, List.append_assoc, List.nil_append, readMembers,
    readString_quote, hskip, hblanks, htext.opens.skipSpace_append,
    htext.reads fuel depth rest (by omega) hrest]
  rfl

private theorem readMembers_spelled {comma colon : List Char} (hcomma : Separates ',' comma)
    (hcolon : Separates ':' colon) {text : List Char} {entry : String × Value}
    (hfirst : SpellsMember colon text entry) {texts : List (List Char)} {entries before : Entries}
    (hothers : List.Forall₂ (SpellsMember colon) texts entries)
    (hnames : ((before ++ entry :: entries).map Prod.fst).Nodup) {fuel : Nat} (depth : Nat)
    (rest : List Char) (hfuel : text.length + (trailing comma texts).length < fuel) :
    readMembers fuel depth before (text ++ (trailing comma texts ++ '}' :: rest)) =
      unlessTooDeep (tooDeepMember? depth (entry :: entries))
        (before ++ entry :: entries, rest) := by
  induction hothers generalizing fuel text entry before with
  | nil =>
      obtain ⟨fuel, rfl⟩ := Nat.exists_eq_add_one.2 (Nat.zero_lt_of_lt hfuel)
      rw [trailing, List.flatMap_nil, List.length_nil] at hfuel
      have hfresh : entry.1 ∉ before.map Prod.fst := fresh_of_nodup hnames
      rw [trailing, List.flatMap_nil, List.nil_append,
        readMembers_member hcolon hfirst (by omega) before (closes_cons (by simp) rest)]
      cases hdeep : tooDeep? depth entry.2 <;>
        simp [unlessTooDeep, tooDeepMember?, hdeep, skipSpace, isSpace, insert_fresh hfresh]
  | @cons next w texts vs hnext hothers ih =>
      obtain ⟨fuel, rfl⟩ := Nat.exists_eq_add_one.2 (Nat.zero_lt_of_lt hfuel)
      have hpos := hcomma.length_pos
      have hfresh : entry.1 ∉ before.map Prod.fst := fresh_of_nodup hnames
      rw [trailing_cons, List.length_append, List.length_append] at hfuel
      have hlater := @ih _ _ hnext (before ++ [entry]) (by rwa [List.append_assoc]) fuel (by omega)
      rw [trailing_cons, List.append_assoc, List.append_assoc,
        readMembers_member hcolon hfirst (by omega) before (hcomma.closes _)]
      cases hdeep : tooDeep? depth entry.2 with
      | some container => simp [unlessTooDeep, tooDeepMember?, hdeep]
      | none =>
          obtain ⟨blanks, hskip, hblanks⟩ := hcomma.skipSpace_append rfl
            (next ++ (trailing comma texts ++ '}' :: rest))
          simp only [unlessTooDeep, hskip, hblanks, hnext.opens.skipSpace_append, insert_fresh hfresh,
            tooDeepMember?, hdeep, Option.none_or, List.append_assoc] at hlater ⊢
          exact hlater

theorem toList_object (comma colon : String) (members : List (String × String)) :
    (object comma colon members).toList =
      '{' :: (comma.toList.intercalate (members.map fun (name, text) =>
        (quote name).toList ++ (colon.toList ++ text.toList)) ++ ['}']) := by
  have hopening : "\x7b".toList = ['{'] := rfl
  have hclosing : "\x7d".toList = ['}'] := rfl
  simp only [object, String.toList_append, String.toList_intercalate, hopening, hclosing,
    List.map_map, List.append_assoc, List.cons_append, List.nil_append, Function.comp_def]

theorem spells_object {comma colon : String} (hcomma : Separates ',' comma.toList)
    (hcolon : Separates ':' colon.toList) {members : List (String × String)} {entries : Entries}
    (h : List.Forall₂ (fun member entry => member.1 = entry.1 ∧ Spells member.2.toList entry.2)
      members entries) (hnames : (entries.map Prod.fst).Nodup) :
    Spells (object comma colon members).toList (.dict entries) := by
  rw [toList_object]
  refine ⟨⟨'{', _, rfl, rfl, by decide⟩, fun fuel depth rest hfuel _ => ?_⟩
  obtain ⟨fuel, rfl⟩ := Nat.exists_eq_add_one.2 (Nat.zero_lt_of_lt hfuel)
  cases depth with
  | zero => rfl
  | succ depth =>
      have hmembers : List.Forall₂ (SpellsMember colon.toList) (members.map fun (name, text) =>
          (quote name).toList ++ (colon.toList ++ text.toList)) entries := by
        refine List.forall₂_map_left_iff.2 (h.imp ?_)
        rintro ⟨name, text⟩ entry ⟨rfl, htext⟩
        exact ⟨_, rfl, htext⟩
      generalize (members.map fun (name, text) =>
        (quote name).toList ++ (colon.toList ++ text.toList)) = texts at hmembers hfuel
      cases hmembers with
      | nil => rfl
      | @cons text entry texts entries hfirst hothers =>
          rw [intercalate_cons] at hfuel ⊢
          simp only [List.length_cons, List.length_append, List.length_nil] at hfuel
          have hentries := @readMembers_spelled _ _ hcomma hcolon _ _ hfirst _ _ [] hothers hnames
            fuel depth rest (by omega)
          simp only [List.cons_append, List.append_assoc, List.nil_append, readValue,
            hfirst.opens.skipSpace_append] at hentries ⊢
          split
          · rename_i heq
            exact absurd heq (hfirst.opens.append_ne (by simp) _ _)
          · rw [hentries, tooDeep?]
            cases tooDeepMember? depth (entry :: entries) <;> rfl

end ChatPipeline.Json
