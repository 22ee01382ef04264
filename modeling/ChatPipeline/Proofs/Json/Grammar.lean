import ChatPipeline.Proofs.Json.Numbers
import ChatPipeline.Proofs.Value.Access

/-!
# The grammar of JSON texts

What a JSON text is, said without the reader.  Each relation takes something off the front of a text
and leaves the rest: `Blanks`, the parts of a number, the characters of a quoted text, and with
`Phrase.Leads` a whole value, the items up to a closing bracket or the members up to a closing
brace.  `Leads` also measures what it takes off: `longest` is the number of digits of its longest
whole number and `deepest` how many containers stand inside one another.  The reader sets a limit to
both, the grammar itself has none.
-/

namespace ChatPipeline.Json

open ChatPipeline.Text ChatPipeline.Decimal

/-! ## Blanks -/

def Blanks (cs rest : List Char) : Prop :=
  ∃ blanks, (∀ c ∈ blanks, isSpace c = true) ∧ cs = blanks ++ rest

/-! ## Numbers -/

def FractionText (ds cs rest : List Char) : Prop :=
  cs = '.' :: (ds ++ rest) ∧ AllDigits ds ∧ ds ≠ []

inductive SignText : Bool → List Char → List Char → Prop where
  | absent (cs : List Char) : SignText false cs cs
  | plus (cs : List Char) : SignText false ('+' :: cs) cs
  | minus (cs : List Char) : SignText true ('-' :: cs) cs

def signedValue (negative : Bool) (n : Nat) : Int := if negative then -n else n

def ExponentText (e : Int) (cs rest : List Char) : Prop :=
  ∃ mark negative ds after, (mark = 'e' ∨ mark = 'E') ∧ cs = mark :: after ∧
    SignText negative after (ds ++ rest) ∧ AllDigits ds ∧ ds ≠ [] ∧
    e = signedValue negative (digitsValue ds)

/-- What makes a number a real one: a fraction, an exponent, or both. -/
inductive RealTail : List Char → Int → List Char → List Char → Prop where
  | fraction (hfraction : FractionText fraction cs rest) : RealTail fraction 0 cs rest
  | exponent (hexponent : ExponentText e cs rest) : RealTail [] e cs rest
  | both (hfraction : FractionText fraction cs after) (hexponent : ExponentText e after rest) :
    RealTail fraction e cs rest

/-- A number after its sign, with the number of its digits if it is whole. -/
inductive NumberText (negative : Bool) : Value → Nat → List Char → List Char → Prop where
  | whole (hds : IsWhole ds) (rest : List Char) :
    NumberText negative (.int (signedValue negative (digitsValue ds))) ds.length (ds ++ rest) rest
  | real (hds : IsWhole ds) (htail : RealTail fraction e after rest) :
    NumberText negative
      (.float (ofDecimal negative (digitsValue (ds ++ fraction)) (e - fraction.length)))
      0 (ds ++ after) rest

/-! ## Quoted texts -/

def HexText (n : Nat) (cs rest : List Char) : Prop :=
  ∃ a b c d x y z w, cs = a :: b :: c :: d :: rest ∧ hexValue? a = some x ∧ hexValue? b = some y ∧
    hexValue? c = some z ∧ hexValue? d = some w ∧ n = ((x * 16 + y) * 16 + z) * 16 + w

def LowEscape (low : Nat) (cs rest : List Char) : Prop :=
  ∃ more, cs = '\\' :: 'u' :: more ∧ HexText low more rest ∧ isLowSurrogate low = true

/-- One character as it stands between quotes.  The first half of a pair goes together with the
second half if that follows, and else stands for itself, as the second half does on its own. -/
inductive CharText : Char → List Char → List Char → Prop where
  | plain {c : Char} (hquote : c ≠ '"') (hbackslash : c ≠ '\\') (hcontrol : ¬ c.toNat < 0x20)
    (rest : List Char) : CharText c (c :: rest) rest
  | escape {mark c : Char} (hmark : simpleEscape? mark = some c) (rest : List Char) :
    CharText c ('\\' :: mark :: rest) rest
  | pair {high low : Nat} (hhex : HexText high cs after) (hhigh : isHighSurrogate high = true)
    (hlow : LowEscape low after rest) : CharText (pairChar high low) ('\\' :: 'u' :: cs) rest
  | unit {n : Nat} (hhex : HexText n cs rest)
    (halone : isHighSurrogate n = true → ∀ low more, ¬ LowEscape low rest more) :
    CharText (unitChar n) ('\\' :: 'u' :: cs) rest

inductive BodyText : List Char → List Char → List Char → Prop where
  | done (cs : List Char) : BodyText [] cs cs
  | char (hchar : CharText c cs after) (hbody : BodyText chars after rest) :
    BodyText (c :: chars) cs rest

def QuotedText (s : String) (cs rest : List Char) : Prop :=
  ∃ body, cs = '"' :: body ∧ BodyText s.toList body ('"' :: rest)

/-! ## Values -/

def constants : List (String × Value) :=
  [("null", .none), ("true", .bool true), ("false", .bool false), ("NaN", .float notANumber),
    ("Infinity", .float (infinity false)), ("-Infinity", .float (infinity true))]

inductive ScalarText : Value → Nat → List Char → List Char → Prop where
  | constant {name : String} (hname : (name, v) ∈ constants) (rest : List Char) :
    ScalarText v 0 (name.toList ++ rest) rest
  | text {s : String} (hquoted : QuotedText s cs rest) : ScalarText (.text s) 0 cs rest
  | number (hnumber : NumberText false v longest cs rest) : ScalarText v longest cs rest
  | negative (hnumber : NumberText true v longest cs rest) : ScalarText v longest ('-' :: cs) rest

def HeadText (name : String) (cs start : List Char) : Prop :=
  ∃ after more, QuotedText name cs after ∧ Blanks after (':' :: more) ∧ Blanks more start

inductive Phrase where
  | value (v : Value)
  | items (vs : List Value)
  | members (entries : Entries)

inductive Phrase.Leads : Phrase → Nat → Nat → List Char → List Char → Prop where
  | scalar (hscalar : ScalarText v longest cs rest) : Leads (.value v) longest 0 cs rest
  | emptyArray (hblanks : Blanks cs (']' :: rest)) :
    Leads (.value (.list [])) 0 1 ('[' :: cs) rest
  | array {vs : List Value} (hblanks : Blanks cs start)
    (hitems : Leads (.items vs) longest deepest start rest) :
    Leads (.value (.list vs)) longest (deepest + 1) ('[' :: cs) rest
  | emptyObject (hblanks : Blanks cs ('}' :: rest)) :
    Leads (.value (.dict [])) 0 1 ('{' :: cs) rest
  | object {entries : Entries} (hblanks : Blanks cs start)
    (hmembers : Leads (.members entries) longest deepest start rest) :
    Leads (.value (.dict (Entries.override [] entries))) longest (deepest + 1) ('{' :: cs) rest
  | lastItem (hvalue : Leads (.value v) longest deepest cs after)
    (hclose : Blanks after (']' :: rest)) : Leads (.items [v]) longest deepest cs rest
  | item {vs : List Value} {longest' deepest' : Nat}
    (hvalue : Leads (.value v) longest deepest cs after) (hcomma : Blanks after (',' :: more))
    (hblanks : Blanks more start) (hitems : Leads (.items vs) longest' deepest' start rest) :
    Leads (.items (v :: vs)) (max longest longest') (max deepest deepest') cs rest
  | lastMember {name : String} (hhead : HeadText name cs start)
    (hvalue : Leads (.value v) longest deepest start after) (hclose : Blanks after ('}' :: rest)) :
    Leads (.members [(name, v)]) longest deepest cs rest
  | member {name : String} {entries : Entries} {longest' deepest' : Nat} {next : List Char}
    (hhead : HeadText name cs start) (hvalue : Leads (.value v) longest deepest start after)
    (hcomma : Blanks after (',' :: more)) (hblanks : Blanks more next)
    (hmembers : Leads (.members entries) longest' deepest' next rest) :
    Leads (.members ((name, v) :: entries)) (max longest longest') (max deepest deepest') cs rest

def IsTextOf (v : Value) (longest deepest : Nat) (cs : List Char) : Prop :=
  ∃ start rest, Blanks cs start ∧ (Phrase.value v).Leads longest deepest start rest ∧ Blanks rest []

/-! ## What is left is an end of the text -/

section

variable {cs rest start ds : List Char} {negative : Bool} {v : Value} {longest deepest : Nat}

theorem Blanks.suffix (h : Blanks cs rest) : rest <:+ cs := by
  obtain ⟨blanks, -, rfl⟩ := h
  exact List.suffix_append blanks rest

theorem Blanks.suffix_of_cons {c : Char} (h : Blanks cs (c :: rest)) : rest <:+ cs :=
  (List.suffix_cons c rest).trans h.suffix

theorem FractionText.suffix (h : FractionText ds cs rest) : rest <:+ cs := by
  rw [h.1, ← List.cons_append]
  exact List.suffix_append _ rest

theorem SignText.suffix (h : SignText negative cs rest) : rest <:+ cs := by
  cases h with
  | absent => exact List.suffix_refl _
  | plus => exact List.suffix_cons _ _
  | minus => exact List.suffix_cons _ _

theorem ExponentText.suffix {e : Int} (h : ExponentText e cs rest) : rest <:+ cs := by
  obtain ⟨mark, negative, ds, after, -, rfl, hsign, -⟩ := h
  exact ((List.suffix_append ds rest).trans hsign.suffix).trans (List.suffix_cons mark after)

theorem RealTail.suffix {e : Int} (h : RealTail ds e cs rest) : rest <:+ cs := by
  cases h with
  | fraction hfraction => exact hfraction.suffix
  | exponent hexponent => exact hexponent.suffix
  | both hfraction hexponent => exact hexponent.suffix.trans hfraction.suffix

theorem NumberText.suffix (h : NumberText negative v longest cs rest) : rest <:+ cs := by
  cases h with
  | @whole ds => exact List.suffix_append ds rest
  | @real ds _ _ after _ _ htail => exact htail.suffix.trans (List.suffix_append ds after)

theorem HexText.suffix {n : Nat} (h : HexText n cs rest) : rest <:+ cs := by
  obtain ⟨a, b, c, d, -, -, -, -, rfl, -⟩ := h
  exact List.suffix_append [a, b, c, d] rest

theorem LowEscape.suffix {low : Nat} (h : LowEscape low cs rest) : rest <:+ cs := by
  obtain ⟨more, rfl, hhex, -⟩ := h
  exact hhex.suffix.trans (List.suffix_append ['\\', 'u'] more)

theorem CharText.suffix_tail {c : Char} (h : CharText c cs rest) :
    ∃ first tail, cs = first :: tail ∧ rest <:+ tail := by
  cases h with
  | plain => exact ⟨_, _, rfl, List.suffix_refl _⟩
  | escape => exact ⟨_, _, rfl, List.suffix_cons _ _⟩
  | pair hhex _ hlow =>
      exact ⟨_, _, rfl, (hlow.suffix.trans hhex.suffix).trans (List.suffix_cons _ _)⟩
  | unit hhex => exact ⟨_, _, rfl, hhex.suffix.trans (List.suffix_cons _ _)⟩

theorem BodyText.suffix {chars : List Char} (h : BodyText chars cs rest) : rest <:+ cs := by
  induction h with
  | done => exact List.suffix_refl _
  | char hchar _ ih =>
      obtain ⟨first, tail, rfl, htail⟩ := hchar.suffix_tail
      exact (ih.trans htail).trans (List.suffix_cons first tail)

theorem QuotedText.suffix {s : String} (h : QuotedText s cs rest) : rest <:+ cs := by
  obtain ⟨body, rfl, hbody⟩ := h
  exact ((List.suffix_cons _ rest).trans hbody.suffix).trans (List.suffix_cons _ body)

theorem ScalarText.suffix (h : ScalarText v longest cs rest) : rest <:+ cs := by
  cases h with
  | constant => exact List.suffix_append _ rest
  | text hquoted => exact hquoted.suffix
  | number hnumber => exact hnumber.suffix
  | negative hnumber => exact hnumber.suffix.trans (List.suffix_cons _ _)

theorem HeadText.suffix {name : String} (h : HeadText name cs start) : start <:+ cs := by
  obtain ⟨after, more, hquoted, hcolon, hblanks⟩ := h
  exact (hblanks.suffix.trans hcolon.suffix_of_cons).trans hquoted.suffix

theorem Phrase.Leads.suffix {p : Phrase} (h : p.Leads longest deepest cs rest) : rest <:+ cs := by
  induction h with
  | scalar hscalar => exact hscalar.suffix
  | emptyArray hblanks => exact hblanks.suffix_of_cons.trans (List.suffix_cons _ _)
  | array hblanks _ ih => exact (ih.trans hblanks.suffix).trans (List.suffix_cons _ _)
  | emptyObject hblanks => exact hblanks.suffix_of_cons.trans (List.suffix_cons _ _)
  | object hblanks _ ih => exact (ih.trans hblanks.suffix).trans (List.suffix_cons _ _)
  | lastItem _ hclose ih => exact hclose.suffix_of_cons.trans ih
  | item _ hcomma hblanks _ ihValue ihItems =>
      exact ((ihItems.trans hblanks.suffix).trans hcomma.suffix_of_cons).trans ihValue
  | lastMember hhead _ hclose ih => exact (hclose.suffix_of_cons.trans ih).trans hhead.suffix
  | member hhead _ hcomma hblanks _ ihValue ihMembers =>
      exact (((ihMembers.trans hblanks.suffix).trans hcomma.suffix_of_cons).trans ihValue).trans
        hhead.suffix

end

/-! ## What a text can be of -/

inductive IsPlain : Value → Prop where
  | none : IsPlain .none
  | bool (b : Bool) : IsPlain (.bool b)
  | int (i : Int) : IsPlain (.int i)
  | float (x : Float) : IsPlain (.float x)
  | text (s : String) : IsPlain (.text s)
  | list {items : List Value} (hitems : ∀ v ∈ items, IsPlain v) : IsPlain (.list items)
  | dict {entries : Entries}
    (hentries : ∀ key v, Entries.get? entries key = some v → IsPlain v) : IsPlain (.dict entries)

def Phrase.IsPlain : Phrase → Prop
  | .value v => Json.IsPlain v
  | .items vs => ∀ v ∈ vs, Json.IsPlain v
  | .members entries => ∀ entry ∈ entries, Json.IsPlain entry.2

theorem ScalarText.isPlain (h : ScalarText v longest cs rest) : IsPlain v := by
  have hconstants : ∀ entry ∈ constants, IsPlain entry.2 := by
    simp [constants, IsPlain.none, IsPlain.bool, IsPlain.float]
  have hnumber : ∀ {negative : Bool} {cs : List Char}, NumberText negative v longest cs rest →
      IsPlain v := by
    rintro _ _ (⟨-, -⟩ | ⟨-, -⟩)
    · exact .int _
    · exact .float _
  cases h with
  | constant hname => exact hconstants _ hname
  | text => exact .text _
  | number h => exact hnumber h
  | negative h => exact hnumber h

private theorem isPlain_override {entries : Entries} (h : ∀ entry ∈ entries, IsPlain entry.2) :
    IsPlain (.dict (Entries.override [] entries)) := by
  refine .dict fun key v hfound => ?_
  obtain hold | hnew := Entries.mem_of_get?_override hfound
  · cases hold
  · exact h _ hnew

theorem Phrase.Leads.isPlain {p : Phrase} (h : p.Leads longest deepest cs rest) : p.IsPlain := by
  induction h with
  | scalar hscalar => exact hscalar.isPlain
  | emptyArray => exact .list (List.forall_mem_nil _)
  | array _ _ ih => exact .list ih
  | emptyObject => exact isPlain_override (List.forall_mem_nil _)
  | object _ _ ih => exact isPlain_override ih
  | lastItem _ _ ih => exact List.forall_mem_singleton.2 ih
  | item _ _ _ _ ihValue ihItems => exact List.forall_mem_cons.2 ⟨ihValue, ihItems⟩
  | lastMember _ _ _ ih => exact List.forall_mem_singleton.2 ih
  | member _ _ _ _ _ ihValue ihMembers => exact List.forall_mem_cons.2 ⟨ihValue, ihMembers⟩

theorem IsTextOf.isPlain (h : IsTextOf v longest deepest cs) : IsPlain v := by
  obtain ⟨_, _, _, hleads, _⟩ := h
  exact hleads.isPlain

end ChatPipeline.Json
