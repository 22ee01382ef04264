import ChatPipeline.Schema.Convert

/-!
# Data that a JSON schema accepts

What a JSON schema says about a piece of data, keyword by keyword (`Condition`).  A fragment
accepts what meets the condition of each of its keywords; references lead into `$defs`.  Schemas may
refer to themselves, so acceptance is looked at to a depth, and what no depth refutes is accepted
(`Fragment.Accepts`).

Patterns, formats and the like are not among the keywords: a reader who knows them accepts less.
-/

namespace ChatPipeline.Schema

open ChatPipeline.Validation ChatPipeline.Decimal

/-! ## Data -/

/-- JSON data without null anywhere. -/
inductive NullFree : Value → Prop where
  | bool (b : Bool) : NullFree (.bool b)
  | int (i : Int) : NullFree (.int i)
  | float (x : Float) : NullFree (.float x)
  | text (s : String) : NullFree (.text s)
  | list (hitems : ∀ v ∈ items, NullFree v) : NullFree (.list items)
  | dict (hentries : ∀ e ∈ entries, NullFree e.2) : NullFree (.dict entries)

theorem NullFree.ne_none {v : Value} (h : NullFree v) : v ≠ .none := by
  rintro rfl
  cases h

def isWhole (x : Float) : Bool :=
  match classify x with
  | .finite _ significand exponent =>
    let (up, down) := powerRatio 2 exponent
    significand * up % down == 0
  | _ => false

/-- A double without fraction counts as an integer. -/
def HasType (type : String) (v : Value) : Prop :=
  match type with
  | "null" => v = .none
  | "boolean" => ∃ b, v = .bool b
  | "string" => ∃ s, v = .text s
  | "integer" => (∃ i, v = .int i) ∨ ∃ x, v = .float x ∧ isWhole x = true
  | "number" => (∃ i, v = .int i) ∨ ∃ x, v = .float x
  | "array" => ∃ items, v = .list items
  | "object" => ∃ entries, v = .dict entries
  | _ => False

def number? : Value → Option NumberKey
  | .int i => numberKey? (.int i)
  | .float x => numberKey? (.float x)
  | _ => none

mutual

/-- Numbers are the same by their value, objects by their members in any order. -/
def sameData : Value → Value → Bool
  | .list items, .list others => sameItems items others
  | .dict entries, .dict others => entries.length == others.length && sameMembers entries others
  | .bool a, .bool b => a == b
  | .bool _, _ | _, .bool _ => false
  | v, w => sameScalar v w

def sameItems : List Value → List Value → Bool
  | [], [] => true
  | v :: items, w :: others => sameData v w && sameItems items others
  | _, _ => false

def sameMembers : List (String × Value) → Entries → Bool
  | [], _ => true
  | (key, v) :: entries, others =>
    (match others.get? key with
      | some w => sameData v w
      | none => false) && sameMembers entries others

end

/-! ## Conditions of keywords -/

def prefixLength (entries : Entries) : Nat :=
  match entries.get? "prefixItems" with
  | some (.list parts) => parts.length
  | _ => 0

def isDeclared (entries : Entries) (key : String) : Bool :=
  match entries.get? "properties" with
  | some (.dict parts) => Entries.contains parts key
  | _ => false

def bounds (k : Value) (compare : Int → Prop) : Prop := ∃ bound, k = .int bound ∧ compare bound

/-- The condition that a keyword of a fragment puts on some data.  A keyword with a value that it
cannot have is met by nothing, and one that only comments is met by everything. -/
def Condition (accepts : Value → Value → Prop) (defs : Value) (entries : Entries) (v : Value)
    (keyword : String) (k : Value) : Prop :=
  match keyword with
  | "$ref" => ∃ name target, k.text? = some ("#/$defs/" ++ name) ∧ '/' ∉ name.toList ∧
      defs.entry name = .ok target ∧ accepts target v
  | "allOf" => ∃ parts, k = .list parts ∧ ∀ part ∈ parts, accepts part v
  | "anyOf" => ∃ parts, k = .list parts ∧ ∃ part ∈ parts, accepts part v
  | "type" => ∃ type, k.text? = some type ∧ HasType type v
  | "enum" => ∃ choices, k = .list choices ∧ ∃ choice ∈ choices, sameData choice v = true
  | "const" => sameData k v = true
  | "properties" => ∃ parts, k = .dict parts ∧ ∀ members, v = .dict members →
      ∀ part ∈ parts, ∀ w, Entries.get? members part.1 = some w → accepts part.2 w
  | "required" => ∃ names, k = .list names ∧ ∀ members, v = .dict members →
      ∀ name ∈ names, ∃ key, name.text? = some key ∧ Entries.contains members key = true
  | "additionalProperties" => ∀ members, v = .dict members →
      ∀ e ∈ members, isDeclared entries e.1 = false → accepts k e.2
  | "minProperties" => ∀ members, v = .dict members → bounds k (· ≤ members.length)
  | "maxProperties" => ∀ members, v = .dict members → bounds k (members.length ≤ ·)
  | "items" => ∀ items, v = .list items → ∀ w ∈ items.drop (prefixLength entries), accepts k w
  | "prefixItems" => ∃ parts, k = .list parts ∧ ∀ items, v = .list items →
      ∀ pair ∈ parts.zip items, accepts pair.1 pair.2
  | "minItems" => ∀ items, v = .list items → bounds k (· ≤ items.length)
  | "maxItems" => ∀ items, v = .list items → bounds k (items.length ≤ ·)
  | "uniqueItems" => ∀ items, v = .list items → k = .bool true →
      items.Pairwise fun w w' => sameData w w' = false
  | "minLength" => ∀ s, v = .text s → bounds k (· ≤ s.length)
  | "maxLength" => ∀ s, v = .text s → bounds k (s.length ≤ ·)
  | "minimum" => ∀ x, number? v = some x → ∃ bound, number? k = some bound ∧ isLe bound x = true
  | "exclusiveMinimum" => ∀ x, number? v = some x →
      ∃ bound, number? k = some bound ∧ isLt bound x = true
  | "maximum" => ∀ x, number? v = some x → ∃ bound, number? k = some bound ∧ isLe x bound = true
  | "exclusiveMaximum" => ∀ x, number? v = some x →
      ∃ bound, number? k = some bound ∧ isLt x bound = true
  | _ => True

theorem Condition.mono {accepts accepts' : Value → Value → Prop} {defs v k : Value}
    {entries : Entries} {keyword : String}
    (h : ∀ fragment w, accepts fragment w → accepts' fragment w)
    (hc : Condition accepts defs entries v keyword k) :
    Condition accepts' defs entries v keyword k := by
  unfold Condition at hc
  split at hc
  -- The keywords with fragments inside: references, parts, alternatives, properties and items.
  case h_1 =>
    obtain ⟨name, target, htext, hname, hentry, ha⟩ := hc
    exact ⟨name, target, htext, hname, hentry, h _ _ ha⟩
  case h_2 =>
    obtain ⟨parts, hk, hparts⟩ := hc
    exact ⟨parts, hk, fun part hpart => h _ _ (hparts part hpart)⟩
  case h_3 =>
    obtain ⟨parts, hk, part, hpart, ha⟩ := hc
    exact ⟨parts, hk, part, hpart, h _ _ ha⟩
  case h_7 =>
    obtain ⟨parts, hk, hparts⟩ := hc
    exact ⟨parts, hk, fun members hv part hpart w hw => h _ _ (hparts members hv part hpart w hw)⟩
  case h_9 => exact fun members hv e he hother => h _ _ (hc members hv e he hother)
  case h_12 => exact fun items hv w hw => h _ _ (hc items hv w hw)
  case h_13 =>
    obtain ⟨parts, hk, hparts⟩ := hc
    exact ⟨parts, hk, fun items hv pair hpair => h _ _ (hparts items hv pair hpair)⟩
  -- A keyword that is none of them.
  case h_23 =>
    unfold Condition
    split <;> trivial
  all_goals exact hc

/-! ## Fragments -/

/-- Whether a fragment accepts some data as far as can be seen to a depth. -/
def AcceptsTo (defs : Value) : Nat → Value → Value → Prop
  | 0, _, _ => True
  | depth + 1, fragment, v =>
    match fragment with
    | .bool b => b = true
    | .dict entries => ∀ e ∈ entries, Condition (AcceptsTo defs depth) defs entries v e.1 e.2
    | _ => False

def Fragment.Accepts (defs fragment v : Value) : Prop := ∀ depth, AcceptsTo defs depth fragment v

def ownDefinitions (schema : Value) : Value :=
  match schema with
  | .dict entries => entryOr entries "$defs" (.dict [])
  | _ => .dict []

def Accepts (schema v : Value) : Prop := Fragment.Accepts (ownDefinitions schema) schema v

namespace Fragment

variable {defs v : Value} {entries : Entries}

theorem accepts_dict : Accepts defs (.dict entries) v ↔
    ∀ e ∈ entries, ∀ depth, Condition (AcceptsTo defs depth) defs entries v e.1 e.2 := by
  constructor
  · intro h e he depth
    exact h (depth + 1) e he
  · rintro h (_ | depth)
    · trivial
    · exact fun e he => h e he depth

theorem accepts_of_conditions
    (h : ∀ e ∈ entries, Condition (Accepts defs) defs entries v e.1 e.2) :
    Accepts defs (.dict entries) v :=
  accepts_dict.2 fun e he depth => (h e he).mono fun _ _ ha => ha depth

theorem Accepts.condition (h : Accepts defs (.dict entries) v) {keyword : String} {k : Value}
    (hk : entries.get? keyword = some k) (depth : Nat) :
    Condition (AcceptsTo defs depth) defs entries v keyword k :=
  accepts_dict.1 h (keyword, k) (Table.mem_of_lookup hk) depth

theorem Accepts.hasType (h : Accepts defs (.dict entries) v) {type : String}
    (hk : entries.get? "type" = some (.text type)) : HasType type v := by
  obtain ⟨_, ⟨⟩, htype⟩ := h.condition hk 0
  exact htype

theorem accepts_typed {type : String} :
    Accepts defs (.dict [("type", .text type)]) v ↔ HasType type v := by
  constructor
  · exact fun h => h.hasType rfl
  · exact fun h => accepts_of_conditions (List.forall_mem_singleton.2 ⟨type, rfl, h⟩)

end Fragment

end ChatPipeline.Schema
