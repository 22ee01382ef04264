import ChatPipeline.Proofs.Json.Scanning

/-!
# Values against the grammar

What the reader takes off the front of a text is a value of the grammar within the limits, and where
it finds a fault the text holds the cause (`accounts`, by induction on the fuel).  The other way
round, what the grammar allows is taken off if it is within the limits, and refused for a limit if
it is not (`Phrase.Leads.readAt`, by induction on the grammar).  So a whole text is read exactly if
it is the text of a value within the limits (`readChars_eq_ok_iff`).
-/

namespace ChatPipeline.Json

open ChatPipeline.Text

variable {α β : Type} {cs rest after more start : List Char} {c : Char}
variable {longest longest' deepest deepest' depth depth' fuel : Nat} {v : Value}

/-! ## What is taken off is a value -/

theorem openings_cons (hc : c = '[' ∨ c = '{') : openings (c :: rest) = openings rest + 1 := by
  rw [openings, List.countP_cons_of_pos (by simpa using hc)]
  rfl

theorem Fault.CausedBy.opened {f : Fault} (h : f.CausedBy depth start) (hsuffix : start <:+ rest)
    (hc : c = '[' ∨ c = '{') : f.CausedBy (depth + 1) (c :: rest) := by
  cases f with
  | unmet => trivial
  | longInteger => exact h.mono (hsuffix.trans (List.suffix_cons c rest))
  | tooDeep container =>
      have hrest : depth < openings rest := h.mono hsuffix
      have hmore : depth + 1 < openings (c :: rest) := by
        rw [openings_cons hc]
        exact Nat.succ_lt_succ hrest
      exact hmore

private theorem causedBy_tooDeep (container : Container)
    (hc : c = '[' ∨ c = '{') (rest : List Char) :
    (Fault.tooDeep container).CausedBy 0 (c :: rest) := by
  rw [Fault.CausedBy, openings_cons hc]
  exact Nat.succ_pos _

def ValueAccounts (fuel : Nat) : Prop :=
  ∀ depth cs, Accounts depth cs
    (fun v longest deepest rest => (Phrase.value v).Leads longest deepest cs rest)
    (readValue fuel depth cs)

def ItemsAccounts (fuel : Nat) : Prop :=
  ∀ depth cs, Accounts depth cs
    (fun vs longest deepest rest => (Phrase.items vs).Leads longest deepest cs rest)
    (readItems fuel depth cs)

def MembersAccounts (fuel : Nat) : Prop :=
  ∀ depth before cs, Accounts depth cs
    (fun entries longest deepest rest => ∃ members, entries = Entries.override before members ∧
      (Phrase.members members).Leads longest deepest cs rest)
    (readMembers fuel depth before cs)

private theorem valueAccounts_succ (hitems : ItemsAccounts fuel) (hmembers : MembersAccounts fuel) :
    ValueAccounts (fuel + 1) := by
  intro depth cs
  rw [readValue.eq_def]
  dsimp only
  split
  · rename_i rest
    cases depth with
    | zero => exact .fault (causedBy_tooDeep _ (.inr rfl) rest)
    | succ depth =>
        have hblanks := blanks_skipSpace rest
        dsimp only
        split
        · rename_i heq
          rw [heq] at hblanks
          exact .taken (Nat.zero_le _) (Nat.le_add_left 1 depth) (.emptyObject hblanks)
        · refine ((hmembers depth [] (skipSpace rest)).map Value.dict).imp ?_ fun f hfault =>
            hfault.opened hblanks.suffix (.inr rfl)
          rintro _ longest deepest after hdigits hdepth ⟨_, rfl, members, rfl, hleads⟩
          exact ⟨longest, deepest + 1, hdigits, Nat.succ_le_succ hdepth, .object hblanks hleads⟩
  · rename_i rest
    cases depth with
    | zero => exact .fault (causedBy_tooDeep _ (.inl rfl) rest)
    | succ depth =>
        have hblanks := blanks_skipSpace rest
        dsimp only
        split
        · rename_i heq
          rw [heq] at hblanks
          exact .taken (Nat.zero_le _) (Nat.le_add_left 1 depth) (.emptyArray hblanks)
        · refine ((hitems depth (skipSpace rest)).map Value.list).imp ?_ fun f hfault =>
            hfault.opened hblanks.suffix (.inl rfl)
          rintro _ longest deepest after hdigits hdepth ⟨vs, rfl, hleads⟩
          exact ⟨longest, deepest + 1, hdigits, Nat.succ_le_succ hdepth, .array hblanks hleads⟩
  · refine (readScalar_accounts cs depth).imp ?_ fun _ => id
    rintro v longest deepest after hdigits hdepth ⟨rfl, hscalar⟩
    exact ⟨longest, 0, hdigits, hdepth, .scalar hscalar⟩

private theorem itemsAccounts_succ (hvalue : ValueAccounts fuel) (hitems : ItemsAccounts fuel) :
    ItemsAccounts (fuel + 1) := by
  intro depth cs
  rw [readItems]
  have hfirst := hvalue depth cs
  generalize readValue fuel depth cs = found at hfirst ⊢
  cases hfirst with
  | fault hfault => exact .fault hfault
  | @taken v longest deepest after hdigits hdepth hv =>
      have hblanks := blanks_skipSpace after
      dsimp only
      split
      · rename_i heq
        rw [heq] at hblanks
        exact .taken hdigits hdepth (.lastItem hv hblanks)
      · rename_i more heq
        rw [heq] at hblanks
        have hnext := blanks_skipSpace more
        refine ((hitems depth (skipSpace more)).map (v :: ·)).imp ?_ fun f hfault =>
          hfault.mono ((hnext.suffix.trans hblanks.suffix_of_cons).trans hv.suffix)
        rintro _ longest' deepest' rest hdigits' hdepth' ⟨vs, rfl, hvs⟩
        exact ⟨_, _, Nat.max_le.2 ⟨hdigits, hdigits'⟩, Nat.max_le.2 ⟨hdepth, hdepth'⟩,
          .item hv hblanks hnext hvs⟩
      · exact .fault trivial

private theorem membersAccounts_succ (hvalue : ValueAccounts fuel)
    (hmembers : MembersAccounts fuel) :
    MembersAccounts (fuel + 1) := by
  intro depth before cs
  rw [readMembers.eq_def]
  dsimp only
  split
  · rename_i body
    split
    · rename_i hname
      obtain ⟨expected, left, rfl⟩ := readString_eq_error hname
      exact .fault trivial
    · rename_i name afterName hname
      have hcolon := blanks_skipSpace afterName
      split
      · rename_i afterColon heq
        rw [heq] at hcolon
        have hhead : HeadText name ('"' :: body) (skipSpace afterColon) :=
          ⟨afterName, afterColon, readString_sound hname, hcolon, blanks_skipSpace afterColon⟩
        have hfirst := hvalue depth (skipSpace afterColon)
        generalize readValue fuel depth (skipSpace afterColon) = found at hfirst ⊢
        cases hfirst with
        | fault hfault => exact .fault (hfault.mono hhead.suffix)
        | @taken v longest deepest after hdigits hdepth hv =>
            have hblanks := blanks_skipSpace after
            dsimp only
            split
            · rename_i heq
              rw [heq] at hblanks
              exact .taken hdigits hdepth ⟨[(name, v)], rfl, .lastMember hhead hv hblanks⟩
            · rename_i more heq
              rw [heq] at hblanks
              have hnext := blanks_skipSpace more
              have hsuffix : skipSpace more <:+ '"' :: body :=
                ((hnext.suffix.trans hblanks.suffix_of_cons).trans hv.suffix).trans hhead.suffix
              refine (hmembers depth (Entries.insert name v before) (skipSpace more)).imp ?_
                fun f hfault => hfault.mono hsuffix
              rintro _ longest' deepest' rest hdigits' hdepth' ⟨members, rfl, hleads⟩
              exact ⟨_, _, Nat.max_le.2 ⟨hdigits, hdigits'⟩, Nat.max_le.2 ⟨hdepth, hdepth'⟩,
                (name, v) :: members, rfl, .member hhead hv hblanks hnext hleads⟩
            · exact .fault trivial
      · exact .fault trivial
  · exact .fault trivial

private theorem accounts (fuel : Nat) :
    ValueAccounts fuel ∧ ItemsAccounts fuel ∧ MembersAccounts fuel := by
  -- Each reader hands less fuel to the others, so the three statements go up together.
  induction fuel with
  | zero =>
      exact ⟨fun _ _ => .fault trivial, fun _ _ => .fault trivial, fun _ _ _ => .fault trivial⟩
  | succ fuel ih =>
      obtain ⟨hvalue, hitems, hmembers⟩ := ih
      exact ⟨valueAccounts_succ hitems hmembers, itemsAccounts_succ hvalue hitems,
        membersAccounts_succ hvalue hmembers⟩

/-! ## A value is taken off -/

theorem Settles.map {rest : List Char} {a : α} {found : Read α}
    (h : Settles longest deepest depth (a, rest) found) (g : α → β) :
    Settles longest deepest depth (g a, rest) (found.map fun (a, rest) => (g a, rest)) := by
  cases h with
  | within hdigits hdepth => exact .within hdigits hdepth
  | beyond hbeyond hlimit => exact .beyond hbeyond hlimit

theorem Settles.later {a : α} {found : Except Fault α}
    (h : Settles longest' deepest' depth a found) (hdigits : longest ≤ maxIntegerDigits)
    (hdepth : deepest ≤ depth) :
    Settles (max longest longest') (max deepest deepest') depth a found := by
  cases h with
  | within hdigits' hdepth' =>
      exact .within (Nat.max_le.2 ⟨hdigits, hdigits'⟩) (Nat.max_le.2 ⟨hdepth, hdepth'⟩)
  | beyond hbeyond hlimit =>
      exact .beyond (fun h => hbeyond ⟨(Nat.max_le.1 h.1).2, (Nat.max_le.1 h.2).2⟩) hlimit

theorem Settles.inside {a : α} {found : Except Fault α}
    (h : Settles longest deepest depth a found) :
    Settles longest (deepest + 1) (depth + 1) a found := by
  cases h with
  | within hdigits hdepth => exact .within hdigits (Nat.succ_le_succ hdepth)
  | beyond hbeyond hlimit =>
      exact .beyond (fun h => hbeyond ⟨h.1, Nat.le_of_succ_le_succ h.2⟩) hlimit

theorem Phrase.Leads.head {p : Phrase} (h : p.Leads longest deepest cs rest) :
    ∃ c tail, cs = c :: tail ∧ isBlank c = false ∧ c ∉ [']', '}', '\ufeff'] := by
  induction h with
  | scalar hscalar =>
      obtain ⟨c, tail, rfl, hblank, hmarks⟩ := hscalar.head
      simp only [List.mem_cons, not_or] at hmarks
      exact ⟨c, tail, rfl, hblank, by simp [hmarks]⟩
  | emptyArray => exact ⟨_, _, rfl, rfl, by decide⟩
  | array => exact ⟨_, _, rfl, rfl, by decide⟩
  | emptyObject => exact ⟨_, _, rfl, rfl, by decide⟩
  | object => exact ⟨_, _, rfl, rfl, by decide⟩
  | lastItem _ _ ih => exact ih
  | item _ _ _ _ ih => exact ih
  | lastMember hhead =>
      obtain ⟨_, _, ⟨body, rfl, -⟩, -⟩ := hhead
      exact ⟨_, _, rfl, rfl, by decide⟩
  | member hhead =>
      obtain ⟨_, _, ⟨body, rfl, -⟩, -⟩ := hhead
      exact ⟨_, _, rfl, rfl, by decide⟩

theorem Phrase.Leads.opens {p : Phrase} (h : p.Leads longest deepest cs rest) : Opens cs := by
  obtain ⟨c, tail, rfl, hblank, hmarks⟩ := h.head
  exact ⟨c, tail, rfl, isSpace_of_isBlank hblank, hmarks⟩

theorem Blanks.skipSpace_opens (h : Blanks cs start) (hstart : Opens start) :
    skipSpace cs = start := by
  obtain ⟨c, tail, rfl, hspace, -⟩ := hstart
  exact h.skipSpace_cons hspace

theorem Opens.ne_cons (h : Opens cs) (hc : c ∈ [']', '}', '\ufeff']) (rest : List Char) :
    cs ≠ c :: rest := by
  have hne := h.append_ne hc [] rest
  rwa [List.append_nil] at hne

theorem Blanks.length_lt (h : Blanks after (c :: more)) (hafter : after <:+ cs)
    (hblanks : Blanks more start) : start.length < cs.length := by
  have hmore := (h.suffix.trans hafter).length_le
  have hstart := hblanks.suffix.length_le
  rw [List.length_cons] at hmore
  omega

/-- What the reader does at a text of the phrase.  A value takes two units of fuel for each of its
characters: an item in it costs one unit before its own reading begins. -/
def Phrase.ReadAt (longest deepest : Nat) (cs rest : List Char) : Phrase → Prop
  | .value v => ∀ fuel depth, 2 * cs.length ≤ fuel → EndsNumber rest →
    Settles longest deepest depth (v, rest) (readValue fuel depth cs)
  | .items vs => ∀ fuel depth, 2 * cs.length < fuel →
    Settles longest deepest depth (vs, rest) (readItems fuel depth cs)
  | .members entries => ∀ fuel depth before, 2 * cs.length < fuel →
    Settles longest deepest depth (Entries.override before entries, rest)
      (readMembers fuel depth before cs)

private theorem readAt_scalar (h : ScalarText v longest cs rest) :
    (Phrase.value v).ReadAt longest 0 cs rest := by
  intro fuel depth hfuel hrest
  have hsettles := h.settles hrest depth
  obtain ⟨c, tail, rfl, -, hmarks⟩ := h.head
  simp only [List.mem_cons, not_or] at hmarks
  rw [List.length_cons] at hfuel
  obtain ⟨fuel, rfl⟩ := Nat.exists_eq_add_one.2 (by omega : 0 < fuel)
  rwa [readValue_scalar hmarks.1 hmarks.2.1]

private theorem readAt_emptyArray (h : Blanks cs (']' :: rest)) :
    (Phrase.value (.list [])).ReadAt 0 1 ('[' :: cs) rest := by
  intro fuel depth hfuel _
  rw [List.length_cons] at hfuel
  obtain ⟨fuel, rfl⟩ := Nat.exists_eq_add_one.2 (by omega : 0 < fuel)
  cases depth with
  | zero => exact .beyond (by omega) (.tooDeep .array)
  | succ depth =>
      simp only [readValue, h.skipSpace_cons rfl]
      exact .within (Nat.zero_le _) (Nat.le_add_left 1 depth)

private theorem readAt_array {vs : List Value} (hblanks : Blanks cs start) (hstart : Opens start)
    (h : (Phrase.items vs).ReadAt longest deepest start rest) :
    (Phrase.value (.list vs)).ReadAt longest (deepest + 1) ('[' :: cs) rest := by
  intro fuel depth hfuel _
  rw [List.length_cons] at hfuel
  have hlength := hblanks.suffix.length_le
  obtain ⟨fuel, rfl⟩ := Nat.exists_eq_add_one.2 (by omega : 0 < fuel)
  cases depth with
  | zero => exact .beyond (by omega) (.tooDeep .array)
  | succ depth =>
      simp only [readValue, hblanks.skipSpace_opens hstart]
      split
      · exact absurd rfl (hstart.ne_cons (by simp) _)
      · exact ((h fuel depth (by omega)).map Value.list).inside

private theorem readAt_emptyObject (h : Blanks cs ('}' :: rest)) :
    (Phrase.value (.dict [])).ReadAt 0 1 ('{' :: cs) rest := by
  intro fuel depth hfuel _
  rw [List.length_cons] at hfuel
  obtain ⟨fuel, rfl⟩ := Nat.exists_eq_add_one.2 (by omega : 0 < fuel)
  cases depth with
  | zero => exact .beyond (by omega) (.tooDeep .object)
  | succ depth =>
      simp only [readValue, h.skipSpace_cons rfl]
      exact .within (Nat.zero_le _) (Nat.le_add_left 1 depth)

private theorem readAt_object {entries : Entries} (hblanks : Blanks cs start) (hstart : Opens start)
    (h : (Phrase.members entries).ReadAt longest deepest start rest) :
    (Phrase.value (.dict (Entries.override [] entries))).ReadAt longest (deepest + 1) ('{' :: cs)
      rest := by
  intro fuel depth hfuel _
  rw [List.length_cons] at hfuel
  have hlength := hblanks.suffix.length_le
  obtain ⟨fuel, rfl⟩ := Nat.exists_eq_add_one.2 (by omega : 0 < fuel)
  cases depth with
  | zero => exact .beyond (by omega) (.tooDeep .object)
  | succ depth =>
      simp only [readValue, hblanks.skipSpace_opens hstart]
      split
      · exact absurd rfl (hstart.ne_cons (by simp) _)
      · exact ((h fuel depth [] (by omega)).map Value.dict).inside

private theorem readAt_lastItem (h : (Phrase.value v).ReadAt longest deepest cs after)
    (hclose : Blanks after (']' :: rest)) : (Phrase.items [v]).ReadAt longest deepest cs rest := by
  intro fuel depth hfuel
  obtain ⟨fuel, rfl⟩ := Nat.exists_eq_add_one.2 (Nat.zero_lt_of_lt hfuel)
  have hfirst := h fuel depth (by omega) (hclose.endsNumber (closes_cons (by simp) rest))
  rw [readItems]
  generalize readValue fuel depth cs = found at hfirst ⊢
  cases hfirst with
  | beyond hbeyond hlimit => exact .beyond hbeyond hlimit
  | within hdigits hdepth =>
      simp only [hclose.skipSpace_cons rfl]
      exact .within hdigits hdepth

private theorem readAt_item {vs : List Value} (h : (Phrase.value v).ReadAt longest deepest cs after)
    (hafter : after <:+ cs) (hcomma : Blanks after (',' :: more)) (hblanks : Blanks more start)
    (hstart : Opens start) (hlater : (Phrase.items vs).ReadAt longest' deepest' start rest) :
    (Phrase.items (v :: vs)).ReadAt (max longest longest') (max deepest deepest') cs rest := by
  intro fuel depth hfuel
  obtain ⟨fuel, rfl⟩ := Nat.exists_eq_add_one.2 (Nat.zero_lt_of_lt hfuel)
  have hfirst := h fuel depth (by omega) (hcomma.endsNumber (closes_cons (by simp) more))
  have hshorter := hcomma.length_lt hafter hblanks
  rw [readItems]
  generalize readValue fuel depth cs = found at hfirst ⊢
  cases hfirst with
  | beyond hbeyond hlimit => exact .beyond (by omega) hlimit
  | within hdigits hdepth =>
      simp only [hcomma.skipSpace_cons rfl, hblanks.skipSpace_opens hstart]
      exact ((hlater fuel depth (by omega)).map (v :: ·)).later hdigits hdepth

theorem HeadText.readString_eq {name : String} (h : HeadText name cs start) :
    ∃ body afterName afterColon, cs = '"' :: body ∧ readString body = .ok (name, afterName) ∧
      Blanks afterName (':' :: afterColon) ∧ Blanks afterColon start := by
  obtain ⟨afterName, afterColon, ⟨body, rfl, hbody⟩, hcolon, hblanks⟩ := h
  exact ⟨body, afterName, afterColon, rfl, QuotedText.readString_eq ⟨body, rfl, hbody⟩, hcolon, hblanks⟩

section Members

variable {name : String} {f : Fault}

theorem HeadText.readMembers_fault (h : HeadText name cs start) (hstart : Opens start)
    (hvalue : readValue fuel depth start = .error f) (before : Entries) :
    readMembers (fuel + 1) depth before cs = .error f := by
  obtain ⟨body, afterName, afterColon, rfl, hname, hcolon, hblanks⟩ := h.readString_eq
  simp only [readMembers, hname, hcolon.skipSpace_cons rfl, hblanks.skipSpace_opens hstart, hvalue]

theorem HeadText.readMembers_last (h : HeadText name cs start) (hstart : Opens start)
    (hvalue : readValue fuel depth start = .ok (v, after)) (hclose : Blanks after ('}' :: rest))
    (before : Entries) :
    readMembers (fuel + 1) depth before cs = .ok (Entries.insert name v before, rest) := by
  obtain ⟨body, afterName, afterColon, rfl, hname, hcolon, hblanks⟩ := h.readString_eq
  simp only [readMembers, hname, hcolon.skipSpace_cons rfl, hblanks.skipSpace_opens hstart, hvalue,
    hclose.skipSpace_cons rfl]

theorem HeadText.readMembers_more (h : HeadText name cs start) (hstart : Opens start)
    (hvalue : readValue fuel depth start = .ok (v, after)) (hcomma : Blanks after (',' :: more))
    (before : Entries) :
    readMembers (fuel + 1) depth before cs =
      readMembers fuel depth (Entries.insert name v before) (skipSpace more) := by
  obtain ⟨body, afterName, afterColon, rfl, hname, hcolon, hblanks⟩ := h.readString_eq
  simp only [readMembers, hname, hcolon.skipSpace_cons rfl, hblanks.skipSpace_opens hstart, hvalue,
    hcomma.skipSpace_cons rfl]

end Members

private theorem readAt_lastMember {name : String} (hhead : HeadText name cs start)
    (hstart : Opens start)
    (h : (Phrase.value v).ReadAt longest deepest start after)
    (hclose : Blanks after ('}' :: rest)) :
    (Phrase.members [(name, v)]).ReadAt longest deepest cs rest := by
  intro fuel depth before hfuel
  obtain ⟨fuel, rfl⟩ := Nat.exists_eq_add_one.2 (Nat.zero_lt_of_lt hfuel)
  have hlength := hhead.suffix.length_le
  have hfirst := h fuel depth (by omega) (hclose.endsNumber (closes_cons (by simp) rest))
  generalize hfound : readValue fuel depth start = found at hfirst
  cases hfirst with
  | beyond hbeyond hlimit =>
      rw [hhead.readMembers_fault hstart hfound]
      exact .beyond hbeyond hlimit
  | within hdigits hdepth =>
      rw [hhead.readMembers_last hstart hfound hclose]
      exact .within hdigits hdepth

private theorem readAt_member {name : String} {entries : Entries} {next : List Char}
    (hhead : HeadText name cs start) (hstart : Opens start)
    (h : (Phrase.value v).ReadAt longest deepest start after) (hafter : after <:+ start)
    (hcomma : Blanks after (',' :: more)) (hblanks : Blanks more next) (hnext : Opens next)
    (hlater : (Phrase.members entries).ReadAt longest' deepest' next rest) :
    (Phrase.members ((name, v) :: entries)).ReadAt (max longest longest') (max deepest deepest')
      cs rest := by
  intro fuel depth before hfuel
  obtain ⟨fuel, rfl⟩ := Nat.exists_eq_add_one.2 (Nat.zero_lt_of_lt hfuel)
  have hlength := hhead.suffix.length_le
  have hfirst := h fuel depth (by omega) (hcomma.endsNumber (closes_cons (by simp) more))
  have hshorter := hcomma.length_lt hafter hblanks
  generalize hfound : readValue fuel depth start = found at hfirst
  cases hfirst with
  | beyond hbeyond hlimit =>
      rw [hhead.readMembers_fault hstart hfound]
      exact .beyond (by omega) hlimit
  | within hdigits hdepth =>
      rw [hhead.readMembers_more hstart hfound hcomma, hblanks.skipSpace_opens hnext]
      exact (hlater fuel depth (Entries.insert name v before) (by omega)).later hdigits hdepth

theorem Phrase.Leads.readAt {p : Phrase} (h : p.Leads longest deepest cs rest) :
    p.ReadAt longest deepest cs rest := by
  induction h with
  | scalar hscalar => exact readAt_scalar hscalar
  | emptyArray hblanks => exact readAt_emptyArray hblanks
  | array hblanks hitems ih => exact readAt_array hblanks hitems.opens ih
  | emptyObject hblanks => exact readAt_emptyObject hblanks
  | object hblanks hmembers ih => exact readAt_object hblanks hmembers.opens ih
  | lastItem _ hclose ih => exact readAt_lastItem ih hclose
  | item hvalue hcomma hblanks hitems ih ihItems =>
      exact readAt_item ih hvalue.suffix hcomma hblanks hitems.opens ihItems
  | lastMember hhead hvalue hclose ih => exact readAt_lastMember hhead hvalue.opens ih hclose
  | member hhead hvalue hcomma hblanks hmembers ih ihMembers =>
      exact readAt_member hhead hvalue.opens ih hvalue.suffix hcomma hblanks hmembers.opens
        ihMembers

/-! ## Whole texts -/

theorem Blanks.ne_mark (h : Blanks cs start) (hstart : Opens start) (rest : List Char) :
    cs ≠ '\ufeff' :: rest := by
  obtain ⟨blanks, hblanks, rfl⟩ := h
  cases blanks with
  | nil => exact hstart.ne_cons (by simp) rest
  | cons b blanks =>
      intro heq
      cases heq
      exact absurd (hblanks '\ufeff' (by simp)) (by decide)

theorem IsTextOf.exists_not_isBlank (h : IsTextOf v longest deepest cs) :
    ∃ c ∈ cs, isBlank c = false := by
  obtain ⟨start, rest, hstart, hvalue, -⟩ := h
  obtain ⟨c, tail, rfl, hblank, -⟩ := hvalue.head
  exact ⟨c, hstart.suffix.mem List.mem_cons_self, hblank⟩

/-- The text of a value is read if it is within the limits, and refused for a limit if not. -/
theorem IsTextOf.settles (h : IsTextOf v longest deepest cs) (depth : Nat) :
    Settles longest deepest depth v (readChars depth cs) := by
  obtain ⟨start, rest, hstart, hvalue, hend⟩ := h
  have hread := hvalue.readAt (2 * cs.length + 2) depth
    (by have := hstart.suffix.length_le; omega) (hend.endsNumber closes_nil)
  have hskip : skipSpace rest = [] := hend.skipSpace_eq (by simp)
  rw [readChars.eq_def]
  split
  · rename_i tail
    exact absurd rfl (hstart.ne_mark hvalue.opens tail)
  · rw [hstart.skipSpace_opens hvalue.opens]
    generalize readValue _ _ start = found at hread ⊢
    cases hread with
    | within hdigits hdepth =>
        simp only [hskip]
        exact .within hdigits hdepth
    | beyond hbeyond hlimit => exact .beyond hbeyond hlimit

theorem readChars_sound (h : readChars depth cs = .ok v) :
    ∃ longest deepest, longest ≤ maxIntegerDigits ∧ deepest ≤ depth ∧
      IsTextOf v longest deepest cs := by
  rw [readChars.eq_def] at h
  split at h
  · cases h
  · have hvalue := (accounts (2 * cs.length + 2)).1 depth (skipSpace cs)
    generalize readValue _ _ (skipSpace cs) = found at hvalue h
    cases hvalue with
    | fault => cases h
    | @taken w longest deepest rest hdigits hdepth hw =>
        have hend := blanks_skipSpace rest
        dsimp only at h
        split at h
        · rename_i heq
          cases h
          rw [heq] at hend
          exact ⟨longest, deepest, hdigits, hdepth, _, rest, blanks_skipSpace cs, hw, hend⟩
        · cases h

theorem readChars_causedBy {f : Fault} (h : readChars depth cs = .error f) :
    f.CausedBy depth cs := by
  rw [readChars.eq_def] at h
  split at h
  · cases h
    trivial
  · have hvalue := (accounts (2 * cs.length + 2)).1 depth (skipSpace cs)
    generalize readValue _ _ (skipSpace cs) = found at hvalue h
    cases hvalue with
    | fault hfault =>
        cases h
        exact hfault.mono (blanks_skipSpace cs).suffix
    | taken =>
        dsimp only at h
        split at h
        · cases h
        · cases h
          trivial

theorem readChars_eq_ok_iff : readChars depth cs = .ok v ↔
    ∃ longest deepest, longest ≤ maxIntegerDigits ∧ deepest ≤ depth ∧
      IsTextOf v longest deepest cs := by
  constructor
  · exact readChars_sound
  · rintro ⟨longest, deepest, hdigits, hdepth, htext⟩
    have hsettles := htext.settles depth
    generalize readChars depth cs = found at hsettles ⊢
    cases hsettles with
    | within => rfl
    | beyond hbeyond => exact absurd ⟨hdigits, hdepth⟩ hbeyond

end ChatPipeline.Json
