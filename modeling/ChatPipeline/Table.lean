/-!
# Tables

Names with what belongs to them, in the order in which they were first put.  Putting a name again
replaces what belongs to it and keeps its place.
-/

namespace ChatPipeline.Table

def put (name : String) (a : α) : List (String × α) → List (String × α)
  | [] => [(name, a)]
  | (n, b) :: rest => if n == name then (n, a) :: rest else (n, b) :: put name a rest

theorem lookup_cons (name n : String) (a : α) (rest : List (String × α)) :
    ((n, a) :: rest).lookup name = if name == n then some a else rest.lookup name := by
  cases h : name == n <;> simp [List.lookup_cons, h]

theorem lookup_put (table : List (String × α)) (name other : String) (a : α) :
    (put name a table).lookup other = if other == name then some a else table.lookup other := by
  induction table with
  | nil => rw [put, lookup_cons]
  | cons entry rest ih =>
    obtain ⟨n, b⟩ := entry
    by_cases hn : n = name
    · subst hn
      simp only [put, beq_self_eq_true, if_true, lookup_cons]
      split <;> rfl
    · have hne : (n == name) = false := beq_eq_false_iff_ne.2 hn
      simp only [put, hne, Bool.false_eq_true, if_false, lookup_cons, ih]
      by_cases ho : other = n
      · subst ho
        simp [hne]
      · simp [beq_eq_false_iff_ne.2 ho]

theorem names_put (table : List (String × α)) (name : String) (a : α) :
    (put name a table).map Prod.fst =
      if name ∈ table.map Prod.fst then table.map Prod.fst else table.map Prod.fst ++ [name] := by
  induction table with
  | nil => simp [put]
  | cons entry rest ih =>
    obtain ⟨n, b⟩ := entry
    by_cases hn : n = name
    · simp [put, hn]
    · have hne : (n == name) = false := beq_eq_false_iff_ne.2 hn
      simp only [put, hne, Bool.false_eq_true, if_false, List.map_cons, ih, List.mem_cons,
        Ne.symm hn, false_or]
      split <;> simp

theorem lookup_isSome_iff (table : List (String × α)) (name : String) :
    (table.lookup name).isSome ↔ name ∈ table.map Prod.fst := by
  rw [List.lookup_isSome_iff, List.mem_map]
  constructor
  · rintro ⟨entry, hentry, hname⟩
    exact ⟨entry, hentry, (eq_of_beq hname).symm⟩
  · rintro ⟨entry, hentry, rfl⟩
    exact ⟨entry, hentry, beq_self_eq_true _⟩

theorem mem_of_lookup {table : List (String × α)} {name : String} {a : α}
    (h : table.lookup name = some a) : (name, a) ∈ table := by
  rw [List.lookup_eq_some_iff] at h
  obtain ⟨before, after, rfl, -⟩ := h
  simp

theorem lookup_eq_some_iff {table : List (String × α)} (hnodup : (table.map Prod.fst).Nodup)
    {name : String} {a : α} : table.lookup name = some a ↔ (name, a) ∈ table := by
  constructor
  · exact mem_of_lookup
  · intro hmem
    induction table with
    | nil => simp at hmem
    | cons entry rest ih =>
      obtain ⟨n, b⟩ := entry
      rw [List.map_cons, List.nodup_cons] at hnodup
      rw [lookup_cons]
      rcases List.mem_cons.1 hmem with heq | hrest
      · cases heq
        simp
      · have hne : name ≠ n := by
          rintro rfl
          exact hnodup.1 (List.mem_map.2 ⟨_, hrest, rfl⟩)
        simp [hne, ih hnodup.2 hrest]

end ChatPipeline.Table
