import ChatPipeline.Files.Tree

/-!
# Paths and places

A path that goes on from another one leads where that one leads and then one name further
(`Place.find_below_eq_ok_iff`).  In a well-formed place the names of a directory are names that can
be written in a path, so what stands in a directory is found under its name
(`Place.find_below_isName`).
-/

namespace ChatPipeline.Text

private theorem pushFront_append (c : Char) {parts : List (List Char)} (h : parts ≠ [])
    (rest : List (List Char)) : pushFront c (parts ++ rest) = pushFront c parts ++ rest := by
  cases parts with
  | nil => exact absurd rfl h
  | cons => rfl

private theorem split_append (separator : Char) (cs rest : List Char) :
    split separator (cs ++ separator :: rest) = split separator cs ++ split separator rest := by
  induction cs with
  | nil => simp [split]
  | cons c cs ih =>
      rw [List.cons_append, split, split]
      split
      · rw [ih, List.cons_append]
      · rw [ih, pushFront_append c (split_ne_nil separator cs)]

theorem split_of_not_mem {separator : Char} {cs : List Char} (h : separator ∉ cs) :
    split separator cs = [cs] := by
  induction cs with
  | nil => rfl
  | cons c cs ih =>
      rw [List.mem_cons, not_or] at h
      rw [split, if_neg (Ne.symm h.1), ih h.2]
      rfl

end ChatPipeline.Text

namespace ChatPipeline.Files

open ChatPipeline.Text

/-! ## Paths -/

theorem endsWith_iff {path ending : String} :
    path.endsWith ending = true ↔ ∃ front, path = front ++ ending := by
  rw [← String.endsWith_toSlice, String.Slice.endsWith_string_iff, String.copy_toSlice]
  constructor
  · rintro ⟨front, hfront⟩
    refine ⟨String.ofList front, ?_⟩
    rw [String.ext_iff, String.toList_append, String.toList_ofList, hfront]
  · rintro ⟨front, rfl⟩
    exact ⟨front.toList, by rw [String.toList_append]⟩

theorem below_of_endsWith {path : String} (h : path.endsWith "/" = true) (name : String) :
    below path name = path ++ name := by
  rw [below, h, Bool.or_true, if_pos rfl]

theorem below_of_not_endsWith {path : String} (hpath : path ≠ "")
    (h : ¬ path.endsWith "/" = true) (name : String) :
    below path name = path ++ "/" ++ name := by
  rw [below, if_neg]
  simpa [hpath] using h

private theorem names_append {name : String} (hname : '/' ∉ name.toList) (path : String) :
    names (path ++ "/" ++ name) = names path ++ [name] := by
  have hpath : (path ++ "/" ++ name).toList = path.toList ++ '/' :: name.toList := by
    simp
  rw [names, names, hpath, split_append, split_of_not_mem hname, List.map_append]
  simp

private theorem startsWith_append {path : String} (hpath : path ≠ "") (rest : String) :
    (path ++ rest).startsWith "/" = path.startsWith "/" := by
  have hslash : "/".toList = ['/'] := rfl
  rw [Bool.eq_iff_iff, String.startsWith_string_iff, String.startsWith_string_iff,
    String.toList_append, hslash]
  cases hcs : path.toList with
  | nil => exact absurd (String.toList_eq_nil_iff.1 hcs) hpath
  | cons c cs => simp [List.cons_prefix_cons]

private theorem exists_below (path name : String) : ∃ rest, below path name = path ++ rest := by
  unfold below
  split
  · exact ⟨name, rfl⟩
  · exact ⟨"/" ++ name, String.append_assoc⟩

theorem below_ne_empty {path : String} (hpath : path ≠ "") (name : String) :
    below path name ≠ "" := by
  obtain ⟨rest, hrest⟩ := exists_below path name
  rw [hrest]
  simp [hpath]

theorem below_ne_empty_of_name {name : String} (hname : name ≠ "") (path : String) :
    below path name ≠ "" := by
  unfold below
  split <;> simp [hname]

/-! ## Places -/

namespace Place

variable {p q : Place} {path name : String}

theorem find_eq (hpath : path ≠ "") (hsize : path.utf8ByteSize ≤ maxPath) (p : Place) :
    p.find path = (Files.names path).foldlM step (p.origin path) := by
  rw [find, if_neg (by simpa using hpath), if_neg (Nat.not_lt.2 hsize)]

theorem size_of_find (h : p.find path = .ok q) : path ≠ "" ∧ path.utf8ByteSize ≤ maxPath := by
  unfold find at h
  split at h
  · cases h
  · rename_i hempty
    split at h
    · cases h
    · rename_i hsize
      exact ⟨by simpa using hempty, Nat.not_lt.1 hsize⟩

private theorem origin_append (hpath : path ≠ "") (rest : String) (p : Place) :
    p.origin (path ++ rest) = p.origin path := by
  rw [origin, origin, startsWith_append hpath]

theorem origin_of_no_slash (hname : '/' ∉ name.toList) (p : Place) : p.origin name = p := by
  rw [origin, if_neg]
  rw [String.startsWith_string_iff]
  exact fun h => hname (h.subset List.mem_cons_self)

private theorem find_append_eq_ok_iff {r : Place} (hpath : path ≠ "") (hname : '/' ∉ name.toList) :
    p.find (path ++ "/" ++ name) = .ok r ↔ (path ++ "/" ++ name).utf8ByteSize ≤ maxPath ∧
      ∃ q, p.find path = .ok q ∧ q.step name = .ok r := by
  have hnonempty : path ++ "/" ++ name ≠ "" := by simp [hpath]
  have horigin : p.origin (path ++ "/" ++ name) = p.origin path := by
    rw [String.append_assoc, origin_append hpath]
  have hsteps : (Files.names (path ++ "/" ++ name)).foldlM step (p.origin path) =
      (Files.names path).foldlM step (p.origin path) >>= fun q => q.step name := by
    rw [names_append hname, List.foldlM_append]
    simp only [List.foldlM_cons, List.foldlM_nil, bind_pure]
  constructor
  · intro h
    obtain ⟨-, hsize⟩ := size_of_find h
    have hpathSize : path.utf8ByteSize ≤ maxPath := by
      simp only [String.utf8ByteSize_append] at hsize
      omega
    rw [find_eq hnonempty hsize, horigin, hsteps, ← find_eq hpath hpathSize] at h
    cases hq : p.find path with
    | error f =>
        rw [hq] at h
        cases h
    | ok q =>
        rw [hq] at h
        exact ⟨hsize, q, rfl, h⟩
  · rintro ⟨hsize, q, hq, hstep⟩
    rw [find_eq hpath (size_of_find hq).2] at hq
    rw [find_eq hnonempty hsize, horigin, hsteps, hq]
    exact hstep

theorem step_empty_eq_ok_iff : p.step "" = .ok q ↔ p = q ∧ p.here.isFile = false := by
  obtain ⟨here, above⟩ := p
  cases here with
  | file => exact ⟨nofun, nofun⟩
  | directory entries =>
      constructor
      · intro h
        cases h
        exact ⟨rfl, rfl⟩
      · rintro ⟨rfl, -⟩
        rfl

private theorem step_cases (h : p.step name = .ok q) : ∃ entries, p.here = .directory entries ∧
    ((name = "" ∨ name = "." ∨ name = ".." ∧ p.above = []) ∧ q = p ∨
      name = ".." ∧ (∃ parent rest, p.above = parent :: rest ∧ q = ⟨parent, rest⟩) ∨
      name ≠ "" ∧ name ≠ "." ∧ name ≠ ".." ∧ name.utf8ByteSize ≤ maxName ∧
        ∃ t, entries.lookup name = some t ∧ q = ⟨t, p.here :: p.above⟩) := by
  obtain ⟨here, above⟩ := p
  cases here with
  | file => cases h
  | directory entries =>
      refine ⟨entries, rfl, ?_⟩
      unfold step at h
      dsimp only at h
      split at h
      · rename_i hhere
        cases h
        simp only [Bool.or_eq_true, String.isEmpty_iff, beq_iff_eq] at hhere
        exact .inl ⟨hhere.imp_right .inl, rfl⟩
      rename_i hhere
      split at h
      · rename_i habove
        rw [beq_iff_eq] at habove
        split at h
        · cases h
          exact .inr (.inl ⟨habove, _, _, rfl, rfl⟩)
        · cases h
          exact .inl ⟨.inr (.inr ⟨habove, rfl⟩), rfl⟩
      rename_i habove
      split at h
      · cases h
      rename_i hshort
      simp only [Bool.or_eq_true, String.isEmpty_iff, beq_iff_eq, not_or] at hhere habove
      split at h
      · rename_i t hfound
        cases h
        exact .inr (.inr ⟨hhere.1, hhere.2, habove, Nat.not_lt.1 hshort, t, hfound, rfl⟩)
      · cases h

theorem isFile_of_step {r : Place} (h : q.step name = .ok r) : q.here.isFile = false := by
  obtain ⟨entries, hhere, -⟩ := step_cases h
  rw [hhere]
  rfl

theorem find_root_eq_ok_iff {r : Place} (hname : '/' ∉ name.toList) :
    p.find ("/" ++ name) = .ok r ↔
      ("/" ++ name).utf8ByteSize ≤ maxPath ∧ p.root.step name = .ok r := by
  have horigin : p.origin ("/" ++ name) = p.root := by
    rw [origin, startsWith_append (by simp), if_pos (by simp)]
  have hnames : Files.names ("/" ++ name) = ["", name] := by
    have htext : ("/" ++ name).toList = [] ++ '/' :: name.toList := by simp
    rw [Files.names, htext, split_append, split_of_not_mem hname]
    simp [split]
  have hsteps : p.root.step name = .ok r ↔
      (Files.names ("/" ++ name)).foldlM step p.root = .ok r := by
    rw [hnames]
    simp only [List.foldlM_cons, List.foldlM_nil, bind_pure]
    constructor
    · intro h
      rw [step_empty_eq_ok_iff.2 ⟨rfl, isFile_of_step h⟩]
      exact h
    · intro h
      cases hroot : p.root.step "" with
      | error f =>
          rw [hroot] at h
          cases h
      | ok q =>
          rw [hroot] at h
          rwa [(step_empty_eq_ok_iff.1 hroot).1]
  constructor
  · intro h
    obtain ⟨hpath, hsize⟩ := size_of_find h
    rw [find_eq hpath hsize, horigin] at h
    exact ⟨hsize, hsteps.2 h⟩
  · rintro ⟨hsize, hstep⟩
    rw [find_eq (by simp) hsize, horigin]
    exact hsteps.1 hstep

theorem find_slash_eq_ok_iff (hpath : path ≠ "") : p.find (path ++ "/") = .ok q ↔
    (path ++ "/").utf8ByteSize ≤ maxPath ∧ p.find path = .ok q ∧ q.here.isFile = false := by
  rw [← String.append_empty (s := path ++ "/"), find_append_eq_ok_iff hpath (by simp)]
  simp only [step_empty_eq_ok_iff]
  constructor
  · rintro ⟨hsize, r, hr, rfl, hdirectory⟩
    exact ⟨hsize, hr, hdirectory⟩
  · rintro ⟨hsize, hq, hdirectory⟩
    exact ⟨hsize, q, hq, rfl, hdirectory⟩

theorem find_below_eq_ok_iff {r : Place} (hpath : path ≠ "") (hname : '/' ∉ name.toList) :
    p.find (below path name) = .ok r ↔
      (below path name).utf8ByteSize ≤ maxPath ∧ ∃ q, p.find path = .ok q ∧ q.step name = .ok r := by
  by_cases hend : path.endsWith "/" = true
  · rw [below_of_endsWith hend]
    obtain ⟨front, rfl⟩ := endsWith_iff.1 hend
    by_cases hfront : front = ""
    · subst hfront
      rw [String.empty_append, find_root_eq_ok_iff hname]
      refine and_congr_right fun hsize => ?_
      have hslash : ("/" ++ "").utf8ByteSize ≤ maxPath := by decide
      have hroot (q : Place) : p.find "/" = .ok q ↔ p.root = q ∧ p.root.here.isFile = false := by
        rw [← String.append_empty (s := "/"), find_root_eq_ok_iff (by simp), step_empty_eq_ok_iff]
        exact and_iff_right hslash
      constructor
      · intro hstep
        exact ⟨p.root, (hroot _).2 ⟨rfl, isFile_of_step hstep⟩, hstep⟩
      · rintro ⟨q, hq, hstep⟩
        rwa [((hroot q).1 hq).1]
    rw [find_append_eq_ok_iff hfront hname]
    refine and_congr_right fun hsize => ?_
    have hslash : (front ++ "/").utf8ByteSize ≤ maxPath := by
      rw [String.utf8ByteSize_append] at hsize
      omega
    simp only [find_slash_eq_ok_iff hfront]
    constructor
    · rintro ⟨q, hq, hstep⟩
      exact ⟨q, ⟨hslash, hq, isFile_of_step hstep⟩, hstep⟩
    · rintro ⟨q, ⟨-, hq, -⟩, hstep⟩
      exact ⟨q, hq, hstep⟩
  · rw [below_of_not_endsWith hpath hend, find_append_eq_ok_iff hpath hname]

theorem exists?_iff : p.exists? path = true ↔ ∃ q, p.find path = .ok q := by
  rw [exists?, find?]
  cases p.find path <;> simp

theorem isFile_iff : p.isFile path = true ↔ ∃ q, p.find path = .ok q ∧ q.here.isFile = true := by
  rw [isFile, find?]
  cases p.find path <;> simp

theorem isDirectory_iff :
    p.isDirectory path = true ↔ ∃ q, p.find path = .ok q ∧ q.here.isFile = false := by
  rw [isDirectory, find?]
  cases p.find path <;> simp

end Place

/-! ## Well-formed places -/

/-- What can stand for an entry of a directory in a path. -/
structure IsName (name : String) : Prop where
  ne_empty : name ≠ ""
  ne_here : name ≠ "."
  ne_above : name ≠ ".."
  no_slash : '/' ∉ name.toList
  short : name.utf8ByteSize ≤ maxName

instance (name : String) : Decidable (IsName name) :=
  decidable_of_iff (name ≠ "" ∧ name ≠ "." ∧ name ≠ ".." ∧ '/' ∉ name.toList ∧
    name.utf8ByteSize ≤ maxName)
    ⟨fun ⟨hempty, hhere, habove, hslash, hshort⟩ => ⟨hempty, hhere, habove, hslash, hshort⟩,
      fun h => ⟨h.ne_empty, h.ne_here, h.ne_above, h.no_slash, h.short⟩⟩

inductive Tree.WellFormed : Tree → Prop where
  | file (octets : List UInt8) : WellFormed (.file octets)
  | directory {entries : List (String × Tree)} (hdistinct : (entries.map Prod.fst).Nodup)
    (hnames : ∀ entry ∈ entries, IsName entry.1) (htrees : ∀ entry ∈ entries, WellFormed entry.2) :
    WellFormed (.directory entries)

theorem Tree.WellFormed.isName {entries : List (String × Tree)} {name : String} {t : Tree}
    (h : (Tree.directory entries).WellFormed) (hmem : (name, t) ∈ entries) : IsName name := by
  cases h with
  | directory _ hnames _ => exact hnames _ hmem

structure Place.WellFormed (p : Place) : Prop where
  here : p.here.WellFormed
  above : ∀ t ∈ p.above, t.WellFormed ∧ t.isFile = false

namespace Place

variable {p q : Place} {path name : String} {entries : List (String × Tree)}

theorem step_eq_ok_iff (hhere : p.here = .directory entries) (hname : IsName name) :
    p.step name = .ok q ↔ ∃ t, entries.lookup name = some t ∧ q = ⟨t, p.here :: p.above⟩ := by
  obtain ⟨here, above⟩ := p
  subst hhere
  have hempty : ¬ (name.isEmpty || name == ".") = true := by
    simp [hname.ne_empty, hname.ne_here]
  have habove : ¬ (name == "..") = true := by simp [hname.ne_above]
  rw [step]
  dsimp only
  rw [if_neg hempty, if_neg habove, if_neg (Nat.not_lt.2 hname.short)]
  cases entries.lookup name with
  | none => simp
  | some t => simp [eq_comm]

theorem WellFormed.step (hp : p.WellFormed) (h : p.step name = .ok q) : q.WellFormed := by
  obtain ⟨entries, hhere, hcases⟩ := step_cases h
  rcases hcases with ⟨-, rfl⟩ | ⟨-, parent, rest, habove, rfl⟩ | ⟨-, -, -, -, t, hfound, rfl⟩
  · exact hp
  · have hwell := hp.above
    rw [habove] at hwell
    obtain ⟨hparent, hrest⟩ := List.forall_mem_cons.1 hwell
    exact ⟨hparent.1, hrest⟩
  · have hwell := hp.here
    rw [hhere] at hwell
    refine ⟨?_, List.forall_mem_cons.2 ⟨⟨hp.here, by rw [hhere]; rfl⟩, hp.above⟩⟩
    cases hwell with
    | directory _ _ htrees => exact htrees _ (Table.mem_of_lookup hfound)

theorem WellFormed.isName_of_step (hp : p.WellFormed) (hname : '/' ∉ name.toList)
    (h : p.step name = .ok q) (hfile : q.here.isFile = true) : IsName name := by
  obtain ⟨entries, hhere, hcases⟩ := step_cases h
  rcases hcases with ⟨-, rfl⟩ | ⟨-, parent, rest, habove, rfl⟩ | ⟨hempty, hdot, hdots, hshort, -⟩
  · rw [hhere] at hfile
    cases hfile
  · have hdirectory : parent.isFile = false := (hp.above parent (by simp [habove])).2
    exact absurd hfile (by simp [hdirectory])
  · exact ⟨hempty, hdot, hdots, hname, hshort⟩

theorem WellFormed.foldlM {names : List String} (hp : p.WellFormed)
    (h : names.foldlM Place.step p = .ok q) : q.WellFormed := by
  induction names generalizing p with
  | nil =>
      cases h
      exact hp
  | cons name names ih =>
      rw [List.foldlM_cons] at h
      cases hstep : p.step name with
      | error f =>
          rw [hstep] at h
          cases h
      | ok next =>
          rw [hstep] at h
          exact ih (hp.step hstep) h

theorem WellFormed.root (hp : p.WellFormed) : p.root.WellFormed := by
  refine ⟨?_, nofun⟩
  unfold Place.root
  cases hlast : p.above.getLast? with
  | none => exact hp.here
  | some t => exact (hp.above t (List.mem_of_getLast? hlast)).1

theorem WellFormed.origin (hp : p.WellFormed) (path : String) : (p.origin path).WellFormed := by
  unfold Place.origin
  split
  · exact hp.root
  · exact hp

theorem WellFormed.find (hp : p.WellFormed) (h : p.find path = .ok q) : q.WellFormed := by
  obtain ⟨hpath, hsize⟩ := size_of_find h
  rw [find_eq hpath hsize] at h
  exact (hp.origin path).foldlM h

theorem WellFormed.directory (hp : p.WellFormed) {r : Place} (hr : p.find path = .ok r)
    (hentries : r.here = .directory entries) : (Tree.directory entries).WellFormed :=
  hentries ▸ (hp.find hr).here

private theorem find_below_isName (hp : p.WellFormed) {r : Place} (hr : p.find path = .ok r)
    (hentries : r.here = .directory entries) (hname : IsName name)
    (hsize : (below path name).utf8ByteSize ≤ maxPath) {t : Tree} :
    p.find (below path name) = .ok ⟨t, r.here :: r.above⟩ ↔ (name, t) ∈ entries := by
  cases hp.directory hr hentries with
  | directory hdistinct _ _ =>
      rw [find_below_eq_ok_iff (size_of_find hr).1 hname.no_slash, ← Table.lookup_eq_some_iff hdistinct]
      constructor
      · rintro ⟨-, q, hq, hstep⟩
        rw [hr] at hq
        cases hq
        obtain ⟨t', ht', heq⟩ := (step_eq_ok_iff hentries hname).1 hstep
        cases heq
        exact ht'
      · intro ht
        exact ⟨hsize, r, hr, (step_eq_ok_iff hentries hname).2 ⟨t, ht, rfl⟩⟩

theorem isFile_below_iff (hp : p.WellFormed) {r : Place} (hr : p.find path = .ok r)
    (hentries : r.here = .directory entries) (hname : '/' ∉ name.toList) :
    p.isFile (below path name) = true ↔
      (below path name).utf8ByteSize ≤ maxPath ∧ ∃ octets, (name, .file octets) ∈ entries := by
  rw [isFile_iff]
  constructor
  · rintro ⟨q, hq, hfile⟩
    obtain ⟨hsize, r', hr', hstep⟩ := (find_below_eq_ok_iff (size_of_find hr).1 hname).1 hq
    rw [hr] at hr'
    cases hr'
    have hname := (hp.find hr).isName_of_step hname hstep hfile
    obtain ⟨t, ht, rfl⟩ := (step_eq_ok_iff hentries hname).1 hstep
    cases t with
    | file octets => exact ⟨hsize, octets, Table.mem_of_lookup ht⟩
    | directory => cases hfile
  · rintro ⟨hsize, octets, hmem⟩
    have hname : IsName name := (hp.directory hr hentries).isName hmem
    exact ⟨_, (find_below_isName hp hr hentries hname hsize).2 hmem, rfl⟩

end Place

end ChatPipeline.Files
