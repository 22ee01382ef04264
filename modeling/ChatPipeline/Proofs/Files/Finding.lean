import ChatPipeline.Proofs.Text.Lines
import ChatPipeline.Proofs.Files.Globbing
import ChatPipeline.Tool.Files

/-!
# What the file finder finds

The finder should give the paths of the files at any depth below a directory whose names match a
pattern (`Wanted`).  Its search reports one path on a line, so it gives these paths cut into lines,
and just these paths where no path has a line boundary in it (`IsSearch`).  Without the search it
expands the pattern, which stays within the one directory, passes over hidden files and takes the
wildcards of the directory for wildcards (`IsExpansion`).  `findFiles_finds` is that it does just
this for every tree, directory and pattern.
-/

namespace ChatPipeline

open ChatPipeline.Text ChatPipeline.Files

namespace Files

/-! ## Files at any depth -/

/-- The names lead from a tree down to a file. -/
inductive FileAt : Tree → List String → Prop where
  | file (octets : List UInt8) : FileAt (.file octets) []
  | entry {entries : List (String × Tree)} {name : String} {t : Tree} {trail : List String}
    (hmem : (name, t) ∈ entries) (h : FileAt t trail) : FileAt (.directory entries) (name :: trail)

def pathTo (path : String) (trail : List String) : String := trail.foldl below path

variable {test : String → Bool} {found : String}

mutual

private theorem mem_filesWhere (path name : String) : ∀ t :
    Tree, found ∈ t.filesWhere test path name ↔
    ∃ trail, FileAt t trail ∧ test (trail.getLast?.getD name) = true ∧ pathTo path trail = found
  | .file octets => by
    rw [Tree.filesWhere]
    constructor
    · intro h
      split at h
      · rename_i htest
        exact ⟨[], .file octets, htest, (List.mem_singleton.1 h).symm⟩
      · cases h
    · rintro ⟨_, h, htest, rfl⟩
      cases h with
      | file =>
          have hname : test name = true := htest
          rw [if_pos hname]
          exact List.mem_singleton_self _
  | .directory entries => by
    rw [Tree.filesWhere, mem_filesIn path entries]
    constructor
    · rintro ⟨name, t, trail, hmem, htrail, htest, rfl⟩
      exact ⟨name :: trail, .entry hmem htrail, by rwa [List.getLast?_cons], rfl⟩
    · rintro ⟨_, h, htest, rfl⟩
      cases h with
      | entry hmem htrail =>
          rw [List.getLast?_cons] at htest
          exact ⟨_, _, _, hmem, htrail, htest, rfl⟩

private theorem mem_filesIn (path : String) : ∀ entries : List (String × Tree),
    found ∈ filesIn test path entries ↔ ∃ name t trail, (name, t) ∈ entries ∧ FileAt t trail ∧
      test (trail.getLast?.getD name) = true ∧ pathTo path (name :: trail) = found
  | [] => by simp [filesIn]
  | (name, t) :: entries => by
    rw [filesIn, List.mem_append, mem_filesWhere (below path name) name t, mem_filesIn path entries]
    constructor
    · rintro (⟨trail, htrail, htest, rfl⟩ | ⟨name', t', trail, hmem, htrail, htest, rfl⟩)
      · exact ⟨name, t, trail, List.mem_cons_self, htrail, htest, rfl⟩
      · exact ⟨name', t', trail, List.mem_cons_of_mem _ hmem, htrail, htest, rfl⟩
    · rintro ⟨name', t', trail, hmem, htrail, htest, rfl⟩
      rcases List.mem_cons.1 hmem with heq | hmem
      · cases heq
        exact .inl ⟨trail, htrail, htest, rfl⟩
      · exact .inr ⟨name', t', trail, hmem, htrail, htest, rfl⟩

end

/-- The path of a file somewhere below a directory, with a name that matches the pattern. -/
def Wanted (t : Tree) (directory pattern path : String) : Prop :=
  ∃ trail name, FileAt t (trail ++ [name]) ∧ matchesOctets pattern name = true ∧
    pathTo directory (trail ++ [name]) = path

/-! ## The search -/

variable {p : Place} {directory pattern path : String} {entries : List (String × Tree)}
  {above : List Tree}

/-- A path that looks like an option or an operator of the search is not taken for a path. -/
def IsPlainStart (directory : String) : Prop :=
  ∀ c ∈ directory.toList.head?, c ≠ '-' ∧ c ≠ '(' ∧ c ≠ '!'

private theorem search_eq (hstart : IsPlainStart directory) (p : Place) (pattern : String) :
    p.search directory pattern = some (p.filesBelow (matchesOctets pattern) directory) := by
  have hoption : isTakenForOption directory = false := by
    rw [isTakenForOption, Bool.or_eq_false_iff, Bool.and_eq_false_iff, beq_eq_false_iff_ne]
    refine ⟨.inl (Bool.eq_false_iff.2 fun hdash => ?_), ?_⟩
    · obtain ⟨rest, hrest⟩ := String.startsWith_string_iff.1 hdash
      exact (hstart '-' (by rw [← hrest]; rfl)).1 rfl
    · rintro rfl
      exact (hstart '(' rfl).2.1 rfl
  have hnegation : directory ≠ "!" := by
    rintro rfl
    exact (hstart '!' rfl).2.2 rfl
  rw [Place.search, hoption, if_neg Bool.false_ne_true, if_neg (by simpa using hnegation)]

private theorem mem_filesBelow (hdirectory : p.find directory = .ok ⟨.directory entries, above⟩)
    (pattern : String) : path ∈ p.filesBelow (matchesOctets pattern) directory ↔
      Wanted (.directory entries) directory pattern path := by
  have hfind : p.find? directory = some (.directory entries) := by rw [Place.find?, hdirectory]
  rw [Place.filesBelow, hfind]
  dsimp only
  rw [mem_filesWhere]
  constructor
  · rintro ⟨trail, htrail, htest, rfl⟩
    cases hlast : trail.getLast? with
    | none =>
        rw [List.getLast?_eq_none_iff.1 hlast] at htrail
        cases htrail
    | some name =>
        obtain ⟨front, rfl⟩ := List.getLast?_eq_some_iff.1 hlast
        rw [hlast] at htest
        exact ⟨front, name, htrail, htest, rfl⟩
  · rintro ⟨trail, name, htrail, hmatch, rfl⟩
    exact ⟨_, htrail, by rwa [List.getLast?_concat], rfl⟩

private theorem pathTo_ne_empty (hpath : path ≠ "") (trail : List String) :
    pathTo path trail ≠ "" := by
  induction trail generalizing path with
  | nil => exact hpath
  | cons name trail ih => exact ih (below_ne_empty hpath name)

theorem Wanted.ne_empty {t : Tree} (h : Wanted t directory pattern path)
    (hdirectory : directory ≠ "") :
    path ≠ "" := by
  obtain ⟨trail, name, -, -, rfl⟩ := h
  exact pathTo_ne_empty hdirectory _

end Files

namespace FileTools

open ChatPipeline.Files

variable {p : Place} {directory pattern : String} {entries : List (String × Tree)}
  {above : List Tree}

/-- What a search reports, line by line. -/
structure IsSearch (t : Tree) (directory pattern : String) (found : List String) : Prop where
  mem_iff : ∀ line, line ∈ found ↔
    line ≠ "" ∧ ∃ path, Wanted t directory pattern path ∧ line ∈ lines path
  exact_iff : (∀ path, path ∈ found ↔ Wanted t directory pattern path) ↔
    ∀ path, Wanted t directory pattern path → ∀ c ∈ path.toList, isLineBoundary c = false

/-- The files of one directory with a name that the pattern stands for, which a point at its start
keeps from wildcards. -/
def OnLevel (entries : List (String × Tree)) (directory pattern path : String) : Prop :=
  ∃ name octets, (name, .file octets) ∈ entries ∧ matchesCharacters pattern name = true ∧
    (isHidden name.toList = true → isHidden pattern.toList = true) ∧
    path.utf8ByteSize ≤ maxPath ∧ below directory name = path

/-- What the expansion of a pattern in a directory gives. -/
structure IsExpansion (p : Place) (entries : List (String × Tree)) (directory pattern : String)
    (found : List String) : Prop where
  mem_iff : ∀ path, path ∈ found ↔
    p.isFile path = true ∧ Globs (patternIn directory pattern).toList path
  onLevel_iff : isPattern directory.toList = false → ¬ directory.endsWith "//" = true →
    '/' ∉ pattern.toList → ∀ path, path ∈ found ↔ OnLevel entries directory pattern path

section Directory

variable (hdirectory : p.find directory = .ok ⟨.directory entries, above⟩)
include hdirectory

private theorem findFiles_eq (works : Bool) (pattern : String) :
    findFiles p works directory pattern =
      if '\x00' ∈ pattern.toList then .error (.fault .value "embedded null byte")
      else .ok (match if works then p.search directory pattern else none with
        | some paths => reportedPaths paths
        | none => p.expand (patternIn directory pattern)) := by
  have hexists : p.exists? directory = true := Place.exists?_iff.2 ⟨_, hdirectory⟩
  have hrefuse : refuseNull pattern =
      if '\x00' ∈ pattern.toList then .error (.fault .value "embedded null byte") else .ok () := by
    simp [refuseNull]
  rw [findFiles, hexists, if_neg (by simp), hrefuse]
  generalize (if works = true then p.search directory pattern else none) = searched
  by_cases hnull : '\x00' ∈ pattern.toList
  · rw [if_pos hnull, if_pos hnull]
    rfl
  · rw [if_neg hnull, if_neg hnull]
    cases searched <;> rfl

private theorem findFiles_searched (hstart : IsPlainStart directory)
    (hnull : '\x00' ∉ pattern.toList) :
    findFiles p true directory pattern =
      .ok (reportedPaths (p.filesBelow (matchesOctets pattern) directory)) := by
  rw [findFiles_eq hdirectory, if_neg hnull, if_pos rfl, search_eq hstart]

private theorem findFiles_expanded (hnull : '\x00' ∉ pattern.toList) :
    findFiles p false directory pattern = .ok (p.expand (patternIn directory pattern)) := by
  rw [findFiles_eq hdirectory, if_neg hnull]
  rfl

private theorem isSearch : IsSearch (.directory entries) directory pattern
    (reportedPaths (p.filesBelow (matchesOctets pattern) directory)) := by
  have hmem (line : String) :
      line ∈ reportedPaths (p.filesBelow (matchesOctets pattern) directory) ↔
        line ≠ "" ∧ ∃ path, Wanted (.directory entries) directory pattern path ∧
          line ∈ lines path := by
    rw [reportedPaths, List.mem_filter, and_comm]
    have hline : (!line.isEmpty) = true ↔ line ≠ "" := by simp
    rw [hline]
    refine and_congr_right fun hne => ?_
    simp only [mem_lines_report hne, mem_filesBelow hdirectory]
  refine ⟨hmem, ⟨fun hexact path hwanted => ?_, fun hunbroken line => ?_⟩⟩
  · obtain ⟨-, _, -, hlines⟩ := (hmem path).1 ((hexact path).2 hwanted)
    exact unbroken_of_mem_lines hlines
  · have hlines : ∀ path, Wanted (.directory entries) directory pattern path →
        path ≠ "" ∧ lines path = [path] := by
      intro path hwanted
      have hne : path ≠ "" := hwanted.ne_empty (Place.size_of_find hdirectory).1
      exact ⟨hne, lines_of_unbroken (hunbroken path hwanted) hne⟩
    rw [hmem]
    constructor
    · rintro ⟨-, path, hwanted, hline⟩
      rw [(hlines path hwanted).2] at hline
      rwa [List.mem_singleton.1 hline]
    · intro hwanted
      obtain ⟨hne, hpath⟩ := hlines line hwanted
      exact ⟨hne, line, hwanted, by rw [hpath]; exact List.mem_singleton_self _⟩

private theorem isExpansion (hp : p.WellFormed) :
    IsExpansion p entries directory pattern (p.expand (patternIn directory pattern)) := by
  refine ⟨fun path => Place.mem_expand_iff hp, fun hplain hslashes hpattern path => ?_⟩
  obtain ⟨hne, -⟩ := Place.size_of_find hdirectory
  have hrelative : patternIn directory pattern = below directory pattern := by
    rw [patternIn, if_neg]
    rw [String.startsWith_string_iff]
    exact fun h => hpattern (h.subset List.mem_cons_self)
  rw [Place.mem_expand_iff hp, hrelative, globs_below_iff hne hslashes hplain hpattern]
  split
  · constructor
    · rintro ⟨hfile, name, rfl, hname, hmatch, hhidden⟩
      obtain ⟨hsize, octets, hmem⟩ := (Place.isFile_below_iff hp hdirectory rfl hname.no_slash).1 hfile
      exact ⟨name, octets, hmem, hmatch, hhidden, hsize, rfl⟩
    · rintro ⟨name, octets, hmem, hmatch, hhidden, hsize, rfl⟩
      have hname : IsName name := (hp.directory hdirectory rfl).isName hmem
      exact ⟨(Place.isFile_below_iff hp hdirectory rfl hname.no_slash).2 ⟨hsize, octets, hmem⟩,
        name, rfl, hname, hmatch, hhidden⟩
  · rename_i hliteral
    rw [Bool.not_eq_true] at hliteral
    constructor
    · rintro ⟨hfile, rfl⟩
      obtain ⟨hsize, octets, hmem⟩ := (Place.isFile_below_iff hp hdirectory rfl hpattern).1 hfile
      exact ⟨pattern, octets, hmem, (matchesCharacters_plain hliteral).2 rfl, id, hsize, rfl⟩
    · rintro ⟨name, octets, hmem, hmatch, -, hsize, rfl⟩
      obtain rfl := (matchesCharacters_plain hliteral).1 hmatch
      exact ⟨(Place.isFile_below_iff hp hdirectory rfl hpattern).2 ⟨hsize, octets, hmem⟩, rfl⟩

end Directory

/-- In every existing directory the finder gives what its search or its expansion of the pattern
gives, and refuses only a pattern that no command can be given. -/
theorem findFiles_finds (hp : p.WellFormed)
    (hdirectory : p.find directory = .ok ⟨.directory entries, above⟩)
    (hstart : IsPlainStart directory) (pattern : String) :
    if '\x00' ∈ pattern.toList then ∀ works, findFiles p works directory pattern =
      .error (.fault .value "embedded null byte")
    else ∃ searched expanded, findFiles p true directory pattern = .ok searched ∧
      findFiles p false directory pattern = .ok expanded ∧
      IsSearch (.directory entries) directory pattern searched ∧
      IsExpansion p entries directory pattern expanded := by
  split
  · rename_i hnull
    intro works
    rw [findFiles_eq hdirectory, if_pos hnull]
  · rename_i hnull
    exact ⟨_, _, findFiles_searched hdirectory hstart hnull, findFiles_expanded hdirectory hnull,
      isSearch hdirectory, isExpansion hdirectory hp⟩

/-! ## Two levels of files -/

def upperLevel : List (String × Tree) :=
  [("a\u2028b.txt", .file []), ("sub", .directory [("c.txt", .file [])])]

def twoLevels : Place := ⟨.directory [("d", .directory upperLevel)], []⟩

private theorem twoLevels_wellFormed : twoLevels.WellFormed := by
  have hsub : (Tree.directory [("c.txt", .file [])]).WellFormed :=
    .directory (by decide) (by decide) (by simp [Tree.WellFormed.file])
  have hupper : (Tree.directory upperLevel).WellFormed :=
    .directory (by decide) (by decide) (by simp [upperLevel, Tree.WellFormed.file, hsub])
  exact ⟨.directory (by decide) (by decide) (by simp [hupper]), nofun⟩

private theorem find_twoLevels :
    twoLevels.find "d" = .ok ⟨.directory upperLevel, [twoLevels.here]⟩ := by
  rw [Place.find_isName (by decide)]
  exact (Place.step_eq_ok_iff rfl (by decide)).2 ⟨_, rfl, rfl⟩

private theorem plainStart_d : IsPlainStart "d" := by
  intro c hc
  have hd : "d".toList.head? = some 'd' := rfl
  rw [hd, Option.mem_some_iff] at hc
  subst hc
  decide

private theorem wanted_upper : Wanted (.directory upperLevel) "d" "*.txt" "d/a\u2028b.txt" :=
  ⟨[], "a\u2028b.txt", .entry List.mem_cons_self (.file []), by decide +kernel, by decide +kernel⟩

private theorem wanted_lower : Wanted (.directory upperLevel) "d" "c.txt" "d/sub/c.txt" :=
  ⟨["sub"], "c.txt", .entry (List.mem_cons_of_mem _ List.mem_cons_self)
    (.entry List.mem_cons_self (.file [])), by decide +kernel, by decide +kernel⟩

theorem twoLevels_finds : twoLevels.WellFormed ∧
    twoLevels.find "d" = .ok ⟨.directory upperLevel, [twoLevels.here]⟩ ∧ IsPlainStart "d" ∧
    ∃ searched expanded, findFiles twoLevels true "d" "*.txt" = .ok searched ∧
      findFiles twoLevels false "d" "*.txt" = .ok expanded ∧
      IsSearch (.directory upperLevel) "d" "*.txt" searched ∧
      IsExpansion twoLevels upperLevel "d" "*.txt" expanded := by
  refine ⟨twoLevels_wellFormed, find_twoLevels, plainStart_d, ?_⟩
  have h := findFiles_finds twoLevels_wellFormed find_twoLevels plainStart_d "*.txt"
  rwa [if_neg (by decide)] at h

/-- The search loses the file whose name has a line boundary in it, and the expansion finds no file
on the lower level. -/
theorem twoLevels_loses : twoLevels.WellFormed ∧
    twoLevels.find "d" = .ok ⟨.directory upperLevel, [twoLevels.here]⟩ ∧ IsPlainStart "d" ∧
    (Wanted (.directory upperLevel) "d" "*.txt" "d/a\u2028b.txt" ∧
      ∃ found, findFiles twoLevels true "d" "*.txt" = .ok found ∧ "d/a\u2028b.txt" ∉ found) ∧
    ∃ searched expanded, findFiles twoLevels true "d" "c.txt" = .ok searched ∧
      findFiles twoLevels false "d" "c.txt" = .ok expanded ∧
      "d/sub/c.txt" ∈ searched ∧ "d/sub/c.txt" ∉ expanded := by
  refine ⟨twoLevels_wellFormed, find_twoLevels, plainStart_d,
    ⟨wanted_upper, _, findFiles_searched find_twoLevels plainStart_d (by decide), ?_⟩,
    _, _, findFiles_searched find_twoLevels plainStart_d (by decide),
    findFiles_expanded find_twoLevels (by decide), ?_, ?_⟩
  · intro hfound
    obtain ⟨-, path, -, hline⟩ := ((isSearch find_twoLevels).mem_iff _).1 hfound
    exact absurd (unbroken_of_mem_lines hline '\u2028' (by decide)) (by decide)
  · have hline : "d/sub/c.txt" ∈ lines "d/sub/c.txt" := by decide +kernel
    exact ((isSearch find_twoLevels).mem_iff _).2 ⟨by decide, _, wanted_lower, hline⟩
  · intro hfound
    obtain ⟨name, octets, hmem, hmatch, -⟩ :=
      ((isExpansion find_twoLevels twoLevels_wellFormed).onLevel_iff (by decide) (by decide +kernel)
        (by decide) _).1 hfound
    obtain ⟨rfl, -⟩ : name = "a\u2028b.txt" ∧ octets = [] := by simpa [upperLevel] using hmem
    exact absurd hmatch (by decide +kernel)

end FileTools

end ChatPipeline
