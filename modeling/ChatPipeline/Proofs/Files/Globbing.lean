import Mathlib.Data.List.DropRight
import ChatPipeline.Files.Search
import ChatPipeline.Proofs.Files.Paths

/-!
# What a path pattern stands for

A path pattern is read from its last part on: what stands before the last slashes is a pattern for
the directory, and the part after them is a name or a pattern for names (`Globs`).  The files that
`Place.expand` finds are the files that there are under such a path (`Place.mem_expand_iff`), so its
fuel is enough and no directory on the way has to be tested.
-/

namespace ChatPipeline.Files

open ChatPipeline.Text

/-! ## The last part of a path -/

/-- The slashes between the directory and the last part belong to neither, unless nothing but
slashes stands in front. -/
inductive SplitLast : List Char → List Char → List Char → Prop where
  | root {directory base : List Char} (hdirectory : ∀ c ∈ directory, c = '/') (hbase : '/' ∉ base) :
    SplitLast (directory ++ base) directory base
  | inner {directory slashes base : List Char} {c : Char} (hlast : directory.getLast? = some c)
    (hc : c ≠ '/') (hslashes : ∀ c ∈ slashes, c = '/') (hne : slashes ≠ []) (hbase : '/' ∉ base) :
    SplitLast (directory ++ slashes ++ base) directory base

variable {path directory base slashes : List Char}

private theorem rtakeWhile_append (hbase : '/' ∉ base) {head : List Char}
    (hhead : ∀ c ∈ head.getLast?, c = '/') : (head ++ base).rtakeWhile (· != '/') = base := by
  have hall : ∀ c ∈ base.reverse, (c != '/') = true := by
    intro c hc
    simpa using ne_of_mem_of_not_mem (List.mem_reverse.1 hc) hbase
  rw [List.rtakeWhile, List.reverse_append, List.takeWhile_append_of_pos hall]
  cases hreverse : head.reverse with
  | nil => simp
  | cons c rest =>
      have hslash : c = '/' := hhead c (by rw [← List.head?_reverse, hreverse]; rfl)
      simp [hslash]

private theorem splitLast_append (hbase : '/' ∉ base) {head : List Char}
    (hhead : ∀ c ∈ head.getLast?, c = '/') : splitLast (head ++ base) =
      if head.all (· == '/') then (head, base) else (head.rdropWhile (· == '/'), base) := by
  have htake : ((head ++ base).reverse.takeWhile (· != '/')).reverse = base :=
    rtakeWhile_append hbase hhead
  have hlength : (head ++ base).length - base.length = head.length := by simp
  rw [splitLast, htake, hlength, List.take_left]
  rfl

private theorem rdropWhile_append_slashes (hslashes : ∀ c ∈ slashes, c = '/') {c : Char}
    (hlast : directory.getLast? = some c) (hc : c ≠ '/') :
    (directory ++ slashes).rdropWhile (· == '/') = directory := by
  have hall : ∀ c ∈ slashes.reverse, (c == '/') = true := by
    intro c hmem
    simpa using hslashes c (List.mem_reverse.1 hmem)
  rw [List.rdropWhile, List.reverse_append, List.dropWhile_append_of_pos hall, ← List.rdropWhile,
    List.rdropWhile_eq_self_iff]
  intro hne
  rw [List.getLast?_eq_some_getLast hne, Option.some.injEq] at hlast
  rw [hlast]
  simpa using hc

theorem SplitLast.eq (h : SplitLast path directory base) : splitLast path = (directory, base) := by
  cases h with
  | root hdirectory hbase =>
      rw [splitLast_append hbase fun c hc => hdirectory c (List.mem_of_getLast? hc), if_pos]
      simpa using hdirectory
  | @inner _ slashes _ c hlast hc hslashes hne hbase =>
      have hends : ∀ c ∈ (directory ++ slashes).getLast?, c = '/' := by
        rw [List.getLast?_append_of_ne_nil _ hne]
        exact fun c hc => hslashes c (List.mem_of_getLast? hc)
      rw [splitLast_append hbase hends, if_neg, rdropWhile_append_slashes hslashes hlast hc]
      simp only [List.all_eq_true, not_forall]
      exact ⟨c, List.mem_append_left _ (List.mem_of_getLast? hlast), by simpa using hc⟩

private theorem getLast?_rdropWhile {p : Char → Bool} {cs : List Char} {c : Char}
    (h : (cs.rdropWhile p).getLast? = some c) : p c = false := by
  have hfirst := List.head?_dropWhile_not p cs.reverse
  rw [List.rdropWhile, List.getLast?_reverse] at h
  rw [h] at hfirst
  exact hfirst

private theorem exists_splitLast (path : List Char) :
    ∃ directory base, SplitLast path directory base := by
  have hpath : path.rdropWhile (· != '/') ++ path.rtakeWhile (· != '/') = path :=
    List.rdropWhile_append_rtakeWhile
  have hbase : '/' ∉ path.rtakeWhile (· != '/') := by
    intro hmem
    simpa using List.mem_rtakeWhile_imp hmem
  have hhead : ∀ c, (path.rdropWhile (· != '/')).getLast? = some c → c = '/' := by
    intro c hc
    simpa using getLast?_rdropWhile hc
  generalize path.rtakeWhile (· != '/') = base at hpath hbase
  generalize path.rdropWhile (· != '/') = head at hpath hhead
  subst hpath
  by_cases hroot : ∀ c ∈ head, c = '/'
  · exact ⟨_, _, .root hroot hbase⟩
  have hsplit : head.rdropWhile (· == '/') ++ head.rtakeWhile (· == '/') = head :=
    List.rdropWhile_append_rtakeWhile
  have hslashes : ∀ c ∈ head.rtakeWhile (· == '/'), c = '/' := by
    intro c hc
    simpa using List.mem_rtakeWhile_imp hc
  have hlast : ∀ c, (head.rdropWhile (· == '/')).getLast? = some c → c ≠ '/' := by
    intro c hc
    simpa using getLast?_rdropWhile hc
  generalize head.rtakeWhile (· == '/') = slashes at hsplit hslashes
  generalize head.rdropWhile (· == '/') = directory at hsplit hlast
  subst hsplit
  cases hdirectory : directory.getLast? with
  | none =>
      rw [List.getLast?_eq_none_iff] at hdirectory
      subst hdirectory
      exact absurd hslashes hroot
  | some c =>
      refine ⟨_, _, .inner hdirectory (hlast c hdirectory) hslashes ?_ hbase⟩
      rintro rfl
      rw [List.append_nil] at hhead
      exact hlast c hdirectory (hhead c hdirectory)

theorem SplitLast.no_slash (h : SplitLast path directory base) : '/' ∉ base := by
  cases h with
  | root _ hbase => exact hbase
  | inner _ _ _ _ hbase => exact hbase

theorem SplitLast.eq_base (h : SplitLast path [] base) : path = base := by
  cases h with
  | root => rfl
  | inner hlast => cases hlast

theorem SplitLast.length_lt (h : SplitLast path directory base) (hpath : isPattern path = true) :
    directory.length < path.length := by
  cases h with
  | root hdirectory =>
      cases base with
      | nil =>
          obtain ⟨c, hc, hwild⟩ := List.any_eq_true.1 hpath
          rw [List.append_nil] at hc
          rw [hdirectory c hc] at hwild
          cases hwild
      | cons => simp
  | inner _ _ _ hne =>
      have hpos := List.length_pos_iff.2 hne
      simp only [List.length_append]
      omega

/-! ## Paths of a pattern -/

/-- What a path pattern stands for, whether there is something or not. -/
inductive Globs : List Char → String → Prop where
  | plain {path : List Char} (hpath : isPattern path = false) : Globs path (String.ofList path)
  | named {path directory base : List Char} {found : String} (hpath : isPattern path = true)
    (hsplit : SplitLast path directory base) (hdirectory : Globs directory found)
    (hbase : isPattern base = false) : Globs path (below found (String.ofList base))
  | like {path directory base : List Char} {found name : String} (hpath : isPattern path = true)
    (hsplit : SplitLast path directory base) (hdirectory : Globs directory found)
    (hbase : isPattern base = true) (hname : IsName name)
    (hlike : matchesCharacters (String.ofList base) name = true)
    (hhidden : isHidden name.toList = true → isHidden base = true) : Globs path (below found name)

theorem Globs.eq_of_plain {found : String} (h : Globs path found) (hpath : isPattern path = false) :
    found = String.ofList path := by
  cases h with
  | plain => rfl
  | named hwild =>
      rw [hwild] at hpath
      cases hpath
  | like hwild =>
      rw [hwild] at hpath
      cases hpath

private theorem globs_iff (hpath : isPattern path = true) (hsplit : SplitLast path directory base)
    {found : String} : Globs path found ↔ ∃ d, Globs directory d ∧
      if isPattern base = true then ∃ name, found = below d name ∧ IsName name ∧
        matchesCharacters (String.ofList base) name = true ∧
        (isHidden name.toList = true → isHidden base = true)
      else found = below d (String.ofList base) := by
  have hunique {directory' base' : List Char} (h : SplitLast path directory' base') :
      directory' = directory ∧ base' = base := Prod.mk.inj (h.eq.symm.trans hsplit.eq)
  constructor
  · intro h
    cases h with
    | plain hplain =>
        rw [hpath] at hplain
        cases hplain
    | named _ hsplit' hdirectory hbase =>
        obtain ⟨rfl, rfl⟩ := hunique hsplit'
        exact ⟨_, hdirectory, by rw [hbase, if_neg Bool.false_ne_true]⟩
    | like _ hsplit' hdirectory hbase hname hlike hhidden =>
        obtain ⟨rfl, rfl⟩ := hunique hsplit'
        exact ⟨_, hdirectory, by rw [if_pos hbase]; exact ⟨_, rfl, hname, hlike, hhidden⟩⟩
  · rintro ⟨d, hdirectory, h⟩
    split at h
    · rename_i hbase
      obtain ⟨name, rfl, hname, hlike, hhidden⟩ := h
      exact .like hpath hsplit hdirectory hbase hname hlike hhidden
    · rename_i hbase
      rw [h]
      exact .named hpath hsplit hdirectory (Bool.not_eq_true _ ▸ hbase)

private theorem globs_plain_iff (hpath : isPattern path = false) {found : String} :
    Globs path found ↔ found = String.ofList path :=
  ⟨fun h => h.eq_of_plain hpath, fun h => h ▸ .plain hpath⟩

theorem Globs.ne_empty {found : String} (h : Globs path found) (hpath : path ≠ []) :
    found ≠ "" := by
  induction h with
  | plain => simpa using hpath
  | @named path directory base found hwild hsplit _ hbase ih =>
      refine below_ne_empty (ih ?_) _
      rintro rfl
      rw [hsplit.eq_base, hbase] at hwild
      cases hwild
  | like _ _ _ _ hname => exact below_ne_empty_of_name hname.ne_empty _

/-! ### Patterns without wildcards -/

theorem isChar_toNat (c d : Char) : isChar c.toNat d = (c == d) := by
  rw [Bool.eq_iff_iff, isChar, beq_iff_eq, beq_iff_eq, Char.toNat_inj]

private theorem readTokens_plain {cs : List Char} (hplain : isPattern cs = false) {fuel : Nat}
    (hfuel : cs.length ≤ fuel) : readTokens characterDialect fuel (cs.map Char.toNat) =
      cs.map fun c => .exactly c.toNat := by
  induction cs generalizing fuel with
  | nil => cases fuel <;> rfl
  | cons c cs ih =>
      obtain ⟨fuel, rfl⟩ := Nat.exists_eq_add_one.2 (Nat.zero_lt_of_lt hfuel)
      rw [isPattern, List.any_cons, Bool.or_eq_false_iff] at hplain
      obtain ⟨hc, hcs⟩ := hplain
      simp only [List.contains_eq_mem, List.mem_cons, List.not_mem_nil, or_false,
        decide_eq_false_iff_not, not_or] at hc
      obtain ⟨hstar, hmark, hbracket⟩ := hc
      rw [List.map_cons, List.map_cons, ← ih hcs (Nat.le_of_succ_le_succ hfuel)]
      simp [readTokens, isChar_toNat, hstar, hmark, hbracket, characterDialect]

private theorem accepts_exactly {units other : List Nat} :
    accepts (units.map Token.exactly) other = true ↔ other = units := by
  induction units generalizing other with
  | nil => simp [accepts]
  | cons n units ih =>
      cases other with
      | nil => simp [accepts]
      | cons m other => simp [accepts, Token.holds, ih]

theorem matchesCharacters_plain {pattern name : String}
    (hplain : isPattern pattern.toList = false) :
    matchesCharacters pattern name = true ↔ name = pattern := by
  have htokens : tokens characterDialect (characters pattern) =
      (characters pattern).map Token.exactly := by
    rw [tokens, characters, List.map_map]
    exact readTokens_plain hplain (by simp)
  rw [matchesCharacters, htokens, accepts_exactly, characters, characters,
    List.map_inj_right fun _ _ => Char.toNat_inj.1, String.toList_inj]

/-! ## Listings -/

namespace Place

variable {p q : Place} {name : String} {t : Tree} {only : Bool}

def listed (p : Place) (path : String) : List (String × Tree) :=
  ((p.find? path).map Tree.entries).getD []

private theorem mem_namesLike {cs pattern : List Char} : cs ∈ p.namesLike directory pattern only ↔
    ∃ name t, (name, t) ∈ p.listed (if directory.isEmpty then "." else String.ofList directory) ∧
      (only = true → t.isFile = false) ∧ (isHidden name.toList = true → isHidden pattern = true) ∧
      matchesCharacters (String.ofList pattern) name = true ∧ name.toList = cs := by
  have hdirectories (t : Tree) : (!only || !t.isFile) = true ↔ (only = true → t.isFile = false) := by
    cases only <;> simp
  have hhidden (name : String) : (isHidden pattern || !isHidden name.toList) = true ↔
      (isHidden name.toList = true → isHidden pattern = true) := by
    cases isHidden pattern <;> simp
  simp only [namesLike, listed, List.mem_map, List.mem_filter, Prod.exists, Bool.and_eq_true,
    hdirectories, hhidden]
  constructor
  · rintro ⟨_, ⟨⟨name, t, ⟨hlisted, honly, hpoint⟩, rfl⟩, hlike⟩, rfl⟩
    exact ⟨name, t, hlisted, honly, hpoint, hlike, rfl⟩
  · rintro ⟨name, t, hlisted, honly, hpoint, hlike, rfl⟩
    exact ⟨name, ⟨⟨name, t, ⟨hlisted, honly, hpoint⟩, rfl⟩, hlike⟩, rfl⟩

theorem mem_listed {path : String} : (name, t) ∈ p.listed path ↔
    ∃ q entries, p.find path = .ok q ∧ q.here = .directory entries ∧ (name, t) ∈ entries := by
  unfold listed find?
  cases p.find path with
  | error f => simp
  | ok q =>
      cases hhere : q.here with
      | file => simp [Tree.entries, hhere]
      | directory entries => simp [Tree.entries, hhere]

private theorem isName_of_listed (hp : p.WellFormed) {path : String}
    (h : (name, t) ∈ p.listed path) :
    IsName name := by
  obtain ⟨q, entries, hq, hhere, hmem⟩ := mem_listed.1 h
  exact (hp.directory hq hhere).isName hmem

private theorem mem_nameIn {cs name : List Char} : cs ∈ p.nameIn directory name ↔ cs = name ∧
    if name.isEmpty then p.isDirectory (String.ofList directory) = true
    else p.exists? (below (String.ofList directory) (String.ofList name)) = true := by
  unfold nameIn
  dsimp only
  split <;> split <;> simp_all

/-! ## Levels of a path -/

theorem mem_expandWithin_plain (hpath : isPattern path = false)
    (hsplit : SplitLast path directory base)
    (fuel : Nat) {cs : List Char} : cs ∈ p.expandWithin (fuel + 1) only path ↔ cs = path ∧
      if base.isEmpty then p.isDirectory (String.ofList directory) = true
      else p.exists? (String.ofList path) = true := by
  rw [expandWithin, hsplit.eq, hpath]
  have hnone : (!false) = true := rfl
  dsimp only
  rw [if_pos hnone]
  split <;> split <;> simp_all

private theorem expandWithin_here (hpath : isPattern path = true) (hsplit : SplitLast path [] base)
    (fuel : Nat) : p.expandWithin (fuel + 1) only path = p.namesLike [] base only := by
  rw [expandWithin, hsplit.eq, hpath]
  rfl

private theorem mem_expandWithin_below (hpath : isPattern path = true)
    (hsplit : SplitLast path directory base)
    (hdirectory : directory ≠ []) (fuel : Nat) {cs : List Char} :
    cs ∈ p.expandWithin (fuel + 1) only path ↔
      ∃ d ∈ if isPattern directory = true then p.expandWithin fuel true directory else [directory],
      ∃ name ∈ if isPattern base = true then p.namesLike d base only else p.nameIn d base,
        (below (String.ofList d) (String.ofList name)).toList = cs := by
  have hne : directory ≠ path := by
    rintro rfl
    exact Nat.lt_irrefl _ (hsplit.length_lt hpath)
  have hempty : ¬ directory.isEmpty = true := by simpa using hdirectory
  rw [expandWithin, hsplit.eq, hpath]
  dsimp only
  rw [if_neg (by simp), if_neg hempty]
  simp only [hne, ne_eq, not_false_eq_true, true_and, List.mem_flatMap, List.mem_map]

/-! ## All paths of a pattern -/

theorem globs_of_mem_expandWithin (hp : p.WellFormed) {fuel : Nat} {cs : List Char}
    (h : cs ∈ p.expandWithin fuel only path) : Globs path (String.ofList cs) := by
  induction fuel generalizing only path cs with
  | zero => cases h
  | succ fuel ih =>
      obtain ⟨directory, base, hsplit⟩ := exists_splitLast path
      cases hpath : isPattern path with
      | false =>
          obtain ⟨rfl, -⟩ := (mem_expandWithin_plain hpath hsplit fuel).1 h
          exact .plain hpath
      | true =>
          by_cases hdirectory : directory = []
          · subst hdirectory
            rw [expandWithin_here hpath hsplit] at h
            obtain ⟨name, t, hlisted, -, hhidden, hlike, rfl⟩ := mem_namesLike.1 h
            have hbase : isPattern base = true := hsplit.eq_base ▸ hpath
            rw [String.ofList_toList]
            exact .like hpath hsplit (.plain rfl) hbase (isName_of_listed hp hlisted) hlike hhidden
          obtain ⟨d, hd, name, hname, rfl⟩ :=
            (mem_expandWithin_below hpath hsplit hdirectory fuel).1 h
          have hfound : Globs directory (String.ofList d) := by
            split at hd
            · exact ih hd
            · rename_i hplain
              rw [List.mem_singleton.1 hd]
              exact .plain (Bool.not_eq_true _ ▸ hplain)
          rw [String.ofList_toList]
          cases hbase : isPattern base with
          | false =>
              rw [hbase, if_neg Bool.false_ne_true] at hname
              rw [(mem_nameIn.1 hname).1]
              exact .named hpath hsplit hfound hbase
          | true =>
              rw [hbase, if_pos rfl] at hname
              obtain ⟨name, t, hlisted, -, hhidden, hlike, rfl⟩ := mem_namesLike.1 hname
              rw [String.ofList_toList]
              exact .like hpath hsplit hfound hbase (isName_of_listed hp hlisted) hlike hhidden

private theorem find_of_slashes (hslashes : ∀ c ∈ slashes, c = '/') (hne : slashes ≠ [])
    {path : String}
    (hpath : path ≠ "") (h : p.find (path ++ String.ofList slashes) = .ok q) :
    p.find path = .ok q ∧ q.here.isFile = false := by
  induction slashes generalizing path with
  | nil => exact absurd rfl hne
  | cons c slashes ih =>
      obtain ⟨rfl, hrest⟩ := List.forall_mem_cons.1 hslashes
      have hcons : path ++ String.ofList ('/' :: slashes) = path ++ "/" ++ String.ofList slashes := by
        rw [String.ext_iff]
        simp
      rw [hcons] at h
      have hslash : p.find (path ++ "/") = .ok q := by
        by_cases hlast : slashes = []
        · subst hlast
          rwa [String.ofList_nil, String.append_empty] at h
        · exact (ih hrest hlast (by simp) h).1
      exact ((find_slash_eq_ok_iff hpath).1 hslash).2

theorem find_isName (hname : IsName name) : p.find name = p.step name := by
  have hsize : name.utf8ByteSize ≤ maxPath := Nat.le_trans hname.short (by decide)
  rw [find_eq hname.ne_empty hsize, origin_of_no_slash hname.no_slash, Files.names,
    split_of_not_mem hname.no_slash]
  simp

private theorem find_dot (h : p.here.isFile = false) : p.find "." = .ok p := by
  have hsize : ".".utf8ByteSize ≤ maxPath := by decide
  have hnames : Files.names "." = ["."] := by decide
  rw [find_eq (by simp) hsize, origin_of_no_slash (by decide), hnames]
  obtain ⟨here, above⟩ := p
  cases here with
  | file => cases h
  | directory => rfl

private theorem mem_listed_of_step {path : String} {r : Place} (hname : IsName name)
    (hr : p.find path = .ok r) (hstep : r.step name = .ok q) : (name, q.here) ∈ p.listed path := by
  cases hhere : r.here with
  | file octets =>
      have hdirectory := isFile_of_step hstep
      rw [hhere] at hdirectory
      cases hdirectory
  | directory entries =>
      obtain ⟨t, ht, rfl⟩ := (step_eq_ok_iff hhere hname).1 hstep
      exact mem_listed.2 ⟨r, entries, hr, hhere, Table.mem_of_lookup ht⟩

private theorem isDirectory_of_slash {path directory : List Char}
    (hsplit : SplitLast path directory [])
    (h : p.find (String.ofList path) = .ok q) : p.isDirectory (String.ofList directory) = true := by
  cases hsplit with
  | root hslashes =>
      rw [List.append_nil] at h
      refine isDirectory_iff.2 ⟨q, h, ?_⟩
      cases directory with
      | nil => exact absurd rfl (size_of_find h).1
      | cons c rest =>
          obtain ⟨rfl, hrest⟩ := List.forall_mem_cons.1 hslashes
          have hcons : String.ofList ('/' :: rest) = "/" ++ String.ofList rest := by
            rw [String.ext_iff]
            simp
          rw [hcons] at h
          by_cases hone : rest = []
          · subst hone
            have hname : '/' ∉ (String.ofList []).toList := by simp
            obtain ⟨-, hstep⟩ := (find_root_eq_ok_iff hname).1 h
            rw [String.ofList_nil, step_empty_eq_ok_iff] at hstep
            obtain ⟨rfl, hdirectory⟩ := hstep
            exact hdirectory
          · exact (find_of_slashes hrest hone (by simp) h).2
  | inner hlast _ hslashes hne =>
      rw [List.append_nil, String.ofList_append] at h
      have hdirectory : String.ofList directory ≠ "" := by
        rw [Ne, String.ofList_eq_empty_iff]
        rintro rfl
        cases hlast
      exact isDirectory_iff.2 ⟨q, find_of_slashes hslashes hne hdirectory h⟩

private theorem mem_directories {found : String} (h : Globs directory found) {fuel : Nat}
    (hwild : found.toList ∈ p.expandWithin fuel true directory) : found.toList ∈
      if isPattern directory = true then p.expandWithin fuel true directory else [directory] := by
  split
  · exact hwild
  · rename_i hplain
    rw [h.eq_of_plain (Bool.not_eq_true _ ▸ hplain), String.toList_ofList]
    exact List.mem_singleton_self _

private theorem mem_expandWithin_of_globs {found : String} (h : Globs path found)
    (hfound : p.find found = .ok q) (honly : only = true → q.here.isFile = false)
    {fuel : Nat} (hfuel : path.length < fuel) : found.toList ∈ p.expandWithin fuel only path := by
  induction h generalizing fuel only q with
  | @plain path hpath =>
      obtain ⟨fuel, rfl⟩ := Nat.exists_eq_add_one.2 (Nat.zero_lt_of_lt hfuel)
      obtain ⟨directory, base, hsplit⟩ := exists_splitLast path
      rw [String.toList_ofList]
      refine (mem_expandWithin_plain hpath hsplit fuel).2 ⟨rfl, ?_⟩
      split
      · rename_i hbase
        rw [List.isEmpty_iff] at hbase
        exact isDirectory_of_slash (hbase ▸ hsplit) hfound
      · exact exists?_iff.2 ⟨q, hfound⟩
  | @named path directory base found hpath hsplit hdirectory hbase ih =>
      obtain ⟨fuel, rfl⟩ := Nat.exists_eq_add_one.2 (Nat.zero_lt_of_lt hfuel)
      have hlength := hsplit.length_lt hpath
      have hne : directory ≠ [] := by
        rintro rfl
        rw [hsplit.eq_base, hbase] at hpath
        cases hpath
      have hslash : '/' ∉ (String.ofList base).toList := by
        rw [String.toList_ofList]
        exact hsplit.no_slash
      obtain ⟨-, r, hr, hstep⟩ := (find_below_eq_ok_iff (hdirectory.ne_empty hne) hslash).1 hfound
      have hwild : found.toList ∈ p.expandWithin fuel true directory :=
        ih hr (fun _ => isFile_of_step hstep) (by omega)
      refine (mem_expandWithin_below hpath hsplit hne fuel).2
        ⟨_, mem_directories hdirectory hwild, base, ?_, by rw [String.ofList_toList]⟩
      rw [hbase, if_neg Bool.false_ne_true, mem_nameIn, String.ofList_toList]
      refine ⟨rfl, ?_⟩
      split
      · exact isDirectory_iff.2 ⟨r, hr, isFile_of_step hstep⟩
      · exact exists?_iff.2 ⟨q, hfound⟩
  | @like path directory base found name hpath hsplit hdirectory hbase hname hlike hhidden ih =>
      obtain ⟨fuel, rfl⟩ := Nat.exists_eq_add_one.2 (Nat.zero_lt_of_lt hfuel)
      have hlength := hsplit.length_lt hpath
      by_cases hne : directory = []
      · subst hne
        obtain rfl := hdirectory.eq_of_plain rfl
        have hstep : p.step name = .ok q := by
          rw [← find_isName hname]
          exact hfound
        rw [expandWithin_here hpath hsplit]
        exact mem_namesLike.2 ⟨name, q.here,
          mem_listed_of_step hname (find_dot (isFile_of_step hstep)) hstep, honly, hhidden, hlike, rfl⟩
      · obtain ⟨-, r, hr, hstep⟩ :=
          (find_below_eq_ok_iff (hdirectory.ne_empty hne) hname.no_slash).1 hfound
        have hwild : found.toList ∈ p.expandWithin fuel true directory :=
          ih hr (fun _ => isFile_of_step hstep) (by omega)
        have hlisted := mem_listed_of_step hname hr hstep
        refine (mem_expandWithin_below hpath hsplit hne fuel).2
          ⟨_, mem_directories hdirectory hwild, name.toList, ?_, by
            rw [String.ofList_toList, String.ofList_toList]⟩
        rw [hbase, if_pos rfl, mem_namesLike, String.ofList_toList, if_neg]
        · exact ⟨name, q.here, hlisted, honly, hhidden, hlike, rfl⟩
        · simpa using hdirectory.ne_empty hne

/-- The files that are found are those that there are. -/
theorem mem_expand_iff (hp : p.WellFormed) {pattern path : String} :
    path ∈ p.expand pattern ↔ p.isFile path = true ∧ Globs pattern.toList path := by
  rw [expand, List.mem_mergeSort, List.mem_filter, List.mem_map]
  constructor
  · rintro ⟨⟨cs, hcs, rfl⟩, hfile⟩
    exact ⟨hfile, globs_of_mem_expandWithin hp hcs⟩
  · rintro ⟨hfile, hglobs⟩
    obtain ⟨q, hq, -⟩ := isFile_iff.1 hfile
    have hfuel : pattern.toList.length < pattern.length + 1 := by
      rw [String.length_toList]
      exact Nat.lt_succ_self _
    have hmem : path.toList ∈ p.expandWithin (pattern.length + 1) false pattern.toList :=
      mem_expandWithin_of_globs hglobs hq (fun h => absurd h Bool.false_ne_true) hfuel
    exact ⟨⟨path.toList, hmem, String.ofList_toList⟩, hfile⟩

end Place

/-! ## One directory -/

/-- A directory that its path names without a slash at the end; only the root has no such name. -/
structure IsStem (path stem : String) : Prop where
  ne_empty : stem ≠ ""
  not_endsWith : ¬ stem.endsWith "/" = true
  mem : ∀ c ∈ stem.toList, c ∈ path.toList
  below_eq : ∀ name, below path name = stem ++ "/" ++ name

private theorem root_or_exists_isStem {path : String} (hpath : path ≠ "")
    (hslashes : ¬ path.endsWith "//" = true) : path = "/" ∨ ∃ stem, IsStem path stem := by
  by_cases hend : path.endsWith "/" = true
  · obtain ⟨stem, rfl⟩ := endsWith_iff.1 hend
    by_cases hstem : stem = ""
    · exact .inl (by rw [hstem, String.empty_append])
    refine .inr ⟨stem, hstem, ?_, ?_, below_of_endsWith hend⟩
    · intro hstem
      obtain ⟨front, rfl⟩ := endsWith_iff.1 hstem
      exact hslashes (endsWith_iff.2 ⟨front, String.append_assoc⟩)
    · intro c hc
      rw [String.toList_append]
      exact List.mem_append_left _ hc
  · exact .inr ⟨path, hpath, hend, fun c hc => hc, below_of_not_endsWith hpath hend⟩

theorem IsStem.splitLast {path stem name : String} (h : IsStem path stem)
    (hname : '/' ∉ name.toList) :
    SplitLast (below path name).toList stem.toList name.toList := by
  have htext : (stem ++ "/" ++ name).toList = stem.toList ++ ['/'] ++ name.toList := by simp
  rw [h.below_eq]
  cases hlast : stem.toList.getLast? with
  | none => exact absurd (String.toList_eq_nil_iff.1 (List.getLast?_eq_none_iff.1 hlast)) h.ne_empty
  | some c =>
      rw [htext]
      refine .inner hlast ?_ (List.forall_mem_singleton.2 rfl) (List.cons_ne_nil _ _) hname
      rintro rfl
      obtain ⟨front, hfront⟩ := List.getLast?_eq_some_iff.1 hlast
      refine h.not_endsWith (endsWith_iff.2 ⟨String.ofList front, ?_⟩)
      rw [String.ext_iff, hfront]
      simp

private theorem exists_splitLast_below {directory : String} (hdirectory : directory ≠ "")
    (hslashes : ¬ directory.endsWith "//" = true) : ∃ stem : String,
      (∀ c ∈ stem.toList, c ∈ directory.toList) ∧
      (∀ name, below stem name = below directory name) ∧
      ∀ name : String, '/' ∉ name.toList →
        SplitLast (below directory name).toList stem.toList name.toList := by
  rcases root_or_exists_isStem hdirectory hslashes with rfl | ⟨stem, hstem⟩
  · refine ⟨"/", fun c hc => hc, fun name => rfl, fun name hname => ?_⟩
    have hend : "/".endsWith "/" = true := endsWith_iff.2 ⟨"", String.empty_append.symm⟩
    rw [below_of_endsWith hend, String.toList_append]
    exact .root (List.forall_mem_singleton.2 rfl) hname
  · refine ⟨stem, hstem.mem, fun name => ?_, fun name hname => hstem.splitLast hname⟩
    rw [hstem.below_eq, below_of_not_endsWith hstem.ne_empty hstem.not_endsWith]

private theorem isPattern_append (cs rest : List Char) :
    isPattern (cs ++ rest) = (isPattern cs || isPattern rest) := List.any_append

private theorem isPattern_below {directory : String} (hplain : isPattern directory.toList = false)
    (name : String) : isPattern (below directory name).toList = isPattern name.toList := by
  unfold below
  split
  · rw [String.toList_append, isPattern_append, hplain, Bool.false_or]
  · rw [String.toList_append, String.toList_append, isPattern_append, isPattern_append, hplain]
    rfl

/-- Within a directory whose path has no wildcards, a pattern stands for names. -/
theorem globs_below_iff {directory pattern path : String} (hdirectory : directory ≠ "")
    (hslashes : ¬ directory.endsWith "//" = true) (hplain : isPattern directory.toList = false)
    (hpattern : '/' ∉ pattern.toList) :
    Globs (below directory pattern).toList path ↔
      if isPattern pattern.toList = true then ∃ name, path = below directory name ∧ IsName name ∧
        matchesCharacters pattern name = true ∧
        (isHidden name.toList = true → isHidden pattern.toList = true)
      else path = below directory pattern := by
  obtain ⟨stem, hchars, hbelow, hsplit⟩ := exists_splitLast_below hdirectory hslashes
  have hstemPlain : isPattern stem.toList = false := by
    rw [isPattern, List.any_eq_false] at hplain ⊢
    exact fun c hc => hplain c (hchars c hc)
  have hwhole := isPattern_below hplain pattern
  split
  · rename_i hwild
    rw [globs_iff (hwhole.trans hwild) (hsplit pattern hpattern)]
    simp only [if_pos hwild, globs_plain_iff hstemPlain, String.ofList_toList, exists_eq_left, hbelow]
  · rename_i hwild
    rw [globs_plain_iff (hwhole.trans (Bool.not_eq_true _ ▸ hwild)), String.ofList_toList]

end ChatPipeline.Files
