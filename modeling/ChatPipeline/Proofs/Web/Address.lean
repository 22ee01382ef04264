import Mathlib.Data.List.Infix
import ChatPipeline.Proofs.Web.Escape
import ChatPipeline.Web.Address

/-!
# Addresses taken apart

An address without control characters is cut at its first separators: the authority ends at the
first slash, the query starts at the first question mark and the fragment at the first number sign.
What holds of every character of a path, and of the slash, holds of it without its dots as well.
-/

namespace ChatPipeline.Text

variable {separator : Char} {cs : List Char}

private theorem takeWhile_ne_append (h : separator ∉ cs) (rest : List Char) :
    (cs ++ rest).takeWhile (· != separator) = cs ++ rest.takeWhile (· != separator) := by
  refine List.takeWhile_append_of_pos fun c hc => ?_
  simpa using ne_of_mem_of_not_mem hc h

private theorem cut_of_not_mem (h : separator ∉ cs) : cut separator cs = (cs, none) := by
  have hall := takeWhile_ne_append h []
  rw [List.append_nil, List.takeWhile_nil, List.append_nil] at hall
  rw [cut, hall, List.drop_length]

private theorem cut_append (h : separator ∉ cs) (rest : List Char) :
    cut separator (cs ++ separator :: rest) = (cs, some rest) := by
  have hfirst : (cs ++ separator :: rest).takeWhile (· != separator) = cs := by
    rw [takeWhile_ne_append h, List.takeWhile_cons_of_neg (by simp), List.append_nil]
  rw [cut, hfirst, List.drop_left]

private theorem forall_mem_pushFront {p : Char → Prop} {c : Char} (hc : p c)
    {parts : List (List Char)}
    (h : ∀ part ∈ parts, ∀ d ∈ part, p d) : ∀ part ∈ pushFront c parts, ∀ d ∈ part, p d := by
  cases parts with
  | nil => simpa [pushFront] using hc
  | cons part parts =>
      obtain ⟨hfirst, hrest⟩ := List.forall_mem_cons.1 h
      exact List.forall_mem_cons.2 ⟨List.forall_mem_cons.2 ⟨hc, hfirst⟩, hrest⟩

private theorem forall_mem_split {p : Char → Prop} (separator : Char) (h : ∀ c ∈ cs, p c) :
    ∀ part ∈ split separator cs, ∀ c ∈ part, p c := by
  induction cs with
  | nil => simp [split]
  | cons c cs ih =>
      obtain ⟨hc, hrest⟩ := List.forall_mem_cons.1 h
      rw [split]
      split
      · exact List.forall_mem_cons.2 ⟨List.forall_mem_nil _, ih hrest⟩
      · exact forall_mem_pushFront hc (ih hrest)

private theorem forall_mem_join {p : Char → Prop} (hseparator : p separator)
    {parts : List (List Char)}
    (h : ∀ part ∈ parts, ∀ c ∈ part, p c) : ∀ c ∈ join separator parts, p c := by
  induction parts with
  | nil => exact List.forall_mem_nil _
  | cons part parts ih =>
      obtain ⟨hfirst, hrest⟩ := List.forall_mem_cons.1 h
      cases parts with
      | nil => exact hfirst
      | cons next parts =>
          rw [join, List.forall_mem_append]
          exact ⟨hfirst, List.forall_mem_cons.2 ⟨hseparator, ih hrest⟩⟩
          simp

end ChatPipeline.Text

namespace ChatPipeline.Web

open ChatPipeline.Text

/-! ## Paths without dots -/

theorem forall_mem_pushSegment {p : Char → Prop} {segments : List (List Char)} {s : List Char}
    (h : ∀ part ∈ segments, ∀ c ∈ part, p c) (hs : ∀ c ∈ s, p c) :
    ∀ part ∈ pushSegment segments s, ∀ c ∈ part, p c := by
  unfold pushSegment
  split
  · exact h
  split
  · split
    · exact h
    · exact fun part hpart => h part (List.mem_of_mem_dropLast hpart)
  · exact List.forall_mem_append.2 ⟨h, List.forall_mem_singleton.2 hs⟩

theorem forall_mem_withoutDots {p : Char → Prop} (hslash : p '/') {path : List Char}
    (h : ∀ c ∈ path, p c) : ∀ c ∈ withoutDots path, p c := by
  have hsegments : ∀ (parts segments : List (List Char)), (∀ part ∈ parts, ∀ c ∈ part, p c) →
      (∀ part ∈ segments, ∀ c ∈ part, p c) →
      ∀ part ∈ parts.foldl pushSegment segments, ∀ c ∈ part, p c := by
    intro parts
    induction parts with
    | nil => exact fun segments _ hkept => hkept
    | cons part parts ih =>
        intro segments hparts hkept
        obtain ⟨hfirst, hrest⟩ := List.forall_mem_cons.1 hparts
        exact ih _ hrest (forall_mem_pushSegment hkept hfirst)
  exact forall_mem_join hslash (hsegments _ _ (forall_mem_split '/' h) (List.forall_mem_nil _))

/-! ## Characters of a path -/

theorem isKeptInPath_of_isPathName {c : Char} (h : isPathName c = true) :
    isKeptInPath c = true := by
  have hall : ∀ n < 0x80, isPathName (Char.ofNat n) = true → isKeptInPath (Char.ofNat n) = true := by
    decide
  have hc := hall c.toNat (toNat_lt_of_isPathName h)
  rw [Char.ofNat_toNat] at hc
  exact hc h

theorem forall_isKeptInPath {cs : List Char} (h : IsEscaped isPathName cs) :
    ∀ c ∈ cs, isKeptInPath c = true :=
  h.forall_mem (fun _ => isKeptInPath_of_isPathName)
    (fun _ hc => isKeptInPath_of_isPathName (isPathName_of_isUpperHex hc)) (by decide)

theorem isVisible_of_isKeptInPath {c : Char} (h : isKeptInPath c = true) : isVisible c = true := by
  simp only [isKeptInPath, isKeptInQuery, Bool.and_eq_true] at h
  exact h.1.1

/-! ## Addresses without control characters -/

theorem firstControl?_eq_none {cs : List Char} (h : ∀ c ∈ cs, isVisible c = true) (i : Nat) :
    firstControl? i cs = none := by
  induction cs generalizing i with
  | nil => rfl
  | cons c cs ih =>
      obtain ⟨hc, hrest⟩ := List.forall_mem_cons.1 h
      have hvisible : ¬ (c.toNat < 0x20 || c.toNat == 0x7f) = true := by
        simp only [isVisible, Bool.and_eq_true, decide_eq_true_eq] at hc
        simp only [Bool.or_eq_true, decide_eq_true_eq, beq_iff_eq]
        omega
      rw [firstControl?, if_neg hvisible, ih hrest]

theorem Address.parse_eq {s : String} (hlength : s.toList.length ≤ maxLength)
    (hvisible : ∀ c ∈ s.toList, isVisible c = true) {scheme authority path query : List Char}
    {rest : List Char} (hscheme : takeScheme s.toList = (scheme, rest))
    (hauthority : takeAuthority rest = (authority, path ++ '?' :: query))
    (hfragment : '#' ∉ path ++ '?' :: query) (hquery : '?' ∉ path) :
    Address.parse s = ofParts (lower scheme) authority path (some query) none := by
  rw [Address.parse, if_neg (Nat.not_lt.2 hlength), firstControl?_eq_none hvisible]
  simp only [hscheme, hauthority, cut_of_not_mem hfragment, cut_append hquery]

end ChatPipeline.Web
