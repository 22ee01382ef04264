import ChatPipeline.Proofs.Sequencing
import ChatPipeline.Validation.Scalar

/-!
# Checks that succeed

A check of several parts succeeds where the check of each part does, and then the result is made of
theirs.
-/

namespace ChatPipeline.Validation

namespace Checked

theorem seq_eq_ok {f : Checked (α → β)} {c : Checked α} {b : β} :
    (f <*> c) = .ok b ↔ ∃ g a, f = .ok g ∧ c = .ok a ∧ g a = b := by
  constructor
  · intro h
    rcases f with is | g <;> rcases c with js | a <;> cases h
    exact ⟨g, a, rfl, rfl, rfl⟩
  · rintro ⟨g, a, rfl, rfl, rfl⟩
    rfl

theorem map_eq_ok {f : α → β} {c : Checked α} {b : β} :
    (f <$> c) = .ok b ↔ ∃ a, c = .ok a ∧ f a = b := by
  constructor
  · intro h
    rcases c with is | a <;> cases h
    exact ⟨a, rfl, rfl⟩
  · rintro ⟨a, rfl, rfl⟩
    rfl

theorem under_eq_ok {c : Checked α} {step : String} {a : α} :
    c.under step = .ok a ↔ c = .ok a := by
  rcases c with is | b
  · exact ⟨nofun, nofun⟩
  · rfl

theorem toOutcome_eq_ok {c : Checked α} {subject : String} {a : α} :
    c.toOutcome subject = .ok a ↔ c = .ok a := by
  rcases c with is | b
  · exact ⟨nofun, nofun⟩
  · exact ⟨fun h => by cases h; rfl, fun h => by cases h; rfl⟩

theorem failsAs_toOutcome {p : Failure → Prop} (hp : ∀ report, p (.invalid report))
    (subject : String) (c : Checked α) : (c.toOutcome subject).FailsAs p := by
  cases c with
  | ok a => exact .ok a
  | error issues => exact .error (hp _)

end Checked

private theorem exists_of_mem_checkItemsFrom {check : Check α} {items : List Value} {i : Nat}
    {as : List α}
    (h : checkItemsFrom check i items = .ok as) {a : α} (ha : a ∈ as) :
    ∃ v ∈ items, check v = .ok a := by
  induction items generalizing i as with
  | nil =>
      cases h
      cases ha
  | cons v items ih =>
      obtain ⟨g, rest, hg, hrest, rfl⟩ := Checked.seq_eq_ok.1 h
      obtain ⟨first, hfirst, rfl⟩ := Checked.map_eq_ok.1 hg
      rcases List.mem_cons.1 ha with rfl | ha
      · exact ⟨v, List.mem_cons_self, Checked.under_eq_ok.1 hfirst⟩
      · obtain ⟨w, hw, hcheck⟩ := ih hrest ha
        exact ⟨w, List.mem_cons_of_mem _ hw, hcheck⟩

theorem exists_of_mem_checkItems {check : Check α} {items : List Value} {as : List α}
    (h : checkItems check items = .ok as) {a : α} (ha : a ∈ as) : ∃ v ∈ items, check v = .ok a :=
  exists_of_mem_checkItemsFrom h ha

theorem checkItemsFrom_map {check : Check α} {f : α → Value} (hcheck : ∀ a, check (f a) = .ok a)
    (as : List α) (i : Nat) : checkItemsFrom check i (as.map f) = .ok as := by
  induction as generalizing i with
  | nil => rfl
  | cons a as ih =>
      have hfirst : ((check (f a)).under (Text.decimal i)) = .ok a :=
        Checked.under_eq_ok.2 (hcheck a)
      exact Checked.seq_eq_ok.2 ⟨_, _, Checked.map_eq_ok.2 ⟨a, hfirst, rfl⟩, ih (i + 1), rfl⟩

theorem checkText_eq_ok_of_text? {v : Value} {s t : String} (hs : v.text? = some s)
    (ht : checkText v = .ok t) : t = s := by
  cases v with
  | bytes => cases hs
  | _ =>
      simp only [checkText, hs] at ht
      cases ht
      rfl

end ChatPipeline.Validation
