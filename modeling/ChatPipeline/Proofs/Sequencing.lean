import Mathlib.Data.List.Forall2
import ChatPipeline.Work

/-!
# Sequencing

What it means for a sequence of outcomes to be a success, which failures it may come to, when work
comes to an end of its own, and what an attempt at some work comes to.
-/

namespace ChatPipeline

/-! ## Outcomes -/

namespace Outcome

theorem bind_eq_ok {x : Outcome α} {f : α → Outcome β} {b : β} :
    (x >>= f) = .ok b ↔ ∃ a, x = .ok a ∧ f a = .ok b := by
  cases x <;> simp [bind, Except.bind]

theorem map_eq_ok {x : Outcome α} {f : α → β} {b : β} :
    x.map f = .ok b ↔ ∃ a, x = .ok a ∧ f a = b := by
  cases x <;> simp [Except.map]

theorem pure_eq_ok {a b : α} : (pure a : Outcome α) = .ok b ↔ a = b := by
  simp [pure, Except.pure]

theorem guard_eq_ok {c : Prop} [Decidable c] {f : Failure} {k : β → Outcome α} {x : Outcome α}
    {a : α} : (if c then throw f >>= k else x) = .ok a ↔ ¬ c ∧ x = .ok a := by
  by_cases h : c
  · simp [h, throw, throwThe, MonadExceptOf.throw, bind, Except.bind]
  · simp [h]

theorem forM_eq_ok {f : α → Outcome PUnit} {as : List α} {u : PUnit} :
    forM as f = .ok u ↔ ∀ a ∈ as, f a = .ok PUnit.unit := by
  induction as with
  | nil =>
      simp [pure_eq_ok]
  | cons a as ih =>
      rw [List.forM_cons, bind_eq_ok, List.forall_mem_cons, ← ih]
      constructor
      · rintro ⟨v, hv, hrest⟩
        cases v
        exact ⟨hv, hrest⟩
      · intro h
        exact ⟨_, h⟩

theorem exists_of_forM_eq_error {f : α → Outcome PUnit} {as : List α} {e : Failure}
    (h : forM as f = .error e) : ∃ a ∈ as, f a = .error e := by
  induction as with
  | nil => simp [pure, Except.pure] at h
  | cons a as ih =>
      rw [List.forM_cons] at h
      cases ha : f a with
      | error e' =>
          rw [ha] at h
          cases h
          exact ⟨a, List.mem_cons_self .., ha⟩
      | ok u =>
          rw [ha] at h
          obtain ⟨b, hb, hfailed⟩ := ih h
          exact ⟨b, List.mem_cons_of_mem _ hb, hfailed⟩

private theorem filterAuxM_eq_ok_iff {p : α → Outcome Bool} {keeps : α → Bool}
    {as earlier kept : List α}
    (hkeeps : ∀ a ∈ as, ∀ b, p a = .ok b → b = keeps a) :
    as.filterAuxM p earlier = .ok kept ↔
      (∀ a ∈ as, p a = .ok (keeps a)) ∧ (as.filter keeps).reverse ++ earlier = kept := by
  induction as generalizing earlier with
  | nil => simp [List.filterAuxM, pure_eq_ok]
  | cons a as ih =>
      obtain ⟨hfirst, hrest⟩ := List.forall_mem_cons.1 hkeeps
      have hearlier : (as.filter keeps).reverse ++ cond (keeps a) (a :: earlier) earlier =
          ((a :: as).filter keeps).reverse ++ earlier := by
        cases hkept : keeps a <;> simp [hkept]
      rw [List.filterAuxM, bind_eq_ok, List.forall_mem_cons]
      constructor
      · rintro ⟨b, htest, h⟩
        obtain rfl := hfirst b htest
        obtain ⟨htests, heq⟩ := (ih hrest).1 h
        exact ⟨⟨htest, htests⟩, hearlier ▸ heq⟩
      · rintro ⟨⟨htest, htests⟩, heq⟩
        exact ⟨keeps a, htest, (ih hrest).2 ⟨htests, hearlier.trans heq⟩⟩

theorem filterM_eq_ok_iff {p : α → Outcome Bool} {keeps : α → Bool} {as kept : List α}
    (hkeeps : ∀ a ∈ as, ∀ b, p a = .ok b → b = keeps a) :
    as.filterM p = .ok kept ↔ (∀ a ∈ as, p a = .ok (keeps a)) ∧ as.filter keeps = kept := by
  have hfilter : as.filterM p = .ok kept ↔ ∃ reversed, as.filterAuxM p [] = .ok reversed ∧
      reversed.reverse = kept := by
    rw [List.filterM, bind_eq_ok]
    simp only [pure_eq_ok]
  rw [hfilter]
  simp only [filterAuxM_eq_ok_iff hkeeps, List.append_nil]
  constructor
  · rintro ⟨_, ⟨htests, rfl⟩, rfl⟩
    exact ⟨htests, (List.reverse_reverse _).symm⟩
  · rintro ⟨htests, rfl⟩
    exact ⟨_, ⟨htests, rfl⟩, List.reverse_reverse _⟩

theorem mapM_map_eq_ok {k : α → β} {f : β → Outcome γ} {g : α → γ} {as : List α}
    (h : ∀ a ∈ as, f (k a) = .ok (g a)) : (as.map k).mapM f = .ok (as.map g) := by
  induction as with
  | nil => rfl
  | cons a as ih =>
      obtain ⟨hfirst, hrest⟩ := List.forall_mem_cons.1 h
      rw [List.map_cons, List.mapM_cons, hfirst, ih hrest]
      rfl

theorem mapM_eq_ok_iff {f : α → Outcome β} {r : α → β → Prop} (hf : ∀ a b, f a = .ok b ↔ r a b)
    {as : List α} {bs : List β} : as.mapM f = .ok bs ↔ List.Forall₂ r as bs := by
  induction as generalizing bs with
  | nil =>
      rw [List.mapM_nil, pure_eq_ok, List.forall₂_nil_left_iff]
      exact eq_comm
  | cons a as ih =>
      simp only [List.mapM_cons, bind_eq_ok, pure_eq_ok, hf, ih, List.forall₂_cons_left_iff]
      constructor
      · rintro ⟨b, hb, rest, hrest, rfl⟩
        exact ⟨b, rest, hb, hrest, rfl⟩
      · rintro ⟨b, rest, hb, hrest, rfl⟩
        exact ⟨b, hb, rest, hrest, rfl⟩

theorem mapM_eq_error {f : α → Outcome β} {before after : List α} {a : α} {e : Failure}
    (hbefore : ∀ b ∈ before, ∃ c, f b = .ok c) (ha : f a = .error e) :
    (before ++ a :: after).mapM f = .error e := by
  induction before with
  | nil =>
      rw [List.nil_append, List.mapM_cons, ha]
      rfl
  | cons b before ih =>
      obtain ⟨⟨c, hc⟩, hrest⟩ := List.forall_mem_cons.1 hbefore
      rw [List.cons_append, List.mapM_cons, hc, ih hrest]
      rfl

theorem exists_of_mapM_eq_error {f : α → Outcome β} {as : List α} {e : Failure}
    (h : as.mapM f = .error e) :
    ∃ before a after, as = before ++ a :: after ∧ (∀ b ∈ before, ∃ c, f b = .ok c) ∧
      f a = .error e := by
  induction as with
  | nil => cases h
  | cons a as ih =>
      rw [List.mapM_cons] at h
      cases ha : f a with
      | error e' =>
          rw [ha] at h
          cases h
          exact ⟨[], a, as, rfl, by simp, ha⟩
      | ok c =>
          rw [ha] at h
          cases hrest : as.mapM f with
          | error e' =>
              rw [hrest] at h
              cases h
              obtain ⟨before, b, after, rfl, hbefore, hb⟩ := ih hrest
              exact ⟨a :: before, b, after, rfl, List.forall_mem_cons.2 ⟨⟨c, ha⟩, hbefore⟩, hb⟩
          | ok cs =>
              rw [hrest] at h
              cases h

/-! ### What outcomes fail with -/

inductive FailsAs (p : Failure → Prop) : Outcome α → Prop where
  | ok (a : α) : FailsAs p (.ok a)
  | error (h : p f) : FailsAs p (.error f)

namespace FailsAs

variable {p q : Failure → Prop} {x : Outcome α}

theorem of_error (h : x.FailsAs p) (hx : x = .error f) : p f := by
  cases h with
  | ok a => cases hx
  | error h =>
      cases hx
      exact h

theorem bind {k : α → Outcome β} (hx : x.FailsAs p) (hk : ∀ a, (k a).FailsAs p) :
    FailsAs p (x >>= k) := by
  cases hx with
  | ok a => exact hk a
  | error h => exact .error h

theorem map (hx : x.FailsAs p) (k : α → β) : FailsAs p (x.map k) := by
  cases hx with
  | ok a => exact .ok (k a)
  | error h => exact .error h

theorem mono (h : x.FailsAs p) (hpq : ∀ f, p f → q f) : x.FailsAs q := by
  cases h with
  | ok a => exact .ok a
  | error h => exact .error (hpq _ h)

theorem guard {c : Prop} [Decidable c] {f : Failure} {k : PUnit → Outcome α} (hf : p f)
    (hk : FailsAs p (k ⟨⟩)) : FailsAs p (if c then throw f >>= k else k ⟨⟩) := by
  split
  · exact .error hf
  · exact hk

theorem mapM {k : α → Outcome β} (hk : ∀ a, (k a).FailsAs p) (as : List α) :
    FailsAs p (as.mapM k) := by
  induction as with
  | nil => exact .ok []
  | cons a as ih =>
      rw [List.mapM_cons]
      exact (hk a).bind fun b => ih.bind fun bs => .ok (b :: bs)

theorem filterM {test : α → Outcome Bool} {as : List α} (htest : ∀ a ∈ as, (test a).FailsAs p) :
    FailsAs p (as.filterM test) := by
  have haux : ∀ earlier, FailsAs p (as.filterAuxM test earlier) := by
    induction as with
    | nil => exact fun earlier => .ok earlier
    | cons a as ih =>
        obtain ⟨hfirst, hrest⟩ := List.forall_mem_cons.1 htest
        exact fun earlier => hfirst.bind fun kept => ih hrest _
  exact (haux []).bind fun reversed => .ok reversed.reverse

end FailsAs

end Outcome

/-! ## Endings -/

/-- A call gave a result or failed for a reason of its own. -/
def Ending.Settled : Ending α → Prop
  | .done _ => True
  | .failed f => f.isExit = false
  | .expired => False

theorem Ending.Settled.of_eq {x : Ending α × Scene σ} (h : x.1.Settled) {e : Ending α}
    {s : Scene σ} (hx : x = (e, s)) : e.Settled := by
  rw [hx] at h
  exact h

/-! ## Work -/

namespace Work

theorem attempt_bind_apply (w : Work σ α) (k : Outcome α → Work σ β) (deadline : Option Instant)
    (scene : Scene σ) :
    (attempt w >>= k) deadline scene =
      match w deadline scene with
      | (.done a, scene) => k (.ok a) deadline scene
      | (.failed f, scene) =>
        if f.isExit then (.failed f, scene) else k (.error f) deadline scene
      | (.expired, scene) => (.expired, scene) := by
  rw [bind_apply]
  unfold attempt
  rcases w deadline scene with ⟨a | f | _, between⟩
  · rfl
  · cases hf : f.isExit <;> simp [hf]
  · rfl

theorem bind_eq_done {w : Work σ α} {k : α → Work σ β} {deadline : Option Instant}
    {scene scene' : Scene σ} {b : β} :
    (w >>= k) deadline scene = (.done b, scene') ↔
      ∃ a between, w deadline scene = (.done a, between) ∧
        k a deadline between = (.done b, scene') := by
  rw [bind_apply]
  rcases w deadline scene with ⟨a | f | _, between⟩
  · constructor
    · intro h
      exact ⟨a, between, rfl, h⟩
    · rintro ⟨_, _, ⟨⟩, h⟩
      exact h
  · simp
  · simp

theorem each_cons_apply (f : α → Work σ β) (a : α) (as : List α) (deadline : Option Instant)
    (scene : Scene σ) :
    each f (a :: as) deadline scene =
      match f a deadline scene with
      | (.done b, scene) => (each f as >>= fun bs => pure (b :: bs)) deadline scene
      | (.failed f, scene) => (.failed f, scene)
      | (.expired, scene) => (.expired, scene) := rfl

theorem ofOutcome_scene (x : Outcome α) (deadline : Option Instant) (scene : Scene σ) :
    (ofOutcome x deadline scene).2 = scene := by
  cases x <;> rfl

theorem bind_ofOutcome_scene (w : Work σ α) (f : α → Outcome β) (deadline : Option Instant)
    (scene : Scene σ) :
    ((w >>= fun a => ofOutcome (f a)) deadline scene).2 = (w deadline scene).2 := by
  rw [bind_apply]
  rcases w deadline scene with ⟨a | e | _, between⟩
  · exact ofOutcome_scene (f a) deadline between
  · rfl
  · rfl

theorem ofOutcome_eq_done {x : Outcome α} {deadline : Option Instant} {scene scene' : Scene σ}
    {a : α} : ofOutcome x deadline scene = (.done a, scene') ↔ x = .ok a ∧ scene = scene' := by
  cases x <;> simp [ofOutcome, pure, fail]

theorem ofOutcome_eq_failed {x : Outcome α} {deadline : Option Instant} {scene scene' : Scene σ}
    {f : Failure} :
    ofOutcome x deadline scene = (.failed f, scene') ↔ x = .error f ∧ scene = scene' := by
  cases x <;> simp [ofOutcome, pure, fail]

theorem coroutine_eq_done {w : Work σ α} {deadline : Option Instant} {scene scene' : Scene σ}
    {a : α} :
    coroutine w deadline scene = (.done a, scene') ↔ w deadline scene = (.done a, scene') := by
  unfold coroutine
  rcases w deadline scene with ⟨b | f | _, between⟩ <;> simp

theorem coroutine_bind (w : Work σ α) (k : α → Work σ β) :
    coroutine (w >>= k) = coroutine w >>= fun a => coroutine (k a) := by
  funext deadline scene
  rw [bind_apply]
  unfold coroutine
  rw [bind_apply]
  rcases w deadline scene with ⟨a | f | _, between⟩ <;> rfl

end Work

/-! ## A failure without a text -/

def Value.overlong : Value := .int (Nat.pow 10 Text.maxIntegerDigits)

def Failure.overlong : Failure := .raised .value [.overlong]

theorem Failure.message_overlong : overlong.message = none := by decide +kernel

end ChatPipeline
