import ChatPipeline.Failure
import ChatPipeline.Decimal.Binary

/-!
# Work that takes time

A piece of work runs in a scene: a clock and a world of things that other parties keep, such as what
a model was asked so far.  It ends with a result, with a failure, or because a deadline passed while
it slept.  Only sleeping takes time.

A deadline is set from outside by `within`, and nothing inside can catch it: `attempt` turns
failures into results, but neither a passed deadline nor a cancellation.  Work that waits for what
never comes is over when the deadline passes, and without one it is not over at all.
-/

namespace ChatPipeline

/-- Nanoseconds since the start. -/
abbrev Instant := Nat

structure Scene (σ : Type) where
  now : Instant := 0
  world : σ

/-- How work ends; `expired` without a deadline stands for work that goes on for ever. -/
inductive Ending (α : Type) where
  | done (a : α)
  | failed (f : Failure)
  | expired

def Work (σ α : Type) := Option Instant → Scene σ → Ending α × Scene σ

namespace Work

def pure (a : α) : Work σ α := fun _ scene => (.done a, scene)

def bind (w : Work σ α) (k : α → Work σ β) : Work σ β := fun deadline scene =>
  match w deadline scene with
  | (.done a, scene) => k a deadline scene
  | (.failed f, scene) => (.failed f, scene)
  | (.expired, scene) => (.expired, scene)

instance : Monad (Work σ) where
  pure := pure
  bind := bind

def fail (f : Failure) : Work σ α := fun _ scene => (.failed f, scene)

def ofOutcome : Outcome α → Work σ α
  | .ok a => pure a
  | .error f => fail f

instance : MonadLift Outcome (Work σ) := ⟨ofOutcome⟩

/-! ## The world -/

def inspect (f : σ → α) : Work σ α := fun _ scene => (.done (f scene.world), scene)

def change (f : σ → σ) : Work σ Unit := fun _ scene =>
  (.done (), { scene with world := f scene.world })

def clock : Work σ Instant := fun _ scene => (.done scene.now, scene)

/-! ## Time -/

def sleep (duration : Nat) : Work σ Unit := fun deadline scene =>
  let wake := scene.now + duration
  match deadline with
  | some d => if d < wake then (.expired, { scene with now := max scene.now d })
    else (.done (), { scene with now := wake })
  | none => (.done (), { scene with now := wake })

def never : Work σ α := fun deadline scene =>
  (.expired, { scene with now := deadline.elim scene.now (max scene.now) })

def earlier (a : Option Instant) (b : Instant) : Instant :=
  match a with
  | some a => min a b
  | none => b

/-- The result of some work, or nothing if it took longer than a duration.  A deadline from further
out that comes first is not ours to report. -/
def within (duration : Nat) (w : Work σ α) : Work σ (Option α) := fun deadline scene =>
  let own := scene.now + duration
  match w (some (earlier deadline own)) scene with
  | (.done a, scene) => (.done (some a), scene)
  | (.failed f, scene) => (.failed f, scene)
  | (.expired, scene) =>
    if deadline.any (· < own) then (.expired, scene) else (.done none, scene)

/-! ## Failures as results -/

def attempt (w : Work σ α) : Work σ (Outcome α) := fun deadline scene =>
  match w deadline scene with
  | (.done a, scene) => (.done (.ok a), scene)
  | (.failed f, scene) => if f.isExit then (.failed f, scene) else (.done (.error f), scene)
  | (.expired, scene) => (.expired, scene)

/-! ## Plain functions and coroutines -/

/-- What the signal that an iteration is over turns into where it leaves a coroutine. -/
def strayStop : Failure := .fault (.other "RuntimeError") "coroutine raised StopIteration"

def coroutine (w : Work σ α) : Work σ α := fun deadline scene =>
  match w deadline scene with
  | (.failed f, scene) => (.failed (if f.isStopIteration then strayStop else f), scene)
  | ended => ended

/-- Work on a thread.  That an iteration is over is a signal that no thread can hand over, and who
waits for the thread waits on. -/
def aside (w : Work σ α) : Work σ α := fun deadline scene =>
  match w deadline scene with
  | (.failed f, scene) => if f.isStopIteration then never deadline scene else (.failed f, scene)
  | ended => ended

def each (f : α → Work σ β) : List α → Work σ (List β)
  | [] => pure []
  | a :: rest => bind (f a) fun b => bind (each f rest) fun bs => pure (b :: bs)

/-! ## Equations -/

@[simp] theorem pure_apply (a : α) (deadline : Option Instant) (scene : Scene σ) :
    (Pure.pure a : Work σ α) deadline scene = (.done a, scene) := rfl

theorem bind_apply (w : Work σ α) (k : α → Work σ β) (deadline : Option Instant) (scene : Scene σ) :
    (w >>= k) deadline scene =
      match w deadline scene with
      | (.done a, scene) => k a deadline scene
      | (.failed f, scene) => (.failed f, scene)
      | (.expired, scene) => (.expired, scene) := rfl

@[simp] theorem fail_apply (f : Failure) (deadline : Option Instant) (scene : Scene σ) :
    (fail f : Work σ α) deadline scene = (.failed f, scene) := rfl

@[simp] theorem sleep_none (duration : Nat) (scene : Scene σ) :
    sleep duration none scene = (.done (), { scene with now := scene.now + duration }) := rfl

end Work

/-! ## Callables -/

/-- A function that may be called from outside: a plain one runs on a thread, a coroutine is
awaited. -/
inductive Callable (σ α : Type) where
  | plain (f : α → Work σ Value)
  | coroutine (f : α → Work σ Value)

def Callable.call : Callable σ α → α → Work σ Value
  | .plain f, a => Work.aside (f a)
  | .coroutine f, a => Work.coroutine (f a)

/-! ## Limits -/

inductive Limit where
  | whole (seconds : Int)
  | real (seconds : Float)

namespace Limit

open Decimal

/-- Nanoseconds, rounded; nothing for a limit that is never reached. -/
def nanoseconds? : Limit → Option Nat
  | .whole s => some (s.toNat * 1000000000)
  | .real x => match classify x with
    | .finite negative significand exponent =>
      let (up, down) := powerRatio 2 exponent
      some (if negative then 0 else roundDiv (significand * up * 1000000000) down)
    | .infinite false => none
    | _ => some 0

def isSet : Limit → Bool
  | .whole s => s != 0
  | .real x => x != 0.0

def isPositive : Limit → Bool
  | .whole s => 0 < s
  | .real x => !(x <= 0.0)

def text : Limit → String
  | .whole s => Text.signedDecimal s
  | .real x => Decimal.display x

def ofValue? : Value → Option Limit
  | .int i => some (.whole i)
  | .float x => some (.real x)
  | _ => none

/-- Work under a limit: nothing is started where the limit is not positive. -/
def apply (l : Limit) (w : Work σ α) : Work σ (Option α) :=
  if l.isPositive then
    match l.nanoseconds? with
    | some n => Work.within n w
    | none => some <$> w
  else Work.pure none

end Limit

end ChatPipeline
