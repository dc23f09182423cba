import Mathlib.Data.List.Basic

/-!
# Computations that may raise and keep what they did

An exception in an imperative program ends the computation, but what was written
before it stays written.  `Raising ε σ` is the result of such a computation on a
state of type `σ`: the final state, or an exception together with the state it left
behind.

* `andThen` — run the next statement unless an exception was raised.
* `handle` — `try … except`: exceptions that `caught` accepts are dropped, the state
  is kept.
* `forEach` — a loop over a list; an exception leaves the loop.
-/

/-- The result of a computation on a state: finished, or ended by an exception. -/
inductive Raising (ε σ : Type*) where
  | ok (s : σ)
  | raised (e : ε) (s : σ)
  deriving DecidableEq, Repr

namespace Raising

variable {ε σ α : Type*}

/-- The state that is left behind, whether an exception was raised or not. -/
def state : Raising ε σ → σ
  | ok s => s
  | raised _ s => s

/-- Has the computation finished? -/
def isOk : Raising ε σ → Bool
  | ok _ => true
  | raised _ _ => false

theorem eq_ok_of_isOk {x : Raising ε σ} (h : x.isOk = true) : x = ok x.state := by
  cases x with
  | ok s => rfl
  | raised e s => cases h

/-- Run the next statement, unless an exception was raised. -/
def andThen {τ : Type*} (x : Raising ε σ) (leave : σ → τ) (f : σ → Raising ε τ) : Raising ε τ :=
  match x with
  | ok s => f s
  | raised e s => raised e (leave s)

/-- `try … except`: a caught exception ends the statement, its effects stay. -/
def handle (caught : ε → Bool) : Raising ε σ → Raising ε σ
  | ok s => ok s
  | raised e s => if caught e then ok s else raised e s

/-- A loop over a list; an exception leaves the loop. -/
def forEach (f : σ → α → Raising ε σ) : List α → σ → Raising ε σ
  | [], s => ok s
  | a :: as, s => (f s a).andThen id (forEach f as)

@[simp] theorem andThen_ok {τ : Type*} (s : σ) (leave : σ → τ) (f : σ → Raising ε τ) :
    (ok s).andThen leave f = f s := rfl

@[simp] theorem andThen_raised {τ : Type*} (e : ε) (s : σ) (leave : σ → τ) (f : σ → Raising ε τ) :
    (raised e s).andThen leave f = raised e (leave s) := rfl

/-- Two statements finish if both do. -/
theorem andThen_eq_ok_iff {τ : Type*} {x : Raising ε σ} {leave : σ → τ} {f : σ → Raising ε τ}
    {t : τ} : x.andThen leave f = ok t ↔ ∃ s, x = ok s ∧ f s = ok t := by
  cases x with
  | ok s => simp
  | raised e s => simp

@[simp] theorem handle_ok (caught : ε → Bool) (s : σ) : (ok s : Raising ε σ).handle caught = ok s :=
  rfl

/-- A last statement under `try` may be renamed to the state around it. -/
theorem handle_andThen_ok {τ : Type*} {caught : ε → Bool} {x : Raising ε σ} {s : σ}
    (h : x.handle caught = ok s) (leave : σ → τ) :
    (x.andThen leave fun s => ok (leave s)).handle caught = ok (leave s) := by
  cases x with
  | ok s' =>
    obtain rfl : s' = s := by simpa using h
    rfl
  | raised e s' =>
    by_cases he : caught e
    · obtain rfl : s' = s := by simpa [handle, he] using h
      simp [handle, he]
    · simp [handle, he] at h

@[simp] theorem forEach_nil (f : σ → α → Raising ε σ) (s : σ) : forEach f [] s = ok s := rfl

@[simp] theorem forEach_cons (f : σ → α → Raising ε σ) (a : α) (as : List α) (s : σ) :
    forEach f (a :: as) s = (f s a).andThen id (forEach f as) := rfl

/-- A loop over two lists, one after the other. -/
theorem forEach_append (f : σ → α → Raising ε σ) (as bs : List α) (s : σ) :
    forEach f (as ++ bs) s = (forEach f as s).andThen id (forEach f bs) := by
  induction as generalizing s with
  | nil => rfl
  | cons a as ih =>
    rw [List.cons_append, forEach_cons, forEach_cons]
    cases f s a with
    | ok s' => exact ih s'
    | raised e s' => rfl

end Raising
