import Mathlib.Data.List.Basic

/-!
# Runs of deterministic machines

A machine is a step function `step : S → E → S`: a state, an event, the next
state.  Interleavings of several parties are runs of one machine whose events
name the party that moves.

* `exec` — the state a run ends in.
* `Along P` — `P` holds at every event of the run, in the state in which the
  event is taken; used both for what a run is assumed to respect and for what it
  is shown to respect.
* `exec_invariant`, `Along.invariant`, `Along.invariant_log`, `Along.mono`, `Along.mono_inv` —
  the induction over runs, stated once.
* `Along.simulation` — the same for two machines driven by one schedule.
-/

namespace Machine

variable {S S' E : Type*}

/-- The state after a run of events. -/
def exec (step : S → E → S) (s : S) (es : List E) : S := es.foldl step s

@[simp] theorem exec_nil (step : S → E → S) (s : S) : exec step s [] = s := rfl

@[simp] theorem exec_cons (step : S → E → S) (s : S) (e : E) (es : List E) :
    exec step s (e :: es) = exec step (step s e) es := rfl

theorem exec_append (step : S → E → S) (s : S) (es fs : List E) :
    exec step s (es ++ fs) = exec step (exec step s es) fs :=
  List.foldl_append

/-- `P` holds at every event of the run, in the state in which the event is
taken. -/
def Along (step : S → E → S) (P : S → E → Prop) : S → List E → Prop
  | _, [] => True
  | s, e :: es => P s e ∧ Along step P (step s e) es

variable {step : S → E → S} {P Q : S → E → Prop} {Inv : S → Prop}

instance Along.decidable [∀ s e, Decidable (P s e)] :
    ∀ (s : S) (es : List E), Decidable (Along step P s es)
  | _, [] => inferInstanceAs (Decidable True)
  | s, e :: es =>
    haveI := Along.decidable (step s e) es
    inferInstanceAs (Decidable (P s e ∧ Along step P (step s e) es))

@[simp] theorem along_nil (s : S) : Along step P s [] := trivial

@[simp] theorem along_cons {s : S} {e : E} {es : List E} :
    Along step P s (e :: es) ↔ P s e ∧ Along step P (step s e) es := Iff.rfl

theorem along_true (s : S) (es : List E) : Along step (fun _ _ => True) s es := by
  induction es generalizing s with
  | nil => trivial
  | cons e es ih => exact ⟨trivial, ih _⟩

theorem along_append {s : S} {es fs : List E} :
    Along step P s (es ++ fs) ↔ Along step P s es ∧ Along step P (exec step s es) fs := by
  induction es generalizing s with
  | nil => simp
  | cons e es ih => simp [ih, and_assoc]

theorem along_and {s : S} {es : List E} :
    Along step (fun s e => P s e ∧ Q s e) s es ↔ Along step P s es ∧ Along step Q s es := by
  induction es generalizing s with
  | nil => simp
  | cons e es ih =>
    simp only [along_cons, ih]
    exact and_and_and_comm

/-- What every event keeps holds at the end of the run. -/
theorem exec_invariant (Inv : S → Prop) (hstep : ∀ s e, Inv s → Inv (step s e)) {s : S}
    (hs : Inv s) (es : List E) : Inv (exec step s es) := by
  induction es generalizing s with
  | nil => exact hs
  | cons e es ih => exact ih (hstep s e hs)

/-- **The invariant rule.**  What holds at first and is kept by every event the
run may take holds at the end of the run. -/
theorem Along.invariant (hstep : ∀ s e, Inv s → P s e → Inv (step s e)) {s : S}
    {es : List E} (hs : Inv s) (h : Along step P s es) : Inv (exec step s es) := by
  induction es generalizing s with
  | nil => exact hs
  | cons e es ih => exact ih (hstep s e hs h.1) h.2

/-- The invariant rule for an invariant that also speaks of what the events of the run have
carried so far. -/
theorem Along.invariant_log {T : Type*} {log : E → List T} {Inv : S → List T → Prop}
    (hstep : ∀ s e l, Inv s l → P s e → Inv (step s e) (l ++ log e)) {s : S} {l : List T}
    {es : List E} (hs : Inv s l) (h : Along step P s es) :
    Inv (exec step s es) (l ++ es.flatMap log) := by
  induction es generalizing s l with
  | nil => simpa using hs
  | cons e es ih =>
    rw [List.flatMap_cons, ← List.append_assoc]
    exact ih (hstep s e l hs h.1) h.2

theorem Along.mono (hPQ : ∀ s e, P s e → Q s e) {s : S} {es : List E}
    (h : Along step P s es) : Along step Q s es := by
  induction es generalizing s with
  | nil => trivial
  | cons e es ih => exact ⟨hPQ s e h.1, ih h.2⟩

/-- What an invariant gives at one step holds at every step of the run. -/
theorem Along.mono_inv (hstep : ∀ s e, Inv s → P s e → Inv (step s e))
    (hQ : ∀ s e, Inv s → P s e → Q s e) {s : S} {es : List E} (hs : Inv s)
    (h : Along step P s es) : Along step Q s es := by
  induction es generalizing s with
  | nil => trivial
  | cons e es ih => exact ⟨hQ s e hs h.1, ih (hstep s e hs h.1) h.2⟩

/-- **The simulation rule.**  Two machines driven by the same schedule stay
related, if every step keeps them related. -/
theorem Along.simulation {step' : S' → E → S'} {R : S → S' → Prop}
    (hstep : ∀ s t e, R s t → P s e → R (step s e) (step' t e)) {s : S} {t : S'}
    {es : List E} (hst : R s t) (h : Along step P s es) :
    R (exec step s es) (exec step' t es) := by
  induction es generalizing s t with
  | nil => exact hst
  | cons e es ih => exact ih (hstep s t e hst h.1) h.2

end Machine
