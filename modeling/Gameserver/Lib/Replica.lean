import Gameserver.Lib.Latest
import Gameserver.Lib.Machine

/-!
# A copy that is read once and kept by messages

A key of a store has one writer, which sets a value and then publishes it.  A reader that connects
gets the value, subscribes to the publications, and from then on overwrites its copy with what
comes.  A value that is set and published between the two is not seen.

* `State`, `step` — the key, its writer and a reader that can lose its connection.
* `Settled` — nothing is on its way.
* `Invariant.settled_iff` — **when the copy of a settled reader is the value of the key**.
* `Careful`, `Covered.agrees` — a schedule in which nothing is missed.
-/

namespace Replica

open Listener Machine

/-- How far the reader is. -/
inductive Phase where
  | down
  /-- The value has been read. -/
  | got
  | subscribed
  deriving DecidableEq

structure State (V : Type*) where
  store : Option V
  /-- Set, and not yet published, in the order in which they were set. -/
  pending : List V
  phase : Phase
  /-- On the way to the reader. -/
  queue : List V
  copy : V
  /-- For the record: the copy that the answer to the last read stands for. -/
  base : V
  /-- For the record: something has been published to the reader since. -/
  heard : Bool

inductive Event (V : Type*) where
  | set (v : V)
  | publish
  | get
  | subscribe
  | deliver
  | lose
  /-- The reader starts again, with an initial copy. -/
  | restart (v : V)

variable {V : Type*}

/-- One step.  A step that is not possible in a state does nothing. -/
def step (s : State V) : Event V → State V
  | .set v => { s with store := some v, pending := s.pending ++ [v] }
  | .publish =>
    match s.pending with
    | [] => s
    | v :: rest =>
      if s.phase = .subscribed then
        { s with pending := rest, queue := s.queue ++ [v], heard := true }
      else { s with pending := rest }
  | .get =>
    if s.phase = .down then
      { s with
        phase := .got
        queue := s.store.toList
        base := s.store.getD s.copy
        heard := false }
    else s
  | .subscribe => if s.phase = .got then { s with phase := .subscribed } else s
  | .deliver =>
    match s.queue with
    | [] => s
    | v :: rest => { s with copy := v, queue := rest }
  | .lose => { s with phase := .down, queue := [] }
  | .restart v => { s with phase := .down, queue := [], copy := v }

@[simp] theorem store_set (s : State V) (v : V) : (step s (.set v)).store = some v := rfl

@[simp] theorem store_publish (s : State V) : (step s .publish).store = s.store := by
  simp only [step]
  split
  · rfl
  · split <;> rfl

@[simp] theorem store_get (s : State V) : (step s .get).store = s.store := by
  simp only [step]
  split <;> rfl

@[simp] theorem store_subscribe (s : State V) : (step s .subscribe).store = s.store := by
  simp only [step]
  split <;> rfl

@[simp] theorem store_deliver (s : State V) : (step s .deliver).store = s.store := by
  simp only [step]
  split <;> rfl

/-- Only a delivery and a new start change the copy. -/
theorem copy_step {s : State V} {e : Event V} (hdeliver : e ≠ .deliver)
    (hrestart : ∀ v, e ≠ .restart v) : (step s e).copy = s.copy := by
  cases e with
  | set v => rfl
  | publish =>
    simp only [step]
    split
    · rfl
    · split <;> rfl
  | get => simp only [step]; split <;> rfl
  | subscribe => simp only [step]; split <;> rfl
  | deliver => exact absurd rfl hdeliver
  | lose => rfl
  | restart v => exact absurd rfl (hrestart v)

/-- At first. -/
def State.start (v : V) : State V := ⟨none, [], .down, [], v, v, false⟩

/-- Everything that was set is published, and the reader has handled all of it. -/
structure Settled (s : State V) : Prop where
  pending : s.pending = []
  subscribed : s.phase = .subscribed
  queue : s.queue = []

instance [DecidableEq V] (s : State V) : Decidable (Settled s) :=
  decidable_of_iff (s.pending = [] ∧ s.phase = .subscribed ∧ s.queue = [])
    ⟨fun h => ⟨h.1, h.2.1, h.2.2⟩, fun h => ⟨h.pending, h.subscribed, h.queue⟩⟩

/-- The copy is the value of the key. -/
def Agrees (s : State V) : Prop := ∀ v, s.store = some v → s.copy = v

/-- What holds in every run. -/
structure Invariant (s : State V) : Prop where
  /-- The last value that was set is published last. -/
  last : ∀ field, s.pending ≠ [] → s.store = some (latest field s.pending)
  heard : s.phase ≠ .down → s.heard = true →
    s.store = some (latest (latest s.copy s.queue) s.pending)
  unheard : s.phase ≠ .down → s.heard = false → latest s.copy s.queue = s.base
  /-- Nothing is published to a reader that has not subscribed. -/
  deaf : s.phase = .got → s.heard = false

variable {s : State V}

theorem invariant_start (v : V) : Invariant (State.start v) where
  last _ h := absurd rfl h
  heard h := absurd rfl h
  unheard h := absurd rfl h
  deaf _ := rfl

theorem latest_toList (field : V) (v : Option V) : latest field v.toList = v.getD field := by
  cases v <;> rfl

theorem Invariant.set (h : Invariant s) (v : V) : Invariant (step s (.set v)) where
  last field _ := by simp [step]
  heard _ _ := by simp [step]
  unheard := h.unheard
  deaf := h.deaf

theorem Invariant.publish (h : Invariant s) : Invariant (step s .publish) := by
  cases hpending : s.pending with
  | nil => simpa only [step, hpending] using h
  | cons v rest =>
    have hstore : ∀ field, s.store = some (latest field (v :: rest)) := by
      intro field
      rw [← hpending]
      exact h.last field (by simp [hpending])
    have hrest : ∀ field, rest ≠ [] → s.store = some (latest field rest) := by
      intro field hne
      rw [hstore field]
      obtain ⟨init, last, rfl⟩ := List.eq_nil_or_concat rest |>.resolve_left hne
      simp
    cases hphase : s.phase with
    | subscribed =>
      simp only [step, hpending, hphase, if_true]
      exact ⟨hrest, fun _ _ => by simpa using hstore s.copy, fun _ hheard => (nomatch hheard),
        fun hgot => nomatch hgot⟩
    | got =>
      have hdeaf := h.deaf hphase
      simp only [step, hpending, hphase, reduceCtorEq, if_false]
      refine ⟨hrest, fun _ hheard => ?_, fun _ => h.unheard (by simp [hphase]), fun _ => hdeaf⟩
      cases hheard.symm.trans hdeaf
    | down =>
      simp only [step, hpending, hphase, reduceCtorEq, if_false]
      exact ⟨hrest, fun hup => absurd rfl hup, fun hup => absurd rfl hup,
        fun hgot => nomatch hgot⟩

theorem Invariant.get (h : Invariant s) : Invariant (step s .get) := by
  by_cases hdown : s.phase = .down
  · simp only [step, hdown, if_true]
    exact ⟨h.last, fun _ hheard => (nomatch hheard), fun _ _ => latest_toList s.copy s.store,
      fun _ => rfl⟩
  · simpa only [step, hdown, if_false] using h

theorem Invariant.subscribe (h : Invariant s) : Invariant (step s .subscribe) := by
  by_cases hgot : s.phase = .got
  · simp only [step, hgot, if_true]
    have hup : s.phase ≠ .down := by simp [hgot]
    exact ⟨h.last, fun _ => h.heard hup, fun _ => h.unheard hup, fun hphase => nomatch hphase⟩
  · simpa only [step, hgot, if_false] using h

theorem Invariant.deliver (h : Invariant s) : Invariant (step s .deliver) := by
  cases hqueue : s.queue with
  | nil => simpa only [step, hqueue] using h
  | cons v rest =>
    simp only [step, hqueue]
    refine ⟨h.last, fun hup hheard => ?_, fun hup hheard => ?_, h.deaf⟩
    · simpa [hqueue] using h.heard hup hheard
    · simpa [hqueue] using h.unheard hup hheard

/-- A reader without a connection. -/
theorem Invariant.down (h : Invariant s) (copy : V) :
    Invariant { s with phase := .down, queue := [], copy := copy } where
  last := h.last
  heard hup := absurd rfl hup
  unheard hup := absurd rfl hup
  deaf hgot := by cases hgot

theorem Invariant.step (h : Invariant s) (e : Event V) : Invariant (step s e) := by
  cases e with
  | set v => exact h.set v
  | publish => exact h.publish
  | get => exact h.get
  | subscribe => exact h.subscribe
  | deliver => exact h.deliver
  | lose => exact h.down s.copy
  | restart v => exact h.down v

theorem invariant_exec (v : V) (es : List (Event V)) :
    Invariant (exec Replica.step (State.start v) es) :=
  exec_invariant Invariant (fun _ e h => h.step e) (invariant_start v) es

/-- **A settled reader is up to date** exactly when something was published to it, or when what
it has read is still the value. -/
theorem Invariant.settled_iff (h : Invariant s) (hsettled : Settled s) :
    Agrees s ↔ s.heard = true ∨ ∀ v, s.store = some v → s.base = v := by
  have hup : s.phase ≠ .down := by simp [hsettled.subscribed]
  cases hheard : s.heard with
  | true =>
    have hstore := h.heard hup hheard
    rw [hsettled.queue, hsettled.pending, latest_nil, latest_nil] at hstore
    refine iff_of_true (fun v hv => ?_) (.inl rfl)
    simpa [hstore] using hv
  | false =>
    have hbase := h.unheard hup hheard
    rw [hsettled.queue, latest_nil] at hbase
    simp [Agrees, hbase]

/-! ## Schedules in which nothing is missed -/

/-- Nothing is published between a read and the subscription. -/
def Careful (s : State V) : Event V → Prop
  | .publish => s.phase ≠ .got
  | _ => True

instance (s : State V) (e : Event V) : Decidable (Careful s e) := by
  cases e <;> unfold Careful <;> infer_instance

/-- What was set since the read is still to be published. -/
def Covered (s : State V) : Prop :=
  s.phase ≠ .down → s.heard = false → ∀ v, s.store = some v → latest s.base s.pending = v

theorem Covered.step (h : Covered s) (hinv : Invariant s) {e : Event V} (he : Careful s e) :
    Covered (step s e) := by
  cases e with
  | set v =>
    intro hup hheard value hvalue
    obtain rfl : v = value := by simpa [Replica.step] using hvalue
    simp [Replica.step]
  | publish =>
    have hnot : s.phase ≠ .got := he
    cases hpending : s.pending with
    | nil => simpa only [Replica.step, hpending] using h
    | cons v rest =>
      cases hphase : s.phase with
      | got => exact absurd hphase hnot
      | subscribed =>
        simp only [Replica.step, hpending, hphase, if_true]
        intro _ hheard
        cases hheard
      | down =>
        simp only [Replica.step, hpending, hphase, reduceCtorEq, if_false]
        exact fun hup => absurd rfl hup
  | get =>
    by_cases hdown : s.phase = .down
    · simp only [Replica.step, hdown, if_true]
      intro _ _ v hv
      have hv : s.store = some v := hv
      by_cases hpending : s.pending = []
      · simp [hpending, hv]
      · exact Option.some_inj.mp ((hinv.last _ hpending).symm.trans hv)
    · simpa only [Replica.step, hdown, if_false] using h
  | subscribe =>
    by_cases hgot : s.phase = .got
    · simp only [Replica.step, hgot, if_true]
      exact fun _ => h (by simp [hgot])
    · simpa only [Replica.step, hgot, if_false] using h
  | deliver =>
    cases hqueue : s.queue with
    | nil => simpa only [Replica.step, hqueue] using h
    | cons v rest =>
      simp only [Replica.step, hqueue]
      exact h
  | lose => exact fun hup => absurd rfl hup
  | restart v => exact fun hup => absurd rfl hup

/-- Where nothing is missed, a settled reader is up to date. -/
theorem Covered.agrees (h : Covered s) (hinv : Invariant s) (hsettled : Settled s) : Agrees s := by
  rw [hinv.settled_iff hsettled]
  cases hheard : s.heard with
  | true => exact .inl rfl
  | false =>
    refine .inr fun v hv => ?_
    have hlast := h (by simp [hsettled.subscribed]) hheard v hv
    rwa [hsettled.pending, latest_nil] at hlast

end Replica
