import Gameserver.Lib.Spacing
import Mathlib.Algebra.Order.Group.Int

/-!
# The rate limiter of the notifications

`scoreboard/src/app/ratelimiter.ts` keeps two notifications apart.  Every value becomes an
observable with a delay when it comes in, and `concatAll` runs these one after the other.

* `mapValue` — the delay of a value, and the new `lastValueIssued`.
* `limit` — the whole stream, with timers that can be late.
* `limit_times` — **values go out in order, as early as the gap allows, and late by no more than
  the timers were late**.
-/

namespace Gameserver.Frontend.RateLimiter

open Spacing

/-- A value of the stream: when it comes in, in milliseconds, and how late the timer of its
delay will be. -/
structure Arrival (α : Type*) where
  now : ℤ
  late : ℤ
  value : α

/-- What `map` does with `lastValueIssued`, and the delay of the observable; `[x]` has none. -/
def mapValue (gap lastValueIssued now : ℤ) : ℤ × Option ℤ :=
  let wait := lastValueIssued + gap - now
  if 0 < wait then (lastValueIssued + gap, some (min wait gap)) else (now, none)

/-- When an observable emits its value, if `concatAll` subscribes to it at `subscribed`. -/
def emits (subscribed late : ℤ) : Option ℤ → ℤ
  | some delay => subscribed + delay + late
  | none => subscribed

variable {α : Type*}

/-- `limit`: when the values go out.  `concatAll` subscribes to an observable when it is there
and the one before has completed. -/
def limit (gap : ℤ) : ℤ → ℤ → List (Arrival α) → List (ℤ × α)
  | _, _, [] => []
  | lastValueIssued, completed, x :: stream =>
    let mapped := mapValue gap lastValueIssued x.now
    let issued := emits (max x.now completed) x.late mapped.2
    (issued, x.value) :: limit gap mapped.1 issued stream

/-- A new limiter. -/
def start (gap : ℤ) (stream : List (Arrival α)) : List (ℤ × α) := limit gap 0 0 stream

variable {gap lastValueIssued completed now : ℤ} {stream : List (Arrival α)}

/-- `lastValueIssued` is when the value is to go out. -/
theorem mapValue_fst (gap lastValueIssued now : ℤ) :
    (mapValue gap lastValueIssued now).1 = max now (lastValueIssued + gap) := by
  simp only [mapValue]
  split <;> simp <;> omega

/-- The values go out in order. -/
theorem map_snd_limit (gap lastValueIssued completed : ℤ) (stream : List (Arrival α)) :
    (limit gap lastValueIssued completed stream).map Prod.snd = stream.map Arrival.value := by
  induction stream generalizing lastValueIssued completed with
  | nil => rfl
  | cons x stream ih => simp [limit, ih]

/-- One value: it goes out when it is to, or later by what has been late so far. -/
theorem issued_bounds (hgap : 0 ≤ gap) (hcompleted : lastValueIssued ≤ completed) (now : ℤ)
    {late : ℤ} (hlate : 0 ≤ late) :
    max now (lastValueIssued + gap) ≤
        emits (max now completed) late (mapValue gap lastValueIssued now).2 ∧
      emits (max now completed) late (mapValue gap lastValueIssued now).2 ≤
        max now (lastValueIssued + gap) + (completed - lastValueIssued + late) := by
  simp only [mapValue]
  split <;> constructor <;> simp only [emits] <;> omega

/-- What the timers have been late so far. -/
def lateness : ℤ → List (Arrival α) → List ℤ
  | _, [] => []
  | before, x :: stream => (before + x.late) :: lateness (before + x.late) stream

/-- When the values are to go out. -/
def planned (gap lastValueIssued : ℤ) (stream : List (Arrival α)) : List ℤ :=
  earliest gap lastValueIssued (stream.map Arrival.now)

/-- Values are late by no more than the timers were. -/
theorem limit_bounds (hgap : 0 ≤ gap) (hlate : ∀ x ∈ stream, 0 ≤ x.late) {before : ℤ}
    (hcompleted : lastValueIssued ≤ completed) (hbefore : completed ≤ lastValueIssued + before) :
    List.Forall₂ (· ≤ ·) (planned gap lastValueIssued stream)
        ((limit gap lastValueIssued completed stream).map Prod.fst) ∧
      List.Forall₂ (· ≤ ·) ((limit gap lastValueIssued completed stream).map Prod.fst)
        (List.zipWith (· + ·) (planned gap lastValueIssued stream) (lateness before stream)) := by
  induction stream generalizing lastValueIssued completed before with
  | nil => exact ⟨.nil, .nil⟩
  | cons x stream ih =>
    obtain ⟨hearly, hupper⟩ := issued_bounds hgap hcompleted x.now (hlate x List.mem_cons_self)
    have hlately : emits (max x.now completed) x.late (mapValue gap lastValueIssued x.now).2 ≤
        max x.now (lastValueIssued + gap) + (before + x.late) := by omega
    obtain ⟨hrest, hrest'⟩ := ih (fun y hy => hlate y (List.mem_cons_of_mem x hy)) hearly hlately
    simp only [limit, planned, lateness, List.map_cons, earliest, mapValue_fst,
      List.zipWith_cons_cons]
    exact ⟨.cons hearly hrest, .cons hlately hrest'⟩

/-- With exact timers the values go out as planned. -/
theorem limit_exact (hgap : 0 ≤ gap) (hexact : ∀ x ∈ stream, x.late = 0)
    (hcompleted : lastValueIssued = completed) :
    (limit gap lastValueIssued completed stream).map Prod.fst =
      planned gap lastValueIssued stream := by
  induction stream generalizing lastValueIssued completed with
  | nil => rfl
  | cons x stream ih =>
    have hx := hexact x List.mem_cons_self
    obtain ⟨hlower, hupper⟩ := issued_bounds hgap hcompleted.le x.now hx.ge
    have hissued : max x.now (lastValueIssued + gap) =
        emits (max x.now completed) x.late (mapValue gap lastValueIssued x.now).2 := by omega
    have hrest := ih (fun y hy => hexact y (List.mem_cons_of_mem x hy)) hissued
    simp only [limit, planned, List.map_cons, earliest, mapValue_fst]
    exact congrArg₂ List.cons hissued.symm hrest

/-- **The rate limiter.**  The values go out in the order in which they come in; the times they
are planned for have the gap between them, and no other times with a gap are earlier; no value
goes out before its planned time, or after it by more than the timers have been late so far.
With exact timers every value goes out when it is planned to. -/
theorem limit_times (hgap : 0 ≤ gap) (hlate : ∀ x ∈ stream, 0 ≤ x.late) :
    (start gap stream).map Prod.snd = stream.map Arrival.value ∧
    Feasible gap 0 (stream.map Arrival.now) (planned gap 0 stream) ∧
    (∀ times, Feasible gap 0 (stream.map Arrival.now) times →
      List.Forall₂ (· ≤ ·) (planned gap 0 stream) times) ∧
    List.Forall₂ (· ≤ ·) (planned gap 0 stream) ((start gap stream).map Prod.fst) ∧
    List.Forall₂ (· ≤ ·) ((start gap stream).map Prod.fst)
      (List.zipWith (· + ·) (planned gap 0 stream) (lateness 0 stream)) ∧
    ((∀ x ∈ stream, x.late = 0) → (start gap stream).map Prod.fst = planned gap 0 stream) := by
  have hstart : (0 : ℤ) ≤ 0 + 0 := le_refl _
  obtain ⟨hlower, hupper⟩ := limit_bounds hgap hlate (le_refl (0 : ℤ)) hstart
  exact ⟨map_snd_limit gap 0 0 stream, earliest_feasible gap 0 _, fun _ => earliest_le, hlower,
    hupper, fun hexact => limit_exact hgap hexact rfl⟩

/-- Three notifications at once, and one when two of them are still to come. -/
def burst : List (Arrival String) :=
  [⟨100000, 0, "a"⟩, ⟨100000, 7, "b"⟩, ⟨100000, 0, "c"⟩, ⟨113000, 0, "d"⟩]

theorem limit_times_burst :
    (start 12000 burst).map Prod.snd = ["a", "b", "c", "d"] ∧
      (start 12000 burst).map Prod.fst = [100000, 112007, 124007, 136007] :=
  ⟨(limit_times (by decide) (by decide)).1, by decide⟩

end Gameserver.Frontend.RateLimiter
