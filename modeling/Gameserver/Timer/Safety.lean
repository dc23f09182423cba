import Gameserver.Timer.Effect

/-!
# Sequential safety of the master timer

Runs of calls on one master timer, without message deliveries: `check_time` with
a clock that jumps but never runs backwards, `start_ctf`, the suspend and stop
commands and the setters, in any order.

`tick_safety` is the main result: in every run the tick events alternate and
count up, `RUNNING` means that a tick is open, a tick ends only when it is due,
the windows of successive ticks are disjoint, and the game is announced exactly
when a tick start leaves `STOPPED`.
-/

namespace Gameserver.Timer

open Machine

/-! ## Alternating tick events -/

/-- `Alternating isOpen tick events`: starting with the tick `tick`, open or
closed, the events end and start ticks in turn, with consecutive numbers. -/
def Alternating : Bool → ℤ → List TickEvent → Prop
  | _, _, [] => True
  | true, tick, .ended n :: events => n = tick ∧ Alternating false tick events
  | false, tick, .started n :: events => n = tick + 1 ∧ Alternating true (tick + 1) events
  | true, _, .started _ :: _ => False
  | false, _, .ended _ :: _ => False

/-- Is a tick open after the event? -/
def TickEvent.opens : TickEvent → Bool
  | .started _ => true
  | .ended _ => false

/-- Is a tick open after these events? -/
def tickOpen (isOpen : Bool) (events : List TickEvent) : Bool :=
  events.foldl (fun _ e => e.opens) isOpen

/-- The last tick that was started. -/
def lastTick (tick : ℤ) (events : List TickEvent) : ℤ :=
  events.foldl (fun _ e => e.tick) tick

@[simp] theorem tickOpen_nil (b : Bool) : tickOpen b [] = b := rfl

@[simp] theorem tickOpen_append (b : Bool) (es fs : List TickEvent) :
    tickOpen b (es ++ fs) = tickOpen (tickOpen b es) fs := by
  simp [tickOpen]

@[simp] theorem lastTick_nil (n : ℤ) : lastTick n [] = n := rfl

@[simp] theorem lastTick_append (n : ℤ) (es fs : List TickEvent) :
    lastTick n (es ++ fs) = lastTick (lastTick n es) fs := by
  simp [lastTick]

theorem alternating_append {b : Bool} {n : ℤ} {es fs : List TickEvent} :
    Alternating b n (es ++ fs) ↔
      Alternating b n es ∧ Alternating (tickOpen b es) (lastTick n es) fs := by
  induction es generalizing b n with
  | nil => simp [Alternating]
  | cons e es ih =>
    cases b with
    | true =>
      cases e with
      | started k => simp [Alternating]
      | ended k =>
        simp only [List.cons_append, Alternating, ih, and_assoc]
        exact and_congr_right fun hk => by subst hk; rfl
    | false =>
      cases e with
      | started k =>
        simp only [List.cons_append, Alternating, ih, and_assoc]
        exact and_congr_right fun hk => by subst hk; rfl
      | ended k => simp [Alternating]

/-- The events after a closed tick are about later ticks, and those after an open
tick too, apart from its own end. -/
theorem Alternating.later {b : Bool} {n : ℤ} {es : List TickEvent} (h : Alternating b n es) :
    ∀ e ∈ es, n < e.tick ∨ (b = true ∧ e = .ended n) := by
  induction es generalizing b n with
  | nil => simp
  | cons e es ih =>
    intro f hf
    cases b with
    | true =>
      cases e with
      | started k => exact absurd h id
      | ended k =>
        obtain ⟨rfl, hrest⟩ := h
        rcases List.mem_cons.1 hf with rfl | hf
        · exact Or.inr ⟨rfl, rfl⟩
        · rcases ih hrest f hf with hlt | ⟨hb, -⟩
          · exact Or.inl hlt
          · exact absurd hb (by decide)
    | false =>
      cases e with
      | started k =>
        obtain ⟨rfl, hrest⟩ := h
        rcases List.mem_cons.1 hf with rfl | hf
        · exact Or.inl (Int.lt_succ n)
        · rcases ih hrest f hf with hlt | ⟨-, rfl⟩
          · exact Or.inl (by omega)
          · exact Or.inl (Int.lt_succ n)
      | ended k => exact absurd h id

/-- In an alternating run the tick numbers never go back, and a number comes back
only as the end of the tick that was started with it. -/
theorem Alternating.pairwise {b : Bool} {n : ℤ} {es : List TickEvent} (h : Alternating b n es) :
    es.Pairwise (fun e f => e.tick < f.tick ∨ (∃ k, e = .started k ∧ f = .ended k)) := by
  induction es generalizing b n with
  | nil => exact List.Pairwise.nil
  | cons e es ih =>
    cases b with
    | true =>
      cases e with
      | started k => exact absurd h id
      | ended k =>
        obtain ⟨rfl, hrest⟩ := h
        refine List.pairwise_cons.2 ⟨fun f hf => ?_, ih hrest⟩
        rcases hrest.later f hf with hlt | ⟨hb, -⟩
        · exact Or.inl hlt
        · exact absurd hb (by decide)
    | false =>
      cases e with
      | started k =>
        obtain ⟨rfl, hrest⟩ := h
        refine List.pairwise_cons.2 ⟨fun f hf => ?_, ih hrest⟩
        rcases hrest.later f hf with hlt | ⟨-, rfl⟩
        · exact Or.inl hlt
        · exact Or.inr ⟨_, rfl, rfl⟩
      | ended k => exact absurd h id

/-! ## Runs of calls -/

/-- One call of a run: the timer before it, the call, the timer after it, and
what the call told the outside world. -/
structure Record where
  before : CTFTimer
  call : Call
  after : CTFTimer
  outputs : List Output
  deriving DecidableEq

/-- A master timer, the last clock reading, and the calls made so far. -/
structure TimerRun where
  timer : CTFTimer
  clock : ℤ
  trace : List Record
  deriving DecidableEq

/-- A run that has made no call yet. -/
def TimerRun.init (m : CTFTimer) (clock : ℤ) : TimerRun := ⟨m, clock, []⟩

/-- Make one more call. -/
def TimerRun.step (r : TimerRun) (c : Call) : TimerRun where
  timer := (r.timer.call c).1
  clock := c.clockAfter r.clock
  trace := r.trace ++ [⟨r.timer, c, (r.timer.call c).1, (r.timer.call c).2⟩]

/-- The tick events of the run, in order. -/
def TimerRun.events (r : TimerRun) : List TickEvent :=
  tickEvents (r.trace.flatMap Record.outputs)

/-- The calls of the run read a clock that never runs backwards. -/
abbrev ClockMonotone (m : CTFTimer) (clock : ℤ) (calls : List Call) : Prop :=
  Along TimerRun.step (fun r c => c.ClockOk r.clock) (.init m clock) calls

@[simp] theorem TimerRun.events_init (m : CTFTimer) (clock : ℤ) :
    (TimerRun.init m clock).events = [] := rfl

@[simp] theorem TimerRun.events_step (r : TimerRun) (c : Call) :
    (r.step c).events = r.events ++ tickEvents (r.timer.call c).2 := by
  simp [TimerRun.events, TimerRun.step]

theorem started_mem_tickEvents {n : ℤ} {o : List Output} :
    TickEvent.started n ∈ tickEvents o ↔ Output.startTick n ∈ o := by
  simp only [tickEvents, List.mem_filterMap]
  constructor
  · rintro ⟨x, hx, hn⟩
    cases x <;> simp_all
  · exact fun h => ⟨_, h, rfl⟩

theorem ended_mem_tickEvents {n : ℤ} {o : List Output} :
    TickEvent.ended n ∈ tickEvents o ↔ Output.endTick n ∈ o := by
  simp only [tickEvents, List.mem_filterMap]
  constructor
  · rintro ⟨x, hx, hn⟩
    cases x <;> simp_all
  · exact fun h => ⟨_, h, rfl⟩

/-! ## The safety property -/

/-- A tick ends only in a `check_time` whose clock is at or after the tick's end. -/
def Record.EndsWhenDue (a : Record) : Prop :=
  ∀ n, Output.endTick n ∈ a.outputs →
    ∃ t now e, a.call = .checkTime t now ∧ a.before.tickEnd = some e ∧ e ≤ t

/-- The start of the CTF is announced exactly when a tick start leaves `STOPPED`. -/
def Record.AnnouncesStart (a : Record) : Prop :=
  Output.startCtf ∈ a.outputs ↔
    (∃ n, Output.startTick n ∈ a.outputs) ∧ a.before.state = .stopped

/-- If `a` ends a tick and `b` starts the next one, the tick that starts begins at
or after the end that was in force for the tick that ended. -/
def WindowsDisjoint (a b : Record) : Prop :=
  ∀ n, Output.endTick n ∈ a.outputs → Output.startTick (n + 1) ∈ b.outputs →
    ∃ e s, a.before.tickEnd = some e ∧ b.after.tickStart = some s ∧ e ≤ s

/-- What a run of calls that began with the timer `m` never violates. -/
structure TickSafety (m : CTFTimer) (r : TimerRun) : Prop where
  /-- The events strictly alternate and carry consecutive tick numbers. -/
  alternate : Alternating (m.state = .running) m.currentTick r.events
  /-- The state is `RUNNING` exactly while a tick is open. -/
  running_iff : r.timer.state = .running ↔ tickOpen (m.state = .running) r.events = true
  /-- No tick ends before it is due. -/
  due : ∀ a ∈ r.trace, a.EndsWhenDue
  /-- The windows of successive ticks are disjoint. -/
  disjoint : ∀ a ∈ r.trace, ∀ b ∈ r.trace, WindowsDisjoint a b
  /-- `on_start_ctf` fires exactly at the tick starts that leave `STOPPED`. -/
  announced : ∀ a ∈ r.trace, a.AnnouncesStart

/-! ## What the effect of a call says about its record -/

theorem Call.le_clockAfter {clock : ℤ} {c : Call} (h : c.ClockOk clock) :
    clock ≤ c.clockAfter clock := by
  cases c with
  | checkTime t now => exact h.1.trans h.2
  | startCtf now => exact h
  | _ => exact le_refl clock

namespace CallEffect

variable {m m' : CTFTimer} {c : Call} {o : List Output}

theorem alternating (h : CallEffect m c m' o) :
    Alternating (m.state = .running) m.currentTick (tickEvents o) := by
  cases h with
  | quiet h => simp [h.events, Alternating]
  | start _ h => simp [h.events, h.idle, Alternating]
  | next _ _ _ _ h => simp [h.events, h.running, Alternating]
  | halt _ _ _ h => simp [h.events, h.running, Alternating]

theorem tickOpen (h : CallEffect m c m' o) :
    decide (m'.state = .running) = Timer.tickOpen (m.state = .running) (tickEvents o) := by
  cases h with
  | quiet h => simp [h.events, h.state, Timer.tickOpen]
  | start _ h => simp [h.events, h.state, Timer.tickOpen, TickEvent.opens]
  | next _ _ _ _ h => simp [h.events, h.state, Timer.tickOpen, TickEvent.opens]
  | halt _ _ _ h => simp [h.events, h.state, Timer.tickOpen, TickEvent.opens]

theorem lastTick (h : CallEffect m c m' o) :
    m'.currentTick = Timer.lastTick m.currentTick (tickEvents o) := by
  cases h with
  | quiet h => simp [h.events, h.tick, Timer.lastTick]
  | start _ h => simp [h.events, h.tick, Timer.lastTick, TickEvent.tick]
  | next _ _ _ _ h => simp [h.events, h.tick, Timer.lastTick, TickEvent.tick]
  | halt _ _ _ h => simp [h.events, h.tick, Timer.lastTick, TickEvent.tick]

theorem currentTick_le (h : CallEffect m c m' o) : m.currentTick ≤ m'.currentTick := by
  cases h with
  | quiet h => exact h.tick.ge
  | start _ h => rw [h.tick]; exact (lt_add_one _).le
  | next _ _ _ _ h => rw [h.tick]; exact (lt_add_one _).le
  | halt _ _ _ h => exact h.tick.ge

/-- A game that is running after the call was running before it, or a tick was
started. -/
theorem tick_or_running (h : CallEffect m c m' o) (hrun : m'.state = .running) :
    m'.currentTick = m.currentTick + 1 ∨ m.state = .running := by
  cases h with
  | quiet h => exact Or.inr (h.state ▸ hrun)
  | start _ h => exact Or.inl h.tick
  | next _ _ _ _ h => exact Or.inl h.tick
  | halt _ _ _ h => exact absurd hrun h.state

theorem ended (h : CallEffect m c m' o) {n : ℤ} (hn : Output.endTick n ∈ o) :
    n = m.currentTick ∧ m.state = .running ∧
      (m'.state = .running → m'.currentTick = m.currentTick + 1) := by
  have hmem := ended_mem_tickEvents.2 hn
  cases h with
  | quiet h => simp [h.events] at hmem
  | start _ h => simp [h.events] at hmem
  | next _ _ _ _ h => exact ⟨by simpa [h.events] using hmem, h.running, fun _ => h.tick⟩
  | halt _ _ _ h =>
    exact ⟨by simpa [h.events] using hmem, h.running, fun hrun => absurd hrun h.state⟩

theorem started (h : CallEffect m c m' o) {n : ℤ} (hn : Output.startTick n ∈ o) :
    n = m.currentTick + 1 ∧ m'.currentTick = m.currentTick + 1 ∧ m'.state = .running := by
  have hmem := started_mem_tickEvents.2 hn
  cases h with
  | quiet h => simp [h.events] at hmem
  | start _ h => exact ⟨by simpa [h.events] using hmem, h.tick, h.state⟩
  | next _ _ _ _ h => exact ⟨by simpa [h.events] using hmem, h.tick, h.state⟩
  | halt _ _ _ h => simp [h.events] at hmem

/-- A tick that starts a game that was not running starts at a clock reading of the
call. -/
theorem tickStart_of_idle (h : CallEffect m c m' o) (hidle : m.state ≠ .running) {n clock : ℤ}
    (hn : Output.startTick n ∈ o) (hclock : c.ClockOk clock) :
    ∃ s, m'.tickStart = some s ∧ clock ≤ s := by
  have hmem := started_mem_tickEvents.2 hn
  cases h with
  | quiet h => simp [h.events] at hmem
  | start now h =>
    rcases h.reads with rfl | ⟨t, rfl⟩
    · exact ⟨now, h.tickStart, hclock⟩
    · exact ⟨now, h.tickStart, hclock.1.trans hclock.2⟩
  | next _ _ _ _ h => exact absurd h.running hidle
  | halt _ _ _ h => exact absurd h.running hidle

theorem endsWhenDue (h : CallEffect m c m' o) : Record.EndsWhenDue ⟨m, c, m', o⟩ := by
  intro n hn
  have hmem := ended_mem_tickEvents.2 hn
  cases h with
  | quiet h => simp [h.events] at hmem
  | start _ h => simp [h.events] at hmem
  | next t now e _ h => exact ⟨t, now, e, h.reads, h.tickEnd, h.due⟩
  | halt t now e h => exact ⟨t, now, e, h.reads, h.tickEnd, h.due⟩

theorem announcesStart (h : CallEffect m c m' o) : Record.AnnouncesStart ⟨m, c, m', o⟩ := by
  simp only [Record.AnnouncesStart, ← started_mem_tickEvents]
  cases h with
  | quiet h => simp [h.events, h.ctf]
  | start _ h => simp [h.events, h.ctf]
  | next _ _ _ _ h => simp [h.running, h.ctf]
  | halt _ _ _ h => simp [h.running, h.ctf]

/-- A call that ends a tick and starts the next one keeps their windows apart. -/
theorem windowsDisjoint_self (h : CallEffect m c m' o) :
    WindowsDisjoint ⟨m, c, m', o⟩ ⟨m, c, m', o⟩ := by
  intro n hend hstart
  have hmem := ended_mem_tickEvents.2 hend
  have hmem' := started_mem_tickEvents.2 hstart
  cases h with
  | quiet h => simp [h.events] at hmem
  | start _ h => simp [h.events] at hmem
  | next _ _ e b h => exact ⟨e, b, h.tickEnd, h.tickStart, h.disjoint⟩
  | halt _ _ _ h => simp [h.events] at hmem'

end CallEffect

/-! ## The invariant -/

/-- The invariant of runs: the safety property, and where the timer stands in the
sequence of events. -/
structure TickInv (m : CTFTimer) (r : TimerRun) : Prop extends TickSafety m r where
  tick_eq : r.timer.currentTick = lastTick m.currentTick r.events
  started_le : ∀ b ∈ r.trace, ∀ n, Output.startTick n ∈ b.outputs → n ≤ r.timer.currentTick
  ended_le : ∀ a ∈ r.trace, ∀ n, Output.endTick n ∈ a.outputs →
    n ≤ r.timer.currentTick ∧ (r.timer.state = .running → n < r.timer.currentTick)
  /-- The end of the last tick, once it has been reached, lies in the past. -/
  past : ∀ a ∈ r.trace, Output.endTick r.timer.currentTick ∈ a.outputs →
    ∃ e, a.before.tickEnd = some e ∧ e ≤ r.clock

theorem tickInv_init (m : CTFTimer) (clock : ℤ) : TickInv m (.init m clock) where
  alternate := trivial
  running_iff := by simp [TimerRun.init, TimerRun.events]
  due := by simp [TimerRun.init]
  disjoint := by simp [TimerRun.init]
  announced := by simp [TimerRun.init]
  tick_eq := rfl
  started_le := by simp [TimerRun.init]
  ended_le := by simp [TimerRun.init]
  past := by simp [TimerRun.init]

namespace TickInv

variable {m : CTFTimer} {r : TimerRun} {c : Call}

/-- A property of all records of the longer run. -/
theorem forall_step {P : Record → Prop} :
    (∀ a ∈ (r.step c).trace, P a) ↔
      (∀ a ∈ r.trace, P a) ∧ P ⟨r.timer, c, (r.timer.call c).1, (r.timer.call c).2⟩ := by
  simp [TimerRun.step, or_imp, forall_and]

theorem tickOpen_eq (h : TickInv m r) :
    tickOpen (m.state = .running) r.events = decide (r.timer.state = .running) := by
  rw [Bool.eq_iff_iff, ← h.running_iff, decide_eq_true_iff]

/-- An old end and a new start: the tick that starts follows the last one, whose end
lies in the past of the clock reading it starts at. -/
theorem windowsDisjoint_new (h : TickInv m r) (hclock : c.ClockOk r.clock) {a : Record}
    (ha : a ∈ r.trace) :
    WindowsDisjoint a ⟨r.timer, c, (r.timer.call c).1, (r.timer.call c).2⟩ := by
  intro n hend hstart
  have heff := r.timer.call_effect c
  obtain ⟨hn, -, -⟩ := heff.started hstart
  obtain rfl : n = r.timer.currentTick := by omega
  obtain ⟨e, he, hle⟩ := h.past a ha hend
  have hidle : r.timer.state ≠ .running := fun hrun =>
    absurd ((h.ended_le a ha _ hend).2 hrun) (lt_irrefl _)
  obtain ⟨s, hs, hnow⟩ := heff.tickStart_of_idle hidle hstart hclock
  exact ⟨e, s, he, hs, hle.trans hnow⟩

/-- **Every call keeps the invariant.** -/
theorem step (h : TickInv m r) (hclock : c.ClockOk r.clock) : TickInv m (r.step c) := by
  have heff := r.timer.call_effect c
  have htick : (r.step c).timer.currentTick = (r.timer.call c).1.currentTick := rfl
  have hle := heff.currentTick_le
  refine
    { alternate := ?_
      running_iff := ?_
      due := forall_step.2 ⟨h.due, heff.endsWhenDue⟩
      disjoint := forall_step.2 ⟨fun a ha => forall_step.2 ⟨h.disjoint a ha,
        h.windowsDisjoint_new hclock ha⟩, forall_step.2 ⟨fun b hb n hend hstart => ?_,
          heff.windowsDisjoint_self⟩⟩
      announced := forall_step.2 ⟨h.announced, heff.announcesStart⟩
      tick_eq := ?_
      started_le := forall_step.2 ⟨fun b hb n hn => (h.started_le b hb n hn).trans hle,
        fun n hn => ?_⟩
      ended_le := forall_step.2 ⟨fun a ha n hn => ?_, fun n hn => ?_⟩
      past := forall_step.2 ⟨fun a ha hn => ?_, fun hn => ?_⟩ }
  · rw [TimerRun.events_step, alternating_append, h.tickOpen_eq, ← h.tick_eq]
    exact ⟨h.alternate, heff.alternating⟩
  · rw [TimerRun.events_step, tickOpen_append, h.tickOpen_eq, ← heff.tickOpen, decide_eq_true_iff]
    rfl
  · -- a new end and an old start of the tick after it: no such tick was started before
    have h₁ := (heff.ended hend).1
    have h₂ := h.started_le b hb _ hstart
    omega
  · rw [TimerRun.events_step, lastTick_append, ← h.tick_eq]
    exact heff.lastTick
  · have := heff.started hn
    omega
  · -- an old end: the tick number only grows, and it grows when the game is running again
    have hold := h.ended_le a ha n hn
    refine ⟨hold.1.trans hle, fun hrun => ?_⟩
    rcases heff.tick_or_running hrun with hgrow | hstill
    · exact hold.1.trans_lt (by rw [htick]; omega)
    · exact (hold.2 hstill).trans_le hle
  · obtain ⟨rfl, -, hrun⟩ := heff.ended hn
    exact ⟨hle, fun hr => by have := hrun hr; omega⟩
  · have hold := h.ended_le a ha _ hn
    have heq : r.timer.currentTick = (r.timer.call c).1.currentTick := le_antisymm hle hold.1
    rw [htick, ← heq] at hn
    obtain ⟨e, he, hpast⟩ := h.past a ha hn
    exact ⟨e, he, hpast.trans (Call.le_clockAfter hclock)⟩
  · obtain ⟨t, now, e, hc, he, hdue⟩ := heff.endsWhenDue _ hn
    subst hc
    exact ⟨e, he, hdue.trans hclock.2⟩

end TickInv

/-- **Sequential safety of the master timer.**  Whatever calls are made on a master
timer, in any order and with any jumps of the clock, the run is safe. -/
theorem tick_safety (m : CTFTimer) (clock : ℤ) (calls : List Call)
    (hclock : ClockMonotone m clock calls) :
    TickSafety m (exec TimerRun.step (.init m clock) calls) :=
  (Along.invariant (fun _ _ h hc => h.step hc) (tickInv_init m clock) hclock).toTickSafety

/-- A game that is started, checked late, stopped after a tick and started again. -/
theorem tick_safety_restart :
    TickSafety (.new 60) (exec TimerRun.step (.init (.new 60) 0)
      [.startCtf 1000, .setTickTime 30, .checkTime 1500 1500, .stopCtfAfterTick,
        .checkTime 1530 1530, .setStartAt (some 1600), .checkTime 1602 1603]) :=
  tick_safety _ _ _ (by decide)

end Gameserver.Timer
