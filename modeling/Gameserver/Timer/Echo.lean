import Gameserver.Timer.Safety

/-!
# The master timer and its own echo

The master subscribes to the channels it publishes on: every field it publishes
comes back, arbitrarily late, and overwrites the local field.  This file runs
atomic calls on the master against single message deliveries in FIFO order.

* `EchoTolerant` — the tick events fire once, their numbers increase, and the
  current tick never decreases.
* `not_echoTolerant` — an echo that is still on its way while the next tick
  starts sets the current tick back, and the old tick ends a second time.
* `echoTolerant_of_echoDelivered` — no other run goes wrong: if every call that
  starts or ends a tick finds the echoes of the previous change delivered
  (`EchoDelivered`), the run is tolerant.
-/

namespace Gameserver.Timer

open Machine

/-! ## Publications of a call -/

@[simp] theorem published_nil : published [] = [] := rfl

@[simp] theorem published_append (o₁ o₂ : List Output) :
    published (o₁ ++ o₂) = published o₁ ++ published o₂ := by
  simp [published]

@[simp] theorem published_startTick (tick : ℤ) (o : List Output) :
    published (.startTick tick :: o) = published o := rfl

@[simp] theorem published_endTick (tick : ℤ) (o : List Output) :
    published (.endTick tick :: o) = published o := rfl

@[simp] theorem published_startCtf (o : List Output) :
    published (.startCtf :: o) = published o := rfl

@[simp] theorem published_suspendCtf (o : List Output) :
    published (.suspendCtf :: o) = published o := rfl

@[simp] theorem published_endCtf (o : List Output) : published (.endCtf :: o) = published o := rfl

@[simp] theorem published_openVulnboxAccess (o : List Output) :
    published (.openVulnboxAccess :: o) = published o := rfl

namespace CTFTimer

variable (m : CTFTimer)

@[simp] theorem published_updateTickTimes : published m.updateTickTimes = [] := by
  unfold updateTickTimes
  split <;> rfl

@[simp] theorem published_onUpdateTimes : published m.onUpdateTimes = m.messages := by
  have h : published m.onUpdateTimes = m.messages ++ published m.updateTickTimes := rfl
  simpa using h

@[simp] theorem published_onStartCtf : published m.onStartCtf = [] := by simp [onStartCtf]

@[simp] theorem published_onEndCtf : published m.onEndCtf = [] := by simp [onEndCtf]

@[simp] theorem published_onOpenVulnboxAccess : published m.onOpenVulnboxAccess = [] := by
  simp [onOpenVulnboxAccess]

theorem published_startCtf (now : ℤ) :
    published (m.startCtf now).2 = [] ∨
      published (m.startCtf now).2 = (m.startCtf now).1.messages := by
  unfold startCtf
  split_ifs
  · exact Or.inr (by simp)
  · exact Or.inr (by simp)
  · exact Or.inl rfl

theorem published_checkTime (t now : ℤ) :
    published (m.checkTime t now).2 = [] ∨
      published (m.checkTime t now).2 = (m.checkTime t now).1.messages := by
  have hstart : published (m.checkStart t now).2 = [] ∨
      published (m.checkStart t now).2 = (m.checkStart t now).1.messages := by
    unfold checkStart
    split_ifs
    · exact m.published_startCtf now
    · exact published_startCtf _ now
    · exact Or.inr (by simp)
    · exact Or.inl rfl
  have hend : ∀ e, published (m.endTick t e).2 = (m.endTick t e).1.messages := by
    intro e
    unfold endTick
    by_cases hdes : m.desiredState = .running
    · simp [hdes]
    · by_cases hsus : m.desiredState = .suspended <;> simp [hdes, hsus]
  unfold checkTime
  split
  · split
    · exact Or.inr (hend _)
    · exact hstart
  · exact hstart

/-- A call publishes nothing, or all fields of the timer it leaves behind. -/
theorem published_call (c : Call) :
    published (m.call c).2 = [] ∨ published (m.call c).2 = (m.call c).1.messages := by
  cases c with
  | checkTime t now => exact m.published_checkTime t now
  | startCtf now => exact m.published_startCtf now
  | suspendCtfAfterTick => exact Or.inr (published_onUpdateTimes _)
  | stopCtfAfterTick => exact Or.inr (published_onUpdateTimes _)
  | setTickTime tickTime =>
    simp only [call, setTickTime]
    split_ifs
    · exact Or.inr (by simp)
    · exact Or.inl rfl
  | setStopAfterTick lastTick =>
    simp only [call, setStopAfterTick]
    split_ifs
    · exact Or.inr (by simp)
    · exact Or.inl rfl
  | setStartAt timestamp =>
    simp only [call, setStartAt]
    split_ifs
    · exact Or.inr (by simp)
    · exact Or.inl rfl
  | setOpenVulnboxAccessAt timestamp =>
    simp only [call, setOpenVulnboxAccessAt]
    split_ifs
    · exact Or.inr (by simp)
    · exact Or.inl rfl

end CTFTimer

/-! ## Runs with deliveries -/

/-- The master timer, the last clock reading, the messages on their way back to it,
and the tick events so far. -/
structure EchoRun where
  timer : CTFTimer
  clock : ℤ
  queue : List Message
  events : List TickEvent
  deriving DecidableEq

/-- An event of a run: an atomic call on the master, or the delivery of the oldest
message. -/
inductive EchoEvent where
  | call (c : Call)
  | deliver
  deriving DecidableEq

namespace EchoRun

/-- A master timer with no message on its way. -/
def init (m : CTFTimer) (clock : ℤ) : EchoRun := ⟨m, clock, [], []⟩

/-- One event of the run. -/
def step (r : EchoRun) : EchoEvent → EchoRun
  | .call c =>
    { timer := (r.timer.call c).1
      clock := c.clockAfter r.clock
      queue := r.queue ++ published (r.timer.call c).2
      events := r.events ++ tickEvents (r.timer.call c).2 }
  | .deliver =>
    match r.queue with
    | [] => r
    | msg :: queue => { r with timer := r.timer.handleMessage msg, queue := queue }

/-- The clock of the calls does not run backwards. -/
def ClockOk (r : EchoRun) : EchoEvent → Prop
  | .call c => c.ClockOk r.clock
  | .deliver => True

instance (r : EchoRun) (e : EchoEvent) : Decidable (r.ClockOk e) :=
  match e with
  | .call c => inferInstanceAs (Decidable (c.ClockOk r.clock))
  | .deliver => inferInstanceAs (Decidable True)

end EchoRun

/-- The master tolerates the echoes in this run: each tick event fires at most once,
the tick numbers of the events increase (a tick's start and its own end share one
number), and the current tick never decreases. -/
structure EchoTolerant (m : CTFTimer) (clock : ℤ) (es : List EchoEvent) : Prop where
  once : (exec EchoRun.step (.init m clock) es).events.Nodup
  increase : (exec EchoRun.step (.init m clock) es).events.Pairwise
    (fun e f => e.tick < f.tick ∨ (∃ k, e = .started k ∧ f = .ended k))
  monotone : Along EchoRun.step
    (fun r e => r.timer.currentTick ≤ (r.step e).timer.currentTick) (.init m clock) es

/-- **The master does not tolerate a late echo.**  The game starts, the next tick
starts one minute later, and only then the nine messages about the first tick
arrive: the timer is back in tick 1, which is over, and ends it again. -/
theorem not_echoTolerant :
    ¬ ∀ (m : CTFTimer) (clock : ℤ) (es : List EchoEvent),
      Along EchoRun.step EchoRun.ClockOk (.init m clock) es → EchoTolerant m clock es := by
  intro h
  have hrun := h (.new 60) 0
    ([.call (.startCtf 1000), .call (.checkTime 1060 1060)] ++ List.replicate 9 .deliver
      ++ [.call (.checkTime 1061 1061)]) (by decide)
  exact absurd hrun.once (by decide)

/-! ## When the echoes are delivered in time -/

/-- A message on `timing:state`. -/
def Message.isState : Message → Bool
  | .state _ => true
  | _ => false

/-- A message on `timing:currentRound`. -/
def Message.isCurrentRound : Message → Bool
  | .currentRound _ => true
  | _ => false

/-- A call that starts a tick finds no message about the state or the current round
on its way, and one that ends a tick finds none about the state. -/
def EchoRun.EchoDelivered (r : EchoRun) : EchoEvent → Prop
  | .call c =>
    (r.timer.startsTick c = true →
      ∀ msg ∈ r.queue, msg.isState = false ∧ msg.isCurrentRound = false) ∧
    (r.timer.endsTick c = true → ∀ msg ∈ r.queue, msg.isState = false)
  | .deliver => True

instance (r : EchoRun) (e : EchoEvent) : Decidable (r.EchoDelivered e) :=
  match e with
  | .call _ => inferInstanceAs (Decidable ((_ → ∀ msg ∈ r.queue, _) ∧ (_ → ∀ msg ∈ r.queue, _)))
  | .deliver => inferInstanceAs (Decidable True)

/-- The invariant of such runs: the messages on their way say what the timer knows,
and the events are those of a run without echoes. -/
structure EchoInv (m : CTFTimer) (r : EchoRun) : Prop where
  alternate : Alternating (m.state = .running) m.currentTick r.events
  open_eq : tickOpen (m.state = .running) r.events = decide (r.timer.state = .running)
  tick_eq : r.timer.currentTick = lastTick m.currentTick r.events
  states : ∀ s, Message.state s ∈ r.queue → s = r.timer.state
  rounds : ∀ n, Message.currentRound n ∈ r.queue → n = r.timer.currentTick

theorem echoInv_init (m : CTFTimer) (clock : ℤ) : EchoInv m (.init m clock) where
  alternate := trivial
  open_eq := rfl
  tick_eq := rfl
  states := by simp [EchoRun.init]
  rounds := by simp [EchoRun.init]

/-- A call whose tick change meets no old message about it leaves only messages that
agree with the new timer. -/
theorem CTFTimer.call_old_messages (m : CTFTimer) (c : Call) {queue : List Message}
    (hstarts : m.startsTick c = true →
      ∀ msg ∈ queue, msg.isState = false ∧ msg.isCurrentRound = false)
    (hends : m.endsTick c = true → ∀ msg ∈ queue, msg.isState = false) :
    (∀ s, Message.state s ∈ queue → (m.call c).1.state = m.state) ∧
      ∀ n, Message.currentRound n ∈ queue → (m.call c).1.currentTick = m.currentTick := by
  have hevents := m.tickEvents_call c
  -- a call that starts a tick meets neither a state nor a round
  have hnone : m.startsTick c = true →
      (∀ s, Message.state s ∈ queue → (m.call c).1.state = m.state) ∧
        ∀ n, Message.currentRound n ∈ queue → (m.call c).1.currentTick = m.currentTick := by
    intro hstart
    have hq := hstarts hstart
    exact ⟨fun s hmem => absurd (hq _ hmem).1 (by simp [Message.isState]),
      fun n hmem => absurd (hq _ hmem).2 (by simp [Message.isCurrentRound])⟩
  cases m.call_effect c with
  | quiet h => exact ⟨fun _ _ => h.state, fun _ _ => h.tick⟩
  | start _ h =>
    refine hnone (by_contra fun hnot => ?_)
    rw [h.events, if_neg hnot] at hevents
    split at hevents <;> simp at hevents
  | next _ _ _ _ h =>
    refine hnone (by_contra fun hnot => ?_)
    rw [h.events, if_neg hnot] at hevents
    split at hevents <;> simp at hevents
  | halt _ _ _ h =>
    have hend : m.endsTick c = true := by
      by_contra hnot
      rw [h.events, if_neg hnot] at hevents
      split at hevents <;> simp at hevents
    have hq := hends hend
    exact ⟨fun s hmem => absurd (hq _ hmem) (by simp [Message.isState]), fun _ _ => h.tick⟩

theorem EchoInv.call {m : CTFTimer} {r : EchoRun} (h : EchoInv m r) {c : Call}
    (hok : r.EchoDelivered (.call c)) : EchoInv m (r.step (.call c)) := by
  have heff := r.timer.call_effect c
  obtain ⟨hold, hold'⟩ := r.timer.call_old_messages c hok.1 hok.2
  have hpub := r.timer.published_call c
  refine
    { alternate := alternating_append.2 ⟨h.alternate, ?_⟩
      open_eq := ?_
      tick_eq := ?_
      states := fun s hs => ?_
      rounds := fun n hn => ?_ }
  · rw [h.open_eq, ← h.tick_eq]
    exact heff.alternating
  · rw [EchoRun.step, tickOpen_append, h.open_eq, ← heff.tickOpen]
  · rw [EchoRun.step, lastTick_append, ← h.tick_eq]
    exact heff.lastTick
  · rcases List.mem_append.1 hs with hs | hs
    · exact (h.states s hs).trans (hold s hs).symm
    · rcases hpub with hp | hp <;> simp [hp, CTFTimer.messages] at hs
      exact hs
  · rcases List.mem_append.1 hn with hn | hn
    · exact (h.rounds n hn).trans (hold' n hn).symm
    · rcases hpub with hp | hp <;> simp [hp, CTFTimer.messages] at hn
      exact hn

/-- Delivering a message that agrees with the timer changes neither the state nor the
current tick. -/
theorem handleMessage_agrees {m : CTFTimer} {msg : Message}
    (hs : ∀ s, msg = .state s → s = m.state) (hn : ∀ n, msg = .currentRound n → n = m.currentTick) :
    (m.handleMessage msg).state = m.state ∧ (m.handleMessage msg).currentTick = m.currentTick := by
  cases msg with
  | state s => exact ⟨hs s rfl, rfl⟩
  | currentRound n => exact ⟨rfl, hn n rfl⟩
  | _ => exact ⟨rfl, rfl⟩

theorem EchoInv.deliver_agrees {m : CTFTimer} {r : EchoRun} (h : EchoInv m r) :
    (r.step .deliver).timer.state = r.timer.state ∧
      (r.step .deliver).timer.currentTick = r.timer.currentTick := by
  unfold EchoRun.step
  cases hq : r.queue with
  | nil => exact ⟨rfl, rfl⟩
  | cons msg queue =>
    refine handleMessage_agrees (fun s hs => h.states s ?_) (fun n hn => h.rounds n ?_)
    · simp [hq, hs]
    · simp [hq, hn]

theorem EchoInv.deliver {m : CTFTimer} {r : EchoRun} (h : EchoInv m r) :
    EchoInv m (r.step .deliver) := by
  obtain ⟨hs, hn⟩ := h.deliver_agrees
  have hevents : (r.step .deliver).events = r.events := by
    unfold EchoRun.step
    cases r.queue <;> rfl
  have hqueue : ∀ msg ∈ (r.step .deliver).queue, msg ∈ r.queue := by
    unfold EchoRun.step
    cases hq : r.queue with
    | nil => simp [hq]
    | cons msg queue => exact fun x hx => List.mem_cons_of_mem _ hx
  exact
    { alternate := hevents ▸ h.alternate
      open_eq := by rw [hevents, h.open_eq, hs]
      tick_eq := by rw [hevents, ← h.tick_eq, hn]
      states := fun s hmem => (h.states s (hqueue _ hmem)).trans hs.symm
      rounds := fun n hmem => (h.rounds n (hqueue _ hmem)).trans hn.symm }

theorem EchoInv.step {m : CTFTimer} {r : EchoRun} {e : EchoEvent} (h : EchoInv m r)
    (hok : r.EchoDelivered e) : EchoInv m (r.step e) := by
  cases e with
  | call c => exact h.call hok
  | deliver => exact h.deliver

/-- No event of such a run sets the current tick back. -/
theorem EchoInv.currentTick_le {m : CTFTimer} {r : EchoRun} (h : EchoInv m r) (e : EchoEvent) :
    r.timer.currentTick ≤ (r.step e).timer.currentTick := by
  cases e with
  | call c => exact (r.timer.call_effect c).currentTick_le
  | deliver => exact h.deliver_agrees.2.ge

/-- **The master tolerates echoes that arrive before the next tick change.** -/
theorem echoTolerant_of_echoDelivered (m : CTFTimer) (clock : ℤ) (es : List EchoEvent)
    (hok : Along EchoRun.step EchoRun.EchoDelivered (.init m clock) es) :
    EchoTolerant m clock es := by
  have hinv := hok.invariant (fun _ _ h hc => h.step hc) (echoInv_init m clock)
  have hpw := hinv.alternate.pairwise
  refine ⟨hpw.imp ?_, hpw, hok.mono_inv (fun _ _ h hc => h.step hc)
    (fun _ e h _ => h.currentTick_le e) (echoInv_init m clock)⟩
  rintro e f (hlt | ⟨k, rfl, rfl⟩)
  · rintro rfl
    exact absurd hlt (lt_irrefl _)
  · simp

/-- The same run as in `not_echoTolerant`, with the echoes of the first tick delivered
before the second one starts. -/
theorem echoTolerant_two_ticks :
    EchoTolerant (.new 60) 0
      ([.call (.startCtf 1000)] ++ List.replicate 9 .deliver ++
        [.call (.checkTime 1060 1060), .deliver, .call (.setTickTime 30), .deliver]) :=
  echoTolerant_of_echoDelivered _ _ _ (by decide)

end Gameserver.Timer
