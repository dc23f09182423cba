import Gameserver.Timer.Echo

/-!
# A command issued through a slave timer

A slave timer sends its commands through Redis: `redis_set_and_publish` writes the
key `timing:desiredState` and then publishes on the channel of the same name.  The
master does the same with all nine fields on every tick change.  This file lets the
single steps of both sides interleave: the slave's SET and PUBLISH, the reading of a
field, SET and PUBLISH of each of the master's publications, its `check_time`, and
the delivery of messages in FIFO order.

* `CommandKept` — once everything is delivered, the master's desired state and the
  key both hold the command, unless it has been carried out.
* `not_commandKept` — a tick change between the slave's PUBLISH and the delivery
  republishes the old value behind the command, which is lost.
* `commandKept_of_undisturbed` — nothing else loses a command: it suffices that the
  master publishes no other desired state between the slave's SET and the delivery
  (`Undisturbed`).
-/

namespace Gameserver.Timer

open Machine

/-! ## Redis -/

/-- The nine timing keys, each with the channel of the same name. -/
inductive Channel where
  | state
  | desiredState
  | currentRound
  | roundStart
  | roundEnd
  | roundTime
  | stopAfterRound
  | startAt
  | openVulnboxAccessAt
  deriving DecidableEq, Repr

/-- The order in which `on_update_times` goes through the channels. -/
def Channel.all : List Channel :=
  [.state, .desiredState, .currentRound, .roundStart, .roundEnd, .roundTime, .stopAfterRound,
    .startAt, .openVulnboxAccessAt]

/-- The channel of a message. -/
def Message.channel : Message → Channel
  | .state _ => .state
  | .desiredState _ => .desiredState
  | .currentRound _ => .currentRound
  | .roundStart _ => .roundStart
  | .roundEnd _ => .roundEnd
  | .roundTime _ => .roundTime
  | .stopAfterRound _ => .stopAfterRound
  | .startAt _ => .startAt
  | .openVulnboxAccessAt _ => .openVulnboxAccessAt

/-- The message that publishes the current value of one field. -/
def CTFTimer.read (m : CTFTimer) : Channel → Message
  | .state => .state m.state
  | .desiredState => .desiredState m.desiredState
  | .currentRound => .currentRound m.currentTick
  | .roundStart => .roundStart m.tickStart
  | .roundEnd => .roundEnd m.tickEnd
  | .roundTime => .roundTime m.tickTime
  | .stopAfterRound => .stopAfterRound m.stopAfterTick
  | .startAt => .startAt m.startAt
  | .openVulnboxAccessAt => .openVulnboxAccessAt m.openVulnboxAccessAt

@[simp] theorem CTFTimer.channel_read (m : CTFTimer) (ch : Channel) : (m.read ch).channel = ch := by
  cases ch <;> rfl

/-- The value of each key; `none` for a key that was never written. -/
abbrev Keys := Channel → Option Message

/-- `redis.set`. -/
def Keys.set (keys : Keys) (msg : Message) : Keys := Function.update keys msg.channel (some msg)

theorem Keys.set_self (keys : Keys) (msg : Message) : keys.set msg msg.channel = some msg :=
  Function.update_self ..

theorem Keys.set_of_ne (keys : Keys) {msg : Message} {ch : Channel} (h : msg.channel ≠ ch) :
    keys.set msg ch = keys ch :=
  Function.update_of_ne (Ne.symm h) ..

/-! ## The run of a command -/

/-- How far the slave's command has come. -/
inductive Phase where
  | before
  | keySet
  | published
  | delivered
  deriving DecidableEq, Repr

/-- A message on its way to the master. -/
structure Envelope where
  msg : Message
  fromSlave : Bool
  deriving DecidableEq, Repr

/-- The master with its publications, Redis, and the command of the slave. -/
structure CommandRun where
  master : CTFTimer
  clock : ℤ
  keys : Keys
  queue : List Envelope
  /-- The channels `on_update_times` has still to go through. -/
  todo : List Channel
  /-- The `redis_set_and_publish` under way, and whether its key has been written. -/
  pending : Option (Message × Bool)
  phase : Phase
  /-- The master has gone to the commanded state since the command was issued. -/
  carriedOut : Bool

/-- A single step of the master, the slave, or the delivery. -/
inductive CommandEvent where
  | check (t now : ℤ)
  | masterRead
  | masterSet
  | masterPublish
  | slaveSet
  | slavePublish
  | deliver
  deriving DecidableEq, Repr

/-- Is a publication of all fields among the outputs? -/
def updatesTimes (o : List Output) : Bool :=
  o.any fun
    | .updateTimes _ => true
    | _ => false

namespace CommandRun

/-- One step, apart from the book-keeping of `carriedOut`.  A step that is not
possible in a state leaves it as it is. -/
def move (cmd : CTFState) (r : CommandRun) : CommandEvent → CommandRun
  | .check t now =>
    if r.todo = [] ∧ r.pending = none then
      { r with
        master := (r.master.checkTime t now).1
        clock := now
        todo := if updatesTimes (r.master.checkTime t now).2 then Channel.all else [] }
    else r
  | .masterRead =>
    match r.pending, r.todo with
    | none, ch :: todo => { r with pending := some (r.master.read ch, false), todo := todo }
    | _, _ => r
  | .masterSet =>
    match r.pending with
    | some (msg, false) => { r with keys := r.keys.set msg, pending := some (msg, true) }
    | _ => r
  | .masterPublish =>
    match r.pending with
    | some (msg, true) => { r with queue := r.queue ++ [⟨msg, false⟩], pending := none }
    | _ => r
  | .slaveSet =>
    if r.phase = .before then
      { r with keys := r.keys.set (.desiredState cmd), phase := .keySet }
    else r
  | .slavePublish =>
    if r.phase = .keySet then
      { r with queue := r.queue ++ [⟨.desiredState cmd, true⟩], phase := .published }
    else r
  | .deliver =>
    match r.queue with
    | [] => r
    | env :: queue =>
      { r with
        master := r.master.handleMessage env.msg
        queue := queue
        phase := if env.fromSlave then .delivered else r.phase }

/-- The command has been issued, and `check_time` takes the game from another state to the
commanded one. -/
def carriesOut (cmd : CTFState) (r : CommandRun) : CommandEvent → Bool
  | .check t now => r.phase ≠ .before ∧ r.master.state ≠ cmd ∧
      (r.move cmd (.check t now)).master.state = cmd
  | _ => false

/-- One step. -/
def step (cmd : CTFState) (r : CommandRun) (e : CommandEvent) : CommandRun :=
  { r.move cmd e with carriedOut := r.carriedOut || r.carriesOut cmd e }

/-- The clock of `check_time` does not run backwards. -/
def ClockOk (r : CommandRun) : CommandEvent → Prop
  | .check t now => r.clock ≤ t ∧ t ≤ now
  | _ => True

instance (r : CommandRun) (e : CommandEvent) : Decidable (r.ClockOk e) :=
  match e with
  | .check t now => inferInstanceAs (Decidable (r.clock ≤ t ∧ t ≤ now))
  | .masterRead | .masterSet | .masterPublish | .slaveSet | .slavePublish | .deliver =>
    inferInstanceAs (Decidable True)

/-- The command is through, no call is in progress and all messages are delivered. -/
def Quiescent (r : CommandRun) : Prop :=
  r.phase = .delivered ∧ r.queue = [] ∧ r.todo = [] ∧ r.pending = none

end CommandRun

/-- The messages of a game whose last tick and start time are not set. -/
def Message.Unset : Message → Prop
  | .stopAfterRound tick => tick = none
  | .startAt t => t = none
  | _ => True

/-- Before the command: `stop_after_tick` and `start_at` are unset, at the master and
in all messages on their way. -/
structure CommandRun.Fresh (r : CommandRun) : Prop where
  phase : r.phase = .before
  carriedOut : r.carriedOut = false
  stopAfterTick : r.master.stopAfterTick = none
  startAt : r.master.startAt = none
  queue : ∀ env ∈ r.queue, env.fromSlave = false ∧ env.msg.Unset
  pending : ∀ p ∈ r.pending, p.1.Unset

/-- The command is kept: in a quiescent state the master and the key hold it, or it
has been carried out. -/
def CommandKept (cmd : CTFState) (r : CommandRun) : Prop :=
  r.Quiescent →
    (r.master.desiredState = cmd ∧ r.keys .desiredState = some (.desiredState cmd)) ∨
      r.carriedOut = true

/-- A running game in its first tick, with everything delivered. -/
def runningGame : CommandRun where
  master :=
    { CTFTimer.new 60 with
      state := .running
      desiredState := .running
      currentTick := 1
      tickStart := some 1000
      tickEnd := some 1060 }
  clock := 1000
  keys := fun _ => none
  queue := []
  todo := []
  pending := none
  phase := .before
  carriedOut := false

/-- **A command can be lost.**  The slave orders the game to stop after the tick; the
tick ends before the message arrives, the master starts the next one and publishes
its old desired state.  With everything delivered the game runs on, and neither the
master nor the key knows of the command. -/
theorem not_commandKept :
    ¬ ∀ (cmd : CTFState) (r : CommandRun) (es : List CommandEvent), r.Fresh →
      Along (CommandRun.step cmd) CommandRun.ClockOk r es →
      CommandKept cmd (exec (CommandRun.step cmd) r es) := by
  intro h
  have hkept := h .stopped runningGame
    ([.slaveSet, .slavePublish, .check 1060 1060] ++
      (List.replicate 9 [.masterRead, .masterSet, .masterPublish]).flatten ++
      List.replicate 10 .deliver)
    ⟨rfl, rfl, rfl, rfl, by simp [runningGame], by simp [runningGame]⟩ (by decide)
  rcases hkept ⟨by decide, by decide, by decide, by decide⟩ with ⟨hdes, -⟩ | hout
  · exact absurd hdes (by decide)
  · exact absurd hout (by decide)

/-! ## When the command survives -/

/-- The message does not contradict the command. -/
def Message.Agrees (cmd : CTFState) (msg : Message) : Prop :=
  msg.channel = .desiredState → msg = .desiredState cmd

instance (cmd : CTFState) (msg : Message) : Decidable (msg.Agrees cmd) :=
  inferInstanceAs (Decidable (_ → _))

/-- From the slave's SET to the delivery of its message the master publishes no other
desired state: none is under way at the SET, and none is read until the delivery. -/
def CommandRun.Undisturbed (cmd : CTFState) (r : CommandRun) : CommandEvent → Prop
  | .slaveSet => r.phase = .before → ∀ p ∈ r.pending, p.1.Agrees cmd
  | .masterRead =>
    r.phase = .keySet ∨ r.phase = .published → r.todo.head? = some .desiredState →
      r.master.desiredState = cmd
  | _ => True

instance (cmd : CTFState) (r : CommandRun) (e : CommandEvent) : Decidable (r.Undisturbed cmd e) :=
  match e with
  | .slaveSet => inferInstanceAs (Decidable (r.phase = .before → ∀ p ∈ r.pending, _))
  | .masterRead => inferInstanceAs (Decidable (_ ∨ _ → _ = _ → _ = _))
  | .check .. | .masterSet | .masterPublish | .slavePublish | .deliver =>
    inferInstanceAs (Decidable True)

/-- `stop_after_tick` and `start_at` are unset, and the desired state is `desired`. -/
def CTFTimer.Unset (m : CTFTimer) (desired : CTFState) : Prop :=
  m.desiredState = desired ∧ m.stopAfterTick = none ∧ m.startAt = none

namespace CTFTimer

variable {m : CTFTimer} {desired : CTFState}

theorem onStartTick_unset (hstop : m.stopAfterTick = none) (tick : ℤ) :
    (m.onStartTick tick).1 = m := by
  simp [onStartTick, hstop, truthy]

theorem startCtf_unset (h : m.Unset .running) (now : ℤ) : (m.startCtf now).1.Unset .running := by
  obtain ⟨hdes, hstop, hstart⟩ := h
  unfold startCtf
  split
  · dsimp only
    rw [onStartTick_unset (by exact hstop)]
    exact ⟨rfl, hstop, hstart⟩
  · exact ⟨rfl, hstop, hstart⟩

theorem endTick_unset (h : m.Unset desired) (t e : ℤ) : (m.endTick t e).1.Unset desired := by
  obtain ⟨hdes, hstop, hstart⟩ := h
  unfold endTick
  split
  · dsimp only
    rw [onStartTick_unset (by exact hstop)]
    exact ⟨hdes, hstop, hstart⟩
  · exact ⟨hdes, hstop, hstart⟩

theorem checkStart_unset (h : m.Unset desired) (t now : ℤ) :
    (m.checkStart t now).1.Unset desired := by
  obtain ⟨rfl, hstop, hstart⟩ := h
  unfold checkStart
  split_ifs with h₁ h₂ h₃
  · rw [h₁.2]
    exact startCtf_unset ⟨h₁.2, hstop, hstart⟩ now
  · exact absurd h₂.2 (by simp [dueAt, hstart, truthy])
  · exact ⟨rfl, hstop, hstart⟩
  · exact ⟨rfl, hstop, hstart⟩

/-- Unset fields stay unset under `check_time`, and then it leaves the desired state
alone. -/
theorem checkTime_unset (h : m.Unset desired) (t now : ℤ) :
    (m.checkTime t now).1.Unset desired := by
  unfold checkTime
  split
  · split
    · exact endTick_unset h t _
    · exact checkStart_unset h t now
  · exact checkStart_unset h t now

end CTFTimer

/-- What holds in each phase of the command. -/
def CommandRun.PhaseInv (cmd : CTFState) (r : CommandRun) : Prop :=
  match r.phase with
  | .before => ∀ env ∈ r.queue, env.fromSlave = false
  | .keySet => ∀ env ∈ r.queue, env.fromSlave = false
  | .published => ∃ old new, r.queue = old ++ ⟨.desiredState cmd, true⟩ :: new ∧
      (∀ env ∈ old, env.fromSlave = false) ∧
      ∀ env ∈ new, env.fromSlave = false ∧ env.msg.Agrees cmd
  | .delivered => r.master.desiredState = cmd ∧
      ∀ env ∈ r.queue, env.fromSlave = false ∧ env.msg.Agrees cmd

/-- The invariant of undisturbed runs. -/
structure CommandInv (cmd : CTFState) (r : CommandRun) : Prop where
  stopAfterTick : r.master.stopAfterTick = none
  startAt : r.master.startAt = none
  queueUnset : ∀ env ∈ r.queue, env.msg.Unset
  pendingUnset : ∀ p ∈ r.pending, p.1.Unset
  /-- From the SET on, the key and the publication under way agree with the command. -/
  issued : r.phase ≠ .before →
    r.keys .desiredState = some (.desiredState cmd) ∧ ∀ p ∈ r.pending, p.1.Agrees cmd
  phaseInv : r.PhaseInv cmd

theorem CommandRun.Fresh.inv {cmd : CTFState} {r : CommandRun} (h : r.Fresh) :
    CommandInv cmd r where
  stopAfterTick := h.stopAfterTick
  startAt := h.startAt
  queueUnset := fun env henv => (h.queue env henv).2
  pendingUnset := h.pending
  issued := fun hne => absurd h.phase hne
  phaseInv := by
    simp only [CommandRun.PhaseInv, h.phase]
    exact fun env henv => (h.queue env henv).1

/-- The invariant does not look at `carriedOut`. -/
theorem CommandInv.step_of_move {cmd : CTFState} {r : CommandRun} {e : CommandEvent}
    (h : CommandInv cmd (r.move cmd e)) : CommandInv cmd (r.step cmd e) :=
  ⟨h.stopAfterTick, h.startAt, h.queueUnset, h.pendingUnset, h.issued, h.phaseInv⟩

namespace CommandInv

variable {cmd : CTFState} {r : CommandRun}

theorem check (h : CommandInv cmd r) (t now : ℤ) : CommandInv cmd (r.move cmd (.check t now)) := by
  obtain ⟨hdes, hstop, hstart⟩ := CTFTimer.checkTime_unset ⟨rfl, h.stopAfterTick, h.startAt⟩ t now
  simp only [CommandRun.move]
  split
  · refine ⟨hstop, hstart, h.queueUnset, h.pendingUnset, h.issued, ?_⟩
    have hp := h.phaseInv
    simp only [CommandRun.PhaseInv] at hp ⊢
    cases hph : r.phase <;> simp only [hph] at hp ⊢
    · exact hp
    · exact hp
    · exact hp
    · exact ⟨hdes.trans hp.1, hp.2⟩
  · exact h

theorem read_unset {m : CTFTimer} (hstop : m.stopAfterTick = none) (hstart : m.startAt = none)
    (ch : Channel) : (m.read ch).Unset := by
  cases ch <;> simp [CTFTimer.read, Message.Unset, hstop, hstart]

theorem masterRead (h : CommandInv cmd r) (hok : r.Undisturbed cmd .masterRead) :
    CommandInv cmd (r.move cmd .masterRead) := by
  simp only [CommandRun.move]
  split
  · rename_i ch todo hpend htodo
    refine ⟨h.stopAfterTick, h.startAt, h.queueUnset, ?_, fun hne => ⟨(h.issued hne).1, ?_⟩,
      h.phaseInv⟩
    · rintro p ⟨rfl⟩
      exact read_unset h.stopAfterTick h.startAt ch
    · -- a desired state read after the SET is the commanded one
      rintro p ⟨rfl⟩ hch
      rw [CTFTimer.channel_read] at hch
      subst hch
      have hdes : r.master.desiredState = cmd := by
        have hp := h.phaseInv
        simp only [CommandRun.PhaseInv] at hp
        cases hph : r.phase with
        | before => exact absurd hph hne
        | keySet => exact hok (Or.inl hph) (by rw [htodo]; rfl)
        | published => exact hok (Or.inr hph) (by rw [htodo]; rfl)
        | delivered =>
          rw [hph] at hp
          exact hp.1
      rw [← hdes]
      rfl
  · exact h

theorem masterSet (h : CommandInv cmd r) : CommandInv cmd (r.move cmd .masterSet) := by
  simp only [CommandRun.move]
  split
  · rename_i msg hpend
    refine ⟨h.stopAfterTick, h.startAt, h.queueUnset, ?_, fun hne => ?_, h.phaseInv⟩
    · rintro p ⟨rfl⟩
      exact h.pendingUnset (msg, false) hpend
    · obtain ⟨hkey, hagree⟩ := h.issued hne
      have hmsg : msg.Agrees cmd := hagree (msg, false) hpend
      refine ⟨?_, ?_⟩
      · by_cases hch : msg.channel = .desiredState
        · rw [hmsg hch]
          exact Keys.set_self r.keys (.desiredState cmd)
        · exact (Keys.set_of_ne _ hch).trans hkey
      · rintro p ⟨rfl⟩
        exact hmsg
  · exact h

theorem masterPublish (h : CommandInv cmd r) : CommandInv cmd (r.move cmd .masterPublish) := by
  simp only [CommandRun.move]
  split
  · rename_i msg hpend
    have hmsg : r.phase ≠ .before → msg.Agrees cmd := fun hne => (h.issued hne).2 _ hpend
    refine ⟨h.stopAfterTick, h.startAt, ?_, by simp, fun hne => ⟨(h.issued hne).1, by simp⟩, ?_⟩
    · intro env henv
      rcases List.mem_append.1 henv with henv | henv
      · exact h.queueUnset env henv
      · rw [List.mem_singleton.1 henv]
        exact h.pendingUnset _ hpend
    · have hp := h.phaseInv
      simp only [CommandRun.PhaseInv] at hp ⊢
      cases hph : r.phase with
      | before =>
        rw [hph] at hp
        simpa [or_imp, forall_and] using hp
      | keySet =>
        rw [hph] at hp
        simpa [or_imp, forall_and] using hp
      | published =>
        rw [hph] at hp
        obtain ⟨old, new, hq, hold, hnew⟩ := hp
        refine ⟨old, new ++ [⟨msg, false⟩], by simp [hq], hold, fun env henv => ?_⟩
        rcases List.mem_append.1 henv with henv | henv
        · exact hnew env henv
        · rw [List.mem_singleton.1 henv]
          exact ⟨rfl, hmsg (by rw [hph]; simp)⟩
      | delivered =>
        rw [hph] at hp
        refine ⟨hp.1, fun env henv => ?_⟩
        rcases List.mem_append.1 henv with henv | henv
        · exact hp.2 env henv
        · rw [List.mem_singleton.1 henv]
          exact ⟨rfl, hmsg (by rw [hph]; simp)⟩
  · exact h

theorem slaveSet (h : CommandInv cmd r) (hok : r.Undisturbed cmd .slaveSet) :
    CommandInv cmd (r.move cmd .slaveSet) := by
  simp only [CommandRun.move]
  split
  · rename_i hph
    refine ⟨h.stopAfterTick, h.startAt, h.queueUnset, h.pendingUnset,
      fun _ => ⟨Keys.set_self r.keys (.desiredState cmd), hok hph⟩, ?_⟩
    have hp := h.phaseInv
    simp only [CommandRun.PhaseInv, hph] at hp ⊢
    exact hp
  · exact h

theorem slavePublish (h : CommandInv cmd r) : CommandInv cmd (r.move cmd .slavePublish) := by
  simp only [CommandRun.move]
  split
  · rename_i hph
    refine ⟨h.stopAfterTick, h.startAt, ?_, h.pendingUnset,
      fun _ => h.issued (by rw [hph]; simp), ?_⟩
    · intro env henv
      rcases List.mem_append.1 henv with henv | henv
      · exact h.queueUnset env henv
      · rw [List.mem_singleton.1 henv]
        trivial
    · have hp := h.phaseInv
      simp only [CommandRun.PhaseInv, hph] at hp ⊢
      exact ⟨r.queue, [], rfl, hp, by simp⟩
  · exact h

/-- A message about unset fields leaves them unset. -/
theorem handleMessage_unset {m : CTFTimer} (hstop : m.stopAfterTick = none)
    (hstart : m.startAt = none) {msg : Message} (hmsg : msg.Unset) :
    (m.handleMessage msg).stopAfterTick = none ∧ (m.handleMessage msg).startAt = none := by
  cases msg with
  | stopAfterRound tick => exact ⟨hmsg, hstart⟩
  | startAt t => exact ⟨hstop, hmsg⟩
  | _ => exact ⟨hstop, hstart⟩

theorem handleMessage_agrees {m : CTFTimer} {msg : Message} (hdes : m.desiredState = cmd)
    (hmsg : msg.Agrees cmd) : (m.handleMessage msg).desiredState = cmd := by
  cases msg with
  | desiredState s => exact Message.desiredState.inj (hmsg rfl)
  | _ => exact hdes

theorem deliver (h : CommandInv cmd r) : CommandInv cmd (r.move cmd .deliver) := by
  simp only [CommandRun.move]
  split
  · exact h
  · rename_i env queue hq
    have hmem : env ∈ r.queue := by simp [hq]
    obtain ⟨hstop, hstart⟩ :=
      handleMessage_unset h.stopAfterTick h.startAt (h.queueUnset env hmem)
    have hp := h.phaseInv
    simp only [CommandRun.PhaseInv] at hp
    refine ⟨hstop, hstart, fun x hx => h.queueUnset x (by simp [hq, hx]), h.pendingUnset,
      fun hne => h.issued fun hph => ?_, ?_⟩
    · -- before the command no message is the slave's
      rw [hph, hq] at hp
      simp [hp env (by simp), hph] at hne
    · simp only [CommandRun.PhaseInv]
      cases hph : r.phase with
      | before =>
        rw [hph, hq] at hp
        simp only [hp env (by simp)]
        exact fun x hx => hp x (by simp [hx])
      | keySet =>
        rw [hph, hq] at hp
        simp only [hp env (by simp)]
        exact fun x hx => hp x (by simp [hx])
      | published =>
        rw [hph, hq] at hp
        obtain ⟨old, new, hsplit, hold, hnew⟩ := hp
        cases old with
        | nil =>
          -- the slave's message arrives
          obtain ⟨rfl, rfl⟩ := List.cons.inj hsplit
          exact ⟨rfl, hnew⟩
        | cons x old =>
          obtain ⟨rfl, rfl⟩ := List.cons.inj hsplit
          simp only [hold env (by simp)]
          exact ⟨old, new, rfl, fun y hy => hold y (by simp [hy]), hnew⟩
      | delivered =>
        rw [hph, hq] at hp
        have henv := hp.2 env (by simp)
        simp only [henv.1]
        exact ⟨handleMessage_agrees hp.1 henv.2, fun x hx => hp.2 x (by simp [hx])⟩

/-- **Every undisturbed step keeps the invariant.** -/
theorem step {e : CommandEvent} (h : CommandInv cmd r) (hok : r.Undisturbed cmd e) :
    CommandInv cmd (r.step cmd e) := by
  refine step_of_move ?_
  cases e with
  | check t now => exact h.check t now
  | masterRead => exact h.masterRead hok
  | masterSet => exact h.masterSet
  | masterPublish => exact h.masterPublish
  | slaveSet => exact h.slaveSet hok
  | slavePublish => exact h.slavePublish
  | deliver => exact h.deliver

end CommandInv

/-- **An undisturbed command is not lost.** -/
theorem commandKept_of_undisturbed (cmd : CTFState) (r : CommandRun) (es : List CommandEvent)
    (hfresh : r.Fresh) (hok : Along (CommandRun.step cmd) (CommandRun.Undisturbed cmd) r es) :
    CommandKept cmd (exec (CommandRun.step cmd) r es) := by
  have hinv := hok.invariant (fun _ _ h hc => h.step hc) hfresh.inv
  rintro ⟨hph, -⟩
  have hp := hinv.phaseInv
  simp only [CommandRun.PhaseInv, hph] at hp
  exact Or.inl ⟨hp.1, (hinv.issued (by rw [hph]; simp)).1⟩

/-- The run of `not_commandKept`, with the message delivered before the tick ends. -/
theorem commandKept_in_time :
    CommandKept .stopped (exec (CommandRun.step .stopped) runningGame
      ([.slaveSet, .slavePublish, .deliver, .check 1060 1060] ++
        (List.replicate 9 [.masterRead, .masterSet, .masterPublish]).flatten ++
        List.replicate 9 .deliver)) :=
  commandKept_of_undisturbed _ _ _
    ⟨rfl, rfl, rfl, rfl, by simp [runningGame], by simp [runningGame]⟩ (by decide)

end Gameserver.Timer
