import Gameserver.Timer.Replicas

/-!
# The last tick

The control panel limits the game through a slave timer: `overview_set_timing` compares
`lastround` with the tick that the slave knows, and then sets `stop_after_tick`, or orders the
game to stop.  The master learns of it by a message, and compares numbers when a tick starts.
This file runs the steps of the request, of the master and of the deliveries, which are in order
to each timer.

* `lastroundCall` — what the endpoint does with `lastround`.
* `LimitRun`, `LimitRun.step` — the two timers, what is under way to each, and the request.
* `Heeded` — the request arrives in time, and nothing older comes after it.
* `startsNoTickAfter_of_heeded` — then no tick after the last one is started;
  `not_startsNoTickAfter` — a tick change before the delivery, and the game goes on.
-/

namespace Gameserver.Timer

open Machine

/-- `overview_set_timing`, the part about `lastround`: the call on the timer, if the number is
accepted. -/
def lastroundCall (timer : CTFTimer) (lastround : Option ℤ) : Option SlaveCall :=
  match truthy lastround with
  | none => some (.setStopAfterTick none)
  | some n =>
    if timer.currentTick < n then some (.setStopAfterTick (some n))
    else if n = timer.currentTick then some .stopCtfAfterTick
    else none

/-- The two ways to accept a last tick. -/
inductive Limit where
  | lastTick (n : ℤ)
  | stopNow (n : ℤ)
  deriving DecidableEq

namespace Limit

def call : Limit → SlaveCall
  | lastTick n => .setStopAfterTick (some n)
  | stopNow _ => .stopCtfAfterTick

/-- What the slave publishes. -/
def message : Limit → Message
  | lastTick n => .stopAfterRound (some n)
  | stopNow _ => .desiredState .stopped

/-- The tick that is accepted as the last one. -/
def last : Limit → ℤ
  | lastTick n => n
  | stopNow n => n

/-- The last tick that can be started without the request. -/
def before : Limit → ℤ
  | lastTick n => n - 1
  | stopNow n => n

/-- How an accepted number is handled. -/
def ofTimer (timer : CTFTimer) (n : ℤ) : Limit :=
  if timer.currentTick < n then lastTick n else stopNow n

theorem before_le_last (limit : Limit) : limit.before ≤ limit.last := by
  cases limit with
  | lastTick n => exact sub_le_self n Int.one_nonneg
  | stopNow n => exact le_rfl

theorem call_of_accepted {timer : CTFTimer} {n : ℤ} (hn : n ≠ 0) {c : SlaveCall}
    (h : lastroundCall timer (some n) = some c) : (ofTimer timer n).call = c := by
  have htruthy : truthy (some n) = some n := Option.filter_eq_some_iff.2 ⟨rfl, by simpa using hn⟩
  rw [lastroundCall, htruthy] at h
  rw [ofTimer]
  dsimp only at h
  split_ifs at h ⊢ with hlt heq
  · exact Option.some.inj h
  · exact Option.some.inj h

theorem channel_of_mem_call (limit : Limit) (timer : CTFTimer) {ch : Channel}
    (h : ch ∈ (timer.slaveCall limit.call).2) : ch = limit.message.channel := by
  cases limit with
  | lastTick n =>
    rw [call, CTFTimer.slaveCall] at h
    split_ifs at h
    · exact List.mem_singleton.1 h
    · exact absurd h List.not_mem_nil
  | stopNow n => exact List.mem_singleton.1 h

theorem last_ofTimer (timer : CTFTimer) (n : ℤ) : (ofTimer timer n).last = n := by
  rw [ofTimer]
  split_ifs <;> rfl

end Limit

/-! ## The run of a request -/

/-- How far the request has come. -/
inductive Request where
  /-- the slave has changed its field, and will publish it -/
  | accepted (ch : Channel)
  | read (msg : Message)
  | published
  | delivered
  /-- the master is about to stop because of it -/
  | inForce
  deriving DecidableEq

/-- The timers, the messages under way to each, the publication of the master, and the request. -/
structure LimitRun where
  master : CTFTimer
  slave : CTFTimer
  clock : ℤ
  queue : List Envelope
  slaveQueue : List Message
  /-- The channels `on_update_times` has still to go through. -/
  todo : List Channel
  /-- The value the master has read and not yet published. -/
  pending : Option Message
  request : Request

/-- A single step of the master, of the request, or of a delivery. -/
inductive LimitEvent where
  | check (t now : ℤ)
  | masterRead
  | masterPublish
  | slaveRead
  | slavePublish
  | deliver
  | deliverSlave
  deriving DecidableEq

namespace LimitRun

/-- The master calls `check_time` again only after it has published everything. -/
def Free (r : LimitRun) : Prop := r.todo = [] ∧ r.pending = none

instance (r : LimitRun) : Decidable r.Free := inferInstanceAs (Decidable (_ ∧ _))

/-- The endpoint accepts the number: the setter of the slave does nothing if the field has that
value. -/
def accept (r : LimitRun) (limit : Limit) : LimitRun :=
  { r with
    slave := (r.slave.slaveCall limit.call).1
    request :=
      match (r.slave.slaveCall limit.call).2 with
      | [] => .delivered
      | ch :: _ => .accepted ch }

/-- The check starts the last tick, with the request delivered. -/
def reachesLast (limit : Limit) (r : LimitRun) (t now : ℤ) : Bool :=
  r.request = .delivered ∧ r.master.startsTick (.checkTime t now) = true ∧
    r.master.currentTick = limit.before

/-- One step.  A step that is not possible in a state leaves it as it is. -/
def step (limit : Limit) (r : LimitRun) : LimitEvent → LimitRun
  | .check t now =>
    if r.Free then
      { r with
        master := (r.master.checkTime t now).1
        clock := now
        todo := if updatesTimes (r.master.checkTime t now).2 then Channel.all else []
        request := if r.reachesLast limit t now then .inForce else r.request }
    else r
  | .masterRead =>
    match r.pending, r.todo with
    | none, ch :: todo => { r with pending := some (r.master.read ch), todo := todo }
    | _, _ => r
  | .masterPublish =>
    match r.pending with
    | some msg =>
      { r with
        queue := r.queue ++ [⟨msg, false⟩]
        slaveQueue := r.slaveQueue ++ [msg]
        pending := none }
    | none => r
  | .slaveRead =>
    match r.request with
    | .accepted ch => { r with request := .read (r.slave.read ch) }
    | _ => r
  | .slavePublish =>
    match r.request with
    | .read msg =>
      { r with
        queue := r.queue ++ [⟨msg, true⟩]
        slaveQueue := r.slaveQueue ++ [msg]
        request := .published }
    | _ => r
  | .deliver =>
    match r.queue with
    | [] => r
    | env :: queue =>
      { r with
        master := r.master.handleMessage env.msg
        queue := queue
        request :=
          if env.fromSlave then
            match limit with
            | .lastTick _ => .delivered
            | .stopNow _ => .inForce
          else r.request }
  | .deliverSlave =>
    match r.slaveQueue with
    | [] => r
    | msg :: queue => { r with slave := r.slave.handleMessage msg, slaveQueue := queue }

/-- The clock of `check_time` does not run backwards. -/
def ClockOk (r : LimitRun) : LimitEvent → Prop
  | .check t now => r.clock ≤ t ∧ t ≤ now
  | _ => True

instance (r : LimitRun) (e : LimitEvent) : Decidable (r.ClockOk e) :=
  match e with
  | .check t now => inferInstanceAs (Decidable (r.clock ≤ t ∧ t ≤ now))
  | .masterRead | .masterPublish | .slaveRead | .slavePublish | .deliver | .deliverSlave =>
    inferInstanceAs (Decidable True)

/-- The master starts no tick with a larger number. -/
def StartsNoTickAfter (n : ℤ) (r : LimitRun) : LimitEvent → Prop
  | .check t now => r.Free →
      ∀ event ∈ tickEvents (r.master.checkTime t now).2, ∀ tick, event = .started tick → tick ≤ n
  | _ => True

end LimitRun

/-! ## What a check does to the limit -/

namespace CTFTimer

variable {m : CTFTimer}

@[simp] theorem onStartTick_stopAfterTick (tick : ℤ) : (m.onStartTick tick).1.stopAfterTick =
    if truthy m.stopAfterTick = some tick then none else m.stopAfterTick := by
  rw [onStartTick]
  split_ifs <;> rfl

@[simp] theorem onStartTick_desiredState (tick : ℤ) : (m.onStartTick tick).1.desiredState =
    if truthy m.stopAfterTick = some tick then .stopped else m.desiredState := by
  rw [onStartTick]
  split_ifs <;> rfl

/-- A call that starts no tick leaves the limit and the desired state alone. -/
theorem checkTime_of_not_startsTick {t : ℤ} (now : ℤ)
    (h : m.startsTick (.checkTime t now) = false) :
    (m.checkTime t now).1.currentTick = m.currentTick ∧
      (m.checkTime t now).1.stopAfterTick = m.stopAfterTick ∧
      (m.checkTime t now).1.desiredState = m.desiredState := by
  simp only [startsTick, decide_eq_false_iff_not, not_or, not_and] at h
  obtain ⟨hover, hidle⟩ := h
  cases htick : m.tickOver t with
  | true =>
    obtain ⟨-, e, he⟩ := m.checkTime_of_tickOver htick now
    rw [he, endTick, if_neg (hover htick)]
    exact ⟨rfl, rfl, rfl⟩
  | false =>
    rw [m.checkTime_of_not_tickOver htick, checkStart]
    split_ifs with h₁ h₂ h₃
    · exact absurd h₁.2 (hidle h₁.1).1
    · exact absurd h₂.2 (hidle h₂.1).2
    · exact ⟨rfl, rfl, rfl⟩
    · exact ⟨rfl, rfl, rfl⟩

theorem startCtf_starts (hidle : m.state ≠ .running) (now : ℤ) :
    (m.startCtf now).1.currentTick = m.currentTick + 1 ∧
      (m.startCtf now).1.stopAfterTick =
        (if truthy m.stopAfterTick = some (m.currentTick + 1) then none else m.stopAfterTick) ∧
      (m.startCtf now).1.desiredState =
        (if truthy m.stopAfterTick = some (m.currentTick + 1) then .stopped else .running) := by
  rw [startCtf, if_pos hidle]
  exact ⟨onStartTick_currentTick _ _, onStartTick_stopAfterTick _, onStartTick_desiredState _⟩

/-- A call that starts a tick clears the limit if it is the number of the tick. -/
theorem checkTime_of_startsTick {t now : ℤ} (h : m.startsTick (.checkTime t now) = true) :
    (m.checkTime t now).1.currentTick = m.currentTick + 1 ∧
      (m.checkTime t now).1.stopAfterTick =
        (if truthy m.stopAfterTick = some (m.currentTick + 1) then none else m.stopAfterTick) ∧
      (m.checkTime t now).1.desiredState =
        (if truthy m.stopAfterTick = some (m.currentTick + 1) then .stopped else .running) := by
  simp only [startsTick, decide_eq_true_eq] at h
  cases htick : m.tickOver t with
  | true =>
    obtain ⟨hrunning, e, he⟩ := m.checkTime_of_tickOver htick now
    have hdesired : m.desiredState = .running := by
      rcases h with h | h
      · exact h.2
      · exact absurd hrunning h.1
    rw [he, endTick, if_pos hdesired]
    refine ⟨onStartTick_currentTick _ _, onStartTick_stopAfterTick _, ?_⟩
    rw [← hdesired]
    exact onStartTick_desiredState _
  | false =>
    have hidle : m.state ≠ .running ∧ (m.desiredState = .running ∨ dueAt m.startAt t = true) := by
      rcases h with h | h
      · rw [htick] at h
        exact absurd h.1 Bool.false_ne_true
      · exact h
    rw [m.checkTime_of_not_tickOver htick, checkStart]
    by_cases hdesired : m.desiredState = .running
    · rw [if_pos ⟨hidle.1, hdesired⟩]
      exact startCtf_starts hidle.1 now
    · rw [if_neg fun h => hdesired h.2, if_pos ⟨hidle.1, hidle.2.resolve_left hdesired⟩]
      exact startCtf_starts (m := { m with startAt := none }) hidle.1 now

/-- The ticks that a check starts. -/
theorem started_of_mem_tickEvents {t now : ℤ} {event : TickEvent}
    (h : event ∈ tickEvents (m.checkTime t now).2) {tick : ℤ} (hstarted : event = .started tick) :
    m.startsTick (.checkTime t now) = true ∧ tick = m.currentTick + 1 := by
  have hevents := m.tickEvents_call (.checkTime t now)
  rw [call] at hevents
  rw [hevents, hstarted] at h
  split_ifs at h with hends hstarts hstarts
  · exact ⟨hstarts, by simpa using h⟩
  · simp at h
  · exact ⟨hstarts, by simpa using h⟩
  · simp at h

end CTFTimer

/-! ## When the request is heeded -/

/-- On its channel, `msg` is the command. -/
def Message.AgreesWith (cmd msg : Message) : Prop := msg.channel = cmd.channel → msg = cmd

instance (cmd msg : Message) : Decidable (cmd.AgreesWith msg) :=
  inferInstanceAs (Decidable (_ → _))

/-- A round in a message is at most `bound`. -/
def Message.RoundAtMost (bound : ℤ) (msg : Message) : Prop :=
  ∀ tick, msg = .currentRound tick → tick ≤ bound

namespace LimitRun

/-- The master is not told of a later tick than it may reach without the request.  If the slave has
the limit already, so has the master, and is not told of another one. -/
structure AcceptedInTime (limit : Limit) (r : LimitRun) : Prop where
  tick : r.master.currentTick ≤ limit.before
  queue : ∀ env ∈ r.queue, env.msg.RoundAtMost limit.before
  pending : ∀ msg ∈ r.pending, msg.RoundAtMost limit.before
  known : (r.slave.slaveCall limit.call).2 = [] →
    r.master.read limit.message.channel = limit.message ∧
      ∀ env ∈ r.queue, limit.message.AgreesWith env.msg

/-- The request arrives in time: when the last tick starts, it has been delivered, and no order to
go on is under way.  The slave publishes what it was told; from then on the master publishes
nothing else on the channel, nor does it start the game at a given time once it is to stop. -/
def Heeded (limit : Limit) (r : LimitRun) : LimitEvent → Prop
  | .check t now =>
    (r.request ≠ .inForce → r.Free → r.master.startsTick (.checkTime t now) = true →
      r.master.currentTick = limit.before → r.request = .delivered ∧
        ∀ env ∈ r.queue, (Message.desiredState .stopped).AgreesWith env.msg) ∧
    (r.request = .inForce → r.master.state ≠ .running → CTFTimer.dueAt r.master.startAt t = false)
  | .masterPublish =>
    (r.request = .published ∨ r.request = .delivered →
      ∀ msg ∈ r.pending, limit.message.AgreesWith msg) ∧
    (r.request = .inForce → ∀ msg ∈ r.pending, (Message.desiredState .stopped).AgreesWith msg)
  | .slaveRead => r.request = .accepted limit.message.channel →
      r.slave.read limit.message.channel = limit.message
  | .masterRead | .slavePublish | .deliver | .deliverSlave => True

instance (limit : Limit) (r : LimitRun) (e : LimitEvent) : Decidable (r.Heeded limit e) :=
  match e with
  | .check _ _ => inferInstanceAs (Decidable ((_ → _ → _ → _ → _ ∧ _) ∧ (_ → _ → _)))
  | .masterPublish => inferInstanceAs (Decidable ((_ ∨ _ → _) ∧ (_ → _)))
  | .slaveRead => inferInstanceAs (Decidable (_ → _))
  | .masterRead | .slavePublish | .deliver | .deliverSlave => inferInstanceAs (Decidable True)

/-! ### The invariant -/

/-- The master has what the command says, and nothing else is on its way. -/
def Holds (cmd : Message) (r : LimitRun) : Prop :=
  r.master.read cmd.channel = cmd ∧
    ∀ env ∈ r.queue, env.fromSlave = false ∧ cmd.AgreesWith env.msg

/-- What holds while the request is on its way. -/
def PhaseInv (limit : Limit) (r : LimitRun) : Prop :=
  match r.request with
  | .accepted ch => ch = limit.message.channel ∧ ∀ env ∈ r.queue, env.fromSlave = false
  | .read msg => msg = limit.message ∧ ∀ env ∈ r.queue, env.fromSlave = false
  | .published => ∃ old new, r.queue = old ++ ⟨limit.message, true⟩ :: new ∧
      (∀ env ∈ old, env.fromSlave = false) ∧
      ∀ env ∈ new, env.fromSlave = false ∧ limit.message.AgreesWith env.msg
  | .delivered => (∃ n, limit = .lastTick n) ∧ r.Holds limit.message
  | .inForce => r.Holds (.desiredState .stopped)

end LimitRun

/-- The invariant of runs in which the request is heeded. -/
structure LimitInv (limit : Limit) (r : LimitRun) : Prop where
  rounds : r.request ≠ .inForce → r.master.currentTick ≤ limit.before ∧
    (∀ env ∈ r.queue, env.msg.RoundAtMost limit.before) ∧
      ∀ msg ∈ r.pending, msg.RoundAtMost limit.before
  phaseInv : r.PhaseInv limit

theorem LimitRun.AcceptedInTime.inv {limit : Limit} {r : LimitRun} (h : r.AcceptedInTime limit)
    (hfresh : ∀ env ∈ r.queue, env.fromSlave = false) : LimitInv limit (r.accept limit) := by
  refine ⟨fun _ => ⟨h.tick, h.queue, h.pending⟩, ?_⟩
  rw [LimitRun.PhaseInv, LimitRun.accept]
  cases hcall : (r.slave.slaveCall limit.call).2 with
  | cons ch _ => exact ⟨limit.channel_of_mem_call r.slave (hcall ▸ List.mem_cons_self), hfresh⟩
  | nil =>
    obtain ⟨hread, hqueue⟩ := h.known hcall
    refine ⟨?_, hread, fun env henv => ⟨hfresh env henv, hqueue env henv⟩⟩
    cases limit with
    | lastTick n => exact ⟨n, rfl⟩
    | stopNow n => exact absurd hcall (List.cons_ne_nil _ _)

namespace LimitInv

variable {limit : Limit} {r : LimitRun}

/-- A game that is to stop starts no tick. -/
theorem not_startsTick_of_inForce (h : LimitInv limit r) (hforce : r.request = .inForce) {t : ℤ}
    (now : ℤ) (hok : r.Heeded limit (.check t now)) :
    r.master.startsTick (.checkTime t now) = false := by
  have hholds := h.phaseInv
  rw [LimitRun.PhaseInv, hforce] at hholds
  have hdesired : r.master.desiredState = .stopped := Message.desiredState.inj hholds.1
  simp only [CTFTimer.startsTick, decide_eq_false_iff_not, not_or, not_and, hdesired]
  refine ⟨fun _ => by decide, fun hidle => ⟨by decide, ?_⟩⟩
  rw [hok.2 hforce hidle]
  exact Bool.false_ne_true

/-- Without the request, no tick is started after `limit.before`. -/
theorem starts_before (h : LimitInv limit r) (hforce : r.request ≠ .inForce) (hfree : r.Free)
    {t now : ℤ} (hok : r.Heeded limit (.check t now))
    (hstarts : r.master.startsTick (.checkTime t now) = true) :
    r.master.currentTick + 1 ≤ limit.before ∨
      (∃ n, limit = .lastTick n ∧ r.master.currentTick = n - 1) ∧ r.request = .delivered ∧
        r.Holds limit.message ∧
          ∀ env ∈ r.queue, (Message.desiredState .stopped).AgreesWith env.msg := by
  rcases (h.rounds hforce).1.lt_or_eq with hlt | heq
  · exact Or.inl hlt
  · obtain ⟨hdelivered, hagree⟩ := hok.1 hforce hfree hstarts heq
    have hphase := h.phaseInv
    rw [LimitRun.PhaseInv, hdelivered] at hphase
    obtain ⟨⟨n, rfl⟩, hholds⟩ := hphase
    exact Or.inr ⟨⟨n, rfl, heq⟩, hdelivered, hholds, hagree⟩

theorem startsNoTickAfter (h : LimitInv limit r) {e : LimitEvent} (hok : r.Heeded limit e) :
    r.StartsNoTickAfter limit.last e := by
  cases e with
  | check t now =>
    intro hfree event hevent tick htick
    obtain ⟨hstarts, rfl⟩ := CTFTimer.started_of_mem_tickEvents hevent htick
    by_cases hforce : r.request = .inForce
    · rw [h.not_startsTick_of_inForce hforce now hok] at hstarts
      exact absurd hstarts Bool.false_ne_true
    · rcases h.starts_before hforce hfree hok hstarts with hbefore | ⟨⟨n, rfl, heq⟩, -⟩
      · exact hbefore.trans limit.before_le_last
      · show r.master.currentTick + 1 ≤ n
        omega
  | _ => trivial

/-! ### The steps -/

theorem check (hlast : limit.last ≠ 0) (h : LimitInv limit r) {t now : ℤ}
    (hok : r.Heeded limit (.check t now)) : LimitInv limit (r.step limit (.check t now)) := by
  by_cases hfree : r.Free
  · rw [LimitRun.step, if_pos hfree]
    by_cases hstarts : r.master.startsTick (.checkTime t now) = true
    · obtain ⟨htick, hstop, hdesired⟩ := CTFTimer.checkTime_of_startsTick hstarts
      have hforce : r.request ≠ .inForce := by
        intro hforce
        rw [h.not_startsTick_of_inForce hforce now hok] at hstarts
        exact Bool.false_ne_true hstarts
      rcases h.starts_before hforce hfree hok hstarts with
        hbefore | ⟨⟨n, rfl, heq⟩, hdelivered, hholds, hagree⟩
      · -- an earlier tick
        have hreaches : r.reachesLast limit t now = false := by
          have hne : r.master.currentTick ≠ limit.before := by omega
          simp [LimitRun.reachesLast, hne]
        refine ⟨fun _ => ⟨by rw [htick]; exact hbefore, (h.rounds hforce).2⟩, ?_⟩
        have hphase := h.phaseInv
        simp only [LimitRun.PhaseInv, hreaches, Bool.false_eq_true, if_false] at hphase ⊢
        cases hrequest : r.request <;> rw [hrequest] at hphase
        case delivered =>
          obtain ⟨⟨n, rfl⟩, hread, hqueue⟩ := hphase
          have hlimit : r.master.stopAfterTick = some n := Message.stopAfterRound.inj hread
          have hother : truthy r.master.stopAfterTick ≠ some (r.master.currentTick + 1) := by
            intro htruthy
            have hsame := Option.some.inj (hlimit.symm.trans (truthy_eq_some htruthy))
            rw [← hsame] at hbefore
            exact absurd hbefore (not_le.2 (sub_one_lt n))
          rw [if_neg hother] at hstop
          refine ⟨⟨n, rfl⟩, ?_, hqueue⟩
          exact (congrArg Message.stopAfterRound hstop).trans hread
        case inForce => exact absurd hrequest hforce
        all_goals exact hphase
      · -- the last tick
        have hreaches : r.reachesLast (.lastTick n) t now = true := by
          simp [LimitRun.reachesLast, hdelivered, hstarts, heq, Limit.before]
        have hlimit : r.master.stopAfterTick = some n := Message.stopAfterRound.inj hholds.1
        have htruthy : truthy r.master.stopAfterTick = some (r.master.currentTick + 1) := by
          rw [hlimit, heq, sub_add_cancel]
          exact Option.filter_eq_some_iff.2 ⟨rfl, by simpa using show n ≠ 0 from hlast⟩
        rw [if_pos htruthy] at hdesired
        simp only [hreaches, if_true]
        refine ⟨fun hne => absurd rfl hne, ?_⟩
        exact ⟨congrArg Message.desiredState hdesired,
          fun env henv => ⟨(hholds.2 env henv).1, hagree env henv⟩⟩
    · -- no tick is started
      have hreaches : r.reachesLast limit t now = false := by simp [LimitRun.reachesLast, hstarts]
      obtain ⟨htick, hstop, hdesired⟩ :=
        CTFTimer.checkTime_of_not_startsTick now (Bool.eq_false_iff.2 hstarts)
      simp only [hreaches, Bool.false_eq_true, if_false]
      refine ⟨fun hforce => ⟨by rw [htick]; exact (h.rounds hforce).1, (h.rounds hforce).2⟩, ?_⟩
      have hphase := h.phaseInv
      rw [LimitRun.PhaseInv] at hphase ⊢
      cases hrequest : r.request <;> rw [hrequest] at hphase
      case delivered =>
        obtain ⟨⟨n, rfl⟩, hread, hqueue⟩ := hphase
        exact ⟨⟨n, rfl⟩, (congrArg Message.stopAfterRound hstop).trans hread, hqueue⟩
      case inForce => exact ⟨(congrArg Message.desiredState hdesired).trans hphase.1, hphase.2⟩
      all_goals exact hphase
  · rw [LimitRun.step, if_neg hfree]
    exact h

theorem roundAtMost_read {m : CTFTimer} {bound : ℤ} (h : m.currentTick ≤ bound) (ch : Channel) :
    (m.read ch).RoundAtMost bound := by
  rintro tick heq
  cases ch <;> first | exact Message.currentRound.inj heq ▸ h | cases heq

theorem masterRead (h : LimitInv limit r) : LimitInv limit (r.step limit .masterRead) := by
  simp only [LimitRun.step]
  split
  · rename_i ch todo hpending htodo
    refine ⟨fun hforce => ⟨(h.rounds hforce).1, (h.rounds hforce).2.1, ?_⟩, h.phaseInv⟩
    rintro msg ⟨rfl⟩
    exact roundAtMost_read (h.rounds hforce).1 ch
  · exact h

theorem holds_append {cmd msg : Message} (h : r.Holds cmd) (hmsg : cmd.AgreesWith msg) :
    ∀ env ∈ r.queue ++ [⟨msg, false⟩], env.fromSlave = false ∧ cmd.AgreesWith env.msg := by
  intro env henv
  rcases List.mem_append.1 henv with hold | hnew
  · exact h.2 env hold
  · rw [List.mem_singleton.1 hnew]
    exact ⟨rfl, hmsg⟩

theorem fromSlave_append {msg : Message} (h : ∀ env ∈ r.queue, env.fromSlave = false) :
    ∀ env ∈ r.queue ++ [⟨msg, false⟩], env.fromSlave = false := by
  intro env henv
  rcases List.mem_append.1 henv with hold | hnew
  · exact h env hold
  · rw [List.mem_singleton.1 hnew]

theorem masterPublish (h : LimitInv limit r) (hok : r.Heeded limit .masterPublish) :
    LimitInv limit (r.step limit .masterPublish) := by
  simp only [LimitRun.step]
  split
  · rename_i msg hpending
    constructor
    · intro hforce
      obtain ⟨htick, hqueue, hround⟩ := h.rounds hforce
      refine ⟨htick, fun env henv => ?_, fun _ hmem => absurd hmem (Option.not_mem_none _)⟩
      rcases List.mem_append.1 henv with hold | hnew
      · exact hqueue env hold
      · rw [List.mem_singleton.1 hnew]
        exact hround msg hpending
    · have hphase := h.phaseInv
      rw [LimitRun.PhaseInv] at hphase ⊢
      rw [LimitRun.Heeded] at hok
      cases hrequest : r.request <;> rw [hrequest] at hphase hok
      case accepted => exact ⟨hphase.1, fromSlave_append hphase.2⟩
      case read => exact ⟨hphase.1, fromSlave_append hphase.2⟩
      case published =>
        obtain ⟨old, new, hqueue, hold, hnew⟩ := hphase
        refine ⟨old, new ++ [⟨msg, false⟩], by simp [hqueue], hold, fun env henv => ?_⟩
        rcases List.mem_append.1 henv with hmem | hmem
        · exact hnew env hmem
        · rw [List.mem_singleton.1 hmem]
          exact ⟨rfl, hok.1 (Or.inl rfl) msg hpending⟩
      case delivered =>
        exact ⟨hphase.1, hphase.2.1, holds_append hphase.2 (hok.1 (Or.inr rfl) msg hpending)⟩
      case inForce => exact ⟨hphase.1, holds_append hphase (hok.2 rfl msg hpending)⟩
  · exact h

theorem slaveRead (h : LimitInv limit r) (hok : r.Heeded limit .slaveRead) :
    LimitInv limit (r.step limit .slaveRead) := by
  simp only [LimitRun.step]
  split
  · rename_i ch hrequest
    have hphase := h.phaseInv
    rw [LimitRun.PhaseInv, hrequest] at hphase
    obtain ⟨rfl, hqueue⟩ := hphase
    exact ⟨fun _ => h.rounds (by rw [hrequest]; exact Request.noConfusion), hok hrequest, hqueue⟩
  · exact h

theorem slavePublish (h : LimitInv limit r) : LimitInv limit (r.step limit .slavePublish) := by
  simp only [LimitRun.step]
  split
  · rename_i msg hrequest
    have hphase := h.phaseInv
    rw [LimitRun.PhaseInv, hrequest] at hphase
    obtain ⟨rfl, hqueue⟩ := hphase
    obtain ⟨htick, hrounds, hpending⟩ := h.rounds (by rw [hrequest]; exact Request.noConfusion)
    refine ⟨fun _ => ⟨htick, fun env henv => ?_, hpending⟩,
      ⟨r.queue, [], rfl, hqueue, fun _ hmem => absurd hmem List.not_mem_nil⟩⟩
    rcases List.mem_append.1 henv with hold | hnew
    · exact hrounds env hold
    · rw [List.mem_singleton.1 hnew]
      intro tick heq
      cases limit <;> cases heq
  · exact h

theorem currentTick_handleMessage {m : CTFTimer} {bound : ℤ} (hm : m.currentTick ≤ bound)
    {msg : Message} (hmsg : msg.RoundAtMost bound) : (m.handleMessage msg).currentTick ≤ bound := by
  cases msg with
  | currentRound tick => exact hmsg tick rfl
  | _ => exact hm

/-- What the master has stays so if no other value arrives. -/
theorem holds_deliver {cmd : Message} (hcmd : cmd ≠ .roundTime 0) {env : Envelope}
    {queue : List Envelope} (hqueue : r.queue = env :: queue) (h : r.Holds cmd) :
    (r.master.handleMessage env.msg).read cmd.channel = cmd ∧
      ∀ env ∈ queue, env.fromSlave = false ∧ cmd.AgreesWith env.msg := by
  have hall : ∀ e ∈ env :: queue, e.fromSlave = false ∧ cmd.AgreesWith e.msg := hqueue ▸ h.2
  refine ⟨?_, fun e he => hall e (List.mem_cons_of_mem _ he)⟩
  by_cases hch : env.msg.channel = cmd.channel
  · rw [(hall env List.mem_cons_self).2 hch]
    exact CTFTimer.read_handleMessage_self _ hcmd
  · rw [CTFTimer.read_handleMessage_of_ne _ hch]
    exact h.1

theorem message_ne_roundTime (limit : Limit) : limit.message ≠ .roundTime 0 := by
  cases limit <;> exact Message.noConfusion

theorem deliver (h : LimitInv limit r) : LimitInv limit (r.step limit .deliver) := by
  simp only [LimitRun.step]
  split
  · exact h
  · rename_i env queue hqueue
    have hphase := h.phaseInv
    rw [LimitRun.PhaseInv] at hphase
    have hmem : env ∈ r.queue := by rw [hqueue]; exact List.mem_cons_self
    have htail : ∀ e ∈ queue, e ∈ r.queue := fun e he => by
      rw [hqueue]
      exact List.mem_cons_of_mem _ he
    have hrounds : r.request ≠ .inForce →
        (r.master.handleMessage env.msg).currentTick ≤ limit.before ∧
          (∀ e ∈ queue, e.msg.RoundAtMost limit.before) ∧
            ∀ msg ∈ r.pending, msg.RoundAtMost limit.before := fun hforce =>
      ⟨currentTick_handleMessage (h.rounds hforce).1 ((h.rounds hforce).2.1 env hmem),
        fun e he => (h.rounds hforce).2.1 e (htail e he), (h.rounds hforce).2.2⟩
    cases hrequest : r.request <;> rw [hrequest] at hphase hrounds
    case accepted ch =>
      simp only [hphase.2 env hmem, Bool.false_eq_true, if_false]
      exact ⟨hrounds, hphase.1, fun e he => hphase.2 e (htail e he)⟩
    case read msg =>
      simp only [hphase.2 env hmem, Bool.false_eq_true, if_false]
      exact ⟨hrounds, hphase.1, fun e he => hphase.2 e (htail e he)⟩
    case published =>
      obtain ⟨old, new, hsplit, hold, hnew⟩ := hphase
      rw [hqueue] at hsplit
      cases old with
      | nil =>
        -- the request arrives
        obtain ⟨rfl, rfl⟩ := List.cons.inj hsplit
        have hread := CTFTimer.read_handleMessage_self r.master (message_ne_roundTime limit)
        cases limit with
        | lastTick n => exact ⟨fun _ => hrounds Request.noConfusion, ⟨n, rfl⟩, hread, hnew⟩
        | stopNow n => exact ⟨fun hne => absurd rfl hne, hread, hnew⟩
      | cons e old =>
        obtain ⟨rfl, rfl⟩ := List.cons.inj hsplit
        simp only [hold env List.mem_cons_self, Bool.false_eq_true, if_false]
        exact ⟨hrounds, old, new, rfl, fun e he => hold e (List.mem_cons_of_mem _ he), hnew⟩
    case delivered =>
      simp only [(hphase.2.2 env hmem).1, Bool.false_eq_true, if_false]
      exact ⟨hrounds, hphase.1, holds_deliver (message_ne_roundTime limit) hqueue hphase.2⟩
    case inForce =>
      simp only [(hphase.2 env hmem).1, Bool.false_eq_true, if_false]
      exact ⟨fun hne => absurd rfl hne, holds_deliver Message.noConfusion hqueue hphase⟩

theorem deliverSlave (h : LimitInv limit r) : LimitInv limit (r.step limit .deliverSlave) := by
  simp only [LimitRun.step]
  split
  · exact h
  · exact ⟨h.rounds, h.phaseInv⟩

/-- **Every heeded step keeps the invariant.** -/
theorem step (hlast : limit.last ≠ 0) {e : LimitEvent} (h : LimitInv limit r)
    (hok : r.Heeded limit e) : LimitInv limit (r.step limit e) := by
  cases e with
  | check t now => exact h.check hlast hok
  | masterRead => exact h.masterRead
  | masterPublish => exact h.masterPublish hok
  | slaveRead => exact h.slaveRead hok
  | slavePublish => exact h.slavePublish
  | deliver => exact h.deliver
  | deliverSlave => exact h.deliverSlave

end LimitInv

/-- **An accepted last tick that is heeded is a bound.**  The endpoint accepts `n`, in any state of
the two timers and of the messages under way to them. -/
theorem startsNoTickAfter_of_heeded (r : LimitRun) (n : ℤ) (hn : n ≠ 0) (c : SlaveCall)
    (hc : lastroundCall r.slave (some n) = some c)
    (hfresh : ∀ env ∈ r.queue, env.fromSlave = false)
    (hintime : r.AcceptedInTime (.ofTimer r.slave n)) (es : List LimitEvent)
    (hok : Along (LimitRun.step (.ofTimer r.slave n)) (LimitRun.Heeded (.ofTimer r.slave n))
      (r.accept (.ofTimer r.slave n)) es) :
    (Limit.ofTimer r.slave n).call = c ∧
      Along (LimitRun.step (.ofTimer r.slave n)) (LimitRun.StartsNoTickAfter n)
        (r.accept (.ofTimer r.slave n)) es := by
  have hlast : (Limit.ofTimer r.slave n).last = n := Limit.last_ofTimer r.slave n
  refine ⟨Limit.call_of_accepted hn hc, ?_⟩
  rw [← hlast] at hn
  have hbound :=
    hok.mono_inv (fun _ _ h he => h.step hn he) (fun _ _ h he => h.startsNoTickAfter he)
    (hintime.inv hfresh)
  rwa [hlast] at hbound

/-- A running game in its first tick, known to the slave. -/
def limitedGame : LimitRun where
  master := runningGame.master
  slave := runningGame.master
  clock := 1000
  queue := []
  slaveQueue := []
  todo := []
  pending := none
  request := .delivered

/-- The last tick is 2, and the master knows it before the first tick ends. -/
theorem startsNoTickAfter_in_time :
    (Limit.lastTick 2).call = .setStopAfterTick (some 2) ∧
      Along (LimitRun.step (.lastTick 2)) (LimitRun.StartsNoTickAfter 2)
        (limitedGame.accept (.lastTick 2))
        ([.slaveRead, .slavePublish, .deliver, .check 1060 1060] ++
          (List.replicate 9 [.masterRead, .masterPublish]).flatten ++ List.replicate 9 .deliver ++
          [.check 1120 1120]) :=
  startsNoTickAfter_of_heeded limitedGame 2 (by decide) (.setStopAfterTick (some 2)) (by decide)
    (fun _ h => absurd h List.not_mem_nil)
    ⟨by decide, fun _ h => absurd h List.not_mem_nil, fun _ h => absurd h (Option.not_mem_none _),
      fun h => absurd h (by decide)⟩ _ (by decide)

/-- **An accepted last tick is not always a bound.**  The endpoint accepts 2; the first tick ends
before the message arrives, and in the second one the master no longer compares it with anything. -/
theorem not_startsNoTickAfter :
    ¬ ∀ (r : LimitRun) (n : ℤ) (c : SlaveCall) (es : List LimitEvent), n ≠ 0 →
      r.master.state = .running → lastroundCall r.slave (some n) = some c →
      (∀ env ∈ r.queue, env.fromSlave = false) →
      Along (LimitRun.step (.ofTimer r.slave n)) LimitRun.ClockOk
          (r.accept (.ofTimer r.slave n)) es →
      Along (LimitRun.step (.ofTimer r.slave n)) (LimitRun.StartsNoTickAfter n)
        (r.accept (.ofTimer r.slave n)) es := by
  intro h
  have hbound := h limitedGame 2 (.setStopAfterTick (some 2))
    (([.slaveRead, .slavePublish, .check 1060 1060] : List LimitEvent) ++
      (List.replicate 9 ([.masterRead, .masterPublish] : List LimitEvent)).flatten ++
      List.replicate 10 LimitEvent.deliver ++ ([.check 1120 1120] : List LimitEvent))
    (by decide) rfl (by decide) (fun _ hmem => absurd hmem List.not_mem_nil) (by decide)
  rw [along_append] at hbound
  exact absurd (hbound.2.1 (by decide) (.started 3) (by decide) 3 rfl) (by decide)

end Gameserver.Timer
