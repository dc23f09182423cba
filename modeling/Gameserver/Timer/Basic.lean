import Mathlib.Algebra.Order.Ring.Int
import Gameserver.Lib.Machine

/-!
# The central timer of the CTF

A model of `controlserver/timer.py`: the pace-keeping unit that starts and ends
ticks, and starts, suspends and stops the game.

* `CTFTimer` — the nine timing fields of `CTFTimerBase`.
* `checkTime`, `startCtf`, the setters — the methods of the master timer
  (`class CTFTimer`).  A method returns the new timer and, in order, what it
  told the outside world (`Output`): the listener events, the publication of all
  fields by `on_update_times`, and the `round:N:*` keys of `update_tick_times`.
* `Message`, `handleMessage`, `messages` — the pub/sub side: what
  `on_update_times` publishes, and what `__listen_for_redis_events` does with a
  message.

The clock is an argument: `int(time.time())` is read once by `check_time` (`t`)
and a second time by `start_ctf` (`now`).
-/

namespace Gameserver.Timer

/-- `class CTFState(IntEnum)`. -/
inductive CTFState where
  | stopped
  | suspended
  | running
  deriving DecidableEq, Repr

/-- The timing fields of `CTFTimerBase`.  A field of type `int | None` is an
`Option`. -/
structure CTFTimer where
  state : CTFState
  desiredState : CTFState
  currentTick : ℤ
  tickStart : Option ℤ
  tickEnd : Option ℤ
  tickTime : ℤ
  stopAfterTick : Option ℤ
  startAt : Option ℤ
  openVulnboxAccessAt : Option ℤ
  deriving DecidableEq, Repr

/-- `CTFTimerBase.__init__`, with the configured default tick duration. -/
def CTFTimer.new (tickDurationDefault : ℤ) : CTFTimer where
  state := .stopped
  desiredState := .stopped
  currentTick := 0
  tickStart := none
  tickEnd := none
  tickTime := tickDurationDefault
  stopAfterTick := none
  startAt := none
  openVulnboxAccessAt := none

/-- What a method of the master timer tells the outside world. -/
inductive Output where
  /-- `l.on_start_tick(tick, dt)` for every listener. -/
  | startTick (tick : ℤ)
  /-- `l.on_end_tick(tick, dt)` for every listener. -/
  | endTick (tick : ℤ)
  | startCtf
  | suspendCtf
  | endCtf
  | openVulnboxAccess
  /-- All nine fields are written to Redis and published, with these values. -/
  | updateTimes (timer : CTFTimer)
  /-- `round:{tick}:start`, `round:{tick}:end` and `round:{tick}:time` are set. -/
  | tickTimes (tick : ℤ) (tickStart tickEnd : Option ℤ) (tickTime : ℤ)
  deriving DecidableEq, Repr

/-- The truth value of an `int | None` in Python: `None` and `0` are false. -/
def truthy (x : Option ℤ) : Option ℤ := x.filter (· ≠ 0)

theorem truthy_eq_some {x : Option ℤ} {v : ℤ} (h : truthy x = some v) : x = some v :=
  (Option.filter_eq_some_iff.1 h).1

namespace CTFTimer

/-! ## The methods of the master timer -/

/-- `update_tick_times`. -/
def updateTickTimes (m : CTFTimer) : List Output :=
  if m.state = .running then [.tickTimes m.currentTick m.tickStart m.tickEnd m.tickTime] else []

/-- `on_update_times`. -/
def onUpdateTimes (m : CTFTimer) : List Output := .updateTimes m :: m.updateTickTimes

/-- `on_start_tick`: the last tick turns the desired state to `STOPPED`. -/
def onStartTick (m : CTFTimer) (tick : ℤ) : CTFTimer × List Output :=
  (if truthy m.stopAfterTick = some tick then
      { m with desiredState := .stopped, stopAfterTick := none }
    else m,
    [.startTick tick])

/-- `on_start_ctf`. -/
def onStartCtf (m : CTFTimer) : List Output := m.updateTickTimes ++ [.startCtf]

/-- `on_end_ctf`. -/
def onEndCtf (m : CTFTimer) : List Output := m.updateTickTimes ++ [.endCtf]

/-- `on_open_vulnbox_access`. -/
def onOpenVulnboxAccess (m : CTFTimer) : List Output := m.updateTickTimes ++ [.openVulnboxAccess]

/-- `start_ctf`, called when the clock shows `now`. -/
def startCtf (m : CTFTimer) (now : ℤ) : CTFTimer × List Output :=
  if m.state ≠ .running then
    let started :=
      { m with
        desiredState := .running
        currentTick := m.currentTick + 1
        tickStart := some now
        tickEnd := some (now + m.tickTime)
        state := .running }
    let next := started.onStartTick started.currentTick
    (next.1, (if m.state = .stopped then started.onStartCtf else []) ++ next.2
      ++ next.1.onUpdateTimes)
  else
    ({ m with desiredState := .running }, [])

/-- The first branch of `check_time`: the current tick is over. -/
def endTick (m : CTFTimer) (t tickEnd : ℤ) : CTFTimer × List Output :=
  if m.desiredState = .running then
    let tickStart := if tickEnd + 1 < t then t else tickEnd
    let started :=
      { m with
        currentTick := m.currentTick + 1
        tickStart := some tickStart
        tickEnd := some (tickStart + m.tickTime) }
    let next := started.onStartTick started.currentTick
    (next.1, .endTick m.currentTick :: next.2 ++ next.1.onUpdateTimes)
  else
    let halted := { m with state := m.desiredState }
    (halted, .endTick m.currentTick ::
      (if halted.state = .suspended then [.suspendCtf] else halted.onEndCtf)
        ++ halted.onUpdateTimes)

/-- `at_ <= t <= at_ + 4` for a timestamp that is set. -/
def dueAt (x : Option ℤ) (t : ℤ) : Bool :=
  match truthy x with
  | some v => v ≤ t ∧ t ≤ v + 4
  | none => false

/-- The remaining branches of `check_time`, all of them for a game that is not
running. -/
def checkStart (m : CTFTimer) (t now : ℤ) : CTFTimer × List Output :=
  if m.state ≠ .running ∧ m.desiredState = .running then
    m.startCtf now
  else if m.state ≠ .running ∧ dueAt m.startAt t then
    { m with startAt := none }.startCtf now
  else if m.state ≠ .running ∧ dueAt m.openVulnboxAccessAt t then
    let opened := { m with openVulnboxAccessAt := none }
    (opened, opened.onOpenVulnboxAccess ++ opened.onUpdateTimes)
  else
    (m, [])

/-- `check_time`, called when the clock shows `t`. -/
def checkTime (m : CTFTimer) (t now : ℤ) : CTFTimer × List Output :=
  match truthy m.tickEnd with
  | some tickEnd =>
    if m.state = .running ∧ tickEnd ≤ t then m.endTick t tickEnd else m.checkStart t now
  | none => m.checkStart t now

/-- `suspend_ctf_after_tick`. -/
def suspendCtfAfterTick (m : CTFTimer) : CTFTimer × List Output :=
  let m' := { m with desiredState := .suspended }
  (m', m'.onUpdateTimes)

/-- `stop_ctf_after_tick`. -/
def stopCtfAfterTick (m : CTFTimer) : CTFTimer × List Output :=
  let m' := { m with desiredState := .stopped }
  (m', m'.onUpdateTimes)

/-- The setter of `tick_time`: an open tick is stretched to the new length. -/
def setTickTime (m : CTFTimer) (tickTime : ℤ) : CTFTimer × List Output :=
  if m.tickTime ≠ tickTime then
    let m' :=
      match truthy m.tickStart with
      | some tickStart => { m with tickTime := tickTime, tickEnd := some (tickStart + tickTime) }
      | none => { m with tickTime := tickTime }
    (m', m'.onUpdateTimes)
  else
    (m, [])

/-- The setter of `stop_after_tick`. -/
def setStopAfterTick (m : CTFTimer) (lastTick : Option ℤ) : CTFTimer × List Output :=
  if m.stopAfterTick ≠ lastTick then
    let m' := { m with stopAfterTick := lastTick }
    (m', m'.onUpdateTimes)
  else
    (m, [])

/-- The setter of `start_at`. -/
def setStartAt (m : CTFTimer) (timestamp : Option ℤ) : CTFTimer × List Output :=
  if m.startAt ≠ timestamp then
    let m' := { m with startAt := timestamp }
    (m', m'.onUpdateTimes)
  else
    (m, [])

/-- The setter of `open_vulnbox_access_at`. -/
def setOpenVulnboxAccessAt (m : CTFTimer) (timestamp : Option ℤ) : CTFTimer × List Output :=
  if m.openVulnboxAccessAt ≠ timestamp then
    let m' := { m with openVulnboxAccessAt := timestamp }
    (m', m'.onUpdateTimes)
  else
    (m, [])

end CTFTimer

/-- One call on the master timer, with the clock readings it makes. -/
inductive Call where
  | checkTime (t now : ℤ)
  | startCtf (now : ℤ)
  | suspendCtfAfterTick
  | stopCtfAfterTick
  | setTickTime (tickTime : ℤ)
  | setStopAfterTick (lastTick : Option ℤ)
  | setStartAt (timestamp : Option ℤ)
  | setOpenVulnboxAccessAt (timestamp : Option ℤ)
  deriving DecidableEq, Repr

/-- Carry out one call. -/
def CTFTimer.call (m : CTFTimer) : Call → CTFTimer × List Output
  | .checkTime t now => m.checkTime t now
  | .startCtf now => m.startCtf now
  | .suspendCtfAfterTick => m.suspendCtfAfterTick
  | .stopCtfAfterTick => m.stopCtfAfterTick
  | .setTickTime tickTime => m.setTickTime tickTime
  | .setStopAfterTick lastTick => m.setStopAfterTick lastTick
  | .setStartAt timestamp => m.setStartAt timestamp
  | .setOpenVulnboxAccessAt timestamp => m.setOpenVulnboxAccessAt timestamp

/-- The clock does not run backwards: the readings of a call are at or after
`clock`, the last reading before it. -/
def Call.ClockOk (clock : ℤ) : Call → Prop
  | .checkTime t now => clock ≤ t ∧ t ≤ now
  | .startCtf now => clock ≤ now
  | _ => True

instance (clock : ℤ) (c : Call) : Decidable (c.ClockOk clock) :=
  match c with
  | .checkTime t now => inferInstanceAs (Decidable (clock ≤ t ∧ t ≤ now))
  | .startCtf now => inferInstanceAs (Decidable (clock ≤ now))
  | .suspendCtfAfterTick | .stopCtfAfterTick | .setTickTime _ | .setStopAfterTick _
  | .setStartAt _ | .setOpenVulnboxAccessAt _ => inferInstanceAs (Decidable True)

/-- The last reading of the clock after the call. -/
def Call.clockAfter (clock : ℤ) : Call → ℤ
  | .checkTime _ now => now
  | .startCtf now => now
  | _ => clock

/-! ## The pub/sub side -/

/-- A message on one of the nine `timing:*` channels. -/
inductive Message where
  | state (state : CTFState)
  | desiredState (state : CTFState)
  | currentRound (tick : ℤ)
  | roundStart (t : Option ℤ)
  | roundEnd (t : Option ℤ)
  | roundTime (time : ℤ)
  | stopAfterRound (tick : Option ℤ)
  | startAt (t : Option ℤ)
  | openVulnboxAccessAt (t : Option ℤ)
  deriving DecidableEq, Repr

namespace CTFTimer

/-- What `on_update_times` publishes, in order. -/
def messages (m : CTFTimer) : List Message :=
  [.state m.state, .desiredState m.desiredState, .currentRound m.currentTick,
    .roundStart m.tickStart, .roundEnd m.tickEnd, .roundTime m.tickTime,
    .stopAfterRound m.stopAfterTick, .startAt m.startAt,
    .openVulnboxAccessAt m.openVulnboxAccessAt]

/-- `__listen_for_redis_events`: the effect of one message on a timer. -/
def handleMessage (m : CTFTimer) : Message → CTFTimer
  | .state state => { m with state := state }
  | .desiredState state => { m with desiredState := state }
  | .currentRound tick => { m with currentTick := tick }
  | .roundStart t => { m with tickStart := t }
  | .roundEnd t => { m with tickEnd := t }
  | .roundTime time => { m with tickTime := if time ≠ 0 then time else m.tickTime }
  | .stopAfterRound tick => { m with stopAfterTick := tick }
  | .startAt t => { m with startAt := t }
  | .openVulnboxAccessAt t => { m with openVulnboxAccessAt := t }

end CTFTimer

/-- The messages a list of outputs puts on the wire. -/
def published (outputs : List Output) : List Message :=
  outputs.flatMap fun
    | .updateTimes m => m.messages
    | _ => []

end Gameserver.Timer
