import Gameserver.Lib.Replica
import Gameserver.Submission.Server
import Gameserver.Timer.Replicas
import Gameserver.Timer.Wire

/-!
# The timer's state in the submission server

`flag-submission-server/src/redis.cpp` keeps `Redis::state` and `Redis::current_round`.  When it
is connected it sends two GETs and then two SUBSCRIBEs, and after a lost connection it does so
again.  The timer sets and publishes its fields one after the other (`on_update_times`).

* `setCurrentState` — the text of a state.
* `World`, `World.step` — the timer, Redis, the connection and the workers, in any order.
* `World.Quiet` — the timer has written everything, and the server has received everything.
* `redis_settles` — **when the checks of flags see the state and the tick of the timer**.
-/

namespace Gameserver.Submission.Redis

open Listener Machine Timer

/-- `setCurrentState`: another text than these changes nothing. -/
def setCurrentState (state : String) : Option GameState :=
  if state = "STOPPED" then some .stopped
  else if state = "SUSPENDED" then some .suspended
  else if state = "RUNNING" then some .running
  else none

/-- The state of the game, for a state of the timer. -/
def gameState : CTFState → GameState
  | .stopped => .stopped
  | .suspended => .suspended
  | .running => .running

@[simp] theorem setCurrentState_name (state : CTFState) :
    setCurrentState state.name = some (gameState state) := by
  cases state <;> decide

/-! ## The writes of the timer -/

/-- A command of the timer for one of the two keys. -/
inductive Write where
  | setState (state : CTFState)
  | publishState
  | setRound (round : ℤ)
  | publishRound
  deriving DecidableEq

/-- `redis_set_and_publish`, for the keys that the server reads. -/
def writes : Message → List Write
  | .state state => [.setState state, .publishState]
  | .currentRound tick => [.setRound tick, .publishRound]
  | _ => []

/-- The commands of a call. -/
def writesOf (outputs : List Output) : List Write := (published outputs).flatMap writes

/-- The commands of `on_update_times`. -/
def updates (m : CTFTimer) : List Write :=
  [.setState m.state, .publishState, .setRound m.currentTick, .publishRound]

theorem flatMap_writes (m : CTFTimer) : m.messages.flatMap writes = updates m := rfl

/-- A call writes nothing and leaves both fields alone, or it writes both. -/
theorem writesOf_call (m : CTFTimer) (c : Call) :
    (writesOf (m.call c).2 = [] ∧ (m.call c).1.state = m.state ∧
      (m.call c).1.currentTick = m.currentTick) ∨
    writesOf (m.call c).2 = updates (m.call c).1 := by
  rcases m.published_call c with hnil | hall
  · refine .inl ⟨by rw [writesOf, hnil]; rfl, ?_⟩
    by_cases hstart : ∀ now, c = .startCtf now → m.state = .running → m.desiredState = .running
    · rw [CTFTimer.call_of_published_nil hnil hstart]
      exact ⟨rfl, rfl⟩
    · -- `start_ctf` of a running game only sets the desired state
      push Not at hstart
      obtain ⟨now, rfl, hrunning, -⟩ := hstart
      simp [CTFTimer.call, CTFTimer.startCtf, hrunning]
  · exact .inr (by rw [writesOf, hall, flatMap_writes])

/-! ## The parties -/

/-- A command of the server. -/
inductive Command where
  | getState
  | getRound
  | subscribeState
  | subscribeRound
  deriving DecidableEq

/-- `onDatabaseSelected` -/
def onDatabaseSelected : List Command := [.getState, .getRound, .subscribeState, .subscribeRound]

structure World where
  timer : CTFTimer
  /-- What the timer still has to write. -/
  todo : List Write
  state : Replica.State CTFState
  round : Replica.State ℤ
  /-- What the connection still has to send. -/
  commands : List Command
  server : Server

inductive Event where
  | call (c : Call)
  /-- The next command of the timer. -/
  | write
  /-- The server is connected. -/
  | connect
  /-- The next command of the server. -/
  | command
  | receiveState
  | receiveRound
  /-- The connection is lost. -/
  | lose
  /-- The server dies, as it does when an answer to a GET is missing, and is started again. -/
  | restart
  /-- An event of the workers and the periodic maintenance. -/
  | worker (e : Submission.Event)

/-- Events of the submission server that `redis.cpp` has no part in. -/
def isWorker : Submission.Event → Bool
  | .setCurrentState _ | .setCurrentRound _ => false
  | _ => true

namespace World

/-- A Redis without the two keys, and no connection yet. -/
def start (m : CTFTimer) : World where
  timer := m
  todo := []
  state := .start .stopped
  round := .start (-1)
  commands := []
  server := .initial

/-- Redis carries out a command of the timer. -/
def write (w : World) : Write → World
  | .setState state => { w with state := Replica.step w.state (.set state) }
  | .publishState => { w with state := Replica.step w.state .publish }
  | .setRound round => { w with round := Replica.step w.round (.set round) }
  | .publishRound => { w with round := Replica.step w.round .publish }

/-- Redis carries out a command of the server. -/
def command (w : World) : Command → World
  | .getState => { w with state := Replica.step w.state .get }
  | .getRound => { w with round := Replica.step w.round .get }
  | .subscribeState => { w with state := Replica.step w.state .subscribe }
  | .subscribeRound => { w with round := Replica.step w.round .subscribe }

section

variable (checkCache : Bool) (config : Config)

/-- `setCurrentState` is called for an answer or a message. -/
def receiveState (w : World) : World :=
  match w.state.queue with
  | [] => w
  | state :: _ =>
    { w with
      state := Replica.step w.state .deliver
      server :=
        match setCurrentState state.name with
        | some state => w.server.step checkCache config (.setCurrentState state)
        | none => w.server }

/-- `setCurrentRound` is called for an answer or a message. -/
def receiveRound (w : World) : World :=
  match w.round.queue with
  | [] => w
  | round :: _ =>
    { w with
      round := Replica.step w.round .deliver
      server := w.server.step checkCache config (.setCurrentRound round) }

/-- One step.  The timer is one thread: it writes everything before its next call. -/
def step (w : World) : Event → World
  | .call c =>
    if w.todo = [] then
      { w with timer := (w.timer.call c).1, todo := writesOf (w.timer.call c).2 }
    else w
  | .write =>
    match w.todo with
    | [] => w
    | next :: rest => { w.write next with todo := rest }
  | .connect =>
    if w.commands = [] ∧ w.state.phase = .down ∧ w.round.phase = .down then
      { w with commands := onDatabaseSelected }
    else w
  | .command =>
    match w.commands with
    | [] => w
    | next :: rest => { w.command next with commands := rest }
  | .receiveState => w.receiveState checkCache config
  | .receiveRound => w.receiveRound checkCache config
  | .lose =>
    { w with
      state := Replica.step w.state .lose
      round := Replica.step w.round .lose
      commands := [] }
  | .restart =>
    { w with
      state := Replica.step w.state (.restart .stopped)
      round := Replica.step w.round (.restart (-1))
      commands := []
      server := { Server.initial with table := w.server.table } }
  | .worker e => if isWorker e then { w with server := w.server.step checkCache config e } else w

end

/-- The timer has written everything, and the server has received everything. -/
structure Quiet (w : World) : Prop where
  todo : w.todo = []
  state : Replica.Settled w.state
  round : Replica.Settled w.round

instance (w : World) : Decidable w.Quiet :=
  decidable_of_iff (w.todo = [] ∧ Replica.Settled w.state ∧ Replica.Settled w.round)
    ⟨fun h => ⟨h.1, h.2.1, h.2.2⟩, fun h => ⟨h.todo, h.state, h.round⟩⟩

/-- The checks of flags see what the timer shows. -/
def Current (w : World) : Prop :=
  w.server.globals.state = gameState w.timer.state ∧
    w.server.globals.currentRound = w.timer.currentTick

/-! ## What a step does to a key -/

section

variable {checkCache : Bool} {config : Config} {w : World}

/-- The step of `timing:state`. -/
def stateEvent (w : World) : Event → Option (Replica.Event CTFState)
  | .write =>
    match w.todo with
    | .setState state :: _ => some (.set state)
    | .publishState :: _ => some .publish
    | _ => none
  | .command =>
    match w.commands with
    | .getState :: _ => some .get
    | .subscribeState :: _ => some .subscribe
    | _ => none
  | .receiveState => some .deliver
  | .lose => some .lose
  | .restart => some (.restart .stopped)
  | _ => none

/-- The step of `timing:currentRound`. -/
def roundEvent (w : World) : Event → Option (Replica.Event ℤ)
  | .write =>
    match w.todo with
    | .setRound round :: _ => some (.set round)
    | .publishRound :: _ => some .publish
    | _ => none
  | .command =>
    match w.commands with
    | .getRound :: _ => some .get
    | .subscribeRound :: _ => some .subscribe
    | _ => none
  | .receiveRound => some .deliver
  | .lose => some .lose
  | .restart => some (.restart (-1))
  | _ => none

theorem deliver_of_nil {V : Type*} {s : Replica.State V} (h : s.queue = []) :
    Replica.step s .deliver = s := by
  simp [Replica.step, h]

theorem state_step (w : World) (e : Event) :
    (w.step checkCache config e).state = (w.stateEvent e).elim w.state (Replica.step w.state) := by
  cases e with
  | call c => simp only [step, stateEvent]; split <;> rfl
  | write =>
    cases htodo : w.todo with
    | nil => simp [step, stateEvent, htodo]
    | cons next rest => cases next <;> simp [step, stateEvent, htodo, World.write]
  | connect => simp only [step, stateEvent]; split <;> rfl
  | command =>
    cases hcommands : w.commands with
    | nil => simp [step, stateEvent, hcommands]
    | cons next rest => cases next <;> simp [step, stateEvent, hcommands, World.command]
  | receiveState =>
    simp only [step, receiveState, stateEvent, Option.elim]
    split
    · next hqueue => exact (deliver_of_nil hqueue).symm
    · rfl
  | receiveRound => simp only [step, receiveRound, stateEvent]; split <;> rfl
  | lose => rfl
  | restart => rfl
  | worker e => simp only [step, stateEvent]; split <;> rfl

theorem round_step (w : World) (e : Event) :
    (w.step checkCache config e).round = (w.roundEvent e).elim w.round (Replica.step w.round) := by
  cases e with
  | call c => simp only [step, roundEvent]; split <;> rfl
  | write =>
    cases htodo : w.todo with
    | nil => simp [step, roundEvent, htodo]
    | cons next rest => cases next <;> simp [step, roundEvent, htodo, World.write]
  | connect => simp only [step, roundEvent]; split <;> rfl
  | command =>
    cases hcommands : w.commands with
    | nil => simp [step, roundEvent, hcommands]
    | cons next rest => cases next <;> simp [step, roundEvent, hcommands, World.command]
  | receiveState => simp only [step, receiveState, roundEvent]; split <;> rfl
  | receiveRound =>
    simp only [step, receiveRound, roundEvent, Option.elim]
    split
    · next hqueue => exact (deliver_of_nil hqueue).symm
    · rfl
  | lose => rfl
  | restart => rfl
  | worker e => simp only [step, roundEvent]; split <;> rfl

/-! ## The invariant -/

/-- What Redis holds, while the timer has the commands `todo` to write. -/
def Stored (w : World) : Prop :=
  (w.todo = [] ∧ w.state.store = none ∧ w.round.store = none) ∨
    ∃ k, w.todo = (updates w.timer).drop k ∧
      (1 ≤ k → w.state.store = some w.timer.state) ∧
      (3 ≤ k → w.round.store = some w.timer.currentTick)

structure Invariant (w : World) : Prop where
  state : Replica.Invariant w.state
  round : Replica.Invariant w.round
  stateCopy : w.server.globals.state = gameState w.state.copy
  roundCopy : w.server.globals.currentRound = w.round.copy
  stored : w.Stored

theorem invariant_start (m : CTFTimer) : (start m).Invariant where
  state := Replica.invariant_start CTFState.stopped
  round := Replica.invariant_start (-1 : ℤ)
  stateCopy := rfl
  roundCopy := rfl
  stored := .inl ⟨rfl, rfl, rfl⟩

theorem invariant_elim {V : Type*} {s : Replica.State V} (h : Replica.Invariant s)
    (e : Option (Replica.Event V)) : Replica.Invariant (e.elim s (Replica.step s)) := by
  cases e with
  | none => exact h
  | some e => exact h.step e

theorem drop_updates_eq_nil {m : CTFTimer} {k : ℕ} (h : (updates m).drop k = []) : 4 ≤ k := by
  simpa [updates] using h

theorem stored_call (h : w.Stored) (c : Call) (htodo : w.todo = []) :
    Stored { w with timer := (w.timer.call c).1, todo := writesOf (w.timer.call c).2 } := by
  rcases writesOf_call w.timer c with ⟨hnil, hstate, htick⟩ | hall
  · rcases h with ⟨-, hnone⟩ | ⟨k, hk, hfirst, hsecond⟩
    · exact .inl ⟨hnil, hnone⟩
    · have hfour := drop_updates_eq_nil (hk.symm.trans htodo)
      refine .inr ⟨4, hnil, fun _ => ?_, fun _ => ?_⟩
      · exact (hfirst (by omega)).trans (congrArg some hstate.symm)
      · exact (hsecond (by omega)).trans (congrArg some htick.symm)
  · exact .inr ⟨0, hall, fun h => absurd h (by omega), fun h => absurd h (by omega)⟩

theorem stored_write (h : w.Stored) {next : Write} {rest : List Write}
    (htodo : w.todo = next :: rest) : Stored { w.write next with todo := rest } := by
  rcases h with ⟨hnil, -⟩ | ⟨k, hk, hfirst, hsecond⟩
  · rw [hnil] at htodo
    cases htodo
  rw [htodo] at hk
  -- the command to be carried out tells how far the timer is
  match k, hk with
  | 0, hk =>
    obtain ⟨rfl, rfl⟩ := List.cons.inj hk
    exact .inr ⟨1, rfl, fun _ => rfl, fun h => absurd h (by omega)⟩
  | 1, hk =>
    obtain ⟨rfl, rfl⟩ := List.cons.inj hk
    refine .inr ⟨2, rfl, fun _ => ?_, fun h => absurd h (by omega)⟩
    exact (Replica.store_publish w.state).trans (hfirst (by omega))
  | 2, hk =>
    obtain ⟨rfl, rfl⟩ := List.cons.inj hk
    exact .inr ⟨3, rfl, fun _ => hfirst (by omega), fun _ => rfl⟩
  | 3, hk =>
    obtain ⟨rfl, rfl⟩ := List.cons.inj hk
    refine .inr ⟨4, rfl, fun _ => hfirst (by omega), fun _ => ?_⟩
    exact (Replica.store_publish w.round).trans (hsecond (by omega))
  | k + 4, hk =>
    have hnil : (updates w.timer).drop (k + 4) = [] := by simp [updates]
    rw [hnil] at hk
    cases hk

theorem Stored.congr {w' : World} (h : w.Stored) (htimer : w'.timer = w.timer)
    (htodo : w'.todo = w.todo) (hstate : w'.state.store = w.state.store)
    (hround : w'.round.store = w.round.store) : w'.Stored := by
  rw [Stored, htimer, htodo, hstate, hround]
  exact h

theorem stored_step (h : w.Stored) (e : Event) : (w.step checkCache config e).Stored := by
  cases e with
  | call c =>
    simp only [step]
    split
    · next htodo => exact stored_call h c htodo
    · exact h
  | write =>
    cases htodo : w.todo with
    | nil => simpa only [step, htodo] using h
    | cons next rest => simpa only [step, htodo] using stored_write h htodo
  | connect => simp only [step]; split <;> exact h
  | command =>
    cases hcommands : w.commands with
    | nil => simpa only [step, hcommands] using h
    | cons next rest =>
      simp only [step, hcommands]
      cases next <;> exact h.congr rfl rfl (by simp [World.command]) (by simp [World.command])
  | receiveState =>
    simp only [step, receiveState]
    split
    · exact h
    · exact h.congr rfl rfl (Replica.store_deliver _) rfl
  | receiveRound =>
    simp only [step, receiveRound]
    split
    · exact h
    · exact h.congr rfl rfl rfl (Replica.store_deliver _)
  | lose => exact h
  | restart => exact h
  | worker e => simp only [step]; split <;> exact h

/-- The workers and the maintenance do not touch the two variables. -/
theorem globals_worker (s : Server) {e : Submission.Event} (he : isWorker e) :
    (s.step checkCache config e).globals.state = s.globals.state ∧
      (s.step checkCache config e).globals.currentRound = s.globals.currentRound := by
  cases e with
  | submit worker source flag =>
    simp only [Server.step]
    repeat' split
    all_goals exact ⟨rfl, rfl⟩
  | exchange worker =>
    simp only [Server.step]
    split
    · rw [(s.exchange_frame worker _ _ _).1]
      exact ⟨rfl, rfl⟩
    · exact ⟨rfl, rfl⟩
  | insert worker outcome =>
    simp only [Server.step]
    split
    · rw [s.insert_globals]
      exact ⟨rfl, rfl⟩
    · exact ⟨rfl, rfl⟩
  | setCurrentState _ => cases he
  | setCurrentRound _ => cases he
  | _ =>
    simp only [Server.step]
    split <;> exact ⟨rfl, rfl⟩

theorem copies_step (hstate : w.server.globals.state = gameState w.state.copy)
    (hround : w.server.globals.currentRound = w.round.copy) (e : Event) :
    (w.step checkCache config e).server.globals.state =
        gameState (w.step checkCache config e).state.copy ∧
      (w.step checkCache config e).server.globals.currentRound =
        (w.step checkCache config e).round.copy := by
  cases e with
  | call c => simp only [step]; split <;> exact ⟨hstate, hround⟩
  | write =>
    cases htodo : w.todo with
    | nil => simpa only [step, htodo] using ⟨hstate, hround⟩
    | cons next rest =>
      simp only [step, htodo]
      cases next <;> simp [World.write, Replica.copy_step, hstate, hround]
  | connect => simp only [step]; split <;> exact ⟨hstate, hround⟩
  | command =>
    cases hcommands : w.commands with
    | nil => simpa only [step, hcommands] using ⟨hstate, hround⟩
    | cons next rest =>
      simp only [step, hcommands]
      cases next <;> simp [World.command, Replica.copy_step, hstate, hround]
  | receiveState =>
    cases hqueue : w.state.queue with
    | nil => simpa only [step, receiveState, hqueue] using ⟨hstate, hround⟩
    | cons state rest =>
      simpa [step, receiveState, hqueue, Server.step, Replica.step] using hround
  | receiveRound =>
    cases hqueue : w.round.queue with
    | nil => simpa only [step, receiveRound, hqueue] using ⟨hstate, hround⟩
    | cons round rest =>
      simpa [step, receiveRound, hqueue, Server.step, Replica.step] using hstate
  | lose => exact ⟨hstate, hround⟩
  | restart => exact ⟨rfl, rfl⟩
  | worker e =>
    simp only [step]
    split
    · next he =>
      obtain ⟨hsame, hsame'⟩ := globals_worker w.server he
      exact ⟨hsame.trans hstate, hsame'.trans hround⟩
    · exact ⟨hstate, hround⟩

theorem invariant_step (h : w.Invariant) (e : Event) :
    (w.step checkCache config e).Invariant := by
  obtain ⟨hstate, hround⟩ := copies_step h.stateCopy h.roundCopy e
  refine ⟨?_, ?_, hstate, hround, stored_step h.stored e⟩
  · rw [state_step]
    exact invariant_elim h.state _
  · rw [round_step]
    exact invariant_elim h.round _

/-! ## Schedules in which nothing is missed -/

/-- The timer does not publish a key between the GET and the SUBSCRIBE of the server. -/
def Careful (w : World) : Event → Prop
  | .write =>
    (w.todo.head? = some .publishState → w.state.phase ≠ .got) ∧
      (w.todo.head? = some .publishRound → w.round.phase ≠ .got)
  | _ => True

instance (w : World) (e : Event) : Decidable (w.Careful e) := by
  cases e <;> unfold Careful <;> infer_instance

theorem careful_state {e : Event} (he : w.Careful e) {e' : Replica.Event CTFState}
    (h : w.stateEvent e = some e') : Replica.Careful w.state e' := by
  cases e' with
  | publish =>
    cases e with
    | write =>
      refine he.1 ?_
      simp only [stateEvent] at h
      split at h <;> simp_all
    | command => simp only [stateEvent] at h; split at h <;> cases h
    | _ => cases h
  | _ => trivial

theorem careful_round {e : Event} (he : w.Careful e) {e' : Replica.Event ℤ}
    (h : w.roundEvent e = some e') : Replica.Careful w.round e' := by
  cases e' with
  | publish =>
    cases e with
    | write =>
      refine he.2 ?_
      simp only [roundEvent] at h
      split at h <;> simp_all
    | command => simp only [roundEvent] at h; split at h <;> cases h
    | _ => cases h
  | _ => trivial

/-- Nothing was missed so far. -/
structure Covered (w : World) : Prop where
  invariant : w.Invariant
  state : Replica.Covered w.state
  round : Replica.Covered w.round

theorem covered_elim {V : Type*} {s : Replica.State V} (h : Replica.Covered s)
    (hinv : Replica.Invariant s) {e : Option (Replica.Event V)}
    (he : ∀ e', e = some e' → Replica.Careful s e') :
    Replica.Covered (e.elim s (Replica.step s)) := by
  cases e with
  | none => exact h
  | some e => exact h.step hinv (he e rfl)

theorem covered_step (h : w.Covered) {e : Event} (he : w.Careful e) :
    (w.step checkCache config e).Covered := by
  refine ⟨invariant_step h.invariant e, ?_, ?_⟩
  · rw [state_step]
    exact covered_elim h.state h.invariant.state fun _ => careful_state he
  · rw [round_step]
    exact covered_elim h.round h.invariant.round fun _ => careful_round he

theorem covered_start (m : CTFTimer) : (start m).Covered where
  invariant := invariant_start m
  state hup := absurd rfl hup
  round hup := absurd rfl hup

/-! ## The server is up to date -/

theorem gameState_injective : Function.Injective gameState := by
  intro a b h
  cases a <;> cases b <;> first | rfl | cases h

/-- The store of a timer that has written everything. -/
theorem store_of_quiet (h : w.Invariant) (hquiet : w.Quiet) (hwritten : w.state.store.isSome) :
    w.state.store = some w.timer.state ∧ w.round.store = some w.timer.currentTick := by
  rcases h.stored with ⟨-, hnone, -⟩ | ⟨k, hk, hfirst, hsecond⟩
  · rw [hnone] at hwritten
    cases hwritten
  · have hfour := drop_updates_eq_nil (hk.symm.trans hquiet.todo)
    exact ⟨hfirst (by omega), hsecond (by omega)⟩

theorem current_iff (h : w.Invariant) (hquiet : w.Quiet) (hwritten : w.state.store.isSome) :
    w.Current ↔ Replica.Agrees w.state ∧ Replica.Agrees w.round := by
  obtain ⟨hstate, hround⟩ := store_of_quiet h hquiet hwritten
  simp [Current, Replica.Agrees, h.stateCopy, h.roundCopy, hstate, hround,
    gameState_injective.eq_iff]

/-- **The submission server and the timer agree** in every run, once the timer has written its
fields and the server has received everything: exactly when for both keys a message has come
since the connection was made, or the answer to the GET is still right; and in particular if the
timer never published a key between the GET and the SUBSCRIBE. -/
theorem redis_settles (m : CTFTimer) (es : List Event)
    (hquiet : (exec (step checkCache config) (start m) es).Quiet)
    (hwritten : (exec (step checkCache config) (start m) es).state.store.isSome) :
    let w := exec (step checkCache config) (start m) es
    (w.Current ↔
      (w.state.heard = true ∨ w.state.base = w.timer.state) ∧
        (w.round.heard = true ∨ w.round.base = w.timer.currentTick)) ∧
    (Along (step checkCache config) Careful (start m) es → w.Current) := by
  intro w
  have hinv : w.Invariant :=
    exec_invariant Invariant (fun _ e h => invariant_step h e) (invariant_start m) es
  obtain ⟨hstate, hround⟩ := store_of_quiet hinv hquiet hwritten
  rw [current_iff hinv hquiet hwritten]
  refine ⟨?_, fun hcareful => ?_⟩
  · rw [hinv.state.settled_iff hquiet.state, hinv.round.settled_iff hquiet.round]
    simp [w, hstate, hround]
  · have hcovered : w.Covered :=
      Along.invariant (fun w _ (h : Covered w) he => covered_step h he) (covered_start m) hcareful
    exact ⟨hcovered.state.agrees hinv.state hquiet.state,
      hcovered.round.agrees hinv.round hquiet.round⟩

end

/-- Every flag has the right MAC. -/
def sampleConfig : Config := ⟨0, 10, fun _ => true⟩

/-- The server connects, and then the game starts. -/
def startsAfterwards : List Event :=
  [.connect, .command, .command, .command, .command, .call (.startCtf 100), .write, .write,
    .write, .write, .receiveState, .receiveRound]

theorem redis_settles_afterwards :
    (exec (step true sampleConfig) (start (CTFTimer.new 60)) startsAfterwards).Current :=
  (redis_settles (CTFTimer.new 60) startsAfterwards (by decide +kernel) (by decide +kernel)).2
    (by decide +kernel)

/-- The game starts between the GETs and the SUBSCRIBEs: the server answers that it is not
running, until the next tick is published. -/
theorem redis_misses_start :
    let w := exec (step true sampleConfig) (start (CTFTimer.new 60))
      [.connect, .command, .command, .call (.startCtf 100), .write, .write, .write, .write,
        .command, .command]
    w.Quiet ∧ w.timer.state = .running ∧ w.server.globals.state = .stopped := by
  decide +kernel

end World

end Gameserver.Submission.Redis
