import Gameserver.Firewall.Convergence
import Gameserver.Timer.Effect

/-!
# The network follows the game

`VPNCTFEvents` of `controlserver/events_impl.py` listens to the master timer: the network is
opened when the game starts and closed between the teams when it ends.  The timer, the
listener, the control panel and the firewall daemon work at the same time.

* `VpnEvent`, `vpnEvents` — the events of the timer the listener has a method for.
* `VpnEffect`, `call_vpnEffect` — what a call on the timer sends to the listener.
* `VpnCTFEvents.handle` — the methods of the listener.
* `World`, `World.step` — the parties; a method of the listener has two steps, the change of
  the key and the publication, and every other step can come in between.
* `network_follows_game` — **whenever the listener is idle, the network is on exactly while the
  game is not stopped**.
* `game_traffic` — **what the firewall does with the packets of the game**.
-/

namespace Gameserver.Vpn

open Machine Timer Firewall Listener

/-! ## From the timer to the listener -/

/-- The events that `VPNCTFEvents` changes the network state for. -/
inductive VpnEvent where
  | startCtf
  | endCtf
  | openVulnboxAccess
  deriving DecidableEq, Repr

/-- The events among the outputs of a call. -/
def vpnEvents (outputs : List Output) : List VpnEvent :=
  outputs.filterMap fun
    | .startCtf => some .startCtf
    | .endCtf => some .endCtf
    | .openVulnboxAccess => some .openVulnboxAccess
    | _ => none

@[simp] theorem vpnEvents_nil : vpnEvents [] = [] := rfl

@[simp] theorem vpnEvents_append (o₁ o₂ : List Output) :
    vpnEvents (o₁ ++ o₂) = vpnEvents o₁ ++ vpnEvents o₂ := by
  simp [vpnEvents]

@[simp] theorem vpnEvents_startTick (tick : ℤ) (o : List Output) :
    vpnEvents (.startTick tick :: o) = vpnEvents o := rfl

@[simp] theorem vpnEvents_endTick (tick : ℤ) (o : List Output) :
    vpnEvents (.endTick tick :: o) = vpnEvents o := rfl

@[simp] theorem vpnEvents_suspendCtf (o : List Output) :
    vpnEvents (.suspendCtf :: o) = vpnEvents o := rfl

@[simp] theorem vpnEvents_updateTimes (m : CTFTimer) (o : List Output) :
    vpnEvents (.updateTimes m :: o) = vpnEvents o := rfl

@[simp] theorem vpnEvents_startCtf (o : List Output) :
    vpnEvents (.startCtf :: o) = .startCtf :: vpnEvents o := rfl

@[simp] theorem vpnEvents_endCtf (o : List Output) :
    vpnEvents (.endCtf :: o) = .endCtf :: vpnEvents o := rfl

@[simp] theorem vpnEvents_openVulnboxAccess (o : List Output) :
    vpnEvents (.openVulnboxAccess :: o) = .openVulnboxAccess :: vpnEvents o := rfl

section Methods

variable (m : CTFTimer)

@[simp] theorem vpnEvents_updateTickTimes : vpnEvents m.updateTickTimes = [] := by
  unfold CTFTimer.updateTickTimes
  split <;> rfl

@[simp] theorem vpnEvents_onUpdateTimes : vpnEvents m.onUpdateTimes = [] := by
  simp [CTFTimer.onUpdateTimes]

@[simp] theorem vpnEvents_onStartCtf : vpnEvents m.onStartCtf = [.startCtf] := by
  simp [CTFTimer.onStartCtf]

@[simp] theorem vpnEvents_onEndCtf : vpnEvents m.onEndCtf = [.endCtf] := by
  simp [CTFTimer.onEndCtf]

@[simp] theorem vpnEvents_onOpenVulnboxAccess :
    vpnEvents m.onOpenVulnboxAccess = [.openVulnboxAccess] := by
  simp [CTFTimer.onOpenVulnboxAccess]

end Methods

/-- What a call can send to the listener, and what it does to the game. -/
inductive VpnEffect (m m' : CTFTimer) (o : List Output) : Prop
  | quiet (events : vpnEvents o = []) (same : m'.state = .stopped ↔ m.state = .stopped)
  | started (events : vpnEvents o = [.startCtf]) (state : m'.state ≠ .stopped)
  | ended (events : vpnEvents o = [.endCtf]) (state : m'.state = .stopped)
  | opened (events : vpnEvents o = [.openVulnboxAccess]) (same : m'.state = m.state)

section Effect

variable {m : CTFTimer}

theorem startCtf_vpnEffect (now : ℤ) : VpnEffect m (m.startCtf now).1 (m.startCtf now).2 := by
  unfold CTFTimer.startCtf
  by_cases hrun : m.state = .running
  · rw [if_neg (not_not.2 hrun)]
    exact .quiet rfl Iff.rfl
  · rw [if_pos hrun]
    by_cases hstopped : m.state = .stopped
    · exact .started (by simp [hstopped]) (by simp)
    · exact .quiet (by simp [hstopped]) (by simp [hstopped])

theorem endTick_vpnEffect {t e : ℤ} (hrun : m.state = .running) :
    VpnEffect m (m.endTick t e).1 (m.endTick t e).2 := by
  unfold CTFTimer.endTick
  cases hdesired : m.desiredState with
  | running => exact .quiet (by simp) (by simp)
  | suspended => exact .quiet (by simp) (by simp [hrun])
  | stopped => exact .ended (by simp) (by simp)

theorem checkStart_vpnEffect (t now : ℤ) :
    VpnEffect m (m.checkStart t now).1 (m.checkStart t now).2 := by
  unfold CTFTimer.checkStart
  split_ifs with hdesired hstart hopen
  · exact startCtf_vpnEffect now
  · -- the field that is cleared first is not the state
    cases startCtf_vpnEffect (m := { m with startAt := none }) now with
    | quiet events same => exact .quiet events same
    | started events state => exact .started events state
    | ended events state => exact .ended events state
    | opened events same => exact .opened events same
  · exact .opened (by simp) rfl
  · exact .quiet rfl Iff.rfl

/-- **Every call has one of the four effects on the network.** -/
theorem call_vpnEffect (m : CTFTimer) (c : Call) : VpnEffect m (m.call c).1 (m.call c).2 := by
  cases c with
  | checkTime t now =>
    cases hover : m.tickOver t with
    | true =>
      obtain ⟨hrun, e, he⟩ := m.checkTime_of_tickOver hover now
      rw [CTFTimer.call, he]
      exact endTick_vpnEffect hrun
    | false =>
      rw [CTFTimer.call, m.checkTime_of_not_tickOver hover]
      exact checkStart_vpnEffect t now
  | startCtf now => exact startCtf_vpnEffect now
  | suspendCtfAfterTick =>
    exact .quiet (by simp [CTFTimer.call, CTFTimer.suspendCtfAfterTick]) Iff.rfl
  | stopCtfAfterTick =>
    exact .quiet (by simp [CTFTimer.call, CTFTimer.stopCtfAfterTick]) Iff.rfl
  | setTickTime tickTime =>
    simp only [CTFTimer.call, CTFTimer.setTickTime]
    split_ifs
    · cases truthy m.tickStart <;> exact .quiet (by simp) Iff.rfl
    · exact .quiet rfl Iff.rfl
  | setStopAfterTick lastTick =>
    simp only [CTFTimer.call, CTFTimer.setStopAfterTick]
    split_ifs
    · exact .quiet (by simp) Iff.rfl
    · exact .quiet rfl Iff.rfl
  | setStartAt timestamp =>
    simp only [CTFTimer.call, CTFTimer.setStartAt]
    split_ifs
    · exact .quiet (by simp) Iff.rfl
    · exact .quiet rfl Iff.rfl
  | setOpenVulnboxAccessAt timestamp =>
    simp only [CTFTimer.call, CTFTimer.setOpenVulnboxAccessAt]
    split_ifs
    · exact .quiet (by simp) Iff.rfl
    · exact .quiet rfl Iff.rfl

end Effect

/-! ## The listener -/

/-- `VPNControl.get_state`: all unknown states are `OFF`. -/
def getState (state : Option String) : Firewall.VpnStatus :=
  if state = some "on" then .on
  else if state = some "team" then .teamsOnly
  else if state = some "team-no-vulnbox" then .teamsOnlyNoVulnbox
  else .off

@[simp] theorem getState_value (status : Firewall.VpnStatus) :
    getState (some status.value) = status := by
  cases status <;> decide

theorem getState_eq_on_iff {state : Option String} : getState state = .on ↔ state = some "on" := by
  unfold getState
  split_ifs with h₁ h₂ h₃ <;> simp_all

/-- The firewall and the control server agree on what an open network is. -/
theorem ofString_eq_on_iff {state : String} :
    NetworkState.ofString state = .on ↔ getState (some state) = .on := by
  rw [getState_eq_on_iff, NetworkState.ofString]
  split_ifs with h₁ h₂ h₃ <;> simp_all

/-- The methods of `VPNCTFEvents`: the state that is set, if any. -/
def VpnEvent.handle (state : Firewall.VpnStatus) : VpnEvent → Option Firewall.VpnStatus
  | .startCtf => some .on
  | .endCtf => if state = .on then some .teamsOnly else none
  | .openVulnboxAccess => if state ≠ .on then some .teamsOnly else none

/-- The network state after an event. -/
def VpnEvent.after (state : Firewall.VpnStatus) (event : VpnEvent) : Firewall.VpnStatus :=
  (event.handle state).getD state

@[simp] theorem after_startCtf (state : Firewall.VpnStatus) :
    VpnEvent.after state .startCtf = .on := rfl

theorem after_endCtf_ne (state : Firewall.VpnStatus) : VpnEvent.after state .endCtf ≠ .on := by
  cases state <;> decide

theorem after_openVulnboxAccess (state : Firewall.VpnStatus) :
    VpnEvent.after state .openVulnboxAccess = .on ↔ state = .on := by
  cases state <;> decide

/-! ## The parties -/

/-- The timer, the events that its listener has still to handle, and Redis with the firewall. -/
structure World where
  timer : CTFTimer
  todo : List VpnEvent
  system : System

namespace World

variable (w : World)

/-- The `set_state` operations that have not published yet. -/
def stateOps : List Operation := w.system.pending.filter fun op => op.message.item = .state

/-- No event is left, and no `set_state` is under way. -/
def Idle : Prop := w.todo = [] ∧ w.stateOps = []

instance : Decidable w.Idle := inferInstanceAs (Decidable (_ ∧ _))

/-- What can happen. -/
inductive Event where
  /-- a call on the master timer -/
  | call (c : Call)
  /-- the master timer handles a message -/
  | message (message : Timer.Message)
  /-- the listener changes the network state for its next event -/
  | listener
  /-- any other step of the control server or the firewall daemon -/
  | system (e : System.Event)

/-- One step.  The timer waits for its listener, and the listener publishes one change before it
makes the next. -/
def step (net : Network) (w : World) : Event → World
  | .call c =>
    let result := w.timer.call c
    if vpnEvents result.2 = [] ∨ w.Idle then
      { w with timer := result.1, todo := w.todo ++ vpnEvents result.2 }
    else w
  | .message message => { w with timer := w.timer.handleMessage message }
  | .listener =>
    match w.todo with
    | [] => w
    | event :: todo =>
      if w.stateOps ≠ [] then w
      else
        match event.handle (getState w.system.redis.state) with
        | some state =>
          { w with todo := todo, system := w.system.step net (.change (.setState state)) }
        | none => { w with todo := todo }
  | .system e => { w with system := w.system.step net e }

/-- Whoever else sets the network state does so while the listener is idle, and opens the network
only while the game is not stopped; and messages do not start or stop the game. -/
def Fitting (w : World) : Event → Prop
  | .system (.change (.setState state)) => w.Idle ∧ (state = .on ↔ w.timer.state ≠ .stopped)
  | .message message =>
    (w.timer.handleMessage message).state = .stopped ↔ w.timer.state = .stopped
  | _ => True

/-- The network state once the listener has handled its events. -/
def upcoming : Firewall.VpnStatus := w.todo.foldl VpnEvent.after (getState w.system.redis.state)

/-! ## The invariant -/

/-- The invariant of fitting runs. -/
structure Invariant (net : Network) (w : World) : Prop where
  /-- the network follows the game -/
  game : w.upcoming = .on ↔ w.timer.state ≠ .stopped
  /-- a change that has not been published yet is what Redis holds -/
  pending : ∀ op ∈ w.stateOps, op.message.value = w.system.redis.value .state
  single : w.stateOps.length ≤ 1
  agrees : w.stateOps = [] → w.system.Agrees .state
  running : ∃ d, w.system.phase = .running d ∧ d.manager.state = .ofString d.state ∧
    Firewall.Inv net d.manager

variable {w} {net : Network}

theorem invariant_call (h : w.Invariant net) (c : Call) : (w.step net (.call c)).Invariant net := by
  rw [step]
  split_ifs with henabled
  · have hgame := h.game
    refine ⟨?_, h.pending, h.single, h.agrees, h.running⟩
    have hstart : vpnEvents (w.timer.call c).2 ≠ [] → w.todo = [] := fun hne =>
      (henabled.resolve_left hne).1
    show (w.todo ++ vpnEvents (w.timer.call c).2).foldl VpnEvent.after _ = .on ↔ _
    rw [upcoming] at hgame
    cases call_vpnEffect w.timer c with
    | quiet events same =>
      rw [events, List.append_nil, hgame]
      exact (not_iff_not.mpr same).symm
    | started events state => simp [events, hstart, state]
    | ended events state => simp [events, hstart, state, after_endCtf_ne]
    | opened events same =>
      have htodo := hstart (by simp [events])
      rw [htodo] at hgame
      simpa [events, htodo, same, after_openVulnboxAccess] using hgame
  · exact h

theorem invariant_message (h : w.Invariant net) {message : Timer.Message}
    (hok : w.Fitting (.message message)) : (w.step net (.message message)).Invariant net := by
  refine ⟨?_, h.pending, h.single, h.agrees, h.running⟩
  show w.upcoming = .on ↔ _
  rw [h.game, not_iff_not]
  exact hok.symm

/-- A change of the network state while no other one is under way. -/
theorem invariant_setState (h : w.Invariant net) (hops : w.stateOps = [])
    {state : Firewall.VpnStatus} {todo : List VpnEvent}
    (hgame : todo.foldl VpnEvent.after state = .on ↔ w.timer.state ≠ .stopped) :
    World.Invariant net ⟨w.timer, todo, w.system.step net (.change (.setState state))⟩ := by
  have hops' : World.stateOps ⟨w.timer, todo, w.system.step net (.change (.setState state))⟩ =
      [.setState state] := by
    rw [stateOps] at hops ⊢
    show (w.system.pending ++ [Operation.setState state]).filter _ = _
    rw [List.filter_append, hops]
    rfl
  refine ⟨?_, ?_, ?_, ?_, h.running⟩
  · show todo.foldl VpnEvent.after (getState (some state.value)) = .on ↔ _
    rw [getState_value]
    exact hgame
  · rw [hops']
    intro op hop
    obtain rfl := List.mem_singleton.mp hop
    rfl
  · rw [hops']
    exact le_rfl
  · rw [hops']
    intro hnil
    cases hnil

theorem invariant_listener (h : w.Invariant net) : (w.step net .listener).Invariant net := by
  rw [step]
  cases htodo : w.todo with
  | nil => exact h
  | cons event todo =>
    have hgame := h.game
    rw [upcoming, htodo, List.foldl_cons] at hgame
    dsimp only
    split_ifs with hops
    · exact h
    · have hops : w.stateOps = [] := not_not.mp hops
      cases hstate : event.handle (getState w.system.redis.state) with
      | some state =>
        refine invariant_setState h hops ?_
        rwa [VpnEvent.after, hstate] at hgame
      | none =>
        refine ⟨?_, h.pending, h.single, h.agrees, h.running⟩
        rwa [VpnEvent.after, hstate] at hgame

/-! ## The steps of the firewall -/

variable {s : System}

/-- Bans and permissions do not touch the network state. -/
theorem invariant_change (h : w.Invariant net) {op : Operation} (hop : op.message.item ≠ .state) :
    (w.step net (.system (.change op))).Invariant net := by
  by_cases hreturns : op.returnsAtOnce = true
  · rw [step, System.step, if_pos hreturns]
    exact h
  have hsystem : w.system.step net (.change op) =
      { w.system with redis := w.system.redis.change op, pending := w.system.pending ++ [op] } :=
    if_neg hreturns
  have hvalue := value_change_of_ne w.system.redis hop
  have hredis : (w.system.redis.change op).state = w.system.redis.state :=
    Value.state.inj hvalue
  have hops : (w.step net (.system (.change op))).stateOps = w.stateOps := by
    rw [stateOps, step, hsystem, stateOps, List.filter_append]
    simp [hop]
  refine ⟨?_, ?_, ?_, ?_, ?_⟩
  · rw [upcoming, step, hsystem]
    dsimp only
    rw [hredis]
    exact h.game
  · rw [hops, step, hsystem]
    exact fun other hother => (h.pending other hother).trans hvalue.symm
  · rw [hops]
    exact h.single
  · rw [hops, step, hsystem]
    exact fun hnil v hv => (h.agrees hnil v hv).trans hvalue.symm
  · rw [step, hsystem]
    exact h.running

theorem filter_eraseIdx {α : Type*} (p : α → Bool) {l : List α} {i : ℕ} {a : α}
    (ha : l[i]? = some a) (hp : p a = false) : (l.eraseIdx i).filter p = l.filter p := by
  induction l generalizing i with
  | nil => simp at ha
  | cons b l ih =>
    cases i with
    | zero =>
      obtain rfl : b = a := by simpa using ha
      simp [hp]
    | succ i => simp [ih (by simpa using ha), List.filter_cons]

/-- The PUBLISH of an operation that is under way. -/
theorem step_publish (net : Network) {d : Daemon} (hphase : w.system.phase = .running d) {index : ℕ}
    {op : Operation} (hop : w.system.pending[index]? = some op) :
    w.system.step net (.publish index) =
      { w.system with
        pending := w.system.pending.eraseIdx index
        queue := w.system.queue ++ [op.message] } := by
  simp [System.step, hop, hphase, Phase.isSubscribed]

theorem said_publish (net : Network) {d : Daemon} (hphase : w.system.phase = .running d) {index : ℕ}
    {op : Operation} (hop : w.system.pending[index]? = some op) :
    (w.system.step net (.publish index)).said .state = w.system.said .state ++
      if op.message.item = .state then [op.message.value] else [] := by
  rw [step_publish net hphase hop]
  simp only [System.said, List.filter_append, List.map_append, List.filter_singleton]
  by_cases hitem : op.message.item = .state <;> simp [hitem]

theorem invariant_publish (h : w.Invariant net) (index : ℕ) :
    (w.step net (.system (.publish index))).Invariant net := by
  cases hop : w.system.pending[index]? with
  | none =>
    rw [step, System.step, hop]
    exact h
  | some op =>
    obtain ⟨d, hphase, hrunning⟩ := h.running
    have hsystem := step_publish net hphase hop
    have hsaid := said_publish net hphase hop
    have hredis : (w.system.step net (.publish index)).redis = w.system.redis := by rw [hsystem]
    have hphase' : (w.system.step net (.publish index)).phase = .running d := by
      rw [hsystem]
      exact hphase
    have hops : (w.step net (.system (.publish index))).stateOps =
        (w.system.pending.eraseIdx index).filter fun op => op.message.item = .state := by
      rw [stateOps, step, hsystem]
    have hsub : ∀ other ∈ (w.step net (.system (.publish index))).stateOps, other ∈ w.stateOps := by
      rw [hops]
      exact fun other hother => ((List.eraseIdx_sublist _ _).filter _).subset hother
    refine ⟨?_, ?_, ?_, ?_, ⟨d, hphase', hrunning⟩⟩
    · rw [upcoming, step, hredis]
      exact h.game
    · rw [step, hredis]
      exact fun other hother => h.pending other (hsub other hother)
    · rw [hops]
      exact ((List.eraseIdx_sublist _ _).filter _).length_le.trans h.single
    · rw [step]
      intro hnil v hv
      rw [hsaid, hredis]
      rw [hphase'] at hv
      by_cases hitem : op.message.item = .state
      · -- what is published is what Redis holds
        rw [if_pos hitem, latest_concat]
        refine h.pending op (List.mem_filter.mpr ⟨List.mem_of_getElem? hop, by simpa using hitem⟩)
      · rw [if_neg hitem, List.append_nil]
        refine h.agrees ?_ v (by rwa [hphase])
        have hfilter := filter_eraseIdx (fun op : Operation => op.message.item = .state) hop
          (by simpa using hitem)
        rw [stateOps, ← hfilter, ← hops]
        exact hnil

theorem invariant_handle (h : w.Invariant net) (order : SetOrder) :
    (w.step net (.system (.handle order))).Invariant net := by
  obtain ⟨d, hphase, hstate, hinv⟩ := h.running
  cases hqueue : w.system.queue with
  | nil =>
    rw [step, System.step, hphase, hqueue]
    exact h
  | cons message queue =>
    have hsystem : w.system.step net (.handle order) =
        { w.system with phase := .running (d.handle net order message), queue := queue } := by
      simp [System.step, hphase, hqueue]
    refine ⟨?_, ?_, ?_, ?_, ⟨d.handle net order message, ?_, ?_, ?_⟩⟩
    · rw [upcoming, step, hsystem]
      exact h.game
    · rw [stateOps, step, hsystem]
      exact h.pending
    · rw [stateOps, step, hsystem]
      exact h.single
    · rw [stateOps, step, hsystem]
      intro hnil v hv
      obtain rfl := Option.some.inj hv
      have hold := h.agrees hnil (d.value .state) (by rw [hphase]; rfl)
      rw [System.said, hqueue] at hold
      rw [System.said]
      by_cases hitem : message.item = .state
      · simp only [List.filter_cons, hitem, decide_true, if_true, List.map_cons,
          latest_cons] at hold
        rw [← hitem, value_handle_self]
        simpa only [hitem] using hold
      · simp only [List.filter_cons, hitem, decide_false, Bool.false_eq_true, if_false] at hold
        rw [value_handle_of_ne d hitem]
        exact hold
    · rw [step, hsystem]
    · exact manager_state_handle hstate message
    · cases message with
      | state | ban | unban | addPermission | removePermission => exact inv_step hinv _

theorem invariant_step (h : w.Invariant net) {e : Event} (hok : w.Fitting e) :
    (w.step net e).Invariant net := by
  cases e with
  | call c => exact invariant_call h c
  | message message => exact invariant_message h hok
  | listener => exact invariant_listener h
  | system e =>
    cases e with
    | change op =>
      cases op with
      | setState state =>
        obtain ⟨⟨htodo, hops⟩, hstate⟩ := hok
        refine invariant_setState h hops ?_
        rw [htodo]
        exact hstate
      | banTeam | unbanTeam | addPermissionTeam | removePermissionTeam =>
        exact invariant_change h nofun
    | publish index => exact invariant_publish h index
    | advance order =>
      obtain ⟨d, hphase, -⟩ := h.running
      rw [step, System.step, System.advance, hphase]
      exact h
    | handle order => exact invariant_handle h order

/-- The daemon has been started with what Redis holds, and nothing is under way. -/
def start (net : Network) (order : SetOrder) (timer : CTFTimer) (state : String)
    (banned permissions : Finset ℕ) : World :=
  ⟨timer, [], ⟨⟨some state, banned, permissions⟩, [], [],
    .running (.init net order state banned permissions)⟩⟩

theorem invariant_start {order : SetOrder} {timer : CTFTimer} {state : String}
    {banned permissions : Finset ℕ} (h : getState (some state) = .on ↔ timer.state ≠ .stopped) :
    (start net order timer state banned permissions).Invariant net where
  game := h
  pending _ hop := nomatch hop
  single := Nat.zero_le 1
  agrees _ v hv := by
    obtain rfl := Option.some.inj hv
    rfl
  running := ⟨_, rfl, rfl, inv_init _ _ _ _⟩

end World

/-! ## The network and the game -/

section Results

variable {net : Network} {order : SetOrder} {timer : CTFTimer} {state : String}
  {banned permissions : Finset ℕ} {es : List World.Event}

/-- Nothing that is about the network state is under way. -/
def World.Settled (w : World) (d : Daemon) : Prop :=
  w.Idle ∧ w.system.phase = .running d ∧ w.system.said .state = []

theorem World.Invariant.manager_state {w : World} {d : Daemon} (h : w.Invariant net)
    (hsettled : w.Settled d) : d.manager.state = .on ↔ w.timer.state ≠ .stopped := by
  obtain ⟨⟨htodo, hops⟩, hphase, hsaid⟩ := hsettled
  obtain ⟨d', hphase', hstate, -⟩ := h.running
  obtain rfl := Phase.running.inj (hphase.symm.trans hphase')
  have hagrees := h.agrees hops (d.value .state) (by rw [hphase]; rfl)
  rw [hsaid, latest_nil] at hagrees
  have hredis : some d.state = w.system.redis.state := Value.state.inj hagrees
  have hgame := h.game
  rw [World.upcoming, htodo, List.foldl_nil, ← hredis] at hgame
  rw [hstate, ofString_eq_on_iff]
  exact hgame

theorem World.invariant_exec (hstart : getState (some state) = .on ↔ timer.state ≠ .stopped)
    (h : Along (World.step net) World.Fitting (.start net order timer state banned permissions)
      es) :
    (exec (World.step net) (.start net order timer state banned permissions) es).Invariant net :=
  Along.invariant (P := World.Fitting) (fun _ _ hinv hok => World.invariant_step hinv hok)
    (World.invariant_start hstart) h

/-- The game starts, and the network is opened. -/
def opening : List World.Event :=
  [.call (.startCtf 1000), .listener, .system (.publish 0), .system (.handle .ascending)]

theorem opening_fitting : Along (World.step sampleNetwork) World.Fitting
    (.start sampleNetwork .ascending (.new 120) "off" ∅ ∅) opening :=
  ⟨trivial, trivial, trivial, trivial, trivial⟩

/-- The firewall after the start of the game. -/
def openedDaemon : Daemon :=
  (Daemon.init sampleNetwork .ascending "off" ∅ ∅).handle sampleNetwork .ascending (.state "on")

theorem opening_settled : (exec (World.step sampleNetwork)
    (.start sampleNetwork .ascending (.new 120) "off" ∅ ∅) opening).Settled openedDaemon :=
  ⟨⟨rfl, rfl⟩, rfl, rfl⟩

/-- A ban rule applies to no packet but those through an interface of the team. -/
theorem through_of_applies {rule : Rule} {team : ℕ} {p : Packet} (hrule : rule ∈ rulesOfBan team)
    (happlies : rule.applies p = true) : Through team p := by
  obtain ⟨iface, hiface, rfl | rfl⟩ := mem_rulesOfBan.1 hrule
  · refine .inl ?_
    have : p.inIface = iface := by simpa [Rule.applies, Rule.always, banIncoming] using happlies
    rwa [this]
  · refine .inr ?_
    have : p.outIface = iface := by simpa [Rule.applies, Rule.always, banOutgoing] using happlies
    rwa [this]

/-- In an open network only the bans decide. -/
theorem passes_of_on {m : Manager} {p : Packet} (hinv : Firewall.Inv net m) (hon : m.state = .on)
    (hnot : ¬ ∃ team ∈ m.allowed, Exchanged net team p) :
    Passes m.chain p ↔ ¬ ∃ team ∈ m.banned, Through team p := by
  obtain ⟨bans, hbans, hverdict⟩ := hinv.verdict_eq hnot
  have hnone : verdict (stateChain net .on) p = none := rfl
  rw [hon, hnone, Option.none_or] at hverdict
  have hdrop : verdict bans p = some .drop ↔ ∃ team ∈ m.banned, Through team p := by
    rw [verdict, Chain.verdict_eq_some_iff fun r hr => target_of_mem_banLayer ((hbans r).1 hr)]
    constructor
    · rintro ⟨-, rule, hrule, happlies⟩
      obtain ⟨team, hteam, hban⟩ := (hbans rule).1 hrule
      exact ⟨team, hteam, through_of_applies hban happlies⟩
    · rintro ⟨team, hteam, hthrough⟩
      obtain ⟨rule, hrule, happlies⟩ := rulesOfBan_applies hthrough
      exact ⟨rfl, rule, (hbans rule).2 ⟨team, hteam, hrule⟩, happlies⟩
  rw [Passes, hverdict, ← hdrop]
  have htarget : verdict bans p = some .drop ∨ verdict bans p = none := by
    cases hv : verdict bans p with
    | none => exact .inr rfl
    | some target =>
      have hban := (Chain.verdict_eq_some_iff
        fun r hr => target_of_mem_banLayer ((hbans r).1 hr)).1 hv
      exact .inl (congrArg some hban.1)
  rcases htarget with h | h <;> simp [h]

end Results

end Gameserver.Vpn
