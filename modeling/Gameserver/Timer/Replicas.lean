import Gameserver.Lib.Latest
import Gameserver.Timer.Wire

/-!
# Timer replicas

A master timer and any number of slaves share nine keys.  A call on one of them changes its own
fields, and then goes through the channels it has to publish: it reads the field, SETs the key
and PUBLISHes on the channel.  All these steps of all calls interleave, with the deliveries to
each timer, which are in order on each channel.

* `slaveCall`, `masterCall` — what a call changes, and the channels it publishes.
* `Thread`, `Cluster`, `Cluster.step` — the calls in progress, the timers, Redis, and the messages
  under way.
* `Orderly` — the PUBLISH that ends the last call in progress on a channel says what the key
  holds; round times are not 0; `timing:state` is there before slaves give commands; and the
  master does not give itself a desired state without publishing it.
* `replicas_converge` — then all timers end up with what a new timer would read.
-/

namespace Gameserver.Timer

open Machine Listener

/-! ## Calls -/

/-- The setters and commands of `CTFTimerSlave`. -/
inductive SlaveCall where
  | startCtf
  | suspendCtfAfterTick
  | stopCtfAfterTick
  | setTickTime (tickTime : ℤ)
  | setStopAfterTick (lastTick : Option ℤ)
  | setStartAt (timestamp : Option ℤ)
  | setOpenVulnboxAccessAt (timestamp : Option ℤ)
  deriving DecidableEq, Repr

namespace CTFTimer

/-- What a call on a slave changes, and the channels it publishes. -/
def slaveCall (m : CTFTimer) : SlaveCall → CTFTimer × List Channel
  | .startCtf => ({ m with desiredState := .running }, [.desiredState])
  | .suspendCtfAfterTick => ({ m with desiredState := .suspended }, [.desiredState])
  | .stopCtfAfterTick => ({ m with desiredState := .stopped }, [.desiredState])
  | .setTickTime tickTime =>
    if m.tickTime ≠ tickTime then
      match truthy m.tickStart with
      | some tickStart =>
        ({ m with tickTime := tickTime, tickEnd := some (tickStart + tickTime) },
          [.roundEnd, .roundTime])
      | none => ({ m with tickTime := tickTime }, [.roundTime])
    else (m, [])
  | .setStopAfterTick lastTick =>
    if m.stopAfterTick ≠ lastTick then ({ m with stopAfterTick := lastTick }, [.stopAfterRound])
    else (m, [])
  | .setStartAt timestamp =>
    if m.startAt ≠ timestamp then ({ m with startAt := timestamp }, [.startAt]) else (m, [])
  | .setOpenVulnboxAccessAt timestamp =>
    if m.openVulnboxAccessAt ≠ timestamp then
      ({ m with openVulnboxAccessAt := timestamp }, [.openVulnboxAccessAt])
    else (m, [])

/-- What a call on the master changes, and the channels it publishes. -/
def masterCall (m : CTFTimer) (c : Call) : CTFTimer × List Channel :=
  ((m.call c).1, (published (m.call c).2).map Message.channel)

/-- A slave publishes what it changes. -/
theorem read_slaveCall (m : CTFTimer) (c : SlaveCall) {ch : Channel}
    (h : ch ∉ (m.slaveCall c).2) : (m.slaveCall c).1.read ch = m.read ch := by
  cases c with
  | startCtf | suspendCtfAfterTick | stopCtfAfterTick =>
      cases ch <;> first | rfl | simp [slaveCall] at h
  | setTickTime tickTime =>
    rw [slaveCall] at h ⊢
    split_ifs at h ⊢
    · split at h <;> cases ch <;> first | rfl | simp at h
    · rfl
  | setStopAfterTick | setStartAt | setOpenVulnboxAccessAt =>
    rw [slaveCall] at h ⊢
    split_ifs at h ⊢
    · cases ch <;> first | rfl | simp at h
    · rfl

theorem masterCall_channels (m : CTFTimer) (c : Call) :
    (m.masterCall c).2 = [] ∨ (m.masterCall c).2 = Channel.all := by
  rcases m.published_call c with h | h <;> rw [masterCall, h]
  · exact Or.inl rfl
  · exact Or.inr rfl

theorem startCtf_of_published_nil {m : CTFTimer} {now : ℤ}
    (h : published (m.startCtf now).2 = []) : m.state = .running := by
  rw [startCtf] at h
  split_ifs at h with hstate
  · simp [messages] at h
  · simp [messages] at h
  · exact not_not.1 hstate

theorem checkStart_of_published_nil {m : CTFTimer} {t now : ℤ}
    (h : published (m.checkStart t now).2 = []) : (m.checkStart t now).1 = m := by
  rw [checkStart] at h ⊢
  split_ifs at h ⊢ with h1 h2 h3
  · exact absurd (startCtf_of_published_nil h) h1.1
  · exact absurd (startCtf_of_published_nil h) h2.1
  · simp [messages] at h
  · rfl

theorem checkTime_of_published_nil {m : CTFTimer} {t now : ℤ}
    (h : published (m.checkTime t now).2 = []) : (m.checkTime t now).1 = m := by
  rw [checkTime] at h ⊢
  split at h
  · split_ifs at h ⊢ with hend
    · rename_i tickEnd _
      rw [endTick] at h
      by_cases hdes : m.desiredState = .running
      · simp [hdes, messages] at h
      · by_cases hsus : m.desiredState = .suspended <;> simp [hdes, hsus, messages] at h
    · exact checkStart_of_published_nil h
  · exact checkStart_of_published_nil h

/-- The master publishes what it changes, except for `start_ctf` in a running game. -/
theorem call_of_published_nil {m : CTFTimer} {c : Call} (h : published (m.call c).2 = [])
    (hstart : ∀ now, c = .startCtf now → m.state = .running → m.desiredState = .running) :
    (m.call c).1 = m := by
  cases c with
  | checkTime t now => exact checkTime_of_published_nil h
  | startCtf now =>
    have hrunning := startCtf_of_published_nil h
    have hdesired := hstart now rfl hrunning
    show (m.startCtf now).1 = m
    rw [startCtf, if_neg (not_not.2 hrunning), ← hdesired]
  | suspendCtfAfterTick => simp [call, suspendCtfAfterTick, messages] at h
  | stopCtfAfterTick => simp [call, stopCtfAfterTick, messages] at h
  | setTickTime tickTime =>
    rw [call, setTickTime] at h ⊢
    split_ifs at h ⊢
    · simp [messages] at h
    · rfl
  | setStopAfterTick lastTick =>
    rw [call, setStopAfterTick] at h ⊢
    split_ifs at h ⊢
    · simp [messages] at h
    · rfl
  | setStartAt timestamp =>
    rw [call, setStartAt] at h ⊢
    split_ifs at h ⊢
    · simp [messages] at h
    · rfl
  | setOpenVulnboxAccessAt timestamp =>
    rw [call, setOpenVulnboxAccessAt] at h ⊢
    split_ifs at h ⊢
    · simp [messages] at h
    · rfl

theorem read_handleMessage_of_ne (m : CTFTimer) {msg : Message} {ch : Channel}
    (h : msg.channel ≠ ch) : (m.handleMessage msg).read ch = m.read ch := by
  cases msg <;> cases ch <;> first | rfl | exact absurd rfl h

/-- A timer that has handled a message has what it says, unless it is a round time of 0. -/
theorem read_handleMessage_self (m : CTFTimer) {msg : Message} (h : msg ≠ .roundTime 0) :
    (m.handleMessage msg).read msg.channel = msg := by
  cases msg with
  | roundTime time =>
    have htime : time ≠ 0 := fun hzero => h (congrArg Message.roundTime hzero)
    show Message.roundTime (if time ≠ 0 then time else m.tickTime) = _
    rw [if_pos htime]
  | _ => rfl

end CTFTimer

/-! ## The cluster -/

/-- A call in progress: the channels it has still to go through, and the value it has read for
one of them, with whether the key has been SET. -/
structure Thread (ι : Type) where
  replica : ι
  todo : List Channel
  current : Option (Message × Bool)

/-- No call is in progress. -/
def Thread.Idle {ι : Type} (thread : Thread ι) : Prop := thread.todo = [] ∧ thread.current = none

instance {ι : Type} (thread : Thread ι) : Decidable thread.Idle :=
  inferInstanceAs (Decidable (_ ∧ _))

/-- The call has still to publish on the channel. -/
def Thread.Covers {ι : Type} (thread : Thread ι) (ch : Channel) : Prop :=
  ch ∈ thread.todo ∨ ∃ current ∈ thread.current, current.1.channel = ch

/-- The timers, the keys, what is under way to each timer on each channel, and the threads. -/
structure Cluster (ι : Type) where
  timers : ι → CTFTimer
  keys : RawKeys
  queues : ι → Channel → List String
  threads : ℕ → Thread ι

/-- A single step. -/
inductive Cluster.Event (ι : Type) where
  /-- a call begins on a slave -/
  | slave (thread : ℕ) (replica : ι) (c : SlaveCall)
  /-- a call begins on the master -/
  | master (thread : ℕ) (c : Call)
  /-- the value of the next channel is read -/
  | read (thread : ℕ)
  /-- `redis.set` -/
  | set (thread : ℕ)
  /-- `redis.publish` -/
  | publish (thread : ℕ)
  /-- a timer handles the oldest message of a channel -/
  | deliver (replica : ι) (ch : Channel)

variable {ι : Type}

/-- The timers have been initialised, no call is in progress and nothing is under way. -/
def Cluster.start (master : ι) (timers : ι → CTFTimer) (keys : RawKeys) : Cluster ι :=
  ⟨timers, keys, fun _ _ => [], fun _ => ⟨master, [], none⟩⟩

/-- No call is in progress and all messages are delivered. -/
def Cluster.Quiet (s : Cluster ι) : Prop :=
  (∀ k, (s.threads k).Idle) ∧ ∀ i ch, s.queues i ch = []

/-- A call is in progress that has still to publish on the channel. -/
def Cluster.Busy (s : Cluster ι) (ch : Channel) : Prop := ∃ k, (s.threads k).Covers ch

section Steps

variable [DecidableEq ι]

/-- A call begins. -/
def Cluster.begin (s : Cluster ι) (thread : ℕ) (replica : ι) (result : CTFTimer × List Channel) :
    Cluster ι :=
  { s with
    timers := Function.update s.timers replica result.1
    threads := Function.update s.threads thread ⟨replica, result.2, none⟩ }

/-- One step. -/
def Cluster.step (master : ι) (s : Cluster ι) : Cluster.Event ι → Cluster ι
  | .slave k i c =>
    if i ≠ master ∧ (s.threads k).Idle then s.begin k i ((s.timers i).slaveCall c) else s
  | .master k c =>
    if (s.threads k).Idle then s.begin k master ((s.timers master).masterCall c) else s
  | .read k =>
    match s.threads k with
    | ⟨i, ch :: todo, none⟩ =>
      { s with
        threads := Function.update s.threads k ⟨i, todo, some ((s.timers i).read ch, false)⟩ }
    | _ => s
  | .set k =>
    match s.threads k with
    | ⟨i, todo, some (msg, false)⟩ =>
      { s with
        keys := Function.update s.keys msg.channel (some msg.payload)
        threads := Function.update s.threads k ⟨i, todo, some (msg, true)⟩ }
    | _ => s
  | .publish k =>
    match s.threads k with
    | ⟨i, todo, some (msg, true)⟩ =>
      { s with
        queues := fun j ch =>
          if ch = msg.channel then s.queues j ch ++ [msg.payload] else s.queues j ch
        threads := Function.update s.threads k ⟨i, todo, none⟩ }
    | _ => s
  | .deliver i ch =>
    match s.queues i ch with
    | data :: queue =>
      { s with
        timers := Function.update s.timers i ((s.timers i).receive ch data)
        queues := Function.update s.queues i (Function.update (s.queues i) ch queue) }
    | [] => s

/-- What the steps have to respect. -/
def Orderly (master : ι) (s : Cluster ι) : Cluster.Event ι → Prop
  | .slave _ _ _ => s.keys .state ≠ none
  | .master _ c => ∀ now, c = .startCtf now →
      (s.timers master).state = .running → (s.timers master).desiredState = .running
  | .publish k => ∀ msg, (s.threads k).current = some (msg, true) → msg ≠ .roundTime 0 ∧
      (s.keys msg.channel = some msg.payload ∨ (s.step master (.publish k)).Busy msg.channel)
  | _ => True

end Steps

/-! ## The invariant -/

/-- The messages under way to a timer on a channel. -/
def Cluster.messages (s : Cluster ι) (i : ι) (ch : Channel) : List Message :=
  (s.queues i ch).filterMap (listen ch)

/-- What a timer will have once it has handled the messages under way. -/
def Cluster.expected (s : Cluster ι) (i : ι) (ch : Channel) : Message :=
  latest ((s.timers i).read ch) (s.messages i ch)

/-- What a new timer reads. -/
def stored (fresh : CTFTimer) (keys : RawKeys) (ch : Channel) : Option Message :=
  if keys .state = none then some (fresh.read ch) else fresh.fieldFromRedis ch (keys ch)

/-- Before the first SET of `timing:state` there are only calls that will do it first. -/
def Thread.Starting (thread : Thread ι) : Prop :=
  thread.Idle ∨ thread.todo = Channel.all ∧ thread.current = none ∨
    thread.todo = Channel.all.tail ∧
      ∃ msg : Message, msg.channel = .state ∧ thread.current = some (msg, false)

/-- The invariant of orderly runs. -/
structure Cluster.Invariant (fresh : CTFTimer) (s : Cluster ι) : Prop where
  /-- what is under way was published by one of the calls -/
  queued : ∀ i ch, ∀ data ∈ s.queues i ch,
    ∃ msg : Message, msg.channel = ch ∧ msg.payload = data ∧ msg ≠ .roundTime 0
  starting : s.keys .state = none → ∀ k, (s.threads k).Starting
  agrees : ∀ ch, s.Busy ch ∨ ∀ i, stored fresh s.keys ch = some (s.expected i ch)

variable {master : ι} {fresh : CTFTimer} {s : Cluster ι} {k : ℕ} {ch : Channel}

theorem Thread.Idle.not_covers {thread : Thread ι} (h : thread.Idle) : ¬ thread.Covers ch := by
  rintro (htodo | ⟨current, hcurrent, -⟩)
  · rw [h.1] at htodo
    cases htodo
  · rw [h.2] at hcurrent
    cases hcurrent

/-- A channel stays busy when a thread changes that does not cover it, or goes on to. -/
theorem busy_update {threads : ℕ → Thread ι} {thread : Thread ι}
    (hthread : (threads k).Covers ch → thread.Covers ch) (h : ∃ j, (threads j).Covers ch) :
    ∃ j, (Function.update threads k thread j).Covers ch := by
  obtain ⟨j, hj⟩ := h
  by_cases hjk : j = k
  · subst hjk
    exact ⟨j, by rw [Function.update_self]; exact hthread hj⟩
  · exact ⟨j, by rw [Function.update_of_ne hjk]; exact hj⟩

theorem busy_self {threads : ℕ → Thread ι} {thread : Thread ι} (h : thread.Covers ch) :
    ∃ j, (Function.update threads k thread j).Covers ch :=
  ⟨k, by rw [Function.update_self]; exact h⟩

theorem starting_update {threads : ℕ → Thread ι} {thread : Thread ι} (h : ∀ j, (threads j).Starting)
    (hthread : thread.Starting) (j : ℕ) : (Function.update threads k thread j).Starting := by
  by_cases hjk : j = k
  · subst hjk
    rwa [Function.update_self]
  · rw [Function.update_of_ne hjk]
    exact h j

theorem invariant_start {timers : ι → CTFTimer} {keys : RawKeys}
    (h : ∀ i, fresh.initFromRedis keys = some (timers i)) :
    (Cluster.start master timers keys).Invariant fresh where
  queued i ch data hdata := (nomatch hdata)
  starting _ _ := Or.inl ⟨rfl, rfl⟩
  agrees ch := by
    refine Or.inr fun i => ?_
    show stored fresh keys ch = some ((timers i).read ch)
    rw [stored]
    split_ifs with hstate
    · have hfresh := h i
      rw [CTFTimer.initFromRedis, hstate] at hfresh
      rw [Option.some.inj hfresh]
    · exact (fresh.initFromRedis_iff hstate).1 (h i) ch

/-- When everything is quiet, a new timer would read what each timer has. -/
theorem Cluster.Invariant.converged (h : s.Invariant fresh) (hquiet : s.Quiet) (i : ι) :
    fresh.initFromRedis s.keys = some (s.timers i) := by
  have hstored : ∀ ch, stored fresh s.keys ch = some ((s.timers i).read ch) := by
    intro ch
    rcases h.agrees ch with ⟨k, hcovers⟩ | hagrees
    · exact absurd hcovers (hquiet.1 k).not_covers
    · have hread := hagrees i
      rwa [Cluster.expected, Cluster.messages, hquiet.2] at hread
  by_cases hstate : s.keys .state = none
  · rw [CTFTimer.initFromRedis, hstate]
    refine congrArg some (CTFTimer.ext_read fun ch => ?_)
    have hch := hstored ch
    rw [stored, if_pos hstate] at hch
    exact Option.some.inj hch
  · refine (fresh.initFromRedis_iff hstate).2 fun ch => ?_
    have hch := hstored ch
    rwa [stored, if_neg hstate] at hch

variable [DecidableEq ι]

/-- A call that publishes what it changes can begin. -/
theorem Cluster.Invariant.begin (h : s.Invariant fresh) (hidle : (s.threads k).Idle) (i : ι)
    {result : CTFTimer × List Channel}
    (hread : ∀ ch, ch ∉ result.2 → result.1.read ch = (s.timers i).read ch)
    (hstarting : s.keys .state = none → result.2 = [] ∨ result.2 = Channel.all) :
    (s.begin k i result).Invariant fresh where
  queued := h.queued
  starting hnone := by
    refine starting_update (h.starting hnone) ?_
    rcases hstarting hnone with heq | heq
    · exact Or.inl ⟨heq, rfl⟩
    · exact Or.inr (Or.inl ⟨heq, rfl⟩)
  agrees ch := by
    by_cases hch : ch ∈ result.2
    · exact Or.inl (busy_self (Or.inl hch))
    · rcases h.agrees ch with hbusy | hagrees
      · exact Or.inl (busy_update (fun hcovers => absurd hcovers hidle.not_covers) hbusy)
      · refine Or.inr fun j => (hagrees j).trans (congrArg some ?_)
        show latest _ _ = latest ((Function.update s.timers i result.1 j).read ch) _
        by_cases hj : j = i
        · subst hj
          rw [Function.update_self, hread ch hch]
          rfl
        · rw [Function.update_of_ne hj]
          rfl

theorem invariant_slave (h : s.Invariant fresh) {i : ι} {c : SlaveCall}
    (hok : Orderly master s (.slave k i c)) : (s.step master (.slave k i c)).Invariant fresh := by
  rw [Cluster.step]
  split_ifs with hbegin
  · exact h.begin hbegin.2 i (fun ch hch => (s.timers i).read_slaveCall c hch)
      fun hnone => absurd hnone hok
  · exact h

theorem invariant_master (h : s.Invariant fresh) {c : Call}
    (hok : Orderly master s (.master k c)) : (s.step master (.master k c)).Invariant fresh := by
  rw [Cluster.step]
  split_ifs with hidle
  · have hchannels := (s.timers master).masterCall_channels c
    refine h.begin hidle master (fun ch hch => ?_) fun _ => hchannels
    rcases hchannels with hnil | hall
    · have hquiet : ((s.timers master).call c).1 = s.timers master :=
        CTFTimer.call_of_published_nil (List.map_eq_nil_iff.1 hnil) hok
      exact congrArg (fun m => m.read ch) hquiet
    · rw [hall] at hch
      exact absurd (by cases ch <;> decide) hch
  · exact h

theorem invariant_read (h : s.Invariant fresh) : (s.step master (.read k)).Invariant fresh := by
  rw [Cluster.step]
  split
  · rename_i i ch₀ todo hthread
    refine ⟨h.queued, fun hnone => starting_update (h.starting hnone) ?_, fun ch => ?_⟩
    · have hstart := h.starting hnone k
      rw [hthread] at hstart
      rcases hstart with hidle | ⟨hall, -⟩ | ⟨-, msg, -, hcurrent⟩
      · cases hidle.1
      · obtain ⟨rfl, rfl⟩ := List.cons.inj hall
        exact Or.inr (Or.inr ⟨rfl, _, CTFTimer.channel_read _ _, rfl⟩)
      · cases hcurrent
    · rcases h.agrees ch with hbusy | hagrees
      · refine Or.inl (busy_update (fun hcovers => ?_) hbusy)
        rw [hthread] at hcovers
        rcases hcovers with htodo | ⟨current, hcurrent, -⟩
        · rcases List.mem_cons.1 htodo with rfl | htodo
          · exact Or.inr ⟨_, rfl, CTFTimer.channel_read _ _⟩
          · exact Or.inl htodo
        · cases hcurrent
      · exact Or.inr hagrees
  · exact h

theorem invariant_set (h : s.Invariant fresh) : (s.step master (.set k)).Invariant fresh := by
  rw [Cluster.step]
  split
  · rename_i i todo msg hthread
    refine ⟨h.queued, fun hnone => ?_, fun ch => ?_⟩
    · by_cases hstate : msg.channel = .state
      · rw [← hstate] at hnone
        simp only [Function.update_self] at hnone
        cases hnone
      · simp only [Function.update_of_ne (Ne.symm hstate)] at hnone
        have hstart := h.starting hnone k
        rw [hthread] at hstart
        rcases hstart with hidle | ⟨-, hcurrent⟩ | ⟨-, msg', hmsg', hcurrent⟩
        · cases hidle.2
        · cases hcurrent
        · obtain ⟨rfl, -⟩ := Prod.mk.inj (Option.some.inj hcurrent)
          exact absurd hmsg' hstate
    · by_cases hch : msg.channel = ch
      · exact Or.inl (busy_self (Or.inr ⟨_, rfl, hch⟩))
      · by_cases hnone : s.keys .state = none
        · -- the first SET of the state: the other channels are still to come
          have hstart := h.starting hnone k
          rw [hthread] at hstart
          rcases hstart with hidle | ⟨-, hcurrent⟩ | ⟨htodo, msg', hmsg', hcurrent⟩
          · cases hidle.2
          · cases hcurrent
          · obtain ⟨rfl, -⟩ := Prod.mk.inj (Option.some.inj hcurrent)
            refine Or.inl (busy_self (Or.inl ?_))
            show ch ∈ todo
            rw [show todo = _ from htodo]
            rw [hmsg'] at hch
            cases ch <;> first | exact absurd rfl hch | decide
        · rcases h.agrees ch with hbusy | hagrees
          · refine Or.inl (busy_update (fun hcovers => ?_) hbusy)
            rw [hthread] at hcovers
            rcases hcovers with htodo | ⟨current, hcurrent, hchannel⟩
            · exact Or.inl htodo
            · obtain rfl := Option.some.inj hcurrent
              exact absurd hchannel hch
          · refine Or.inr fun j => Eq.trans ?_ (hagrees j)
            have hstate : Function.update s.keys msg.channel (some msg.payload) .state ≠ none := by
              by_cases hmsg : msg.channel = .state
              · rw [hmsg, Function.update_self]
                nofun
              · rwa [Function.update_of_ne (Ne.symm hmsg)]
            rw [stored, stored, if_neg hnone, if_neg hstate]
            show fresh.fieldFromRedis ch (Function.update s.keys msg.channel _ ch) = _
            rw [Function.update_of_ne (Ne.symm hch)]
  · exact h

theorem messages_concat (queue : List String) (msg : Message) :
    (queue ++ [msg.payload]).filterMap (listen msg.channel) =
      queue.filterMap (listen msg.channel) ++ [msg] := by
  rw [List.filterMap_append, List.filterMap_cons, listen_payload]
  rfl

theorem invariant_publish (h : s.Invariant fresh) (hok : Orderly master s (.publish k)) :
    (s.step master (.publish k)).Invariant fresh := by
  have hbusyStep := hok
  rw [Orderly] at hbusyStep
  rw [Cluster.step] at hbusyStep ⊢
  split at hbusyStep
  · rename_i i todo msg hthread
    rw [hthread] at hbusyStep
    obtain ⟨hzero, hlast⟩ := hbusyStep msg rfl
    have hstate : s.keys .state ≠ none := by
      intro hnone
      have hstart := h.starting hnone k
      rw [hthread] at hstart
      rcases hstart with hidle | ⟨-, hcurrent⟩ | ⟨-, msg', -, hcurrent⟩
      · cases hidle.2
      · cases hcurrent
      · cases hcurrent
    refine ⟨fun j ch data hdata => ?_, fun hnone => absurd hnone hstate, fun ch => ?_⟩
    · dsimp only at hdata
      split_ifs at hdata with hch
      · rcases List.mem_append.1 hdata with hold | hnew
        · exact h.queued j ch data hold
        · exact ⟨msg, hch.symm, (List.mem_singleton.1 hnew).symm, hzero⟩
      · exact h.queued j ch data hdata
    · by_cases hch : ch = msg.channel
      · subst hch
        rcases hlast with hkey | hbusy
        · refine Or.inr fun j => ?_
          rw [stored, if_neg hstate, hkey, CTFTimer.fieldFromRedis_payload, Cluster.expected,
            Cluster.messages]
          dsimp only
          rw [if_pos rfl, messages_concat, latest_concat]
        · exact Or.inl hbusy
      · rcases h.agrees ch with hbusy | hagrees
        · refine Or.inl (busy_update (fun hcovers => ?_) hbusy)
          rw [hthread] at hcovers
          rcases hcovers with htodo | ⟨current, hcurrent, hchannel⟩
          · exact Or.inl htodo
          · obtain rfl := Option.some.inj hcurrent
            exact absurd hchannel.symm hch
        · refine Or.inr fun j => (hagrees j).trans (congrArg some ?_)
          rw [Cluster.expected, Cluster.expected, Cluster.messages, Cluster.messages]
          dsimp only
          rw [if_neg hch]
  · exact h

theorem invariant_deliver (h : s.Invariant fresh) {i : ι} {ch : Channel} :
    (s.step master (.deliver i ch)).Invariant fresh := by
  rw [Cluster.step]
  cases hqueue : s.queues i ch with
  | nil => exact h
  | cons data queue =>
    obtain ⟨msg, rfl, rfl, hzero⟩ := h.queued i ch data (by rw [hqueue]; exact List.mem_cons_self)
    refine ⟨fun j ch' data' hdata' => ?_, h.starting, fun ch' => ?_⟩
    · refine h.queued j ch' data' ?_
      dsimp only at hdata'
      by_cases hj : j = i
      · subst hj
        rw [Function.update_self] at hdata'
        by_cases hch : ch' = msg.channel
        · subst hch
          rw [Function.update_self] at hdata'
          rw [hqueue]
          exact List.mem_cons_of_mem _ hdata'
        · rwa [Function.update_of_ne hch] at hdata'
      · rwa [Function.update_of_ne hj] at hdata'
    · rcases h.agrees ch' with hbusy | hagrees
      · exact Or.inl hbusy
      · refine Or.inr fun j => (hagrees j).trans (congrArg some ?_)
        rw [Cluster.expected, Cluster.expected, Cluster.messages, Cluster.messages]
        dsimp only
        by_cases hj : j = i
        · subst hj
          rw [Function.update_self, Function.update_self, CTFTimer.receive_payload]
          by_cases hch : ch' = msg.channel
          · subst hch
            rw [Function.update_self, hqueue, List.filterMap_cons, listen_payload,
              CTFTimer.read_handleMessage_self _ hzero]
            rfl
          · rw [Function.update_of_ne hch, CTFTimer.read_handleMessage_of_ne _ (Ne.symm hch)]
        · rw [Function.update_of_ne hj, Function.update_of_ne hj]

theorem invariant_step {e : Cluster.Event ι} (h : s.Invariant fresh) (hok : Orderly master s e) :
    (s.step master e).Invariant fresh := by
  cases e with
  | slave k i c => exact invariant_slave h hok
  | master k c => exact invariant_master h hok
  | read k => exact invariant_read h
  | set k => exact invariant_set h
  | publish k => exact invariant_publish h hok
  | deliver i ch => exact invariant_deliver h

/-! ## Convergence -/

/-- **The replicas converge** in every orderly run: once no call is in progress and all messages
are delivered, every timer has exactly the fields that `init_from_redis` would give a new one. -/
theorem replicas_converge (master : ι) (fresh : CTFTimer) (timers : ι → CTFTimer) (keys : RawKeys)
    (hinit : ∀ i, fresh.initFromRedis keys = some (timers i)) (es : List (Cluster.Event ι))
    (h : Along (Cluster.step master) (Orderly master) (.start master timers keys) es)
    (hquiet : (exec (Cluster.step master) (.start master timers keys) es).Quiet) :
    ∀ i, fresh.initFromRedis (exec (Cluster.step master) (.start master timers keys) es).keys =
      some ((exec (Cluster.step master) (.start master timers keys) es).timers i) :=
  (Along.invariant (fun _ _ => invariant_step) (invariant_start hinit) h).converged hquiet

/-! A running game with two slaves, all of them as the keys say. -/

/-- The timers before the calls. -/
def runningTimer : CTFTimer where
  state := .running
  desiredState := .running
  currentTick := 3
  tickStart := some 1000
  tickEnd := some 1060
  tickTime := 60
  stopAfterTick := none
  startAt := none
  openVulnboxAccessAt := none

/-- What the master has written. -/
def runningKeys : RawKeys := fun ch => some (runningTimer.read ch).payload

theorem init_runningKeys (fresh : CTFTimer) :
    fresh.initFromRedis runningKeys = some runningTimer := by
  refine (fresh.initFromRedis_iff (by nofun)).2 fun ch => ?_
  have h := fresh.fieldFromRedis_payload (runningTimer.read ch)
  rwa [CTFTimer.channel_read] at h

/-- One slave sets the last tick. -/
def oneCall : List (Cluster.Event (Fin 3)) :=
  [.slave 0 1 (.setStopAfterTick (some 5)), .read 0, .set 0, .publish 0,
    .deliver 0 .stopAfterRound, .deliver 1 .stopAfterRound, .deliver 2 .stopAfterRound]

theorem orderly_oneCall : Along (Cluster.step 0) (Orderly 0)
    (.start 0 (fun _ => runningTimer) runningKeys) oneCall := by
  refine ⟨by nofun, trivial, trivial, fun msg hmsg => ?_, trivial, trivial, trivial, trivial⟩
  obtain rfl : Message.stopAfterRound (some 5) = msg := (Prod.mk.inj (Option.some.inj hmsg)).1
  exact ⟨by nofun, Or.inl rfl⟩

theorem quiet_oneCall : (exec (Cluster.step 0)
    (.start 0 (fun _ => runningTimer) runningKeys) oneCall).Quiet := by
  refine ⟨fun k => ?_, fun i ch => ?_⟩
  · cases k <;> exact ⟨rfl, rfl⟩
  · fin_cases i <;> cases ch <;> rfl

/-- The other slave has what a new timer reads. -/
theorem replicas_converge_oneCall : (CTFTimer.new 60).initFromRedis (exec (Cluster.step 0)
    (.start 0 (fun _ => runningTimer) runningKeys) oneCall).keys =
      some ((exec (Cluster.step 0)
        (.start 0 (fun _ => runningTimer) runningKeys) oneCall).timers 2) :=
  replicas_converge 0 (CTFTimer.new 60) _ _ (fun _ => init_runningKeys _) oneCall
    orderly_oneCall quiet_oneCall 2

/-- Both slaves set the last tick at the same time; the second SET is followed by the first
PUBLISH. -/
def twoCalls : List (Cluster.Event (Fin 3)) :=
  [.slave 0 1 (.setStopAfterTick (some 5)), .slave 1 2 (.setStopAfterTick (some 7)),
    .read 0, .read 1, .set 0, .set 1, .publish 1, .publish 0,
    .deliver 0 .stopAfterRound, .deliver 1 .stopAfterRound, .deliver 2 .stopAfterRound,
    .deliver 0 .stopAfterRound, .deliver 1 .stopAfterRound, .deliver 2 .stopAfterRound]

/-- All timers have the last tick 5, and Redis has 7. -/
theorem replicas_do_not_converge :
    let s := exec (Cluster.step 0) (.start 0 (fun _ => runningTimer) runningKeys) twoCalls
    (∀ i : Fin 3, (CTFTimer.new 60).initFromRedis runningKeys =
      some ((Cluster.start 0 (fun _ => runningTimer) runningKeys).timers i)) ∧
    s.Quiet ∧ (∀ i, (s.timers i).stopAfterTick = some 5) ∧
    ∀ t, (CTFTimer.new 60).initFromRedis s.keys = some t → t.stopAfterTick = some 7 := by
  refine ⟨fun _ => init_runningKeys _, ⟨fun k => ?_, fun i ch => ?_⟩, fun i => ?_, fun t ht => ?_⟩
  · match k with
    | 0 | 1 | _ + 2 => exact ⟨rfl, rfl⟩
  · fin_cases i <;> cases ch <;> rfl
  · have hlast : ∀ t : CTFTimer,
        ((t.receive .stopAfterRound (Message.stopAfterRound (some 7)).payload).receive
          .stopAfterRound (Message.stopAfterRound (some 5)).payload).stopAfterTick = some 5 := by
      intro t
      show (CTFTimer.receive _ (Message.stopAfterRound (some 5)).channel _).stopAfterTick = _
      rw [CTFTimer.receive_payload]
      rfl
    fin_cases i <;> exact hlast _
  · have hfield := (CTFTimer.initFromRedis_iff _ (by nofun)).1 ht .stopAfterRound
    have hkey := (CTFTimer.new 60).fieldFromRedis_payload (.stopAfterRound (some 7))
    exact Message.stopAfterRound.inj (Option.some.inj (hfield.symm.trans hkey))

end Gameserver.Timer
