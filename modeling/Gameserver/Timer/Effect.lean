import Gameserver.Timer.Basic

/-!
# What one call does to the ticks

`CallEffect` lists the four things a call on the master timer can do to the
ticks: nothing, start the game, go on to the next tick, or end the last one.
`call_effect` proves the list complete, so that the invariants of the timer are
derived from it and never from the method bodies again.
-/

namespace Gameserver.Timer

/-- The listener events that are about ticks. -/
inductive TickEvent where
  | started (tick : ℤ)
  | ended (tick : ℤ)
  deriving DecidableEq, Repr

/-- The tick an event is about. -/
def TickEvent.tick : TickEvent → ℤ
  | .started tick => tick
  | .ended tick => tick

/-- The tick events among the outputs of a call. -/
def tickEvents (outputs : List Output) : List TickEvent :=
  outputs.filterMap fun
    | .startTick tick => some (.started tick)
    | .endTick tick => some (.ended tick)
    | _ => none

@[simp] theorem tickEvents_nil : tickEvents [] = [] := rfl

@[simp] theorem tickEvents_append (o₁ o₂ : List Output) :
    tickEvents (o₁ ++ o₂) = tickEvents o₁ ++ tickEvents o₂ := by
  simp [tickEvents]

@[simp] theorem tickEvents_startTick (tick : ℤ) (o : List Output) :
    tickEvents (.startTick tick :: o) = .started tick :: tickEvents o := rfl

@[simp] theorem tickEvents_endTick (tick : ℤ) (o : List Output) :
    tickEvents (.endTick tick :: o) = .ended tick :: tickEvents o := rfl

@[simp] theorem tickEvents_startCtf (o : List Output) :
    tickEvents (.startCtf :: o) = tickEvents o := rfl

@[simp] theorem tickEvents_suspendCtf (o : List Output) :
    tickEvents (.suspendCtf :: o) = tickEvents o := rfl

@[simp] theorem tickEvents_endCtf (o : List Output) :
    tickEvents (.endCtf :: o) = tickEvents o := rfl

@[simp] theorem tickEvents_openVulnboxAccess (o : List Output) :
    tickEvents (.openVulnboxAccess :: o) = tickEvents o := rfl

@[simp] theorem tickEvents_updateTimes (m : CTFTimer) (o : List Output) :
    tickEvents (.updateTimes m :: o) = tickEvents o := rfl

/-! ## The small methods -/

namespace CTFTimer

variable (m : CTFTimer)

@[simp] theorem tickEvents_updateTickTimes : tickEvents m.updateTickTimes = [] := by
  unfold updateTickTimes
  split <;> rfl

@[simp] theorem tickEvents_onUpdateTimes : tickEvents m.onUpdateTimes = [] := by
  simp [onUpdateTimes]

@[simp] theorem tickEvents_onStartCtf : tickEvents m.onStartCtf = [] := by
  simp [onStartCtf]

@[simp] theorem tickEvents_onEndCtf : tickEvents m.onEndCtf = [] := by
  simp [onEndCtf]

@[simp] theorem tickEvents_onOpenVulnboxAccess : tickEvents m.onOpenVulnboxAccess = [] := by
  simp [onOpenVulnboxAccess]

@[simp] theorem startCtf_notMem_updateTickTimes : Output.startCtf ∉ m.updateTickTimes := by
  unfold updateTickTimes
  split <;> simp

@[simp] theorem startCtf_notMem_onUpdateTimes : Output.startCtf ∉ m.onUpdateTimes := by
  simp [onUpdateTimes]

@[simp] theorem startCtf_mem_onStartCtf : Output.startCtf ∈ m.onStartCtf := by
  simp [onStartCtf]

@[simp] theorem startCtf_notMem_onEndCtf : Output.startCtf ∉ m.onEndCtf := by
  simp [onEndCtf]

@[simp] theorem startCtf_notMem_onOpenVulnboxAccess :
    Output.startCtf ∉ m.onOpenVulnboxAccess := by
  simp [onOpenVulnboxAccess]

@[simp] theorem onStartTick_outputs (tick : ℤ) : (m.onStartTick tick).2 = [.startTick tick] := rfl

@[simp] theorem onStartTick_state (tick : ℤ) : (m.onStartTick tick).1.state = m.state := by
  unfold onStartTick
  split <;> rfl

@[simp] theorem onStartTick_currentTick (tick : ℤ) :
    (m.onStartTick tick).1.currentTick = m.currentTick := by
  unfold onStartTick
  split <;> rfl

@[simp] theorem onStartTick_tickStart (tick : ℤ) :
    (m.onStartTick tick).1.tickStart = m.tickStart := by
  unfold onStartTick
  split <;> rfl

end CTFTimer

/-! ## When ticks start and end -/

namespace CTFTimer

/-- Is the current tick over at time `t`? -/
def tickOver (m : CTFTimer) (t : ℤ) : Bool :=
  match truthy m.tickEnd with
  | some tickEnd => m.state = .running ∧ tickEnd ≤ t
  | none => false

/-- Does the call end the current tick? -/
def endsTick (m : CTFTimer) : Call → Bool
  | .checkTime t _ => m.tickOver t
  | _ => false

/-- Does the call start a tick, after the current one or in a game that is not running? -/
def startsTick (m : CTFTimer) : Call → Bool
  | .checkTime t _ =>
    m.tickOver t ∧ m.desiredState = .running ∨
      m.state ≠ .running ∧ (m.desiredState = .running ∨ dueAt m.startAt t)
  | .startCtf _ => m.state ≠ .running
  | _ => false

variable (m : CTFTimer)

theorem checkTime_of_tickOver {t : ℤ} (h : m.tickOver t = true) (now : ℤ) :
    m.state = .running ∧ ∃ e, m.checkTime t now = m.endTick t e := by
  unfold tickOver at h
  unfold checkTime
  cases hend : truthy m.tickEnd with
  | none => simp [hend] at h
  | some e =>
    have hover : m.state = .running ∧ e ≤ t := by simpa [hend] using h
    exact ⟨hover.1, e, if_pos hover⟩

theorem checkTime_of_not_tickOver {t : ℤ} (h : m.tickOver t = false) (now : ℤ) :
    m.checkTime t now = m.checkStart t now := by
  unfold tickOver at h
  unfold checkTime
  cases hend : truthy m.tickEnd with
  | none => rfl
  | some e =>
    have hover : ¬ (m.state = .running ∧ e ≤ t) := by simpa [hend] using h
    exact if_neg hover

theorem tickEvents_startCtf_call (now : ℤ) : tickEvents (m.startCtf now).2 =
    if m.state ≠ .running then [.started (m.currentTick + 1)] else [] := by
  unfold startCtf
  by_cases hrun : m.state ≠ .running
  · rw [if_pos hrun, if_pos hrun]
    by_cases hst : m.state = .stopped <;> simp [hst]
  · rw [if_neg hrun, if_neg hrun]
    rfl

theorem tickEvents_endTick_call (t e : ℤ) : tickEvents (m.endTick t e).2 =
    .ended m.currentTick ::
      if m.desiredState = .running then [.started (m.currentTick + 1)] else [] := by
  unfold endTick
  by_cases hdes : m.desiredState = .running
  · simp [hdes]
  · rw [if_neg hdes, if_neg hdes]
    by_cases hsus : m.desiredState = .suspended <;> simp [hsus]

theorem tickEvents_checkStart (t now : ℤ) : tickEvents (m.checkStart t now).2 =
    if m.state ≠ .running ∧ (m.desiredState = .running ∨ dueAt m.startAt t) then
      [.started (m.currentTick + 1)] else [] := by
  unfold checkStart
  by_cases hrun : m.state = .running
  · simp [hrun]
  · by_cases hdes : m.desiredState = .running
    · simp [hrun, hdes, tickEvents_startCtf_call]
    · by_cases hdue : dueAt m.startAt t = true
      · simp [hrun, hdes, hdue, tickEvents_startCtf_call]
      · by_cases hopen : dueAt m.openVulnboxAccessAt t = true <;> simp [hrun, hdes, hdue, hopen]

theorem tickEvents_setter (c : Call) (hcheck : ∀ t now, c ≠ .checkTime t now)
    (hstart : ∀ now, c ≠ .startCtf now) : tickEvents (m.call c).2 = [] := by
  cases c with
  | checkTime t now => exact absurd rfl (hcheck t now)
  | startCtf now => exact absurd rfl (hstart now)
  | suspendCtfAfterTick => simp [call, suspendCtfAfterTick]
  | stopCtfAfterTick => simp [call, stopCtfAfterTick]
  | setTickTime tickTime =>
    simp only [call, setTickTime]
    split_ifs <;> simp
  | setStopAfterTick lastTick =>
    simp only [call, setStopAfterTick]
    split_ifs <;> simp
  | setStartAt timestamp =>
    simp only [call, setStartAt]
    split_ifs <;> simp
  | setOpenVulnboxAccessAt timestamp =>
    simp only [call, setOpenVulnboxAccessAt]
    split_ifs <;> simp

/-- **The tick events of a call**, from the state in which it is made. -/
theorem tickEvents_call (c : Call) : tickEvents (m.call c).2 =
    (if m.endsTick c then [.ended m.currentTick] else []) ++
      if m.startsTick c then [.started (m.currentTick + 1)] else [] := by
  cases c with
  | checkTime t now =>
    cases hover : m.tickOver t with
    | true =>
      obtain ⟨hrun, e, he⟩ := m.checkTime_of_tickOver hover now
      simp [call, endsTick, startsTick, hover, hrun, he, tickEvents_endTick_call]
    | false =>
      rw [call, m.checkTime_of_not_tickOver hover, tickEvents_checkStart]
      simp [endsTick, startsTick, hover]
  | startCtf now => simp [call, endsTick, startsTick, tickEvents_startCtf_call]
  | suspendCtfAfterTick | stopCtfAfterTick | setTickTime _ | setStopAfterTick _ | setStartAt _
  | setOpenVulnboxAccessAt _ => exact tickEvents_setter m _ (by simp) (by simp)

end CTFTimer

/-! ## The four effects -/

/-- No tick starts or ends. -/
structure Quiet (m m' : CTFTimer) (o : List Output) : Prop where
  state : m'.state = m.state
  tick : m'.currentTick = m.currentTick
  events : tickEvents o = []
  ctf : Output.startCtf ∉ o

/-- The game is started or resumed: a tick starts at the clock reading `now`. -/
structure Started (m : CTFTimer) (c : Call) (m' : CTFTimer) (o : List Output) (now : ℤ) : Prop where
  reads : c = .startCtf now ∨ ∃ t, c = .checkTime t now
  idle : m.state ≠ .running
  state : m'.state = .running
  tick : m'.currentTick = m.currentTick + 1
  tickStart : m'.tickStart = some now
  events : tickEvents o = [.started (m.currentTick + 1)]
  ctf : Output.startCtf ∈ o ↔ m.state = .stopped

/-- A tick ends and the next one starts at `b`. -/
structure WentOn (m : CTFTimer) (c : Call) (m' : CTFTimer) (o : List Output) (t now e b : ℤ) :
    Prop where
  reads : c = .checkTime t now
  running : m.state = .running
  tickEnd : m.tickEnd = some e
  due : e ≤ t
  state : m'.state = .running
  tick : m'.currentTick = m.currentTick + 1
  tickStart : m'.tickStart = some b
  disjoint : e ≤ b
  events : tickEvents o = [.ended m.currentTick, .started (m.currentTick + 1)]
  ctf : Output.startCtf ∉ o

/-- A tick ends, and the game is suspended or stopped. -/
structure Halted (m : CTFTimer) (c : Call) (m' : CTFTimer) (o : List Output) (t now e : ℤ) :
    Prop where
  reads : c = .checkTime t now
  running : m.state = .running
  tickEnd : m.tickEnd = some e
  due : e ≤ t
  state : m'.state ≠ .running
  tick : m'.currentTick = m.currentTick
  events : tickEvents o = [.ended m.currentTick]
  ctf : Output.startCtf ∉ o

/-- What a call `c` on the timer `m` can do, as far as ticks are concerned. -/
inductive CallEffect (m : CTFTimer) (c : Call) (m' : CTFTimer) (o : List Output) : Prop
  | quiet (h : Quiet m m' o)
  | start (now : ℤ) (h : Started m c m' o now)
  | next (t now e b : ℤ) (h : WentOn m c m' o t now e b)
  | halt (t now e : ℤ) (h : Halted m c m' o t now e)

namespace CTFTimer

variable {m : CTFTimer}

theorem startCtf_effect {c : Call} {now : ℤ}
    (reads : c = .startCtf now ∨ ∃ t, c = .checkTime t now) :
    CallEffect m c (m.startCtf now).1 (m.startCtf now).2 := by
  unfold startCtf
  by_cases hrun : m.state = .running
  · rw [if_neg (not_not.2 hrun)]
    exact .quiet ⟨rfl, rfl, rfl, by simp⟩
  · rw [if_pos hrun]
    refine .start now ⟨reads, hrun, by simp, by simp, by simp, ?_, ?_⟩
    · by_cases hst : m.state = .stopped <;> simp [hst]
    · by_cases hst : m.state = .stopped <;> simp [hst]

theorem endTick_effect {t now e : ℤ} (hrun : m.state = .running) (he : m.tickEnd = some e)
    (hdue : e ≤ t) : CallEffect m (.checkTime t now) (m.endTick t e).1 (m.endTick t e).2 := by
  unfold endTick
  by_cases hdes : m.desiredState = .running
  · rw [if_pos hdes]
    -- the next tick starts late (`t`) or on time (`e`), never before `e`
    refine .next t now e (if e + 1 < t then t else e)
      ⟨rfl, hrun, he, hdue, by simpa, by simp, by simp, ?_, by simp, by simp⟩
    split <;> omega
  · rw [if_neg hdes]
    refine .halt t now e ⟨rfl, hrun, he, hdue, hdes, rfl, ?_, ?_⟩
    · by_cases hsus : m.desiredState = .suspended <;> simp [hsus]
    · by_cases hsus : m.desiredState = .suspended <;> simp [hsus]

theorem checkStart_effect {t now : ℤ} :
    CallEffect m (.checkTime t now) (m.checkStart t now).1 (m.checkStart t now).2 := by
  unfold checkStart
  split_ifs with h₁ h₂ h₃
  · exact startCtf_effect (Or.inr ⟨t, rfl⟩)
  · -- clearing `start_at` first changes none of the fields the effect speaks of
    cases startCtf_effect (m := { m with startAt := none }) (c := .checkTime t now)
      (Or.inr ⟨t, rfl⟩) with
    | quiet h => exact .quiet ⟨h.state, h.tick, h.events, h.ctf⟩
    | start n h => exact .start n ⟨h.reads, h.idle, h.state, h.tick, h.tickStart, h.events, h.ctf⟩
    | next _ _ _ _ h => exact absurd h.running h₂.1
    | halt _ _ _ h => exact absurd h.running h₂.1
  · exact .quiet ⟨rfl, rfl, by simp, by simp⟩
  · exact .quiet ⟨rfl, rfl, rfl, by simp⟩

theorem checkTime_effect {t now : ℤ} :
    CallEffect m (.checkTime t now) (m.checkTime t now).1 (m.checkTime t now).2 := by
  unfold checkTime
  cases he : truthy m.tickEnd with
  | none => exact checkStart_effect
  | some e =>
    by_cases h : m.state = .running ∧ e ≤ t
    · simp only [if_pos h]
      exact endTick_effect h.1 (truthy_eq_some he) h.2
    · simp only [if_neg h]
      exact checkStart_effect

/-- **Every call has one of the four effects.** -/
theorem call_effect (m : CTFTimer) (c : Call) : CallEffect m c (m.call c).1 (m.call c).2 := by
  cases c with
  | checkTime t now => exact checkTime_effect
  | startCtf now => exact startCtf_effect (Or.inl rfl)
  | suspendCtfAfterTick =>
    exact .quiet ⟨rfl, rfl, by simp [call, suspendCtfAfterTick],
      by simp [call, suspendCtfAfterTick]⟩
  | stopCtfAfterTick =>
    exact .quiet ⟨rfl, rfl, by simp [call, stopCtfAfterTick], by simp [call, stopCtfAfterTick]⟩
  | setTickTime tickTime =>
    simp only [call, setTickTime]
    split_ifs
    · cases truthy m.tickStart <;> exact .quiet ⟨rfl, rfl, by simp, by simp⟩
    · exact .quiet ⟨rfl, rfl, rfl, by simp⟩
  | setStopAfterTick lastTick =>
    simp only [call, setStopAfterTick]
    split_ifs
    · exact .quiet ⟨rfl, rfl, by simp, by simp⟩
    · exact .quiet ⟨rfl, rfl, rfl, by simp⟩
  | setStartAt timestamp =>
    simp only [call, setStartAt]
    split_ifs
    · exact .quiet ⟨rfl, rfl, by simp, by simp⟩
    · exact .quiet ⟨rfl, rfl, rfl, by simp⟩
  | setOpenVulnboxAccessAt timestamp =>
    simp only [call, setOpenVulnboxAccessAt]
    split_ifs
    · exact .quiet ⟨rfl, rfl, by simp, by simp⟩
    · exact .quiet ⟨rfl, rfl, rfl, by simp⟩

end CTFTimer

end Gameserver.Timer
