import Gameserver.Firewall.Daemon
import Gameserver.Lib.Machine
import Gameserver.Timer.Effect
import Mathlib.Algebra.Order.Ring.Rat
import Mathlib.Data.Rat.Cast.Order
import Mathlib.Tactic.Linarith
import Mathlib.Tactic.Ring

/-!
# The close time that the router is told

`controlserver/endpoints/ctfroute.py` announces when the network will close: it
extrapolates the end of a future tick from the current one.

* `getEndOfTick`, `closeAt`, `addVpnGates` — the announcement.
* `Punctual` — a run of checks on a running game, none of them more than a second late.
* `checkTime_cases` — what one punctual check does.
* `onLine_runChecks` — the extrapolation does not drift.
* `announced_of_limitAhead` — the announced times are what happens, where ticks are longer
  than a second and the limit is not the tick that already runs.
* `opening_announced` — so is the announced opening of the vulnboxes.
-/

namespace Gameserver.Vpn

open Firewall (VpnStatus)
open Machine Timer Timer.CTFTimer

/-! ## The announcement -/

/-- `_is_close_to_now`: `now` is `time.time()`. -/
def isCloseToNow (now : ℚ) (ts : ℤ) : Bool := |now - ts| < 5

/-- `_is_in_future`. -/
def isInFuture (now : ℚ) (ts : ℤ) : Bool := now - 5 < ts

/-- `_get_game_start_time`, in seconds since the epoch. -/
def getGameStartTime (m : CTFTimer) (now : ℚ) : Option ℤ :=
  (truthy m.startAt).filter fun startAt =>
    isInFuture now startAt && (m.state ≠ .running || isCloseToNow now startAt)

/-- `_get_end_of_tick`, in seconds since the epoch. -/
def getEndOfTick (m : CTFTimer) (now : ℚ) (tick : Option ℤ) : Option ℤ :=
  match truthy tick with
  | none => none
  | some tick =>
    if m.currentTick ≤ tick then
      match m.state, truthy m.tickEnd with
      | .running, some tickEnd => some (tickEnd + (tick - m.currentTick) * m.tickTime)
      | .running, none => none
      | _, _ =>
        (getGameStartTime m now).map fun openAt => openAt + (tick - m.currentTick) * m.tickTime
    else none

/-- The close time of `add_vpn_gates`. -/
def closeAt (m : CTFTimer) (now : ℚ) : Option ℤ :=
  if m.desiredState = .stopped ∧ m.state = .running ∧ (truthy m.tickEnd).isSome then m.tickEnd
  else if (truthy m.stopAfterTick).isSome then getEndOfTick m now m.stopAfterTick
  else none

/-- `ConnGate`. -/
structure ConnGate where
  id : String
  connSrc : Option String
  connDst : Option String
  expression : Option String
  fromTime : Option ℤ
  toTime : Option ℤ
deriving DecidableEq

/-- The time at which vulnboxes become reachable: the game start opens them as well. -/
def openVulnboxAt (m : CTFTimer) (now : ℚ) : Option ℤ :=
  let openAt := getGameStartTime m now
  match (truthy m.openVulnboxAccessAt).filter (isInFuture now) with
  | none => openAt
  | some vulnboxAt =>
    match openAt with
    | some gameAt => if gameAt < vulnboxAt then some gameAt else some vulnboxAt
    | none => some vulnboxAt

/-- The gate of a planned close. -/
def closeGate (close : ℤ) : ConnGate :=
  ⟨"vpn-state-teams-only-after-game", some "any-team", some "other-team",
    some "ip daddr != @g-gameservers", some close, none⟩

/-- The gate in front of the vulnboxes. -/
def vulnboxGate (openVulnboxAt : Option ℤ) : ConnGate :=
  ⟨"vpn-state-teams-only-no-vulnbox", some "any-team", some "any-vulnbox", none, none,
    openVulnboxAt⟩

/-- `add_vpn_gates`: the gates of the network state. -/
def addVpnGates (m : CTFTimer) (now : ℚ) (vpnState : VpnStatus) : List ConnGate :=
  let openAt := getGameStartTime m now
  match vpnState with
  | .off => [⟨"vpn-state-off", none, none, some "meta l4proto != icmp", none, openAt⟩]
  | .teamsOnly => [teamsOnly openAt]
  | .teamsOnlyNoVulnbox =>
    [teamsOnly openAt, vulnboxGate (openVulnboxAt m now)]
  | .on =>
    match closeAt m now with
    | some close => [closeGate close]
    | none => []
where
  teamsOnly (openAt : Option ℤ) : ConnGate :=
    ⟨"vpn-state-teams-only", some "any-team", some "other-team",
      some "ip daddr != @g-gameservers", none, openAt⟩

/-! ## Runs of a running game -/

/-- A check of the timer: the two readings of the clock. -/
abbrev Check : Type := ℤ × ℤ

/-- The timer after a check. -/
def checkStep (m : CTFTimer) (c : Check) : CTFTimer := (m.checkTime c.1 c.2).1

/-- The timer after a list of checks. -/
abbrev runChecks (m : CTFTimer) (checks : List Check) : CTFTimer := exec checkStep m checks

/-- The check finds the game running and comes at most one second after the tick's end. -/
def OnTime (m : CTFTimer) (c : Check) : Prop :=
  m.state = .running ∧ ∀ e, truthy m.tickEnd = some e → c.1 ≤ e + 1

abbrev Punctual (m : CTFTimer) (checks : List Check) : Prop := Along checkStep OnTime m checks

/-- A running game: it has a tick, with an end. -/
structure Ticking (m : CTFTimer) : Prop where
  running : m.state = .running
  tick_pos : 0 < m.currentTick
  tickTime_nonneg : 0 ≤ m.tickTime
  tickEnd_pos : ∃ e, m.tickEnd = some e ∧ 0 < e

section Runs

variable {m : CTFTimer} {t e : ℤ}

theorem truthy_of_ne {v : ℤ} (h : v ≠ 0) : truthy (some v) = some v := by
  simp [truthy, h]

/-- A game that is started, on a clock after the epoch, is ticking. -/
theorem ticking_startCtf {now : ℤ} (hidle : m.state ≠ .running) (htick : 0 ≤ m.currentTick)
    (htime : 0 ≤ m.tickTime) (hnow : 0 < now) : Ticking (m.startCtf now).1 := by
  rw [startCtf, if_pos hidle]
  constructor
  · simp
  · simp
    omega
  · simp [onStartTick]
    split_ifs <;> exact htime
  · refine ⟨now + m.tickTime, ?_, by omega⟩
    simp [onStartTick]
    split_ifs <;> rfl

/-- A check of a game that is not running. -/
theorem checkTime_of_idle (hidle : m.state ≠ .running) (t now : ℤ) :
    m.checkTime t now = m.checkStart t now := by
  rw [checkTime]
  cases truthy m.tickEnd with
  | none => rfl
  | some tickEnd => exact if_neg fun hover => hidle hover.1

/-- The timer after the end of a tick that goes on to the next. -/
structure NextTick (m m' : CTFTimer) (e : ℤ) : Prop where
  state : m'.state = .running
  currentTick : m'.currentTick = m.currentTick + 1
  tickEnd : m'.tickEnd = some (e + m.tickTime)
  tickTime : m'.tickTime = m.tickTime
  limit : (truthy m.stopAfterTick = some (m.currentTick + 1) ∧ m'.desiredState = .stopped ∧
      m'.stopAfterTick = none) ∨
    (truthy m.stopAfterTick ≠ some (m.currentTick + 1) ∧ m'.desiredState = .running ∧
      m'.stopAfterTick = m.stopAfterTick)

/-- What a punctual check of a running game does: nothing before the end of the tick; then
the next tick, without a gap, or the end of the game. -/
theorem checkTime_cases (now : ℤ) (hrun : m.state = .running) (he : m.tickEnd = some e)
    (hpos : 0 < e)
    (hlate : t ≤ e + 1) :
    (t < e ∧ (m.checkTime t now).1 = m) ∨
      (e ≤ t ∧ m.desiredState = .running ∧ NextTick m (m.checkTime t now).1 e) ∨
      (e ≤ t ∧ m.desiredState ≠ .running ∧
        (m.checkTime t now).1 = { m with state := m.desiredState }) := by
  have htruthy : truthy m.tickEnd = some e := by rw [he, truthy_of_ne (by omega)]
  rw [checkTime, htruthy]
  dsimp only
  by_cases hover : e ≤ t
  · rw [if_pos ⟨hrun, hover⟩, endTick]
    by_cases hdesired : m.desiredState = .running
    · refine .inr (.inl ⟨hover, hdesired, ?_⟩)
      rw [if_pos hdesired, if_neg (by omega)]
      constructor
      · simpa using hrun
      · simp
      · simp [onStartTick]
        split_ifs <;> rfl
      · simp [onStartTick]
        split_ifs <;> rfl
      · simp [onStartTick]
        split_ifs with hlimit
        · exact .inl ⟨hlimit, rfl, rfl⟩
        · exact .inr ⟨hlimit, hdesired, rfl⟩
    · refine .inr (.inr ⟨hover, hdesired, ?_⟩)
      rw [if_neg hdesired]
  · refine .inl ⟨not_le.1 hover, ?_⟩
    rw [if_neg (fun h => hover h.2), checkStart]
    simp [hrun]

theorem running_of_run {checks : List Check} (h : Punctual m checks)
    (hrun : (runChecks m checks).state = .running) : m.state = .running := by
  cases checks with
  | nil => exact hrun
  | cons c checks => exact h.1.1

/-- The end of tick `n` on the line through the current tick. -/
def lineEnd (m : CTFTimer) (n : ℤ) : ℤ :=
  m.tickEnd.getD 0 + (n - m.currentTick) * m.tickTime

theorem lineEnd_currentTick (he : m.tickEnd = some e) : lineEnd m m.currentTick = e := by
  simp [lineEnd, he]

/-- Where ticks take more than a second, later ticks end more than a second later. -/
theorem lineEnd_gt (htime : 1 < m.tickTime) (he : m.tickEnd = some e) {n : ℤ}
    (hn : m.currentTick < n) : e + 1 < lineEnd m n := by
  have hmul : 1 * m.tickTime ≤ (n - m.currentTick) * m.tickTime :=
    mul_le_mul_of_nonneg_right (by omega) (by omega)
  rw [lineEnd, he, Option.getD_some]
  linarith

theorem getEndOfTick_eq (h : Ticking m) (now : ℚ) {n : ℤ} (hn : m.currentTick ≤ n) :
    getEndOfTick m now (some n) = some (lineEnd m n) := by
  obtain ⟨e, he, hpos⟩ := h.tickEnd_pos
  have hn0 : n ≠ 0 := by linarith [h.tick_pos]
  rw [getEndOfTick, truthy_of_ne hn0, he, truthy_of_ne hpos.ne', h.running]
  simp [hn, lineEnd, he]

/-- The next tick lies on the same line. -/
theorem NextTick.lineEnd {m' : CTFTimer} (h : NextTick m m' e) (he : m.tickEnd = some e) (n : ℤ) :
    lineEnd m' n = lineEnd m n := by
  rw [Vpn.lineEnd, Vpn.lineEnd, h.tickEnd, h.currentTick, h.tickTime, he, Option.getD_some,
    Option.getD_some]
  ring

theorem NextTick.ticking {m' : CTFTimer} (h : NextTick m m' e) (hm : Ticking m) (hpos : 0 < e) :
    Ticking m' where
  running := h.state
  tick_pos := by
    rw [h.currentTick]
    linarith [hm.tick_pos]
  tickTime_nonneg := by
    rw [h.tickTime]
    exact hm.tickTime_nonneg
  tickEnd_pos := ⟨_, h.tickEnd, by linarith [hm.tickTime_nonneg]⟩

/-- What a running game keeps of the game it has come from. -/
structure OnLine (m m' : CTFTimer) : Prop where
  ticking : Ticking m'
  tickTime : m'.tickTime = m.tickTime
  lineEnd : ∀ n, lineEnd m' n = lineEnd m n

/-- One punctual check keeps a game that goes on running on the line. -/
theorem OnLine.checkStep {m' : CTFTimer} (h : OnLine m m') {c : Check} (hc : OnTime m' c)
    (hrun : (checkStep m' c).state = .running) : OnLine m (checkStep m' c) := by
  rw [Vpn.checkStep] at hrun ⊢
  obtain ⟨e, he, hpos⟩ := h.ticking.tickEnd_pos
  have hlate := hc.2 e (by rw [he, truthy_of_ne hpos.ne'])
  rcases checkTime_cases c.2 h.ticking.running he hpos hlate with ⟨-, hsame⟩ | ⟨-, -, hnext⟩ |
    ⟨-, hdesired, hhalt⟩
  · rw [hsame]
    exact h
  · exact ⟨hnext.ticking h.ticking hpos, hnext.tickTime.trans h.tickTime,
      fun n => (hnext.lineEnd he n).trans (h.lineEnd n)⟩
  · rw [hhalt] at hrun
    exact absurd hrun hdesired

/-- **The extrapolation does not drift**: while the game runs, a punctual run keeps every tick
on the line through the first one. -/
theorem onLine_runChecks {checks : List Check} (h : Ticking m) (hp : Punctual m checks) :
    (runChecks m checks).state = .running → OnLine m (runChecks m checks) := by
  refine Along.invariant (fun m' c (hm : m'.state = .running → OnLine m m') hc hrun => ?_) ?_ hp
  · exact (hm hc.1).checkStep hc hrun
  · intro _
    exact ⟨h, rfl, fun _ => rfl⟩

/-! ## The close time -/

/-- The game is going to end at `close`: after the current tick, or after a limit ahead. -/
def Closing (m : CTFTimer) (close : ℤ) : Prop :=
  (m.desiredState = .stopped ∧ close = lineEnd m m.currentTick) ∨
    (m.desiredState ≠ .stopped ∧
      ∃ n, m.stopAfterTick = some n ∧ m.currentTick < n ∧ close = lineEnd m n)

theorem closeAt_of_closing (h : Ticking m) {close : ℤ} (hclosing : Closing m close) (now : ℚ) :
    closeAt m now = some close := by
  obtain ⟨e, he, hpos⟩ := h.tickEnd_pos
  have htruthy : truthy m.tickEnd = some e := by rw [he, truthy_of_ne hpos.ne']
  rcases hclosing with ⟨hdesired, rfl⟩ | ⟨hdesired, n, hlimit, hn, rfl⟩
  · rw [closeAt, if_pos ⟨hdesired, h.running, by rw [htruthy]; rfl⟩, he, lineEnd_currentTick he]
  · have hn0 : n ≠ 0 := by linarith [h.tick_pos]
    rw [closeAt, if_neg (fun hc => hdesired hc.1), hlimit, truthy_of_ne hn0, Option.isSome_some,
      if_pos rfl, getEndOfTick_eq h now hn.le]

/-- The gate of an open network. -/
theorem addVpnGates_of_closing (h : Ticking m) {close : ℤ} (hclosing : Closing m close) (now : ℚ) :
    addVpnGates m now .on = [closeGate close] := by
  simp only [addVpnGates, closeAt_of_closing h hclosing now]

/-- The close time can be read off the gate. -/
theorem addVpnGates_on_eq_iff {now : ℚ} {close : ℤ} :
    addVpnGates m now .on = [closeGate close] ↔ closeAt m now = some close := by
  cases hclose : closeAt m now with
  | none => simp [addVpnGates, hclose]
  | some close' => simp [addVpnGates, hclose, closeGate]

/-- One punctual check: the game goes on and closes at the same time, or it stops because that
time has come, or it is suspended before. -/
theorem Closing.checkTime {close : ℤ} (hclosing : Closing m close) (now : ℤ) (h : Ticking m)
    (htime : 1 < m.tickTime)
    (hlate : ∀ e, truthy m.tickEnd = some e → t ≤ e + 1) :
    ((m.checkTime t now).1.state = .running ∧ Closing (m.checkTime t now).1 close ∧ t < close) ∨
      ((m.checkTime t now).1.state = .stopped ∧ close ≤ t) ∨
      ((m.checkTime t now).1.state = .suspended ∧ t < close) := by
  obtain ⟨e, he, hpos⟩ := h.tickEnd_pos
  have hlate' := hlate e (by rw [he, truthy_of_ne hpos.ne'])
  have hclose : e ≤ close := by
    rcases hclosing with ⟨-, rfl⟩ | ⟨-, n, -, hn, rfl⟩
    · exact (lineEnd_currentTick he).ge
    · linarith [lineEnd_gt htime he hn]
  rcases checkTime_cases now h.running he hpos hlate' with ⟨hbefore, hsame⟩ |
    ⟨hover, hdesired, hnext⟩ | ⟨hover, hdesired, hhalt⟩
  · rw [hsame]
    exact .inl ⟨h.running, hclosing, by omega⟩
  · rcases hclosing with ⟨hstopped, -⟩ | ⟨-, n, hlimit, hn, rfl⟩
    · rw [hdesired] at hstopped
      cases hstopped
    have hgt := lineEnd_gt htime he hn
    refine .inl ⟨hnext.state, ?_, by omega⟩
    have hn0 : n ≠ 0 := by linarith [h.tick_pos]
    rcases hnext.limit with ⟨hlast, hstop, -⟩ | ⟨hlast, hgoes, hkept⟩
    · rw [hlimit, truthy_of_ne hn0, Option.some_inj] at hlast
      refine .inl ⟨hstop, ?_⟩
      rw [hnext.lineEnd he, hnext.currentTick, hlast]
    · rw [hlimit, truthy_of_ne hn0, ne_eq, Option.some_inj] at hlast
      refine .inr ⟨by rw [hgoes]; decide, n, hkept.trans hlimit, ?_, (hnext.lineEnd he n).symm⟩
      rw [hnext.currentTick]
      omega
  · rw [hhalt]
    rcases hclosing with ⟨hstopped, rfl⟩ | ⟨hstopped, n, hlimit, hn, rfl⟩
    · refine .inr (.inl ⟨hstopped, ?_⟩)
      rw [lineEnd_currentTick he]
      exact hover
    · have hgt := lineEnd_gt htime he hn
      refine .inr (.inr ⟨?_, by omega⟩)
      cases hstate : m.desiredState with
      | stopped => exact absurd hstate hstopped
      | suspended => rfl
      | running => exact absurd hstate hdesired

/-- While the game runs, it is going to close at the time announced first. -/
theorem closing_runChecks {close : ℤ} {checks : List Check} (h : Ticking m)
    (htime : 1 < m.tickTime) (hclosing : Closing m close) (hp : Punctual m checks) :
    (runChecks m checks).state = .running →
      OnLine m (runChecks m checks) ∧ Closing (runChecks m checks) close := by
  refine Along.invariant (fun m' c
    (hm : m'.state = .running → OnLine m m' ∧ Closing m' close) hc hrun => ?_) ?_ hp
  · obtain ⟨hline, hclose⟩ := hm hc.1
    refine ⟨hline.checkStep hc hrun, ?_⟩
    rw [checkStep] at hrun ⊢
    rcases hclose.checkTime c.2 hline.ticking (hline.tickTime.symm ▸ htime) hc.2 with
      ⟨-, hnext, -⟩ | ⟨hstop, -⟩ | ⟨hsusp, -⟩
    · exact hnext
    · rw [hstop] at hrun
      cases hrun
    · rw [hsusp] at hrun
      cases hrun
  · intro _
    exact ⟨⟨h, rfl, fun _ => rfl⟩, hclosing⟩

/-! ## What is announced happens -/

/-- The end of every tick is announced while the tick is ahead. -/
def EndsAnnounced (m : CTFTimer) (checks : List Check) : Prop :=
  ∀ (before after : List Check), checks = before ++ after →
    (runChecks m checks).state = .running → ∀ (n : ℤ) (now : ℚ),
      (runChecks m before).currentTick ≤ n → (runChecks m checks).currentTick = n →
        getEndOfTick (runChecks m before) now (some n) = (runChecks m checks).tickEnd

/-- With a limit there is one close time, announced by the gate of the open network all the time
the game runs; at the first check at or after it the game stops, and not before. -/
structure CloseAnnounced (m : CTFTimer) (checks : List Check) : Prop where
  close_const : ∀ n : ℤ, m.stopAfterTick = some n →
    ∃ close : ℤ, ∀ (before after : List Check), checks = before ++ after →
      (runChecks m before).state = .running →
        ∀ now : ℚ, addVpnGates (runChecks m before) now .on = [closeGate close]
  stops : ∀ n : ℤ, m.stopAfterTick = some n →
    ∀ (before after : List Check) (c : Check), checks = before ++ c :: after →
      ∀ (close : ℤ) (now : ℚ), addVpnGates m now .on = [closeGate close] →
        ((runChecks m (before ++ [c])).state = .stopped ↔ close ≤ c.1)

/-- A limit is ahead of the current tick, or the game has been told to stop. -/
def LimitAhead (m : CTFTimer) : Prop :=
  ∀ n, m.stopAfterTick = some n → m.currentTick < n ∨ m.desiredState = .stopped

theorem LimitAhead.closing (h : LimitAhead m) {n : ℤ} (hn : m.stopAfterTick = some n) :
    ∃ close, Closing m close := by
  by_cases hdesired : m.desiredState = .stopped
  · exact ⟨_, .inl ⟨hdesired, rfl⟩⟩
  · exact ⟨_, .inr ⟨hdesired, n, hn, (h n hn).resolve_right hdesired, rfl⟩⟩

/-- **The announced times are what happens** in every punctual run of a running game: the ends
of all ticks, and the close time where the limit is ahead and ticks take more than a second. -/
theorem announced_of_limitAhead {checks : List Check} (h : Ticking m) (hp : Punctual m checks) :
    EndsAnnounced m checks ∧ (1 < m.tickTime → LimitAhead m → CloseAnnounced m checks) := by
  refine ⟨?_, fun htime hlimit => ⟨?_, ?_⟩⟩
  · rintro before after rfl hrun n now hn hcurrent
    obtain ⟨hfront, hback⟩ := along_append.1 hp
    have happend : runChecks m (before ++ after) = runChecks (runChecks m before) after :=
      exec_append checkStep m before after
    rw [happend] at hrun hcurrent ⊢
    have hbefore := onLine_runChecks h hfront (running_of_run hback hrun)
    have hafter := onLine_runChecks hbefore.ticking hback hrun
    obtain ⟨e, he, -⟩ := hafter.ticking.tickEnd_pos
    rw [getEndOfTick_eq hbefore.ticking now hn, ← hafter.lineEnd n, ← hcurrent,
      lineEnd_currentTick he, he]
  · intro n hn
    obtain ⟨close, hclosing⟩ := hlimit.closing hn
    refine ⟨close, ?_⟩
    rintro before after rfl hrun now
    obtain ⟨hline, hstill⟩ := closing_runChecks h htime hclosing (along_append.1 hp).1 hrun
    exact addVpnGates_of_closing hline.ticking hstill now
  · rintro n hn before after c rfl close now hclose
    obtain ⟨close', hclosing⟩ := hlimit.closing hn
    obtain rfl : close' = close := by
      rw [addVpnGates_on_eq_iff, closeAt_of_closing h hclosing now, Option.some_inj] at hclose
      exact hclose
    obtain ⟨hfront, hback⟩ := along_append.1 hp
    obtain ⟨hline, hstill⟩ := closing_runChecks h htime hclosing hfront hback.1.1
    rw [runChecks, exec_append, exec_cons, exec_nil, checkStep]
    rcases hstill.checkTime c.2 hline.ticking (hline.tickTime.symm ▸ htime) hback.1.2 with
      ⟨hstate, -, ht⟩ | ⟨hstate, ht⟩ | ⟨hstate, ht⟩
    · rw [hstate]
      exact iff_of_false (by decide) (not_le.2 ht)
    · exact iff_of_true hstate ht
    · rw [hstate]
      exact iff_of_false (by decide) (not_le.2 ht)

/-- A game in tick 5 of 60 s with the limit 6. -/
def limitedTimer : CTFTimer where
  state := .running
  desiredState := .running
  currentTick := 5
  tickStart := some 1000
  tickEnd := some 1060
  tickTime := 60
  stopAfterTick := some 6
  startAt := none
  openVulnboxAccessAt := none

/-- Its last tick is started a second late and ends on time. -/
theorem announced_limitedTimer :
    EndsAnnounced limitedTimer [(1059, 1059), (1061, 1061), (1120, 1120)] ∧
      CloseAnnounced limitedTimer [(1059, 1059), (1061, 1061), (1120, 1120)] := by
  have hticking : Ticking limitedTimer :=
    { running := rfl, tick_pos := by decide, tickTime_nonneg := by decide,
      tickEnd_pos := ⟨1060, rfl, by decide⟩ }
  have hp : Punctual limitedTimer [(1059, 1059), (1061, 1061), (1120, 1120)] :=
    ⟨⟨rfl, by decide⟩, ⟨rfl, by decide⟩, ⟨rfl, by decide⟩, trivial⟩
  have hlimit : LimitAhead limitedTimer := by
    intro n hn
    have h6 : (6 : ℤ) = n := Option.some_inj.1 hn
    exact .inl (by simp [← h6, limitedTimer])
  obtain ⟨hends, hclose⟩ := announced_of_limitAhead hticking hp
  exact ⟨hends, hclose (by decide) hlimit⟩

/-- A limit that arrives when its tick already runs stops nothing; and a tick of one second is
over when the check that starts it comes a second late. -/
theorem not_closeAnnounced :
    let late := ({ limitedTimer with currentTick := 6, stopAfterTick := none } :
      CTFTimer).handleMessage (.stopAfterRound (some 6))
    let short := { limitedTimer with tickEnd := some 1001, tickTime := 1 }
    (Punctual late [(1060, 1060)] ∧ ¬ CloseAnnounced late [(1060, 1060)]) ∧
      Punctual short [(1002, 1002)] ∧ ¬ CloseAnnounced short [(1002, 1002)] := by
  refine ⟨⟨⟨⟨rfl, by decide⟩, trivial⟩, fun h => ?_⟩, ⟨⟨rfl, by decide⟩, trivial⟩, fun h => ?_⟩
  · have hstops := h.stops 6 rfl [] [] (1060, 1060) rfl 1060 0 (by decide +kernel)
    exact absurd (hstops.2 (by decide)) (by decide)
  · have hstops := h.stops 6 rfl [] [] (1002, 1002) rfl 1002 0 (by decide +kernel)
    exact absurd (hstops.2 (by decide)) (by decide)

/-! ## The opening of the vulnboxes -/

/-- What `VPNCTFEvents` hears opens the vulnboxes. -/
def Opens (outputs : List Output) : Prop := .startCtf ∈ outputs ∨ .openVulnboxAccess ∈ outputs

/-- The times at which the vulnboxes of a stopped game are opened. -/
theorem openVulnboxAt_eq_some (hstate : m.state = .stopped) {now : ℚ} {v : ℤ}
    (h : openVulnboxAt m now = some v) :
    (truthy m.startAt = some v ∨ truthy m.openVulnboxAccessAt = some v) ∧
      (∀ w, truthy m.startAt = some w → (w : ℚ) ≤ now - 5 ∨ v ≤ w) ∧
      ∀ w, truthy m.openVulnboxAccessAt = some w → (w : ℚ) ≤ now - 5 ∨ v ≤ w := by
  have hgame : getGameStartTime m now = (truthy m.startAt).filter (isInFuture now) := by
    simp [getGameStartTime, hstate]
  have hpast : ∀ {x : Option ℤ} {w : ℤ}, x.filter (isInFuture now) = none → x = some w →
      (w : ℚ) ≤ now - 5 := by
    rintro x w hnone rfl
    simpa [isInFuture, Option.filter_eq_none_iff] using hnone
  have hsome : ∀ {x : Option ℤ} {u w : ℤ}, x.filter (isInFuture now) = some u → x = some w →
      u = w := by
    rintro x u w hu rfl
    exact (Option.some.inj (Option.filter_eq_some_iff.1 hu).1).symm
  simp only [openVulnboxAt, hgame] at h
  cases hvulnbox : (truthy m.openVulnboxAccessAt).filter (isInFuture now) with
  | none =>
    rw [hvulnbox] at h
    exact ⟨.inl (Option.filter_eq_some_iff.1 h).1, fun w hw => .inr (hsome h hw).le,
      fun w hw => .inl (hpast hvulnbox hw)⟩
  | some vulnboxAt =>
    have hopen := (Option.filter_eq_some_iff.1 hvulnbox).1
    rw [hvulnbox] at h
    cases hstart : (truthy m.startAt).filter (isInFuture now) with
    | none =>
      rw [hstart] at h
      obtain rfl := Option.some.inj h
      exact ⟨.inr hopen, fun w hw => .inl (hpast hstart hw), fun w hw =>
        .inr (hsome hvulnbox hw).le⟩
    | some gameAt =>
      have hgameAt := (Option.filter_eq_some_iff.1 hstart).1
      rw [hstart] at h
      simp only [] at h
      split_ifs at h with hlt <;> obtain rfl := Option.some.inj h
      · exact ⟨.inl hgameAt, fun w hw => .inr (hsome hstart hw).le,
          fun w hw => .inr (hsome hvulnbox hw ▸ hlt.le)⟩
      · exact ⟨.inr hopen, fun w hw => .inr (hsome hstart hw ▸ not_lt.1 hlt),
          fun w hw => .inr (hsome hvulnbox hw).le⟩

theorem dueAt_eq_false {x : Option ℤ} {now : ℚ} {v : ℤ} (ht : now < t + 1) (hv : t < v)
    (h : ∀ w, truthy x = some w → (w : ℚ) ≤ now - 5 ∨ v ≤ w) : dueAt x t = false := by
  rw [dueAt]
  cases hx : truthy x with
  | none => rfl
  | some w =>
    rcases h w hx with hpast | hahead
    · have hlt : (w : ℚ) + 4 < t := by linarith
      have hlt' : w + 4 < t := by exact_mod_cast hlt
      simp
      omega
    · simp
      omega

/-- **The vulnboxes open when the router is told.**  While the gate in front of them announces an
end, the checks before it do nothing to a stopped game, and the first check after it opens them. -/
theorem opening_announced (hstate : m.state = .stopped) (hdesired : m.desiredState ≠ .running)
    {now : ℚ} {v : ℤ} (hgate : vulnboxGate (some v) ∈ addVpnGates m now .teamsOnlyNoVulnbox)
    {before : List Check} {c : Check} (hlater : ∀ c' ∈ c :: before, now < c'.1 + 1)
    (hbefore : ∀ c' ∈ before, c'.1 < v) (hc : v ≤ c.1) (hgap : c.1 ≤ v + 4) :
    runChecks m before = m ∧ (∀ c' ∈ before, (m.checkTime c'.1 c'.2).2 = []) ∧
      Opens (m.checkTime c.1 c.2).2 := by
  have hopen : openVulnboxAt m now = some v := by
    simpa [addVpnGates, addVpnGates.teamsOnly, vulnboxGate, eq_comm] using hgate
  obtain ⟨htime, hstart, hvulnbox⟩ := openVulnboxAt_eq_some hstate hopen
  have hidle : m.state ≠ .running := by simp [hstate]
  have hchecks : ∀ c' ∈ before, m.checkTime c'.1 c'.2 = (m, []) := by
    intro c' hc'
    have hlater' := hlater c' (List.mem_cons_of_mem c hc')
    rw [checkTime_of_idle hidle, checkStart, if_neg fun h => hdesired h.2,
      dueAt_eq_false hlater' (hbefore c' hc') hstart,
      dueAt_eq_false hlater' (hbefore c' hc') hvulnbox]
    simp
  refine ⟨?_, fun c' hc' => by rw [hchecks c' hc'], ?_⟩
  · clear hlater hbefore
    induction before with
    | nil => rfl
    | cons c' before ih =>
      rw [runChecks, exec_cons, checkStep, hchecks c' List.mem_cons_self]
      exact ih fun d hd => hchecks d (List.mem_cons_of_mem c' hd)
  · have hdue : dueAt m.startAt c.1 = true ∨ dueAt m.openVulnboxAccessAt c.1 = true := by
      refine htime.imp (fun h => ?_) fun h => ?_ <;> simp [dueAt, h, hc, hgap]
    rw [checkTime_of_idle hidle, checkStart, if_neg fun h => hdesired h.2]
    by_cases hgame : dueAt m.startAt c.1 = true
    · rw [if_pos ⟨hidle, hgame⟩]
      exact .inl (by simp [startCtf, onStartCtf, hstate])
    · rw [if_neg fun h => hgame h.2, if_pos ⟨hidle, hdue.resolve_left hgame⟩]
      exact .inr (by simp [onOpenVulnboxAccess])

end Runs

end Gameserver.Vpn
