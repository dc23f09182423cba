import Gameserver.Vpn.Bans
import Gameserver.Vpn.Forecast
import Mathlib

/-!
# When a ban ends, and when the router is told it does

A ban until tick `n` is lifted by `VPNCTFEvents.on_start_tick`, with the start of tick `n`.
`controlserver/endpoints/ctfroute.py` announces it with the end of tick `n`.

* `getBannedTeamIds`, `addPerTeamGates` — the announcement.
* `BanClock`, `BanClock.check` — the timer and the listener that lifts the bans.
* `check_cases` — what a punctual check of a running game does to both.
* `Tracked.check`, `tracked_run` — the invariant of one ban, along a step and along a run.
* `gate_outlasts_ban` — **the announced end is one tick time after the real one**, and a ban
  that names no tick ahead never ends.
-/

namespace Gameserver.Vpn

open Machine Timer Timer.CTFTimer

/-! ## The announcement -/

/-- `get_banned_team_ids`: the banned teams in order, each with the tick where its ban gets
lifted. -/
def getBannedTeamIds (s : BanState) : List (ℤ × Option ℤ) :=
  (s.banned.mergeSort (· ≤ ·)).map fun team => (team, (s.bannedTeam team).join)

/-- The gate of a ban. -/
def banGate (m : CTFTimer) (now : ℚ) (ban : ℤ × Option ℤ) : ConnGate where
  id := "ban-team-" ++ toString ban.1
  connSrc := some ("team-" ++ toString ban.1)
  connDst := none
  expression := none
  fromTime := none
  toTime := getEndOfTick m now ban.2

/-- `add_per_team_gates`: the gates of the bans. -/
def addPerTeamGates (m : CTFTimer) (now : ℚ) (s : BanState) : List ConnGate :=
  (getBannedTeamIds s).map (banGate m now)

/-! ## The listener -/

/-- `VPNCTFEvents.on_start_tick`, called for the outputs of a call on the timer. -/
def onStartTicks (s : BanState) (outputs : List Output) : BanState :=
  (tickEvents outputs).foldl (fun s event =>
    match event with
    | .started tick => unbanForTick s tick
    | .ended _ => s) s

/-- The timer, and the bans that its listener keeps. -/
structure BanClock where
  timer : CTFTimer
  bans : BanState

namespace BanClock

/-- A check of the timer, with what its listener does. -/
def check (w : BanClock) (c : Check) : BanClock where
  timer := checkStep w.timer c
  bans := onStartTicks w.bans (w.timer.checkTime c.1 c.2).2

abbrev run (w : BanClock) (checks : List Check) : BanClock := exec check w checks

/-- The run finds the game running at every check, none of them more than a second late. -/
abbrev Punctual (w : BanClock) (checks : List Check) : Prop :=
  Along check (fun w c => OnTime w.timer c) w checks

end BanClock

section Gates

variable {m : CTFTimer} {now : ℚ} {s : BanState} {team : ℤ} {untilTick : Option ℤ}

theorem mem_getBannedTeamIds {ban : ℤ × Option ℤ} :
    ban ∈ getBannedTeamIds s ↔ ban.1 ∈ s.banned ∧ ban.2 = (s.bannedTeam ban.1).join := by
  obtain ⟨team, untilTick⟩ := ban
  simp only [getBannedTeamIds, List.mem_map, List.mem_mergeSort, Prod.mk.injEq]
  constructor
  · rintro ⟨team', hmem, rfl, rfl⟩
    exact ⟨hmem, rfl⟩
  · rintro ⟨hmem, rfl⟩
    exact ⟨team, hmem, rfl, rfl⟩

theorem banGate_mem (hmem : team ∈ s.banned) (huntil : s.bannedTeam team = some untilTick) :
    banGate m now (team, untilTick) ∈ addPerTeamGates m now s := by
  refine List.mem_map_of_mem (mem_getBannedTeamIds.2 ⟨hmem, ?_⟩)
  simp [huntil]

/-- A team that is not banned has no gate. -/
theorem connSrc_ne (hmem : team ∉ s.banned) {g : ConnGate} (hg : g ∈ addPerTeamGates m now s) :
    g.connSrc ≠ some ("team-" ++ toString team) := by
  obtain ⟨ban, hban, rfl⟩ := List.mem_map.1 hg
  intro heq
  have hrepr : ban.1.repr = team.repr := by simpa [banGate] using heq
  exact hmem (Int.repr_injective hrepr ▸ (mem_getBannedTeamIds.1 hban).1)

end Gates

/-! ## One check -/

section Check

variable {w : BanClock} {c : Check} {team n : ℤ} {untilTick : Option ℤ}

/-- The ticks that a check of a running game starts. -/
theorem onStartTicks_checkTime {m : CTFTimer} {t now e : ℤ} (s : BanState)
    (hrun : m.state = .running) (he : truthy m.tickEnd = some e) :
    onStartTicks s (m.checkTime t now).2 =
      if e ≤ t ∧ m.desiredState = .running then unbanForTick s (m.currentTick + 1) else s := by
  have hover : m.tickOver t = decide (e ≤ t) := by simp [tickOver, he, hrun]
  have hevents : tickEvents (m.checkTime t now).2 = _ := m.tickEvents_call (.checkTime t now)
  rw [onStartTicks, hevents]
  by_cases hdue : e ≤ t
  · by_cases hdesired : m.desiredState = .running <;>
      simp [endsTick, startsTick, hover, hrun, hdue, hdesired]
  · simp [endsTick, startsTick, hover, hrun, hdue]

/-- A punctual check after which the game runs: nothing happens before the end of the tick;
then the next tick starts, and lifts the bans until this tick. -/
theorem check_cases (h : Ticking w.timer) (hc : OnTime w.timer c)
    (hrun : (w.check c).timer.state = .running) :
    (c.1 < lineEnd w.timer w.timer.currentTick ∧ w.check c = w) ∨
      (lineEnd w.timer w.timer.currentTick ≤ c.1 ∧
        c.1 ≤ lineEnd w.timer w.timer.currentTick + 1 ∧
        (w.check c).timer.currentTick = w.timer.currentTick + 1 ∧
        (w.check c).bans = unbanForTick w.bans (w.timer.currentTick + 1)) := by
  obtain ⟨e, he, hpos⟩ := h.tickEnd_pos
  have htruthy : truthy w.timer.tickEnd = some e := by rw [he, truthy_of_ne hpos.ne']
  have hbans : (w.check c).bans = if e ≤ c.1 ∧ w.timer.desiredState = .running then _ else _ :=
    onStartTicks_checkTime w.bans h.running htruthy
  rw [lineEnd_currentTick he]
  rcases checkTime_cases c.2 h.running he hpos (hc.2 e htruthy) with ⟨hbefore, hsame⟩ |
    ⟨hover, hdesired, hnext⟩ | ⟨-, hdesired, hhalt⟩
  · rw [if_neg (fun hdue => not_le.2 hbefore hdue.1)] at hbans
    refine .inl ⟨hbefore, ?_⟩
    rw [show w.check c = ⟨checkStep w.timer c, (w.check c).bans⟩ from rfl, hbans, checkStep, hsame]
  · rw [if_pos ⟨hover, hdesired⟩] at hbans
    exact .inr ⟨hover, hc.2 e htruthy, hnext.currentTick, hbans⟩
  · rw [BanClock.check, checkStep, hhalt] at hrun
    exact absurd hrun hdesired

/-! ## One ban along a run -/

/-- The ban names a tick that starts between the state `w₀` and the state `w`. -/
def Due (w₀ w : BanClock) (untilTick : Option ℤ) : Prop :=
  ∃ n, untilTick = some n ∧ w₀.timer.currentTick < n ∧ n ≤ w.timer.currentTick

/-- What a run from `w₀` with these checks has made of the ban of a team, while the game
runs. -/
structure Tracked (w₀ : BanClock) (team : ℤ) (untilTick : Option ℤ) (w : BanClock)
    (checks : List Check) : Prop where
  onLine : OnLine w₀.timer w.timer
  current_le : w₀.timer.currentTick ≤ w.timer.currentTick
  banned : team ∈ w.bans.banned ↔ ¬ Due w₀ w untilTick
  recorded : team ∈ w.bans.banned → w.bans.bannedTeam team = some untilTick
  reached : ∀ n, w₀.timer.currentTick < n →
    (n ≤ w.timer.currentTick ↔ ∃ c ∈ checks, lineEnd w₀.timer (n - 1) ≤ c.1)

/-- Where ticks take more than a second, a later tick ends more than a second later. -/
theorem lt_lineEnd {m : CTFTimer} (h : Ticking m) (htime : 1 < m.tickTime)
    (hn : m.currentTick < n) : lineEnd m m.currentTick + 1 < lineEnd m n := by
  obtain ⟨e, he, -⟩ := h.tickEnd_pos
  rw [lineEnd_currentTick he]
  exact lineEnd_gt htime he hn

theorem le_lineEnd {m : CTFTimer} (h : Ticking m) (htime : 1 < m.tickTime)
    (hn : m.currentTick ≤ n) : lineEnd m m.currentTick ≤ lineEnd m n := by
  rcases hn.eq_or_lt with rfl | hlt
  · exact le_rfl
  · linarith [lt_lineEnd h htime hlt]

/-- The start of tick `k + 1` lifts the ban exactly if it names this tick. -/
theorem due_succ {w₀ w w' : BanClock} (hle : w₀.timer.currentTick ≤ w.timer.currentTick)
    (hcurrent : w'.timer.currentTick = w.timer.currentTick + 1) :
    Due w₀ w' untilTick ↔ Due w₀ w untilTick ∨ untilTick = some (w.timer.currentTick + 1) := by
  constructor
  · rintro ⟨n, rfl, hahead, hn⟩
    by_cases hold : n ≤ w.timer.currentTick
    · exact .inl ⟨n, rfl, hahead, hold⟩
    · refine .inr ?_
      rw [show n = w.timer.currentTick + 1 by omega]
  · rintro (⟨n, rfl, hahead, hn⟩ | rfl)
    · exact ⟨n, rfl, hahead, by omega⟩
    · exact ⟨_, rfl, by omega, hcurrent.ge⟩

theorem exists_mem_append_singleton {α : Type*} {P : α → Prop} {l : List α} {a : α} :
    (∃ x ∈ l ++ [a], P x) ↔ (∃ x ∈ l, P x) ∨ P a := by
  simp [or_and_right, exists_or]

/-- One punctual check keeps track of the ban, if the game goes on. -/
theorem Tracked.check {w₀ : BanClock} {checks : List Check} (h : Tracked w₀ team untilTick w checks)
    (htime : 1 < w₀.timer.tickTime) (hc : OnTime w.timer c)
    (hrun : (w.check c).timer.state = .running) :
    Tracked w₀ team untilTick (w.check c) (checks ++ [c]) := by
  have hticking := h.onLine.ticking
  have htime' : 1 < w.timer.tickTime := h.onLine.tickTime.symm ▸ htime
  rcases check_cases hticking hc hrun with ⟨hbefore, hsame⟩ | ⟨hover, hlate, hcurrent, hbans⟩
  · rw [hsame]
    refine { h with reached := fun n hn => ?_ }
    rw [exists_mem_append_singleton, ← h.reached n hn]
    refine (or_iff_left_of_imp fun hlast => ?_).symm
    -- a check before the end of the current tick does not reach a later one
    by_contra hahead
    have hle := le_lineEnd hticking htime' (show w.timer.currentTick ≤ n - 1 by omega)
    rw [h.onLine.lineEnd (n - 1)] at hle
    omega
  · have hle := h.current_le
    refine ⟨h.onLine.checkStep hc hrun, by omega, ?_, ?_, fun n hn => ?_⟩
    · rw [hbans, mem_banned_unbanForTick, due_succ hle hcurrent, not_or, ← h.banned]
      refine and_congr_right fun hmem => ?_
      simp [h.recorded hmem]
    · intro hmem
      rw [hbans] at hmem ⊢
      rw [bannedTeam_unbanForTick hmem]
      exact h.recorded (mem_banned_unbanForTick.1 hmem).1
    · rw [exists_mem_append_singleton, ← h.reached n hn, hcurrent]
      rcases lt_trichotomy n (w.timer.currentTick + 1) with hpast | rfl | hahead
      · exact iff_of_true hpast.le (.inl (by omega))
      · refine iff_of_true le_rfl (.inr ?_)
        rwa [add_sub_cancel_right, ← h.onLine.lineEnd]
      · -- the check is too early for the end of the tick that it starts
        have hlt := lt_lineEnd hticking htime' (show w.timer.currentTick < n - 1 by omega)
        rw [h.onLine.lineEnd (n - 1)] at hlt
        refine iff_of_false (not_le.2 hahead) ?_
        rintro (hold | hlast) <;> omega

/-- A punctual run keeps track of every ban, as long as the game runs. -/
theorem tracked_run {checks : List Check} (h : Ticking w.timer) (htime : 1 < w.timer.tickTime)
    (hmem : team ∈ w.bans.banned) (huntil : w.bans.bannedTeam team = some untilTick)
    (hp : w.Punctual checks) :
    (w.run checks).timer.state = .running → Tracked w team untilTick (w.run checks) checks := by
  have hinit : Tracked w team untilTick w [] :=
    { onLine := ⟨h, rfl, fun _ => rfl⟩
      current_le := le_rfl
      banned := iff_of_true hmem fun ⟨n, _, hlt, hle⟩ => by omega
      recorded := fun _ => huntil
      reached := fun n hn => by simpa using hn }
  have hstep (w' : BanClock) (c : Check) (l : List Check)
      (hw : w'.timer.state = .running → Tracked w team untilTick w' l) (hc : OnTime w'.timer c) :
      (w'.check c).timer.state = .running → Tracked w team untilTick (w'.check c) (l ++ [c]) :=
    fun hrun => (hw hc.1).check htime hc hrun
  simpa using hp.invariant_log hstep (fun _ => hinit)

/-! ## The announced end and the real one -/

/-- What the router is told of the ban of a team and what becomes of it, after these checks:
the end of the tick is announced, the start of the tick ends the ban. -/
structure Outlasted (w : BanClock) (team : ℤ) (untilTick : Option ℤ) (checks : List Check) :
    Prop where
  lifted : team ∉ (w.run checks).bans.banned ↔
    ∃ n, untilTick = some n ∧ w.timer.currentTick < n ∧ ∃ c ∈ checks, lineEnd w.timer (n - 1) ≤ c.1
  announced : ∀ now, team ∈ (w.run checks).bans.banned →
    banGate (w.run checks).timer now (team, untilTick) ∈
        addPerTeamGates (w.run checks).timer now (w.run checks).bans ∧
      ∀ n, untilTick = some n → (w.run checks).timer.currentTick ≤ n →
        (banGate (w.run checks).timer now (team, untilTick)).toTime =
          some (lineEnd w.timer (n - 1) + w.timer.tickTime)
  gone : ∀ now, team ∉ (w.run checks).bans.banned →
    ∀ g ∈ addPerTeamGates (w.run checks).timer now (w.run checks).bans,
      g.connSrc ≠ some ("team-" ++ toString team)

/-- **The announced end of a ban is one tick time after the real one.**  In a punctual run of a
game with ticks of more than a second, a ban is lifted by the first check at the start of the
tick that it names, if this tick is ahead, and never otherwise; the router is told the end of
that tick all the time. -/
theorem gate_outlasts_ban {checks : List Check} (h : Ticking w.timer)
    (htime : 1 < w.timer.tickTime) (hmem : team ∈ w.bans.banned)
    (huntil : w.bans.bannedTeam team = some untilTick) (hp : w.Punctual checks)
    (hrun : (w.run checks).timer.state = .running) : Outlasted w team untilTick checks := by
  have htrack := tracked_run h htime hmem huntil hp hrun
  constructor
  · rw [htrack.banned, not_not]
    constructor
    · rintro ⟨n, hn, hahead, hle⟩
      exact ⟨n, hn, hahead, (htrack.reached n hahead).1 hle⟩
    · rintro ⟨n, hn, hahead, hreached⟩
      exact ⟨n, hn, hahead, (htrack.reached n hahead).2 hreached⟩
  · intro now hbanned
    refine ⟨banGate_mem hbanned (htrack.recorded hbanned), fun n hn hle => ?_⟩
    rw [banGate, hn, getEndOfTick_eq htrack.onLine.ticking now hle, htrack.onLine.lineEnd, lineEnd,
      lineEnd, Option.some_inj]
    ring
  · intro now hnot g hg
    exact connSrc_ne hnot hg

/-- A game in tick 5 of 60 s, with a ban until tick 6. -/
def bannedClock : BanClock where
  timer := { limitedTimer with stopAfterTick := none }
  bans := banTeam ⟨[], fun _ => none, []⟩ 7 (some 6)

/-- Tick 6 starts a second late and lifts the ban. -/
theorem gate_outlasts_ban_bannedClock :
    Outlasted bannedClock 7 (some 6) [(1059, 1059), (1061, 1061)] :=
  gate_outlasts_ban
    { running := rfl, tick_pos := by decide, tickTime_nonneg := by decide,
      tickEnd_pos := ⟨1060, rfl, by decide⟩ }
    (by decide) (by decide) (by decide) ⟨⟨rfl, by decide⟩, ⟨rfl, by decide⟩, trivial⟩ (by decide)

end Check

end Gameserver.Vpn
