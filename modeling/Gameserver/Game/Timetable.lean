import Gameserver.Vpn.Forecast
import Mathlib.Data.List.Chain

/-!
# The timetable of an unattended game

`run_master_timer` checks the time once per second.  A game that is to start at `start_at`, and to
stop after tick `stop_after_tick`, needs nobody who watches it.

* `Next` — two checks in a row, with at most one second left out between them.
* `inTick`, `scheduled` — the timer at a time, in closed form.
* `scheduled_checkStep` — one check moves the timer along its timetable.
* `game_scheduled` — **the whole game follows the timetable**, from the first check after the
  scheduled start.
-/

namespace Gameserver.Game

open Machine Timer Timer.CTFTimer Vpn

/-- Two checks in a row: the clock does not run backwards, and skips at most one second. -/
def Next (c c' : Check) : Prop := c.2 ≤ c'.1 ∧ c'.1 ≤ c.1 + 2 ∧ c'.1 ≤ c'.2

instance (c c' : Check) : Decidable (Next c c') :=
  inferInstanceAs (Decidable (c.2 ≤ c'.1 ∧ c'.1 ≤ c.1 + 2 ∧ c'.1 ≤ c'.2))

/-- The timer while tick number `k` of a game is running, if it was started at `s`. -/
def inTick (m : CTFTimer) (s k : ℤ) : CTFTimer :=
  let last := m.stopAfterTick = some (m.currentTick + 1 + k)
  { m with
    state := .running
    desiredState := if last then .stopped else .running
    currentTick := m.currentTick + 1 + k
    tickStart := some (s + k * m.tickTime)
    tickEnd := some (s + (k + 1) * m.tickTime)
    stopAfterTick := if last then none else m.stopAfterTick
    startAt := none }

/-- The timer after tick number `k` was the last one. -/
def afterGame (m : CTFTimer) (s k : ℤ) : CTFTimer := { inTick m s k with state := .stopped }

/-- The timetable of a game that was started at `s`. -/
def scheduled (m : CTFTimer) (s t : ℤ) : CTFTimer :=
  let k := (t - s) / m.tickTime
  match m.stopAfterTick with
  | some n => if n ≤ m.currentTick + k then afterGame m s (n - m.currentTick - 1) else inTick m s k
  | none => inTick m s k

/-- The timer is as planned.  Outside of the game it may also open the network. -/
def Follows (planned m' : CTFTimer) : Prop :=
  ∃ access, m' = { planned with openVulnboxAccessAt := access }

/-- A game that is going to start at `v`, with its last tick ahead. -/
structure Scheduled (m : CTFTimer) (v : ℤ) : Prop where
  state : m.state = .stopped
  desiredState : m.desiredState = .stopped
  currentTick : 0 ≤ m.currentTick
  tickTime : 1 < m.tickTime
  startAt : m.startAt = some v
  afterEpoch : 0 < v
  limit : ∀ n, m.stopAfterTick = some n → m.currentTick < n

section Timetable

variable {m planned m' : CTFTimer} {v s t u k : ℤ} {c start : Check} {before after : List Check}

/-! ## One check -/

theorem truthy_eq_iff {x : Option ℤ} {tick : ℤ} (h : tick ≠ 0) :
    truthy x = some tick ↔ x = some tick := by
  refine ⟨truthy_eq_some, ?_⟩
  rintro rfl
  exact truthy_of_ne h

/-- A game that has no reason to start may only open the network. -/
theorem follows_idle (hidle : m.state ≠ .running) (hdesired : m.desiredState ≠ .running)
    (hnotdue : dueAt m.startAt t = false) (now : ℤ) (hm : Follows m m') :
    Follows m (m'.checkTime t now).1 := by
  obtain ⟨access, rfl⟩ := hm
  rw [checkTime_of_idle (by exact hidle), checkStart, if_neg fun hstart => hdesired hstart.2,
    if_neg (by simp [hnotdue])]
  split_ifs
  · exact ⟨none, rfl⟩
  · exact ⟨access, rfl⟩

/-- The check that starts the game. -/
theorem follows_start (h : Scheduled m v) (hdue : v ≤ t) (hlate : t ≤ v + 4) (now : ℤ)
    (hm : Follows m m') : Follows (inTick m now 0) (m'.checkTime t now).1 := by
  obtain ⟨access, rfl⟩ := hm
  have hisdue : dueAt (some v) t = true := by
    simp [dueAt, truthy_of_ne h.afterEpoch.ne', hdue, hlate]
  have htick := h.currentTick
  have hfirst : m.currentTick + 1 ≠ 0 := by omega
  refine ⟨access, ?_⟩
  rw [checkTime_of_idle (by simp [h.state]), checkStart]
  simp [h.state, h.desiredState, h.startAt, hisdue, startCtf, onStartTick, inTick,
    truthy_eq_iff hfirst]
  split_ifs <;> rfl

/-- A check within a tick. -/
theorem follows_within (hpos : 0 < s + (k + 1) * m.tickTime)
    (hwithin : t < s + (k + 1) * m.tickTime)
    (now : ℤ) (hm : Follows (inTick m s k) m') :
    Follows (inTick m s k) (m'.checkTime t now).1 := by
  obtain ⟨access, rfl⟩ := hm
  refine ⟨access, ?_⟩
  simp [checkTime, checkStart, inTick, truthy_of_ne hpos.ne', not_le.2 hwithin]

/-- The check that ends a tick and starts the next. -/
theorem follows_next (hpos : 0 < s + (k + 1) * m.tickTime) (hover : s + (k + 1) * m.tickTime ≤ t)
    (hlate : t ≤ s + (k + 1) * m.tickTime + 1) (htick : 0 < m.currentTick + 1 + (k + 1))
    (hlast : m.stopAfterTick ≠ some (m.currentTick + 1 + k)) (now : ℤ)
    (hm : Follows (inTick m s k) m') : Follows (inTick m s (k + 1)) (m'.checkTime t now).1 := by
  obtain ⟨access, rfl⟩ := hm
  refine ⟨access, ?_⟩
  have hnew : ¬ s + (k + 1) * m.tickTime + 1 < t := by omega
  have hshift : m.currentTick + 1 + k + 1 = m.currentTick + 1 + (k + 1) := by ring
  have hend : s + (k + 1) * m.tickTime + m.tickTime = s + (k + 1 + 1) * m.tickTime := by ring
  simp [checkTime, endTick, inTick, truthy_of_ne hpos.ne', hover, hlast, hnew, hshift, hend,
    onStartTick, truthy_eq_iff htick.ne']
  split_ifs <;> rfl

/-- The check that ends the game. -/
theorem follows_end (hpos : 0 < s + (k + 1) * m.tickTime) (hover : s + (k + 1) * m.tickTime ≤ t)
    (hlast : m.stopAfterTick = some (m.currentTick + 1 + k)) (now : ℤ)
    (hm : Follows (inTick m s k) m') : Follows (afterGame m s k) (m'.checkTime t now).1 := by
  obtain ⟨access, rfl⟩ := hm
  refine ⟨access, ?_⟩
  simp [checkTime, endTick, inTick, afterGame, truthy_of_ne hpos.ne', hover, hlast]

/-- After the end nothing starts again. -/
theorem follows_over (hlast : m.stopAfterTick = some (m.currentTick + 1 + k)) (t now : ℤ)
    (hm : Follows (afterGame m s k) m') : Follows (afterGame m s k) (m'.checkTime t now).1 :=
  follows_idle (by simp [afterGame]) (by simp [afterGame, inTick, hlast]) rfl now hm

/-- The ticks at two times that are at most two seconds apart. -/
theorem tick_cases {T : ℤ} (hT : 1 < T) (hut : u ≤ t) (hlate : t ≤ u + 2) :
    (t < s + ((u - s) / T + 1) * T ∧ (t - s) / T = (u - s) / T) ∨
      (s + ((u - s) / T + 1) * T ≤ t ∧ t ≤ s + ((u - s) / T + 1) * T + 1 ∧
        (t - s) / T = (u - s) / T + 1) := by
  have hpos : 0 < T := by omega
  have hlow := Int.ediv_mul_le (u - s) hpos.ne'
  have hhigh := Int.lt_ediv_add_one_mul_self (u - s) hpos
  generalize (u - s) / T = k at *
  have hstep : (k + 1) * T = k * T + T := by ring
  by_cases hover : s + (k + 1) * T ≤ t
  · refine .inr ⟨hover, by omega, ?_⟩
    rw [Int.ediv_eq_iff_of_pos hpos]
    constructor <;> omega
  · refine .inl ⟨not_le.1 hover, ?_⟩
    rw [Int.ediv_eq_iff_of_pos hpos]
    constructor <;> omega

/-- **One check moves the timer along its timetable.** -/
theorem scheduled_checkStep (h : Scheduled m v) (hs : 0 < s) (hsu : s ≤ u) (hut : u ≤ c.1)
    (hlate : c.1 ≤ u + 2) (hm : Follows (scheduled m s u) m') :
    Follows (scheduled m s c.1) (checkStep m' c) := by
  have hT := h.tickTime
  have hk : 0 ≤ (u - s) / m.tickTime := Int.ediv_nonneg (by omega) (by omega)
  have hend : 0 < ((u - s) / m.tickTime + 1) * m.tickTime := Int.mul_pos (by omega) (by omega)
  have htick := h.currentTick
  rw [checkStep]
  rcases tick_cases (s := s) hT hut hlate with ⟨hwithin, hsame⟩ | ⟨hover, hlate, hnext⟩
  · -- the timetable of `u` is that of the check
    simp only [scheduled, hsame] at hm ⊢
    cases hlimit : m.stopAfterTick with
    | none =>
      simp only [hlimit] at hm ⊢
      exact follows_within (by omega) hwithin c.2 hm
    | some n =>
      simp only [hlimit] at hm ⊢
      split_ifs at hm ⊢ with hended
      · exact follows_over (by rw [hlimit]; congr 1; omega) c.1 c.2 hm
      · exact follows_within (by omega) hwithin c.2 hm
  · simp only [scheduled, hnext] at hm ⊢
    cases hlimit : m.stopAfterTick with
    | none =>
      simp only [hlimit] at hm ⊢
      exact follows_next (by omega) hover hlate (by omega) (by simp [hlimit]) c.2 hm
    | some n =>
      simp only [hlimit] at hm ⊢
      by_cases hended : n ≤ m.currentTick + (u - s) / m.tickTime
      · rw [if_pos hended] at hm
        rw [if_pos (by omega)]
        exact follows_over (by rw [hlimit]; congr 1; omega) c.1 c.2 hm
      · rw [if_neg hended] at hm
        by_cases hlast : n ≤ m.currentTick + ((u - s) / m.tickTime + 1)
        · -- the tick that ends is tick `n`
          have hn : n - m.currentTick - 1 = (u - s) / m.tickTime := by omega
          rw [if_pos hlast, hn]
          exact follows_end (by omega) hover (by rw [hlimit]; congr 1; omega) c.2 hm
        · rw [if_neg hlast]
          have hgoes : m.stopAfterTick ≠ some (m.currentTick + 1 + (u - s) / m.tickTime) := by
            rw [hlimit, ne_eq, Option.some_inj]
            omega
          exact follows_next (by omega) hover hlate (by omega) hgoes c.2 hm

/-! ## The whole game -/

/-- The last reading of the clock, or `u`. -/
def lastReading (u : ℤ) (checks : List Check) : ℤ := checks.foldl (fun _ c => c.1) u

/-- Checks in a row keep the timer on its timetable. -/
theorem scheduled_runChecks (h : Scheduled m v) (hs : 0 < s) (hsu : s ≤ u) (hcu : c.1 ≤ u)
    (huc : u ≤ c.2) (hchain : List.IsChain Next (c :: after)) (hm : Follows (scheduled m s u) m') :
    Follows (scheduled m s (lastReading u after)) (runChecks m' after) := by
  induction after generalizing u c m' with
  | nil => exact hm
  | cons c' after ih =>
    obtain ⟨⟨hclock, hgap, hnow⟩, hrest⟩ := List.isChain_cons_cons.1 hchain
    have hsc : s ≤ c'.1 := by omega
    have hstep := scheduled_checkStep (c := c') h hs hsu (by omega) (by omega) hm
    exact ih hsc le_rfl hnow hrest hstep

/-- Nothing happens before the scheduled start. -/
theorem early_runChecks (h : Scheduled m v) (hbefore : ∀ c ∈ before, c.1 < v) (hm : Follows m m') :
    Follows m (runChecks m' before) := by
  induction before generalizing m' with
  | nil => exact hm
  | cons c before ih =>
    have hearly := hbefore c List.mem_cons_self
    have hnotdue : dueAt m.startAt c.1 = false := by
      simp [dueAt, h.startAt, truthy_of_ne h.afterEpoch.ne', hearly]
    have hstep := follows_idle (by simp [h.state]) (by simp [h.desiredState]) hnotdue c.2 hm
    exact ih (fun c' hc' => hbefore c' (List.mem_cons_of_mem c hc')) hstep

/-- **The whole game follows the timetable.**  Where two checks in a row skip at most one second,
the game starts at the first check after the scheduled start, at most a second late; from then
on tick `k` begins exactly `k` tick times after the start, whatever the delay of the checks, and
the game stops at the end of its last tick and stays so. -/
theorem game_scheduled (h : Scheduled m v)
    (hchain : List.IsChain Next (c :: before ++ start :: after)) (hc : c.1 < v)
    (hbefore : ∀ c' ∈ before, c'.1 < v) (hstart : v ≤ start.1) :
    Follows m (runChecks m before) ∧ start.1 ≤ v + 1 ∧
      Follows (scheduled m start.2 (lastReading start.2 after))
        (runChecks m (before ++ start :: after)) := by
  obtain ⟨-, hrest, hjoin⟩ := List.isChain_append.1 hchain
  -- the check before the start
  obtain ⟨prev, hprev⟩ : ∃ prev, (c :: before).getLast? = some prev :=
    ⟨_, List.getLast?_eq_some_getLast (List.cons_ne_nil c before)⟩
  obtain ⟨hclock, hgap, hnow⟩ := hjoin prev (Option.mem_def.2 hprev) start rfl
  have hearly : prev.1 < v := by
    rcases List.mem_cons.1 (List.mem_of_getLast? hprev) with rfl | hmem
    · exact hc
    · exact hbefore prev hmem
  have hfirst := early_runChecks h hbefore ⟨m.openVulnboxAccessAt, rfl⟩
  refine ⟨hfirst, by omega, ?_⟩
  have hs : 0 < start.2 := by linarith [h.afterEpoch]
  have hbegin : Follows (scheduled m start.2 start.2) (checkStep (runChecks m before) start) := by
    have hstarted := follows_start h hstart (by omega) start.2 hfirst
    simp only [scheduled, sub_self, Int.zero_ediv, add_zero]
    cases hlimit : m.stopAfterTick with
    | none => exact hstarted
    | some n =>
      have hahead := h.limit n hlimit
      simp only [if_neg (not_le.2 hahead)]
      exact hstarted
  rw [runChecks, exec_append, exec_cons]
  exact scheduled_runChecks h hs le_rfl hnow le_rfl hrest hbegin

end Timetable

/-- Two ticks of three seconds, from 1000 on. -/
def shortGame : CTFTimer :=
  { CTFTimer.new 3 with startAt := some 1000, stopAfterTick := some 2 }

/-- The checks at 1000, 1002, 1005 and 1007 are left out. -/
def shortChecks : List Check := [(1003, 1003), (1004, 1004), (1006, 1006), (1008, 1008)]

/-- It starts at 1001 and ends at 1007, as the check at 1008 finds. -/
theorem game_scheduled_shortGame :
    Follows shortGame (runChecks shortGame [(999, 999)]) ∧ (1001 : ℤ) ≤ 1000 + 1 ∧
      Follows (afterGame shortGame 1001 1)
        (runChecks shortGame ([(999, 999)] ++ (1001, 1001) :: shortChecks)) := by
  have h : Scheduled shortGame 1000 :=
    { state := rfl, desiredState := rfl, currentTick := by decide, tickTime := by decide,
      startAt := rfl, afterEpoch := by decide,
      limit := fun n hn => by
        obtain rfl : 2 = n := Option.some_inj.1 hn
        decide }
  have hchain : List.IsChain Next ((998, 998) :: [(999, 999)] ++ (1001, 1001) :: shortChecks) := by
    decide
  exact game_scheduled h hchain (by decide) (by decide) (by decide)

end Gameserver.Game
