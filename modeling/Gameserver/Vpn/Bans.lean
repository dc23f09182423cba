import Gameserver.Lib.Machine
import Mathlib.Algebra.Order.Ring.Int
import Mathlib.Data.List.Basic
import Mathlib.Logic.Function.Basic
import Mathlib.Order.Basic

/-!
# Bans of teams

`controlserver/vpncontrol.py` keeps the banned teams in Redis: the set `network:banned`,
and under `network:bannedteam:{id}` the tick with which the ban ends.

* `banTeam`, `unbanTeam`, `unbanForTick` — the three operations.
* `mem_banned_unbanForTick` — the start of a tick lifts exactly the bans until this tick.
* `BanRun`, `BanRun.step` — bans, unbans and tick starts in any order.
* `expired_of_heeded` — timed bans end, where each one names a tick that is still to start and
  no tick start skips it.
-/

namespace Gameserver.Vpn

open Machine

/-! ## The operations -/

/-- What a `VPNControl` publishes. -/
inductive BanMessage
  | ban (team : ℤ)
  | unban (team : ℤ)
deriving DecidableEq, Repr

/-- The keys in Redis.  `bannedTeam` has no value for a missing key, and no tick for the
empty text. -/
structure BanState where
  banned : List ℤ
  bannedTeam : ℤ → Option (Option ℤ)
  published : List BanMessage

/-- `ban_team`: team 0 is no team, tick 0 is no tick. -/
def banTeam (s : BanState) (team : ℤ) (untilTick : Option ℤ) : BanState :=
  if team = 0 then s
  else
    let untilTick := if untilTick = some 0 then none else untilTick
    { banned := s.banned.insert team
      bannedTeam := Function.update s.bannedTeam team (some untilTick)
      published := s.published ++ [.ban team] }

/-- `unban_team`. -/
def unbanTeam (s : BanState) (team : ℤ) : BanState where
  banned := s.banned.filter (· ≠ team)
  bannedTeam := Function.update s.bannedTeam team none
  published := s.published ++ [.unban team]

/-- The loop body of `unban_for_tick`. -/
def unbanIfDue (tick : ℤ) (s : BanState) (team : ℤ) : BanState :=
  if s.bannedTeam team = some (some tick) then unbanTeam s team else s

/-- `unban_for_tick`: the members are read once, before the loop. -/
def unbanForTick (s : BanState) (tick : ℤ) : BanState :=
  s.banned.foldl (unbanIfDue tick) s

section Operations

variable {s : BanState} {team team' tick : ℤ} {untilTick : Option ℤ}

@[simp] theorem mem_banned_unbanTeam :
    team ∈ (unbanTeam s team').banned ↔ team ∈ s.banned ∧ team ≠ team' := by
  simp [unbanTeam]

theorem bannedTeam_unbanTeam (h : team ≠ team') :
    (unbanTeam s team').bannedTeam team = s.bannedTeam team := by
  simp [unbanTeam, Function.update_of_ne h]

theorem mem_banned_banTeam (hteam : team' ≠ 0) :
    team ∈ (banTeam s team' untilTick).banned ↔ team = team' ∨ team ∈ s.banned := by
  rw [banTeam, if_neg hteam]
  exact List.mem_insert_iff

theorem bannedTeam_banTeam_of_ne (h : team ≠ team') :
    (banTeam s team' untilTick).bannedTeam team = s.bannedTeam team := by
  by_cases hteam : team' = 0
  · simp [banTeam, hteam]
  · simp [banTeam, hteam, Function.update_of_ne h]

theorem bannedTeam_banTeam_self (hteam : team ≠ 0) :
    (banTeam s team untilTick).bannedTeam team =
      some (if untilTick = some 0 then none else untilTick) := by
  simp [banTeam, hteam]

/-- The loop of `unban_for_tick`: it lifts the bans that are due among the given teams, and
leaves the others with their ticks. -/
theorem foldl_unbanIfDue (teams : List ℤ) :
    ∀ s : BanState, ∀ team : ℤ,
      (team ∈ (teams.foldl (unbanIfDue tick) s).banned ↔
        team ∈ s.banned ∧ ¬ (team ∈ teams ∧ s.bannedTeam team = some (some tick))) ∧
      (team ∈ (teams.foldl (unbanIfDue tick) s).banned →
        (teams.foldl (unbanIfDue tick) s).bannedTeam team = s.bannedTeam team) := by
  induction teams with
  | nil => simp
  | cons first teams ih =>
    intro s team
    obtain ⟨hmem, huntil⟩ := ih (unbanIfDue tick s first) team
    rw [List.foldl_cons]
    by_cases hdue : s.bannedTeam first = some (some tick)
    · have hstep : unbanIfDue tick s first = unbanTeam s first := if_pos hdue
      rw [hstep] at hmem huntil ⊢
      by_cases hteam : team = first
      · subst hteam
        simp [hmem, hdue]
      · rw [bannedTeam_unbanTeam hteam] at hmem huntil
        refine ⟨?_, huntil⟩
        rw [hmem, mem_banned_unbanTeam, List.mem_cons]
        simp [hteam]
    · have hstep : unbanIfDue tick s first = s := if_neg hdue
      rw [hstep] at hmem huntil ⊢
      refine ⟨?_, huntil⟩
      rw [hmem, List.mem_cons]
      by_cases hteam : team = first
      · subst hteam
        simp [hdue]
      · simp [hteam]

/-- **The start of a tick lifts exactly the bans until this tick.** -/
theorem mem_banned_unbanForTick :
    team ∈ (unbanForTick s tick).banned ↔
      team ∈ s.banned ∧ s.bannedTeam team ≠ some (some tick) := by
  rw [unbanForTick, (foldl_unbanIfDue s.banned s team).1]
  constructor
  · rintro ⟨hmem, hnot⟩
    exact ⟨hmem, fun h => hnot ⟨hmem, h⟩⟩
  · rintro ⟨hmem, hne⟩
    exact ⟨hmem, fun h => hne h.2⟩

theorem bannedTeam_unbanForTick (h : team ∈ (unbanForTick s tick).banned) :
    (unbanForTick s tick).bannedTeam team = s.bannedTeam team :=
  (foldl_unbanIfDue s.banned s team).2 h

end Operations

/-! ## Runs -/

/-- What happens to the bans. -/
inductive BanEvent
  | ban (team : ℤ) (untilTick : Option ℤ)
  | unban (team : ℤ)
  | startTick (tick : ℤ)
deriving DecidableEq, Repr

/-- A run so far: the state, the last tick started, and of each team the most recent ban. -/
structure BanRun where
  state : BanState
  lastTick : Option ℤ
  recent : ℤ → Option (Option ℤ)

/-- Nobody is banned, no tick has started. -/
def BanRun.init : BanRun where
  state := ⟨[], fun _ => none, []⟩
  lastTick := none
  recent := fun _ => none

def BanRun.step (r : BanRun) : BanEvent → BanRun
  | .ban team untilTick =>
    { r with
      state := banTeam r.state team untilTick
      recent := Function.update r.recent team (some untilTick) }
  | .unban team => { r with state := unbanTeam r.state team }
  | .startTick tick => { r with state := unbanForTick r.state tick, lastTick := some tick }

/-- The tick is still to start. -/
def BanRun.Ahead (r : BanRun) (tick : ℤ) : Prop :=
  ∀ last, r.lastTick = some last → last < tick

/-- A timed ban names a tick that is still to start; a tick start skips no tick until which a
team is banned. -/
def BanRun.Heeded (r : BanRun) : BanEvent → Prop
  | .ban _ untilTick => ∀ u, untilTick = some u → 0 < u → r.Ahead u
  | .unban _ => True
  | .startTick tick => ∀ team ∈ r.state.banned, ∀ u,
      r.recent team = some (some u) → 0 < u → r.Ahead u → tick ≤ u

/-- No team whose most recent ban was until a positive tick up to this one is banned. -/
def BanRun.Expired (r : BanRun) (tick : ℤ) : Prop :=
  ∀ team ∈ r.state.banned, ∀ u, r.recent team = some (some u) → 0 < u → ¬ u ≤ tick

/-- Redis knows the most recent ban of every banned team, and none of them is over. -/
structure BanRun.Inv (r : BanRun) : Prop where
  zero_notMem : 0 ∉ r.state.banned
  known : ∀ team ∈ r.state.banned, ∃ untilTick, r.recent team = some untilTick ∧
    r.state.bannedTeam team = some (if untilTick = some 0 then none else untilTick)
  ahead : ∀ team ∈ r.state.banned, ∀ u, r.recent team = some (some u) → 0 < u → r.Ahead u

namespace BanRun

variable {r : BanRun} {e : BanEvent}

theorem inv_init : init.Inv where
  zero_notMem := List.not_mem_nil
  known _ h := absurd h List.not_mem_nil
  ahead _ h := absurd h List.not_mem_nil

theorem Inv.ban (h : r.Inv) {team : ℤ} {untilTick : Option ℤ}
    (hheeded : r.Heeded (.ban team untilTick)) : (r.step (.ban team untilTick)).Inv := by
  have hother {team' : ℤ} (hmem : team' ∈ (banTeam r.state team untilTick).banned)
      (hne : team' ≠ team) : team' ∈ r.state.banned := by
    by_cases hzero : team = 0
    · rwa [banTeam, if_pos hzero] at hmem
    · exact ((mem_banned_banTeam hzero).1 hmem).resolve_left hne
  have hzero : 0 ∉ (banTeam r.state team untilTick).banned := by
    intro hmem
    by_cases hteam : team = 0
    · rw [banTeam, if_pos hteam] at hmem
      exact h.zero_notMem hmem
    · exact h.zero_notMem (hother hmem (Ne.symm hteam))
  constructor
  · exact hzero
  · intro team' hmem
    by_cases hteam : team' = team
    · subst hteam
      refine ⟨untilTick, Function.update_self .., ?_⟩
      exact bannedTeam_banTeam_self (ne_of_mem_of_not_mem hmem hzero)
    · obtain ⟨u, hrecent, huntil⟩ := h.known team' (hother hmem hteam)
      refine ⟨u, ?_, ?_⟩
      · rw [step]
        exact (Function.update_of_ne hteam _ _).trans hrecent
      · exact (bannedTeam_banTeam_of_ne hteam).trans huntil
  · intro team' hmem u hrecent hpos
    by_cases hteam : team' = team
    · subst hteam
      have hu : untilTick = some u := by simpa [step] using hrecent
      exact hheeded u hu hpos
    · apply h.ahead team' (hother hmem hteam) u _ hpos
      rw [step] at hrecent
      exact (Function.update_of_ne hteam _ _).symm.trans hrecent

theorem Inv.unban (h : r.Inv) (team : ℤ) : (r.step (.unban team)).Inv where
  zero_notMem hmem := h.zero_notMem (mem_banned_unbanTeam.1 hmem).1
  known team' hmem := by
    obtain ⟨hmem, hne⟩ := mem_banned_unbanTeam.1 hmem
    obtain ⟨u, hrecent, huntil⟩ := h.known team' hmem
    exact ⟨u, hrecent, (bannedTeam_unbanTeam hne).trans huntil⟩
  ahead team' hmem := h.ahead team' (mem_banned_unbanTeam.1 hmem).1

/-- The step that the defect is in: a ban that is over by the start of `tick` is lifted only if
it was until this very tick. -/
theorem Inv.startTick (h : r.Inv) {tick : ℤ} (hheeded : r.Heeded (.startTick tick)) :
    (r.step (.startTick tick)).Inv where
  zero_notMem hmem := h.zero_notMem (mem_banned_unbanForTick.1 hmem).1
  known team hmem := by
    obtain ⟨u, hrecent, huntil⟩ := h.known team (mem_banned_unbanForTick.1 hmem).1
    exact ⟨u, hrecent, (bannedTeam_unbanForTick hmem).trans huntil⟩
  ahead team hmem u hrecent hpos := by
    obtain ⟨hbanned, hnotdue⟩ := mem_banned_unbanForTick.1 hmem
    obtain ⟨v, hv, huntil⟩ := h.known team hbanned
    obtain rfl : some u = v := Option.some_inj.1 (hrecent.symm.trans hv)
    have hle := hheeded team hbanned u hrecent hpos (h.ahead team hbanned u hrecent hpos)
    have hne : u ≠ tick := by
      rintro rfl
      rw [if_neg (fun h0 => hpos.ne' (Option.some_inj.1 h0))] at huntil
      exact hnotdue huntil
    intro last hlast
    obtain rfl : tick = last := Option.some_inj.1 hlast
    omega

theorem Inv.step (h : r.Inv) (hheeded : r.Heeded e) : (r.step e).Inv := by
  cases e with
  | ban team untilTick => exact h.ban hheeded
  | unban team => exact h.unban team
  | startTick tick => exact h.startTick hheeded

/-- With consecutive tick numbers no tick is skipped. -/
theorem heeded_startTick_succ {last : ℤ} (h : r.lastTick = some last) :
    r.Heeded (.startTick (last + 1)) := by
  intro team _ u _ _ hahead
  exact hahead last h

/-- **Timed bans expire** in every run in which each timed ban names a tick that is still to
start and no tick start skips the last tick of a ban. -/
theorem expired_of_heeded (events : List BanEvent) (hheeded : Along step Heeded init events)
    (before after : List BanEvent) (tick : ℤ)
    (hsplit : events = before ++ .startTick tick :: after) :
    (exec step init (before ++ [.startTick tick])).Expired tick := by
  have hupTo : events = (before ++ [.startTick tick]) ++ after := by simp [hsplit]
  rw [hupTo, along_append] at hheeded
  have hinv : Inv (exec step init (before ++ [.startTick tick])) :=
    hheeded.1.invariant (fun _ _ h hok => h.step hok) inv_init
  have hlast : (exec step init (before ++ [.startTick tick])).lastTick = some tick := by
    simp [exec_append, step]
  intro team hmem u hrecent hpos
  exact not_le.2 (hinv.ahead team hmem u hrecent hpos tick hlast)

/-- A ban until tick 2, given in tick 1, ends with the start of tick 2. -/
theorem expired_sample :
    (exec step init [.startTick 1, .ban 7 (some 2), .startTick 2]).Expired 2 :=
  expired_of_heeded [.startTick 1, .ban 7 (some 2), .startTick 2]
    ⟨fun _ h => absurd h List.not_mem_nil, by
      intro u hu _ last hlast
      obtain rfl : (2 : ℤ) = u := Option.some_inj.1 hu
      obtain rfl : (1 : ℤ) = last := Option.some_inj.1 hlast
      decide, (heeded_startTick_succ rfl : BanRun.Heeded _ (.startTick (1 + 1))), trivial⟩
    [.startTick 1, .ban 7 (some 2)] [] 2 rfl

/-- A ban until tick 3, given in tick 5, outlives the start of tick 6. -/
theorem not_expired :
    ¬ (exec step init [.startTick 5, .ban 7 (some 3), .startTick 6]).Expired 6 := by
  intro h
  exact h 7 (by decide) 3 (by decide) (by decide) (by decide)

end BanRun

end Gameserver.Vpn
