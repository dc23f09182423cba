import Gameserver.Calculation.InOrder

/-!
# Scoring old ticks again

`scoring_and_ranking` can be called again for a tick, and `scripts/recreate_ranking.py`
does so for a range of ticks, with a new `ScoringCalculation`, after it has deleted points
and ranking of the tick.

* `Replay`, `replay` — one such call, or a reset of the caches.
* `Settled.replay` — the step: a tick that is settled is scored again.
* `replay_unchanged` — **any sequence of replays leaves points, rankings and first blood
  marks as they are**, if no flag was submitted before the tick it was issued in;
  `replay_changes_points` has one that was.
-/

namespace Gameserver.Calculation

open Gameserver.Scoring Gameserver.FirstBlood

/-- What can be done with ticks that were scored. -/
inductive Replay where
  /-- `scoring_and_ranking` -/
  | scoringAndRanking (tick : ℕ)
  /-- The loop body of `recreate_ranking`. -/
  | recreate (tick : ℕ)
  /-- `reset_caches`, or a new `ScoringCalculation`. -/
  | resetCaches
  deriving DecidableEq

/-- Only ticks that were scored. -/
def Replay.Within (T : ℕ) : Replay → Prop
  | scoringAndRanking tick => 1 ≤ tick ∧ tick ≤ T
  | recreate tick => 1 ≤ tick ∧ tick ≤ T
  | resetCaches => True

instance (T : ℕ) (e : Replay) : Decidable (e.Within T) :=
  match e with
  | .scoringAndRanking _ => inferInstanceAs (Decidable (_ ∧ _))
  | .recreate _ => inferInstanceAs (Decidable (_ ∧ _))
  | .resetCaches => inferInstanceAs (Decidable True)

/-- `recreate_ranking`, as a list of replays. -/
def recreateRanking (tickStart tickEnd : ℕ) : List Replay :=
  .resetCaches :: (List.range' tickStart (tickEnd + 1 - tickStart)).map .recreate

variable {K : Type*} [Field K] [LinearOrder K]

/-- One replay. -/
def ScoringCalculation.replay {Cache : Type*} (C : ScoringCalculation K Cache)
    (st : State K Cache) :
    Replay → Raising Failure (State K Cache)
  | .scoringAndRanking tick => C.scoringAndRanking st tick
  | .recreate tick => C.scoringAndRanking { st with db := st.db.withoutTick tick } tick
  | .resetCaches => .ok (C.resetCaches st)

/-- The same rows in all tables, with the same marks. -/
structure Unchanged {Cache : Type*} (st st' : State K Cache) : Prop where
  tables : st.db.SameTables st'.db
  marks : st'.isFirstblood = st.isFirstblood

section Step

variable {choice : FirstBloodChoice} {S : Setup K} {services : List Service} {last : Database K}
  {n T t : ℕ} {st : State K choice.Cache}

namespace Settled

/-- Nothing new is stored: still settled. -/
theorem of_unchanged (h : Settled choice S services last n T st) {st' : State K choice.Cache}
    (hsame : Unchanged st st') (hreplay : choice.ReplayOk services (last.history n) st'.cache) :
    Settled choice S services last n T st' where
  leads := h.leads.of_tables hsame.tables.teams.symm hsame.tables.services.symm
    hsame.tables.submittedFlags.symm
  results := by
    refine h.results.congr ⟨⟨hsame.tables.teams, hsame.tables.services, ?_, ?_,
      fun tick _ => hsame.tables.points tick, fun tick _ => hsame.tables.ranking tick⟩,
      hsame.tables.points _, hsame.tables.ranking _⟩
    · rw [Database.flagsUpTo, Database.flagsUpTo, hsame.tables.submittedFlags]
    · rw [Database.checkerResultsUpTo, Database.checkerResultsUpTo, hsame.tables.checkerResults]
  marked := hsame.marks ▸ h.marked
  known := h.known
  recordable := hsame.marks ▸ h.recordable
  replayOk := hreplay

/-- The first bloods of an old tick: the marks stay. -/
theorem computeFirstbloodIncremental_eq (h : Settled choice S services last n T st)
    (htimely : Timely last n) (hT : T ≤ n) (ht : t < T) :
    ∃ cache', (choice.calculation S services).computeFirstbloodIncremental st
        (last.flagsOfTick (t + 1 : ℕ)) = .ok (st.isFirstblood, cache') ∧
      choice.ReplayOk services (last.history n) cache' := by
  have hts := Database.history_pairwise htimely.ts n
  have hflags : last.flagsOfTick (t + 1 : ℕ) ⊆ last.history T := by
    intro f hf
    obtain ⟨hmem, htick⟩ := (Database.mem_flagsOfTick _).1 hf
    exact Database.mem_history.2 ⟨hmem, by omega, by omega⟩
  have hinit : last.history T <+: last.history n := Database.history_prefix hT
  have hhistory : st.db.submittedFlags.rows ⊆ last.history n :=
    fun f hf => htimely.rows_subset (h.leads.rows hf)
  have hknown : FirstBloodChoice.ServicesKnown services (last.flagsOfTick (t + 1 : ℕ)) choice := by
    cases choice with
    | default => exact trivial
    | multi limit => exact fun f hf => h.known f (hflags hf)
  obtain ⟨⟨firstbloods, cache'⟩, hget⟩ : ∃ r, (choice.algorithm services).getFirstbloods
      (ScoringCalculation.view st) st.cache (last.flagsOfTick (t + 1 : ℕ)) = .ok r :=
    FirstBloodChoice.getFirstbloods_ok_iff.2 hknown
  have hmarked := (choice.replays hts).marked _ _ _ _ _ _ _ hinit h.leads.history_subset hhistory
    hflags h.marked h.replayOk hget
  refine ⟨cache', ScoringCalculation.computeFirstbloodIncremental_eq_ok_iff.2
    ⟨firstbloods, hget, fun r hr => ?_, record_of_marked fun r hr => (hmarked r hr).2.2⟩, ?_⟩
  · obtain ⟨hmem, hpos, heq⟩ := hmarked r hr
    rw [h.leads.teams]
    exact h.recordable r.1 ((Database.mem_flagsOfTick _).1 hmem).1 (heq ▸ hpos)
  · refine (choice.replays hts).batch _ _ _ _ _ _ ?_ hhistory ?_ h.replayOk hget
    · exact fun f hf => hinit.subset (hflags hf)
    · intro f hf g hg hlt
      exact h.leads.history_subset (htimely.mem_rows (hflags hf) hg hlt)

/-- **An old tick is scored again**, whether its points and ranking were deleted or not. -/
theorem rescore (h : Settled choice S services last n T st) (htimely : Timely last n) (hT : T ≤ n)
    (ht : t < T) {db₁ : Database K}
    (hdb₁ : db₁.withoutTick (t + 1 : ℕ) = st.db.withoutTick (t + 1 : ℕ)) :
    ∃ st', (choice.calculation S services).scoringAndRanking { st with db := db₁ } (t + 1) =
      .ok st' ∧
      Unchanged st st' ∧ choice.ReplayOk services (last.history n) st'.cache := by
  obtain ⟨cache', hcompute, hreplay⟩ := h.computeFirstbloodIncremental_eq htimely hT ht
  have hpast : Database.SamePast (t + 1) st.db db₁ := .of_withoutTick hdb₁
  have htables := h.results.rescored ht hdb₁
  have hflags : db₁.submittedFlags = st.db.submittedFlags := htables.submittedFlags
  have hcovers : (db₁.lastResults t).Covers db₁.roster := by
    rw [hpast.lastResults_eq, hpast.roster_eq]
    exact h.results.covers ht.le
  have hcomplete : t ≠ 0 → db₁.resultsMissing t = false := by
    intro hpos
    rw [← h.results.resultsMissing_eq ht.le hpos, Database.resultsMissing, Database.resultsMissing,
      hpast.points t (by omega), hpast.teams, hpast.services]
  have hcompute' : (choice.calculation S services).computeFirstbloodIncremental
    { st with db := db₁ }
      (db₁.flagsOfTick (t + 1 : ℕ)) = .ok (st.isFirstblood, cache') := by
    have hold : db₁.flagsOfTick (t + 1 : ℕ) = last.flagsOfTick (t + 1 : ℕ) := by
      rw [Database.flagsOfTick, hflags]
      exact h.leads.flagsOfTick_eq ht
    have hsame : (choice.calculation S services).computeFirstbloodIncremental { st with db := db₁ }
        (last.flagsOfTick (t + 1 : ℕ)) =
          (choice.calculation S services).computeFirstbloodIncremental
          st (last.flagsOfTick (t + 1 : ℕ)) := by
      simp only [ScoringCalculation.computeFirstbloodIncremental, ScoringCalculation.view, hflags,
        hpast.teams]
    rw [hold, hsame, hcompute]
  exact ⟨⟨db₁.rescored S t, st.isFirstblood, cache'⟩,
    Iff.mpr (ScoringCalculation.scoringAndRanking_eq_ok_iff hcovers hcomplete) ⟨hcompute', rfl⟩,
    ⟨htables, rfl⟩, hreplay⟩

/-- One replay. -/
theorem replay (h : Settled choice S services last n T st) (htimely : Timely last n) (hT : T ≤ n)
    {e : Replay} (he : e.Within T) :
    ∃ st', (choice.calculation S services).replay st e = .ok st' ∧ Unchanged st st' ∧
      Settled choice S services last n T st' := by
  cases e with
  | scoringAndRanking tick =>
    obtain ⟨t, rfl⟩ := Nat.exists_eq_succ_of_ne_zero (Nat.one_le_iff_ne_zero.1 he.1)
    obtain ⟨st', hscored, hsame, hreplay⟩ := h.rescore htimely hT he.2 rfl
    exact ⟨st', hscored, hsame, h.of_unchanged hsame hreplay⟩
  | recreate tick =>
    obtain ⟨t, rfl⟩ := Nat.exists_eq_succ_of_ne_zero (Nat.one_le_iff_ne_zero.1 he.1)
    have hdeleted : (st.db.withoutTick (t + 1 : ℕ)).withoutTick (t + 1 : ℕ) =
        st.db.withoutTick (t + 1 : ℕ) := by
      simp [Database.withoutTick, List.filter_filter]
    obtain ⟨st', hscored, hsame, hreplay⟩ := h.rescore htimely hT he.2 hdeleted
    exact ⟨st', hscored, hsame, h.of_unchanged hsame hreplay⟩
  | resetCaches =>
    have hsame : Unchanged st ((choice.calculation S services).resetCaches st) := ⟨.refl _, rfl⟩
    exact ⟨_, rfl, hsame, h.of_unchanged hsame
      (choice.replays (Database.history_pairwise htimely.ts n)).empty⟩

/-- Any sequence of replays. -/
theorem forEach_replay (h : Settled choice S services last n T st) (htimely : Timely last n)
    (hT : T ≤ n) {events : List Replay} (hevents : ∀ e ∈ events, e.Within T) :
    ∃ st', Raising.forEach (choice.calculation S services).replay events st = .ok st' ∧
      Unchanged st st' := by
  induction events generalizing st with
  | nil => exact ⟨st, rfl, .refl _, rfl⟩
  | cons e events ih =>
    obtain ⟨st₁, hfirst, hsame₁, hsettled⟩ := h.replay htimely hT (hevents e List.mem_cons_self)
    obtain ⟨st₂, hrest, hsame₂⟩ := ih hsettled fun e' he' => hevents e' (List.mem_cons_of_mem _ he')
    refine ⟨st₂, ?_, hsame₁.tables.trans hsame₂.tables, hsame₂.marks.trans hsame₁.marks⟩
    rw [Raising.forEach_cons, hfirst, Raising.andThen_ok, hrest]

end Settled

end Step

/-! ## Any replays -/

/-- Every flag was submitted in a tick that is scored, and (if its teams and its service
are known) not before the tick it was issued in. -/
def InTime (db : Database K) : Prop :=
  ∀ f ∈ db.submittedFlags.rows, 1 ≤ f.tickSubmitted ∧
    ((f.submittedBy, f.serviceId) ∈ db.roster.pairs → (f.teamId, f.serviceId) ∈ db.roster.pairs →
      f.tickIssued ≤ f.tickSubmitted)

instance (db : Database K) : Decidable (InTime db) :=
  inferInstanceAs (Decidable (∀ f ∈ db.submittedFlags.rows, 1 ≤ f.tickSubmitted ∧ (_ → _ → _)))

/-- **Replays change nothing.**  After the ticks `1 … T` have been scored in order, with
either first blood algorithm, every sequence of calls of `scoring_and_ranking`, of rounds
of `recreate_ranking` and of cache resets succeeds and leaves `team_points`,
`team_rankings` and all marks as they are. -/
theorem replay_unchanged (choice : FirstBloodChoice) (S : Setup K) (services : List Service) {T : ℕ}
    {st : State K choice.Cache} (hreached : Reached (choice.calculation S services) T st)
    (hts : TsIncreasing st.db.submittedFlags.rows) (hintime : InTime st.db) {events : List Replay}
    (hevents : ∀ e ∈ events, e.Within T) :
    ∃ st', Raising.forEach (choice.calculation S services).replay events st = .ok st' ∧
      st'.db.teamPoints.Perm st.db.teamPoints ∧ st'.db.teamRankings.Perm st.db.teamRankings ∧
      st'.isFirstblood = st.isFirstblood := by
  -- a tick after all flags
  set n := T + (st.db.submittedFlags.rows.map fun f => f.tickSubmitted.toNat).sum
  have htimely : Timely st.db n := by
    refine ⟨hts, fun f hf => ⟨(hintime f hf).1, ?_⟩, fun f hf => (hintime f hf).2⟩
    have hle : f.tickSubmitted.toNat ≤
        (st.db.submittedFlags.rows.map fun f => f.tickSubmitted.toNat).sum :=
      List.le_sum_of_mem (List.mem_map_of_mem hf)
    omega
  have hT : T ≤ n := Nat.le_add_right T _
  have hleads : Leads st.db T st.db := ⟨rfl, rfl, rfl, fun _ hf => hf⟩
  obtain ⟨st', hrun, hsame⟩ :=
    (hreached.settled htimely hT hleads).1.forEach_replay htimely hT hevents
  exact ⟨st', hrun, hsame.tables.teamPoints, hsame.tables.teamRankings, hsame.marks⟩

/-! ## A flag that is submitted early -/

/-- Scoring one tick after the other. -/
theorem Reached.of_forEach {Cache : Type*} {C : ScoringCalculation K Cache} {db : Database K}
    {T : ℕ}
    {st : State K Cache}
    (h : Raising.forEach C.scoringAndRanking (List.range' 1 T)
      ⟨db, fun _ => 0, C.firstBlood.empty⟩ =
      .ok st) : Reached C T st := by
  induction T generalizing st with
  | zero =>
    obtain rfl := Raising.ok.inj h
    exact .start db
  | succ T ih =>
    rw [List.range'_1_concat, Raising.forEach_append] at h
    cases hbefore : Raising.forEach C.scoringAndRanking (List.range' 1 T)
        ⟨db, fun _ => 0, C.firstBlood.empty⟩ with
    | raised e st₁ =>
      rw [hbefore] at h
      cases h
    | ok st₁ =>
      rw [hbefore, Raising.andThen_ok, Raising.forEach_cons, Nat.add_comm 1 T] at h
      cases hscored : C.scoringAndRanking st₁ (T + 1) with
      | raised e st₂ =>
        rw [hscored] at h
        cases h
      | ok st₂ =>
        rw [hscored] at h
        obtain rfl := Raising.ok.inj h
        exact .tick (ih hbefore) hscored

/-- Team 1 submits a flag of team 2 in tick 1 and another one in tick 2.  The first one was
issued in the given tick.  The service of team 2 is up in both ticks. -/
def replayDatabase (tickIssued : ℤ) : Database ℚ where
  teams := [1, 2]
  services := [.new 1 0]
  submittedFlags :=
    { rows := [⟨1, 1, 2, 1, tickIssued, 5, 1, 10⟩, ⟨2, 1, 2, 1, 2, 6, 2, 20⟩]
      primaryKey := by simp
      unique := by simp [SubmittedFlag.uniqueKey, SubmittedFlag.key] }
  checkerResults := [⟨2, 1, 1, .success⟩, ⟨2, 1, 2, .success⟩]
  teamPoints := []
  teamRankings := []

/-- Scoring both ticks. -/
def replayScored (choice : FirstBloodChoice) (tickIssued : ℤ) :
    Raising Failure (State ℚ choice.Cache) :=
  Raising.forEach (choice.calculation sampleSetup [.new 1 0]).scoringAndRanking [1, 2]
    ⟨replayDatabase tickIssued, fun _ => 0, (choice.algorithm [.new 1 0]).empty⟩

/-- Both ticks are recreated, with the multi-level algorithm and without its caches, and
tick 1 is scored once more. -/
theorem replay_unchanged_two_ticks :
    ∃ st st', Reached ((FirstBloodChoice.multi 3).calculation sampleSetup [.new 1 0]) 2 st ∧
      Raising.forEach ((FirstBloodChoice.multi 3).calculation sampleSetup [.new 1 0]).replay
        (recreateRanking 1 2 ++ [.scoringAndRanking 1]) st = .ok st' ∧
      st'.db.teamPoints.Perm st.db.teamPoints ∧ st'.db.teamRankings.Perm st.db.teamRankings ∧
      st'.isFirstblood = st.isFirstblood := by
  have hreached := Reached.of_forEach (T := 2)
    (Raising.eq_ok_of_isOk (x := replayScored (.multi 3) 1) (by decide +kernel))
  obtain ⟨st', hreplay⟩ := replay_unchanged (.multi 3) sampleSetup [.new 1 0] hreached
    (by decide +kernel) (by decide +kernel)
    (show ∀ e ∈ recreateRanking 1 2 ++ [.scoringAndRanking 1], e.Within 2 by decide)
  exact ⟨_, st', hreached, hreplay⟩

/-- The flag was issued in tick 2 and submitted in tick 1.  When tick 1 is scored again,
the victim had an SLA in tick 2 and loses defensive points. -/
theorem replay_changes_points :
    ∃ st st', Reached (FirstBloodChoice.default.calculation sampleSetup [.new 1 0]) 2 st ∧
      TsIncreasing st.db.submittedFlags.rows ∧
      (FirstBloodChoice.default.calculation sampleSetup [.new 1 0]).scoringAndRanking st 1 =
      .ok st' ∧
      ¬ st'.db.teamPoints.Perm st.db.teamPoints := by
  have hreached := Reached.of_forEach (T := 2)
    (Raising.eq_ok_of_isOk (x := replayScored .default 2) (by decide +kernel))
  have hagain := Raising.eq_ok_of_isOk
    (x := (FirstBloodChoice.default.calculation sampleSetup [.new 1 0]).scoringAndRanking
      (replayScored .default 2).state 1) (by decide +kernel)
  exact ⟨_, _, hreached, by decide +kernel, hagain, by decide +kernel⟩

end Gameserver.Calculation
