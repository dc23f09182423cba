import Gameserver.Calculation.Replay
import Gameserver.FirstBlood.Recompute

/-!
# Going back to an old tick

`scripts/reset_ctf_to_round.py` deletes everything that is later than a tick from the
database: points, rankings, checker results and submitted flags.  The first blood marks are
a column of the submitted flags.

* `resetDatabase` — the script, and the restart of the other components.
* `ResultsSettled.unique` — the points and rankings of settled ticks are determined by flags
  and checker results.
* `Continued` — what a game did after a tick.
* `reset_undoes` — **the reset undoes everything that came after the tick**.
* `reset_rescore` — **when the later ticks are scored again from the same rows, everything is
  as it was before the reset**.
-/

namespace Gameserver.Scoring.Database

variable {K : Type*} [Field K] [LinearOrder K] {S : Setup K} {db db' : Database K} {t u : ℕ}

theorem ResultsSettled.mono (h : ResultsSettled S t db) (hut : u ≤ t) : ResultsSettled S u db :=
  ⟨fun v hv => h.issued v (by omega), fun v hv => h.points v (by omega),
    fun v hv => h.ranking v (by omega)⟩

/-- What has been the same before the first tick, and everything that is not computed. -/
structure SameSource (t : ℕ) (db db' : Database K) : Prop where
  teams : db'.teams = db.teams
  services : db'.services = db.services
  flags : db'.flagsUpTo t = db.flagsUpTo t
  checkerResults : db'.checkerResultsUpTo t = db.checkerResultsUpTo t
  points : ∀ tick : ℤ, tick ≤ 0 → db'.pointsRows tick = db.pointsRows tick
  ranking : ∀ tick : ℤ, tick ≤ 0 → db'.rankingRows tick = db.rankingRows tick

namespace SameSource

omit [Field K] [LinearOrder K] in
theorem symm (h : SameSource t db db') : SameSource t db' db :=
  ⟨h.teams.symm, h.services.symm, h.flags.symm, h.checkerResults.symm,
    fun tick htick => (h.points tick htick).symm, fun tick htick => (h.ranking tick htick).symm⟩

omit [Field K] [LinearOrder K] in
theorem of_le (h : SameSource t db db') (hut : u ≤ t) : SameSource u db db' where
  teams := h.teams
  services := h.services
  flags := by
    rw [flagsUpTo_of_le db' t (by omega), h.flags, ← flagsUpTo_of_le db t (by omega)]
  checkerResults := by
    rw [checkerResultsUpTo_of_le db' t (by omega), h.checkerResults,
      ← checkerResultsUpTo_of_le db t (by omega)]
  points := h.points
  ranking := h.ranking

end SameSource

/-- The results of a tick, in databases with the same past of it. -/
theorem SamePast.computed_eq (hpast : SamePast (u + 1) db db') (hissued : db.IssuedBy (u + 1)) :
    db'.roster.pairs.filterMap
      (tickResults S db'.roster (db'.tickInput S (u + 1 : ℕ) (db'.lastResults u))) =
    db.roster.pairs.filterMap
      (tickResults S db.roster (db.tickInput S (u + 1 : ℕ) (db.lastResults u))) := by
  rw [hpast.tickResults_eq S hissued, hpast.lastResults_eq, hpast.roster_eq]

/-- **Settled ticks are determined**: two databases with the same flags and checker results have
the same points and rankings. -/
theorem ResultsSettled.unique (h : ResultsSettled S t db) (h' : ResultsSettled S t db')
    (hsource : SameSource t db db') : SameUpTo t db db' := by
  induction t with
  | zero =>
    exact ⟨⟨hsource.teams, hsource.services, hsource.flags, hsource.checkerResults,
      fun tick htick => hsource.points tick htick.le,
      fun tick htick => hsource.ranking tick htick.le⟩, hsource.points _ le_rfl,
      hsource.ranking _ le_rfl⟩
  | succ t ih =>
    have hbefore := ih (h.mono (Nat.le_succ t)) (h'.mono (Nat.le_succ t))
      (hsource.of_le (Nat.le_succ t))
    have hpast : SamePast (t + 1) db db' := by
      refine ⟨hsource.teams, hsource.services, hsource.flags, hsource.checkerResults,
        fun tick htick => ?_, fun tick htick => ?_⟩
      · rcases eq_or_lt_of_le (show tick ≤ t by omega) with rfl | hlt
        · exact hbefore.points_self
        · exact hbefore.points tick hlt
      · rcases eq_or_lt_of_le (show tick ≤ t by omega) with rfl | hlt
        · exact hbefore.ranking_self
        · exact hbefore.ranking tick hlt
    have hpoints : db'.pointsRows (t + 1 : ℕ) = db.pointsRows (t + 1 : ℕ) := by
      rw [h'.points t (Nat.lt_succ_self t), h.points t (Nat.lt_succ_self t)]
      exact hpast.computed_eq (h.issued t (Nat.lt_succ_self t))
    have hdict : db'.pointsDict (t + 1 : ℕ) = db.pointsDict (t + 1 : ℕ) := by
      funext key
      rw [pointsDict, pointsDict, hpoints]
    refine ⟨hpast, hpoints, ?_⟩
    rw [h'.ranking t (Nat.lt_succ_self t), h.ranking t (Nat.lt_succ_self t), hdict,
      hpast.roster_eq, unranked, unranked, hpast.teams]

end Gameserver.Scoring.Database

namespace Gameserver.Calculation

open Gameserver.Scoring Gameserver.FirstBlood

variable {K : Type*}

/-! ## The script -/

/-- Rows are deleted from `submitted_flags`. -/
def SubmittedFlags.upTo (flags : SubmittedFlags) (tick : ℕ) : SubmittedFlags where
  rows := flags.rows.filter fun f => f.tickSubmitted ≤ tick
  primaryKey := flags.primaryKey.sublist (List.filter_sublist.map _)
  unique := flags.unique.sublist (List.filter_sublist.map _)

/-- The tables after `reset_database`. -/
def Database.upTo (db : Database K) (tick : ℕ) : Database K where
  teams := db.teams
  services := db.services
  submittedFlags := SubmittedFlags.upTo db.submittedFlags tick
  checkerResults := db.checkerResults.filter fun row => row.tick ≤ tick
  teamPoints := db.teamPoints.filter fun row => row.tick ≤ tick
  teamRankings := db.teamRankings.filter fun row => row.tick ≤ tick

/-- `reset_database`, with the marks of the rows that stay; the other components are restarted, so
the caches are empty. -/
def ScoringCalculation.resetDatabase {Cache : Type*} (C : ScoringCalculation K Cache)
    (st : State K Cache) (tick : ℕ) : State K Cache where
  db := Database.upTo st.db tick
  isFirstblood := fun id =>
    if ∃ f ∈ (Database.upTo st.db tick).submittedFlags.rows, f.id = id then
      st.isFirstblood id
    else 0
  cache := C.firstBlood.empty

section UpTo

variable {db : Database K} {t : ℕ} {tick : ℤ}

theorem flagsUpTo_upTo : (Database.upTo db t).flagsUpTo t = db.flagsUpTo t := by
  simp [Database.flagsUpTo, Database.upTo, SubmittedFlags.upTo, List.filter_filter]

theorem checkerResultsUpTo_upTo :
    (Database.upTo db t).checkerResultsUpTo t = db.checkerResultsUpTo t := by
  simp [Database.checkerResultsUpTo, Database.upTo, List.filter_filter]

/-- The rows of a tick, among those up to another one. -/
theorem filter_tick_upTo {α : Type*} (rows : List α) (tickOf : α → ℤ) :
    ((rows.filter fun row => tickOf row ≤ t).filter fun row => tickOf row = tick) =
      if tick ≤ t then rows.filter fun row => tickOf row = tick else [] := by
  rw [List.filter_filter]
  split_ifs with htick
  · refine List.filter_congr fun row _ => ?_
    by_cases hrow : tickOf row = tick <;> simp [hrow, htick]
  · refine List.filter_eq_nil_iff.mpr fun row _ => ?_
    by_cases hrow : tickOf row = tick <;> simp [hrow, htick]

theorem pointsRows_upTo :
    (Database.upTo db t).pointsRows tick = if tick ≤ t then db.pointsRows tick else [] :=
  filter_tick_upTo db.teamPoints TeamPointsLite.tick

theorem rankingRows_upTo :
    (Database.upTo db t).rankingRows tick = if tick ≤ t then db.rankingRows tick else [] :=
  filter_tick_upTo db.teamRankings TeamRanking.tick

/-- Nothing up to the tick is deleted. -/
theorem sameUpTo_upTo : Database.SameUpTo t db (Database.upTo db t) where
  teams := rfl
  services := rfl
  flags := flagsUpTo_upTo
  checkerResults := checkerResultsUpTo_upTo
  points tick htick := by rw [pointsRows_upTo, if_pos htick.le]
  ranking tick htick := by rw [rankingRows_upTo, if_pos htick.le]
  points_self := by rw [pointsRows_upTo, if_pos le_rfl]
  ranking_self := by rw [rankingRows_upTo, if_pos le_rfl]

end UpTo

variable [Field K] [LinearOrder K]

section Reset

variable {choice : FirstBloodChoice} {S : Setup K} {services : List Service} {last : Database K}
  {n T t u : ℕ} {st st₀ : State K choice.Cache}

/-! ## What is left -/

/-- The marks of the rows that stay are those of a game that ended with the tick. -/
theorem marked_resetDatabase (h : Settled choice S services last n T st) (htimely : Timely last n)
    (ht : t ≤ T) (hlast : st.db.flagsUpTo t = last.flagsUpTo t) :
    Marked (choice.level services) (last.history t)
      ((choice.calculation S services).resetDatabase st t).isFirstblood := by
  have hmem : ∀ f, f ∈ (Database.upTo st.db t).submittedFlags.rows ↔ f ∈ last.history t := by
    intro f
    have hrows : (Database.upTo st.db t).submittedFlags.rows = st.db.flagsUpTo t := rfl
    rw [hrows, hlast, Database.mem_flagsUpTo, Database.mem_history]
    exact ⟨fun hf => ⟨hf.1, (htimely.tick f hf.1).1, hf.2⟩, fun hf => ⟨hf.1, hf.2.2⟩⟩
  obtain ⟨rest, hrest⟩ : last.history t <+: last.history T := Database.history_prefix ht
  constructor
  · intro before f after heq
    have hf : f ∈ last.history t := heq ▸ List.mem_append_right _ List.mem_cons_self
    have hmark : ((choice.calculation S services).resetDatabase st t).isFirstblood f.id =
        st.isFirstblood f.id := if_pos ⟨f, (hmem f).mpr hf, rfl⟩
    rw [hmark]
    refine h.marked.level_eq before f (after ++ rest) ?_
    rw [← hrest, heq]
    simp
  · intro id hid
    refine if_neg ?_
    rintro ⟨f, hf, rfl⟩
    exact hid f ((hmem f).mp hf) rfl

/-- **After the reset the ticks up to the given one are settled**, as after the tick itself. -/
theorem Settled.resetDatabase (h : Settled choice S services last n T st)
    (htimely : Timely last n) (ht : t ≤ T) :
    Settled choice S services last n t ((choice.calculation S services).resetDatabase st t) where
  leads := by
    have hleads := h.leads.of_le ht
    refine ⟨hleads.teams, hleads.services, flagsUpTo_upTo.trans hleads.flags, ?_⟩
    exact fun f hf => hleads.rows (List.mem_filter.mp hf).1
  results := (h.results.mono ht).congr sameUpTo_upTo
  marked := marked_resetDatabase h htimely ht (h.leads.of_le ht).flags
  known := by
    cases choice with
    | default => exact trivial
    | multi limit => exact fun f hf => h.known f ((Database.history_prefix ht).subset hf)
  recordable := by
    intro f hf hpos
    refine h.recordable f hf ?_
    rw [ScoringCalculation.resetDatabase] at hpos
    dsimp only at hpos
    split_ifs at hpos
    · exact hpos
    · exact absurd hpos (lt_irrefl 0)
  replayOk := (choice.replays (Database.history_pairwise htimely.ts n)).empty

/-! ## The game after a tick -/

/-- A game goes on from a state in which the ticks `1 … t` have been scored. -/
inductive Continued {Cache : Type*} (C : ScoringCalculation K Cache) (t : ℕ) (st₀ : State K Cache) :
    ℕ → State K Cache → Prop
  | refl : Continued C t st₀ t st₀
  | between {T : ℕ} {st st' : State K Cache} (h : Continued C t st₀ T st)
      (hbetween : Between C T st st') : Continued C t st₀ T st'
  | tick {T : ℕ} {st st' : State K Cache} (h : Continued C t st₀ T st)
      (hscored : C.scoringAndRanking st (T + 1) = .ok st') : Continued C t st₀ (T + 1) st'

theorem Continued.reached {Cache : Type*} {C : ScoringCalculation K Cache} {st₀ st : State K Cache}
    (h : Continued C t st₀ T st) (h₀ : Reached C t st₀) : Reached C T st ∧ t ≤ T := by
  induction h with
  | refl => exact ⟨h₀, le_rfl⟩
  | between _ hbetween ih => exact ⟨ih.1.between hbetween, ih.2⟩
  | tick _ hscored ih => exact ⟨ih.1.tick hscored, by omega⟩

omit [Field K] [LinearOrder K] in
theorem Between.leads {Cache : Type*} {C : ScoringCalculation K Cache} {st st' : State K Cache}
    (hbetween : Between C T st st') (h : Leads last T st'.db) : Leads last T st.db :=
  ⟨hbetween.teams.symm.trans h.teams, hbetween.services.symm.trans h.services,
    hbetween.flags.symm.trans h.flags, fun _ hf => h.rows (hbetween.rows hf)⟩

/-- What the scoring of later ticks and the arrival of later rows leave alone. -/
theorem Continued.sameSource
    (h : Continued (choice.calculation S services) t st₀ T st)
    (h₀ : Reached (choice.calculation S services) t st₀) (htimely : Timely last n) (hT : T ≤ n)
    (hleads : Leads last T st.db) :
    Leads last t st₀.db ∧ Database.SameSource t st₀.db st.db := by
  induction h with
  | refl => exact ⟨hleads, rfl, rfl, rfl, rfl, fun _ _ => rfl, fun _ _ => rfl⟩
  | @between T st st' hbefore hbetween ih =>
    have ht := (hbefore.reached h₀).2
    obtain ⟨hleads₀, hsource⟩ := ih hT (hbetween.leads hleads)
    refine ⟨hleads₀, hbetween.teams.trans hsource.teams, hbetween.services.trans hsource.services,
      ?_, ?_, fun tick htick => ?_, fun tick htick => ?_⟩
    · rw [Database.flagsUpTo_of_le st'.db (T : ℤ) (by omega), hbetween.flags,
        ← Database.flagsUpTo_of_le st.db (T : ℤ) (by omega), hsource.flags]
    · rw [Database.checkerResultsUpTo_of_le st'.db (T : ℤ) (by omega), hbetween.checkerResults,
        ← Database.checkerResultsUpTo_of_le st.db (T : ℤ) (by omega), hsource.checkerResults]
    · rw [← hsource.points tick htick, Database.pointsRows, hbetween.teamPoints]
      rfl
    · rw [← hsource.ranking tick htick, Database.rankingRows, hbetween.teamRankings]
      rfl
  | @tick T st st' hbefore hscored ih =>
    obtain ⟨hteams, hservices, hflags⟩ := ScoringCalculation.scoringAndRanking_sameRows hscored
    have hleads' : Leads last T st.db :=
      (hleads.of_tables hteams hservices hflags).of_le (Nat.le_succ T)
    obtain ⟨hleads₀, hsource⟩ := ih (by omega) hleads'
    have hsettled := ((hbefore.reached h₀).1.settled htimely (by omega) hleads').1
    obtain ⟨-, hdb⟩ := (ScoringCalculation.scoringAndRanking_eq_ok_iff
      (hsettled.results.covers le_rfl) (hsettled.results.resultsMissing_eq le_rfl)).1 hscored
    refine ⟨hleads₀, ?_⟩
    rw [hdb]
    exact ⟨hsource.teams, hsource.services, hsource.flags, hsource.checkerResults,
      fun tick htick => (Database.pointsRows_rescored_ne S st.db T (by omega)).trans
        (hsource.points tick htick),
      fun tick htick => (Database.rankingRows_rescored_ne S st.db T (by omega)).trans
        (hsource.ranking tick htick)⟩

omit [Field K] [LinearOrder K] in
/-- There is a tick after all flags. -/
theorem InTime.exists_timely {db : Database K} (hintime : InTime db)
    (hts : TsIncreasing db.submittedFlags.rows) (T : ℕ) : ∃ n, T ≤ n ∧ Timely db n := by
  refine ⟨T + (db.submittedFlags.rows.map fun f => f.tickSubmitted.toNat).sum,
    Nat.le_add_right T _, hts, fun f hf => ⟨(hintime f hf).1, ?_⟩, fun f hf => (hintime f hf).2⟩
  have hle : f.tickSubmitted.toNat ≤
      (db.submittedFlags.rows.map fun f => f.tickSubmitted.toNat).sum :=
    List.le_sum_of_mem (List.mem_map_of_mem hf)
  omega

omit [Field K] [LinearOrder K] in
theorem SameUpTo.points_of_le {db db' : Database K} (h : Database.SameUpTo t db db') {tick : ℤ}
    (htick : tick ≤ t) : db'.pointsRows tick = db.pointsRows tick := by
  rcases eq_or_lt_of_le htick with rfl | hlt
  · exact h.points_self
  · exact h.points tick hlt

omit [Field K] [LinearOrder K] in
theorem SameUpTo.ranking_of_le {db db' : Database K} (h : Database.SameUpTo t db db') {tick : ℤ}
    (htick : tick ≤ t) : db'.rankingRows tick = db.rankingRows tick := by
  rcases eq_or_lt_of_le htick with rfl | hlt
  · exact h.ranking_self
  · exact h.ranking tick hlt

end Reset

/-- **A reset undoes everything that came after the tick.**  After the ticks `1 … t` have been
scored the game goes on for any time: later ticks are scored, flags and checker results arrive,
caches are lost.  The reset to tick `t` leaves the flags and checker results of the first `t`
ticks, the points and rankings of every one of these ticks as they were after tick `t`, none of
any other tick, and the first blood marks as they were then. -/
theorem reset_undoes (choice : FirstBloodChoice) (S : Setup K) (services : List Service) {t T : ℕ}
    {st₀ st : State K choice.Cache} (h₀ : Reached (choice.calculation S services) t st₀)
    (h : Continued (choice.calculation S services) t st₀ T st)
    (hts : TsIncreasing st.db.submittedFlags.rows) (hintime : InTime st.db) :
    let reset := (choice.calculation S services).resetDatabase st t
    reset.db.submittedFlags.rows = st₀.db.flagsUpTo t ∧
      reset.db.checkerResults = st₀.db.checkerResultsUpTo t ∧
      (∀ tick : ℤ, reset.db.pointsRows tick = if tick ≤ t then st₀.db.pointsRows tick else []) ∧
      (∀ tick : ℤ, reset.db.rankingRows tick = if tick ≤ t then st₀.db.rankingRows tick else []) ∧
      reset.isFirstblood = st₀.isFirstblood := by
  intro reset
  obtain ⟨hreached, ht⟩ := h.reached h₀
  obtain ⟨n, hT, htimely⟩ := hintime.exists_timely hts T
  have hleads : Leads st.db T st.db := ⟨rfl, rfl, rfl, fun _ hf => hf⟩
  obtain ⟨hleads₀, hsource⟩ := h.sameSource h₀ htimely hT hleads
  have hsettled₀ := (h₀.settled htimely (by omega) hleads₀).1
  have hsettled := (hreached.settled htimely hT hleads).1
  have hsame := hsettled₀.results.unique (hsettled.results.mono ht) hsource
  refine ⟨hsource.flags, hsource.checkerResults, fun tick => ?_, fun tick => ?_, ?_⟩
  · refine pointsRows_upTo.trans ?_
    split_ifs with htick
    · exact SameUpTo.points_of_le hsame htick
    · rfl
  · refine rankingRows_upTo.trans ?_
    split_ifs with htick
    · exact SameUpTo.ranking_of_le hsame htick
    · rfl
  · exact (marked_resetDatabase hsettled htimely ht rfl).unique hsettled₀.marked

/-- The object of the sample. -/
abbrev sampleCalculation : ScoringCalculation ℚ (FirstBloodChoice.multi 3).Cache :=
  (FirstBloodChoice.multi 3).calculation sampleSetup [.new 1 0]

/-- The second tick of the sample is undone. -/
theorem reset_undoes_sample : ∃ st₀ st, Continued sampleCalculation 1 st₀ 2 st ∧
    (sampleCalculation.resetDatabase st 1).db.pointsRows 2 = [] ∧
    (sampleCalculation.resetDatabase st 1).db.pointsRows 1 = st₀.db.pointsRows 1 ∧
    (sampleCalculation.resetDatabase st 1).isFirstblood = st₀.isFirstblood := by
  have hfirst := Raising.eq_ok_of_isOk (x := sampleCalculation.scoringAndRanking
    ⟨replayDatabase 1, fun _ => 0, sampleCalculation.firstBlood.empty⟩ 1) (by decide +kernel)
  have hsecond := Raising.eq_ok_of_isOk (x := sampleCalculation.scoringAndRanking
    (sampleCalculation.scoringAndRanking
      ⟨replayDatabase 1, fun _ => 0, sampleCalculation.firstBlood.empty⟩ 1).state 2)
    (by decide +kernel)
  have h := Continued.refl.tick hsecond
  obtain ⟨-, -, hpoints, -, hmarks⟩ := reset_undoes (.multi 3) sampleSetup [.new 1 0]
    ((Reached.start (replayDatabase 1)).tick hfirst) h (by decide +kernel) (by decide +kernel)
  exact ⟨_, _, h, (hpoints 2).trans (if_neg (by decide)), (hpoints 1).trans (if_pos le_rfl), hmarks⟩

/-! ## Scoring the later ticks again -/

section Rescore

variable {choice : FirstBloodChoice} {S : Setup K} {services : List Service} {last : Database K}
  {n T u : ℕ} {st st' : State K choice.Cache}

/-- The rows of the game are all there, and the ticks `1 … u` are scored as they were. -/
structure Rescored (choice : FirstBloodChoice) (S : Setup K) (services : List Service)
    (last : Database K) (n u : ℕ) (st : State K choice.Cache) : Prop where
  settled : Settled choice S services last n u st
  cache : choice.CacheOk services (last.history u) st.cache
  rows : SameRows last st.db
  source : ∀ T, Database.SameSource T last st.db

/-- **A tick that has been scored once can be scored again.** -/
theorem Rescored.next (h : Rescored choice S services last n u st')
    (hlast : Settled choice S services last n T st) (htimely : Timely last n) (hT : T ≤ n)
    (hu : u < T) :
    ∃ st'', (choice.calculation S services).scoringAndRanking st' (u + 1) = .ok st'' ∧
      Rescored choice S services last n (u + 1) st'' := by
  have hts := Database.history_pairwise htimely.ts n
  have hids := Database.history_ids htimely.ts n
  have hleads : Leads last (u + 1) st'.db := by
    refine ⟨h.rows.1, h.rows.2.1, (h.source (u + 1)).flags, ?_⟩
    rw [h.rows.2.2]
    exact fun _ hf => hf
  have hpast : last.history u ++ last.flagsOfTick (u + 1 : ℕ) <+: last.history T := by
    rw [← Database.history_succ]
    exact Database.history_prefix hu
  have hpast' := hpast.trans (Database.history_prefix hT)
  have hknown : FirstBloodChoice.ServicesKnown services (last.flagsOfTick (u + 1 : ℕ)) choice := by
    cases choice with
    | default => exact trivial
    | multi limit =>
      exact fun f hf => hlast.known f (hpast.subset (List.mem_append_right _ hf))
  obtain ⟨⟨firstbloods, cache⟩, hget⟩ : ∃ r, (choice.algorithm services).getFirstbloods
      (ScoringCalculation.view st') st'.cache (last.flagsOfTick (u + 1 : ℕ)) = .ok r :=
    FirstBloodChoice.getFirstbloods_ok_iff.2 hknown
  have hrows : last.history u ++ last.flagsOfTick (u + 1 : ℕ) ⊆ st'.db.submittedFlags.rows := by
    rw [← Database.history_succ]
    exact hleads.history_subset
  obtain ⟨hlevels, -⟩ := (choice.correct hts hids).batch _ _ _ _ _ _ _ hpast' hrows
    (fun f hf => htimely.rows_subset (hleads.rows hf)) h.settled.marked h.cache hget
  -- what is awarded now was awarded before, and could be recorded then
  have hrecordable : ∀ r ∈ firstbloods,
      (choice.calculation S services).Recordable st'.db.teams r.1 := by
    intro r hr
    obtain ⟨first, rest, hsplit, hlevel⟩ := exists_split_of_mem_levels (hlevels ▸ hr)
    obtain ⟨after, hafter⟩ := hpast
    have hmark := hlast.marked.level_eq (last.history u ++ first) r.1 (rest ++ after) (by
      rw [← hafter, hsplit]
      simp)
    have hmem : r.1 ∈ last.flagsOfTick (u + 1 : ℕ) := by
      rw [hsplit]
      simp
    rw [hleads.teams]
    exact hlast.recordable r.1 ((Database.mem_flagsOfTick _).1 hmem).1 (hmark ▸ hlevel)
  have hscored : (choice.calculation S services).scoringAndRanking st' (u + 1) =
      .ok ⟨st'.db.rescored S u, record st'.isFirstblood firstbloods, cache⟩ := by
    refine Iff.mpr (ScoringCalculation.scoringAndRanking_eq_ok_iff
      (h.settled.results.covers le_rfl) (h.settled.results.resultsMissing_eq le_rfl)) ⟨?_, rfl⟩
    rw [hleads.flagsOfTick_eq le_rfl]
    exact ScoringCalculation.computeFirstbloodIncremental_eq_ok_iff.2
      ⟨firstbloods, hget, hrecordable, rfl⟩
  obtain ⟨hsettled, hcache⟩ := h.settled.tick htimely h.cache (by omega) hleads hscored
  refine ⟨_, hscored, hsettled, hcache, h.rows, fun T => ?_⟩
  have hsource := h.source T
  exact ⟨hsource.teams, hsource.services, hsource.flags, hsource.checkerResults,
    fun tick htick => (Database.pointsRows_rescored_ne S st'.db u (by omega)).trans
      (hsource.points tick htick),
    fun tick htick => (Database.rankingRows_rescored_ne S st'.db u (by omega)).trans
      (hsource.ranking tick htick)⟩

/-- All ticks that are left, one after the other. -/
theorem Rescored.forEach (h : Rescored choice S services last n u st')
    (hlast : Settled choice S services last n T st) (htimely : Timely last n) (hT : T ≤ n)
    {k : ℕ} (hk : u + k = T) : ∃ st'', Raising.forEach
      (choice.calculation S services).scoringAndRanking (List.range' (u + 1) k) st' = .ok st'' ∧
      Rescored choice S services last n T st'' := by
  induction k generalizing u st' with
  | zero =>
    obtain rfl : u = T := hk
    exact ⟨st', rfl, h⟩
  | succ k ih =>
    obtain ⟨st₁, hscored, hnext⟩ := h.next hlast htimely hT (by omega)
    obtain ⟨st₂, hrest, hend⟩ := ih hnext (by omega)
    refine ⟨st₂, ?_, hend⟩
    rw [List.range'_succ, Raising.forEach_cons, hscored, Raising.andThen_ok, hrest]

end Rescore

omit [Field K] [LinearOrder K] in
/-- Empty caches are right at any time. -/
theorem FirstBloodChoice.cacheOk_empty {choice : FirstBloodChoice} {services : List Service}
    {history : List SubmittedFlag}
    (hknown : FirstBloodChoice.ServicesKnown services history choice) :
    choice.CacheOk services history (choice.algorithm services).empty := by
  cases choice with
  | default =>
    rintro f ⟨serviceId, payload⟩ - hcached
    cases payload with
    | none => cases hcached
    | some payload =>
      obtain ⟨payloads, hpayloads, -⟩ := hcached
      cases hpayloads
  | multi limit =>
    exact ⟨fun f hf => Option.isSome_iff_exists.mp (hknown f hf), fun _ => Nat.zero_le _,
      fun _ _ => Finset.empty_subset _⟩

/-- The flags and checker results that were deleted arrive again. -/
def deliverAgain {Cache : Type*} (st reset : State K Cache) : State K Cache :=
  { reset with
    db := { reset.db with
      submittedFlags := st.db.submittedFlags
      checkerResults := st.db.checkerResults } }

/-- **Scoring again what a reset has deleted.**  After a reset from tick `T` to tick `t`, when the
same flags and checker results arrive again, the ticks after `t` can all be scored, and then points,
rankings and first blood marks are those of before the reset. -/
theorem reset_rescore (choice : FirstBloodChoice) (S : Setup K) (services : List Service) {t T : ℕ}
    {st : State K choice.Cache} (h : Reached (choice.calculation S services) T st) (ht : t ≤ T)
    (hts : TsIncreasing st.db.submittedFlags.rows) (hintime : InTime st.db) :
    ∃ st', Raising.forEach (choice.calculation S services).scoringAndRanking
        (List.range' (t + 1) (T - t))
        (deliverAgain st ((choice.calculation S services).resetDatabase st t)) = .ok st' ∧
      (∀ tick : ℤ, tick ≤ T → st'.db.pointsRows tick = st.db.pointsRows tick) ∧
      (∀ tick : ℤ, tick ≤ T → st'.db.rankingRows tick = st.db.rankingRows tick) ∧
      st'.isFirstblood = st.isFirstblood := by
  obtain ⟨n, hT, htimely⟩ := hintime.exists_timely hts T
  have hleads : Leads st.db T st.db := ⟨rfl, rfl, rfl, fun _ hf => hf⟩
  have hsettled := (h.settled htimely hT hleads).1
  have hreset := hsettled.resetDatabase htimely ht
  have hagain : Rescored choice S services st.db n t
      (deliverAgain st ((choice.calculation S services).resetDatabase st t)) := by
    refine ⟨⟨⟨rfl, rfl, rfl, fun _ hf => hf⟩, ?_, hreset.marked, hreset.known, hreset.recordable,
      hreset.replayOk⟩, ?_, ⟨rfl, rfl, rfl⟩, fun T => ?_⟩
    · refine (hsettled.results.mono ht).congr ⟨⟨rfl, rfl, rfl, rfl, fun tick htick => ?_,
        fun tick htick => ?_⟩, ?_, ?_⟩
      · exact pointsRows_upTo.trans (if_pos htick.le)
      · exact rankingRows_upTo.trans (if_pos htick.le)
      · exact pointsRows_upTo.trans (if_pos le_rfl)
      · exact rankingRows_upTo.trans (if_pos le_rfl)
    · exact FirstBloodChoice.cacheOk_empty hreset.known
    · exact ⟨rfl, rfl, rfl, rfl, fun tick htick => pointsRows_upTo.trans (if_pos (by omega)),
        fun tick htick => rankingRows_upTo.trans (if_pos (by omega))⟩
  obtain ⟨st', hrun, hend⟩ := hagain.forEach hsettled htimely hT (by omega : t + (T - t) = T)
  have hsame := hsettled.results.unique hend.settled.results (hend.source T)
  exact ⟨st', hrun, fun tick htick => SameUpTo.points_of_le hsame htick,
    fun tick htick => SameUpTo.ranking_of_le hsame htick,
    hend.settled.marked.unique hsettled.marked⟩

/-- Both ticks of the sample are undone and scored again. -/
theorem reset_rescore_sample : ∃ st st', Reached sampleCalculation 2 st ∧
    Raising.forEach sampleCalculation.scoringAndRanking [1, 2]
      (deliverAgain st (sampleCalculation.resetDatabase st 0)) = .ok st' ∧
    st'.db.pointsRows 2 = st.db.pointsRows 2 ∧ st'.isFirstblood = st.isFirstblood := by
  have hreached := Reached.of_forEach (T := 2)
    (Raising.eq_ok_of_isOk (x := replayScored (.multi 3) 1) (by decide +kernel))
  obtain ⟨st', hrun, hpoints, -, hmarks⟩ := reset_rescore (.multi 3) sampleSetup [.new 1 0] hreached
    (Nat.zero_le 2) (by decide +kernel) (by decide +kernel)
  exact ⟨_, st', hreached, hrun, hpoints 2 le_rfl, hmarks⟩

end Gameserver.Calculation
