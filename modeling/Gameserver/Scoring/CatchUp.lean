import Gameserver.Scoring.Captures

/-!
# Catching up on ticks that were not scored

If the scoring of some ticks was skipped, scoring a later tick computes their results
first (`_get_results_for_tick_lite`).  It does not compute their rankings, and a flag
whose victim has no rank counts as one of the last team.

* `Database.inOrder` — every tick scored and ranked when it ends.
* `Agrees` — a database that has the results and rankings of some of the ticks.
* `Agrees.fill` — the recursion restores the missing results, if no rank it needs is
  missing.
* `catchUp_eq_inOrder` — **then catching up gives the results of scoring in order**.
-/

namespace Gameserver.Scoring

variable {K : Type*} [Field K]

/-! ## What the results of a tick depend on -/

section Flags

variable (S : Setup K) {ctx ctx' : FlagContext K} {flag : StolenFlag}
  (hroster : ctx'.roster = ctx.roster) (hactive : ctx'.numActiveTeams = ctx.numActiveTeams)

include hroster

theorem attackerGain_congr (hrank : ctx'.victimRank flag.flag = ctx.victimRank flag.flag) :
    attackerGain S ctx' flag = attackerGain S ctx flag := by
  simp only [attackerGain, hrank, hroster]

omit [Field K] in
theorem entered_congr : entered ctx' = entered ctx := by
  funext flag
  simp only [entered, hroster]

include hactive

theorem onceDelta_congr (hrank : ctx'.victimRank flag.flag = ctx.victimRank flag.flag)
    (hsla : (flag.flag.teamId, flag.flag.serviceId) ∈ ctx.roster.pairs →
      ctx'.slaDeltaFor (flag.flag.serviceId, flag.flag.tickIssued) flag.flag.teamId =
        ctx.slaDeltaFor (flag.flag.serviceId, flag.flag.tickIssued) flag.flag.teamId) :
    onceDelta S ctx' flag = onceDelta S ctx flag := by
  unfold onceDelta
  rw [hroster]
  split
  · rename_i hvictim
    simp only [victimLoss, newDamage, corrections, correctedIds, correction, hrank, hsla hvictim,
      hroster, hactive]
  · rfl

/-- Of the ranks, only those of the victims of entered flags matter; of the SLA, only that
of known victims. -/
theorem flagsDelta_congr {flags : List StolenFlag}
    (hrank : ∀ flag ∈ flags, entered ctx flag →
      ctx'.victimRank flag.flag = ctx.victimRank flag.flag)
    (hsla : ∀ flag ∈ flags, entered ctx flag →
      (flag.flag.teamId, flag.flag.serviceId) ∈ ctx.roster.pairs →
      ctx'.slaDeltaFor (flag.flag.serviceId, flag.flag.tickIssued) flag.flag.teamId =
        ctx.slaDeltaFor (flag.flag.serviceId, flag.flag.tickIssued) flag.flag.teamId) :
    flagsDelta S ctx' [] flags = flagsDelta S ctx [] flags := by
  unfold flagsDelta
  rw [entered_congr hroster]
  congr 2
  · apply List.map_congr_left
    intro flag hflag
    obtain ⟨hmem, hentered⟩ := List.mem_filter.1 hflag
    exact attackerGain_congr S hroster (hrank flag hmem hentered)
  · apply List.map_congr_left
    intro flag hflag
    obtain ⟨hmem, hentered⟩ := List.mem_filter.1 (newFlags_subset hflag)
    exact onceDelta_congr S hroster hactive (hrank flag hmem hentered) (hsla flag hmem hentered)

end Flags

variable [LinearOrder K]

/-- The SLA of the tick itself is computed, not looked up. -/
theorem tickResults_congr (S : Setup K) (roster : Roster) (input : TickInput K)
    {ranks : ℤ × ℕ → Option ℕ} {sla : ℕ × ℤ → ℕ → Option K}
    (hranks : ∀ flag ∈ input.flags, (flag.flag.submittedBy, flag.flag.serviceId) ∈ roster.pairs →
      ranks (flag.flag.tickIssued - 1, flag.flag.teamId) =
        input.teamRankInTick (flag.flag.tickIssued - 1, flag.flag.teamId))
    (hsla : ∀ flag ∈ input.flags, (flag.flag.submittedBy, flag.flag.serviceId) ∈ roster.pairs →
      (flag.flag.teamId, flag.flag.serviceId) ∈ roster.pairs → flag.flag.tickIssued ≠ input.tick →
      sla (flag.flag.serviceId, flag.flag.tickIssued) flag.flag.teamId =
        input.slaDeltaFor (flag.flag.serviceId, flag.flag.tickIssued) flag.flag.teamId) :
    tickResults S roster { input with teamRankInTick := ranks, slaDeltaFor := sla } =
      tickResults S roster input := by
  have hdelta : tickDelta S roster { input with teamRankInTick := ranks, slaDeltaFor := sla } =
      tickDelta S roster input := by
    rw [tickDelta, tickDelta]
    refine flagsDelta_congr S (by rfl) (by rfl) ?_ ?_
    · intro flag hflag hentered
      have hrank := hranks flag hflag (of_decide_eq_true hentered)
      simp only [FlagContext.victimRank, TickInput.context, hrank]
    · intro flag hflag hentered hvictim
      by_cases htick : flag.flag.tickIssued = input.tick
      · have hservice : (roster.serviceById flag.flag.serviceId).isSome :=
          Roster.serviceById_isSome.2 (Roster.mem_pairs.1 hvictim).2
        simp [TickInput.context, slaDeltaForTick, htick, hservice]
      · have hlookup := hsla flag hflag (of_decide_eq_true hentered) hvictim htick
        simp [TickInput.context, slaDeltaForTick, htick, hlookup]
  funext key
  simp only [tickResults, hdelta]

namespace Database

variable (S : Setup K) (db : Database K)

/-- The ranking of one tick. -/
def rankingRows (tick : ℤ) : List (TeamRanking K) :=
  db.teamRankings.filter fun row => row.tick = tick

/-- The ranking of a tick is computed from its results. -/
def ranked (tick : ℕ) : Database K :=
  { db with
    teamRankings := (db.teamRankings.filter fun row => row.tick ≠ (tick : ℤ))
      ++ orderByPoints (db.unranked tick (db.roster.pairs.filterMap (db.pointsDict tick))) }

/-- The results of the tick before. -/
def lastResults (tick : ℕ) : PointsDict K :=
  if tick = 0 then db.initialResults 0 else db.pointsDict tick

/-- Every tick is scored and ranked when it ends. -/
def inOrder : ℕ → Database K
  | 0 => db
  | t + 1 => ((inOrder t).scored S (t + 1 : ℕ) ((inOrder t).lastResults t)).ranked (t + 1)

omit [Field K] [LinearOrder K] in
/-- The rank of a team after a tick, from the ranking of the tick. -/
theorem rankingForLastTicks_eq_rankingRows (frv tick u : ℤ) (teamId : ℕ) :
    db.rankingForLastTicks frv tick (u, teamId) =
      if tick - frv - 1 ≤ u ∧ u < tick then
        ((db.rankingRows u).find? fun row => row.teamId = teamId).map fun row => (row.rank : ℕ)
      else none := by
  by_cases h : tick - frv - 1 ≤ u ∧ u < tick
  · rw [if_pos h, rankingForLastTicks, rankingRows, List.find?_filter, List.find?_filter]
    congr 2
    funext row
    by_cases hrow : row.tick = u
    · simp [hrow, h]
    · simp [hrow]
  · rw [if_neg h, rankingForLastTicks, List.find?_filter, Option.map_eq_none_iff,
      List.find?_eq_none]
    rintro row - hrow
    simp only [decide_eq_true_eq, Prod.mk.injEq, Bool.decide_and, Bool.and_eq_true] at hrow
    obtain ⟨hwindow, rfl, -⟩ := hrow
    exact h (by simpa using hwindow)

/-! ## Ranking a tick -/

/-- Ranking changes the rank of an entry and nothing else. -/
theorem exists_of_mem_assignRanks (i : ℕ+) (previous : Option (TeamRanking K))
    {entries : List (TeamRanking K)} :
    ∀ e ∈ assignRanks i previous entries, ∃ entry ∈ entries,
      e.tick = entry.tick ∧ e.teamId = entry.teamId := by
  induction entries generalizing i previous with
  | nil => simp [assignRanks]
  | cons entry entries ih =>
    intro e he
    rcases List.mem_cons.1 he with rfl | he
    · exact ⟨entry, List.mem_cons_self .., rfl, rfl⟩
    · obtain ⟨entry', hentry', heq⟩ := ih _ _ e he
      exact ⟨entry', List.mem_cons_of_mem _ hentry', heq⟩

theorem exists_of_mem_orderByPoints {ranking : List (TeamRanking K)} {e : TeamRanking K}
    (he : e ∈ orderByPoints ranking) :
    ∃ entry ∈ ranking, e.tick = entry.tick ∧ e.teamId = entry.teamId := by
  obtain ⟨entry, hentry, heq⟩ := exists_of_mem_assignRanks _ _ e he
  exact ⟨entry, (List.mem_insertionSort _).1 hentry, heq⟩

theorem orderByPoints_tick {ranking : List (TeamRanking K)} {tick : ℤ}
    (h : ∀ e ∈ ranking, e.tick = tick) : ∀ e ∈ orderByPoints ranking, e.tick = tick := by
  intro e he
  obtain ⟨entry, hentry, htick, -⟩ := exists_of_mem_orderByPoints he
  rw [htick, h entry hentry]

variable {S db}

omit [LinearOrder K] in
theorem unranked_tick (tick : ℤ) (results : List (TeamPointsLite K)) :
    ∀ e ∈ db.unranked tick results, e.tick = tick := by
  intro e he
  obtain ⟨teamId, -, rfl⟩ := List.mem_map.1 he
  rfl

theorem rankingRows_ranked_self (tick : ℕ) :
    (db.ranked tick).rankingRows tick =
      orderByPoints (db.unranked tick (db.roster.pairs.filterMap (db.pointsDict tick))) := by
  rw [rankingRows, ranked, List.filter_append, List.filter_filter,
    List.filter_eq_nil_iff.2 (by simp), List.nil_append]
  exact List.filter_eq_self.2 fun e he =>
    decide_eq_true (orderByPoints_tick (unranked_tick _ _) e he)

theorem rankingRows_ranked_ne {tick : ℕ} {tick' : ℤ} (h : tick' ≠ tick) :
    (db.ranked tick).rankingRows tick' = db.rankingRows tick' := by
  have hnew : (orderByPoints (db.unranked tick (db.roster.pairs.filterMap
      (db.pointsDict tick)))).filter (fun row => row.tick = tick') = [] := by
    apply List.filter_eq_nil_iff.2
    intro e he
    simp [orderByPoints_tick (unranked_tick _ _) e he, h.symm]
  rw [rankingRows, ranked, List.filter_append, List.filter_filter, hnew, List.append_nil]
  apply List.filter_congr
  intro row _
  by_cases hrow : row.tick = tick' <;> simp [hrow, h]

/-- With complete results, ranking a tick is `ranked`. -/
theorem calculateRankingPerTick_eq {tick : ℕ} (htick : tick ≠ 0)
    (hcomplete : db.resultsMissing tick = false) :
    db.calculateRankingPerTick S tick = .ok (db.ranked tick) := by
  have hcleared : Database.resultsMissing
      { db with teamRankings := db.teamRankings.filter fun row => row.tick ≠ tick } tick = false :=
    hcomplete
  rw [calculateRankingPerTick, getResultsForTickLite, if_neg htick, hcleared]
  rfl

omit [Field K] [LinearOrder K] in
theorem getSubmittedFlags_congr {db' : Database K} (h : db'.submittedFlags = db.submittedFlags)
    (frv tick : ℤ) : db'.getSubmittedFlags frv tick = db.getSubmittedFlags frv tick := by
  unfold getSubmittedFlags flagsOfTick
  rw [h]
  apply List.map_congr_left
  intro f _
  simp only [stolenFlag, previousSubmissions, submissionsInTick, h]

/-! ## Scoring in order -/

variable (S db)

theorem inOrder_roster (t : ℕ) : (db.inOrder S t).roster = db.roster := by
  induction t with
  | zero => rfl
  | succ t ih => exact ih

/-- The rows scoring in order stores for a tick. -/
theorem inOrder_covers (t : ℕ) : ((db.inOrder S t).lastResults t).Covers db.roster := by
  induction t with
  | zero => exact newResultsForTick_covers db.roster 0
  | succ t ih =>
    have hroster := db.inOrder_roster S t
    have hlast : ∀ key ∈ (db.inOrder S t).roster.pairs,
        ((db.inOrder S t).lastResults t key).isSome := fun key hkey => (ih key).2 (hroster ▸ hkey)
    rw [← hroster]
    exact pointsDict_scored_covers hlast

theorem inOrder_pointsRows_succ (t : ℕ) :
    (db.inOrder S (t + 1)).pointsRows (t + 1 : ℕ) =
      db.roster.pairs.filterMap (tickResults S db.roster
        ((db.inOrder S t).tickInput S (t + 1 : ℕ) ((db.inOrder S t).lastResults t))) := by
  rw [← db.inOrder_roster S t]
  exact pointsRows_saveTeampoints_self fun _ _ hp => (tickResults_tick _ _ hp).1

/-- Only teams are ranked. -/
theorem mem_teams_of_mem_inOrder_rankingRows (t : ℕ) {row : TeamRanking K}
    (h : row ∈ (db.inOrder S (t + 1)).rankingRows (t + 1 : ℕ)) : row.teamId ∈ db.teams := by
  have hteams : (db.inOrder S t).teams = db.teams :=
    congrArg Roster.teamIds (db.inOrder_roster S t)
  rw [inOrder, rankingRows_ranked_self] at h
  obtain ⟨entry, hentry, -, hteam⟩ := exists_of_mem_orderByPoints h
  obtain ⟨teamId, hteamId, rfl⟩ := List.mem_map.1 hentry
  rw [hteam, ← hteams]
  exact hteamId

theorem length_inOrder_pointsRows (t : ℕ) :
    ((db.inOrder S (t + 1)).pointsRows (t + 1 : ℕ)).length =
      db.teams.length * db.services.length := by
  rw [inOrder_pointsRows_succ]
  refine length_filterMap_of_covers (tickResults_covers fun key hkey => ?_)
  exact (db.inOrder_covers S t key).2 hkey

end Database

/-! ## Databases with some of the results -/

/-- The database has the results of the ticks up to `m`, and the rankings of the ticks up
to `r` that are not `skipped`, as scoring in order would have stored them. -/
structure Agrees (S : Setup K) (db : Database K) (skipped : Finset ℕ) (m r : ℕ) (db' : Database K) :
    Prop where
  teams : db'.teams = db.teams
  services : db'.services = db.services
  submittedFlags : db'.submittedFlags = db.submittedFlags
  checkerResults : db'.checkerResults = db.checkerResults
  points : ∀ t : ℕ, 1 ≤ t → t ≤ m → db'.pointsRows t = (db.inOrder S t).pointsRows t
  noPoints : ∀ tick : ℤ, tick < 1 ∨ m < tick → db'.pointsRows tick = []
  ranking : ∀ t : ℕ, 1 ≤ t → t ≤ r → t ∉ skipped →
    db'.rankingRows t = (db.inOrder S t).rankingRows t
  noRanking : ∀ tick : ℤ, (∀ t : ℕ, 1 ≤ t → t ≤ r → t ∉ skipped → tick ≠ t) →
    db'.rankingRows tick = []

/-- No flag of a team that counts up to tick `T` was issued in the tick after a skipped
one. -/
def RanksKept (S : Setup K) (db : Database K) (skipped : Finset ℕ) (T : ℕ) : Prop :=
  ∀ f ∈ db.submittedFlags.rows, 1 ≤ f.tickSubmitted → f.tickSubmitted ≤ T →
    (f.submittedBy, f.serviceId) ∈ db.roster.pairs → (f.teamId, f.serviceId) ∈ db.roster.pairs →
    f.tickSubmitted - S.config.flagsRoundsValid ≤ f.tickIssued → f.tickIssued ≤ f.tickSubmitted →
    ∀ t ∈ skipped, f.tickIssued ≠ t + 1

namespace Agrees

variable {S : Setup K} {db db' : Database K} {skipped : Finset ℕ} {m r T : ℕ}

theorem roster_eq (h : Agrees S db skipped m r db') : db'.roster = db.roster := by
  simp only [Database.roster, h.teams, h.services]

theorem initial (hpoints : db.teamPoints = []) (hrankings : db.teamRankings = []) :
    Agrees S db skipped 0 0 db where
  teams := rfl
  services := rfl
  submittedFlags := rfl
  checkerResults := rfl
  points t ht ht' := by omega
  noPoints tick _ := by simp [Database.pointsRows, hpoints]
  ranking t ht ht' := by omega
  noRanking tick _ := by simp [Database.rankingRows, hrankings]

theorem pointsRows_eq {r' : ℕ} {skipped' : Finset ℕ} {db'' : Database K}
    (h : Agrees S db skipped m r db') (h' : Agrees S db skipped' m r' db'') (tick : ℤ) :
    db'.pointsRows tick = db''.pointsRows tick := by
  by_cases hout : tick < 1 ∨ m < tick
  · rw [h.noPoints tick hout, h'.noPoints tick hout]
  · obtain ⟨t, rfl⟩ : ∃ t : ℕ, tick = t := ⟨tick.toNat, by omega⟩
    rw [h.points t (by omega) (by omega), h'.points t (by omega) (by omega)]

theorem lastResults_eq {r' : ℕ} {skipped' : Finset ℕ} {db'' : Database K}
    (h : Agrees S db skipped m r db') (h' : Agrees S db skipped' m r' db'') (t : ℕ) :
    db'.lastResults t = db''.lastResults t := by
  have hroster : db'.roster = db''.roster := h.roster_eq.trans h'.roster_eq.symm
  unfold Database.lastResults
  split
  · rw [Database.initialResults, Database.initialResults, hroster]
  · funext key
    rw [Database.pointsDict, Database.pointsDict, h.pointsRows_eq h' t]

/-- A team that is not there has no rank, in order or not. -/
theorem rank_of_unknown (h : Agrees S db skipped m r db') {teamId : ℕ} (hteam : teamId ∉ db.teams)
    (frv tick u : ℤ) : db'.rankingForLastTicks frv tick (u, teamId) = none := by
  rw [Database.rankingForLastTicks_eq_rankingRows]
  have hnot : ∀ row ∈ db'.rankingRows u, row.teamId ≠ teamId := by
    rintro row hrow rfl
    by_cases hranked : ∃ t : ℕ, 1 ≤ t ∧ t ≤ r ∧ t ∉ skipped ∧ u = t
    · obtain ⟨t, ht, htr, hskip, rfl⟩ := hranked
      obtain ⟨t, rfl⟩ : ∃ t', t = t' + 1 := ⟨t - 1, by omega⟩
      rw [h.ranking _ ht htr hskip] at hrow
      exact hteam (db.mem_teams_of_mem_inOrder_rankingRows S t hrow)
    · rw [h.noRanking u fun t ht htr hskip heq => hranked ⟨t, ht, htr, hskip, heq⟩] at hrow
      exact absurd hrow List.not_mem_nil
  split
  · rw [List.find?_eq_none.2 (by simpa using hnot), Option.map_none]
  · rfl

/-- The ranks a tick looks up are those of scoring in order. -/
theorem ranks_eq (h : Agrees S db skipped m r db') {t : ℕ} (htr : t ≤ r)
    (hin : Agrees S db ∅ t t (db.inOrder S t)) {u : ℤ} (hu : ∀ n ∈ skipped, u ≠ (n : ℤ))
    (teamId : ℕ) :
    db'.rankingForLastTicks S.config.flagsRoundsValid (t + 1 : ℕ) (u, teamId) =
      (db.inOrder S t).rankingForLastTicks S.config.flagsRoundsValid (t + 1 : ℕ) (u, teamId) := by
  rw [Database.rankingForLastTicks_eq_rankingRows, Database.rankingForLastTicks_eq_rankingRows]
  by_cases hwindow : ((t + 1 : ℕ) : ℤ) - S.config.flagsRoundsValid - 1 ≤ u ∧ u < (t + 1 : ℕ)
  · rw [if_pos hwindow, if_pos hwindow]
    have hrows : db'.rankingRows u = (db.inOrder S t).rankingRows u := by
      by_cases hpos : 1 ≤ u
      · obtain ⟨n, rfl⟩ : ∃ n : ℕ, u = n := ⟨u.toNat, by omega⟩
        have hn : n ∉ skipped := fun hmem => hu n hmem rfl
        rw [h.ranking n (by omega) (by omega) hn, hin.ranking n (by omega) (by omega) (by simp)]
      · rw [h.noRanking u fun n hn _ _ heq => by omega,
          hin.noRanking u fun n hn _ _ heq => by omega]
    rw [hrows]
  · rw [if_neg hwindow, if_neg hwindow]

/-- **One tick scored on top of the right results gets the right results**, if no rank it
looks up is missing. -/
theorem tickResults_eq (h : Agrees S db skipped m r db') (hmr : m ≤ r) (hT : m < T)
    (hkept : RanksKept S db skipped T) (hin : Agrees S db ∅ m m (db.inOrder S m)) :
    tickResults S db'.roster (db'.tickInput S (m + 1 : ℕ) (db'.lastResults m)) =
      tickResults S db.roster
        ((db.inOrder S m).tickInput S (m + 1 : ℕ) ((db.inOrder S m).lastResults m)) := by
  have hsla : db'.slaDeltaFor = (db.inOrder S m).slaDeltaFor := by
    funext key teamId
    rw [Database.slaDeltaFor, Database.slaDeltaFor, Database.pointsDict, Database.pointsDict,
      h.pointsRows_eq hin]
  have hflags : db'.getSubmittedFlags S.config.flagsRoundsValid (m + 1 : ℕ) =
      (db.inOrder S m).getSubmittedFlags S.config.flagsRoundsValid (m + 1 : ℕ) :=
    Database.getSubmittedFlags_congr (h.submittedFlags.trans hin.submittedFlags.symm) _ _
  have hchecker : db'.getCheckerResults (m + 1 : ℕ) =
      (db.inOrder S m).getCheckerResults (m + 1 : ℕ) := by
    funext key
    simp only [Database.getCheckerResults, h.checkerResults, hin.checkerResults]
  rw [h.roster_eq, Database.tickInput, hsla, hflags, hchecker, h.lastResults_eq hin]
  refine tickResults_congr S db.roster
    ((db.inOrder S m).tickInput S (m + 1 : ℕ) ((db.inOrder S m).lastResults m)) ?_
    fun _ _ _ _ _ => rfl
  intro e he hentered
  obtain ⟨f, hf, rfl⟩ := List.mem_map.1 he
  obtain ⟨hmem, htick⟩ := (Database.mem_flagsOfTick _).1 hf
  rw [hin.submittedFlags] at hmem
  show db'.rankingForLastTicks _ _ (f.tickIssued - 1, f.teamId) = _
  by_cases hvictim : f.teamId ∈ db.teams
  swap
  · exact (h.rank_of_unknown hvictim ..).trans (hin.rank_of_unknown hvictim ..).symm
  have hpair : (f.teamId, f.serviceId) ∈ db.roster.pairs :=
    Roster.mem_pairs.2 ⟨hvictim, (Roster.mem_pairs.1 hentered).2⟩
  by_cases hwindow : f.tickSubmitted - S.config.flagsRoundsValid ≤ f.tickIssued ∧
      f.tickIssued ≤ f.tickSubmitted
  · refine h.ranks_eq hmr hin (fun n hn heq => ?_) f.teamId
    exact hkept f hmem (by omega) (by omega) hentered hpair hwindow.1 hwindow.2 n hn (by omega)
  · -- both lookups miss the window
    have hnot : ¬ (((m + 1 : ℕ) : ℤ) - S.config.flagsRoundsValid - 1 ≤ f.tickIssued - 1 ∧
        f.tickIssued - 1 < (m + 1 : ℕ)) := by omega
    rw [Database.rankingForLastTicks_eq_rankingRows, if_neg hnot]
    exact ((Database.rankingForLastTicks_eq_rankingRows ..).trans (if_neg hnot)).symm

/-- Scoring the next tick keeps the agreement. -/
theorem scored (h : Agrees S db skipped m r db') (hmr : m ≤ r) (hT : m < T)
    (hkept : RanksKept S db skipped T) (hin : Agrees S db ∅ m m (db.inOrder S m)) :
    db'.scoreTick S (m + 1 : ℕ) (db'.lastResults m) =
        .ok (db'.scored S (m + 1 : ℕ) (db'.lastResults m)) ∧
      Agrees S db skipped (m + 1) r (db'.scored S (m + 1 : ℕ) (db'.lastResults m)) := by
  have hlast : ∀ key ∈ db'.roster.pairs, (db'.lastResults m key).isSome := by
    rw [h.lastResults_eq hin, h.roster_eq]
    exact fun key hkey => (db.inOrder_covers S m key).2 hkey
  refine ⟨Database.scoreTick_eq hlast, h.teams, h.services, h.submittedFlags, h.checkerResults,
    ?_, ?_, h.ranking, h.noRanking⟩
  · intro t ht htm
    rcases Nat.lt_succ_iff_lt_or_eq.1 (Nat.lt_succ_of_le htm) with hlt | rfl
    · rw [Database.pointsRows_scored_ne (by omega), h.points t ht (by omega)]
    · rw [db.inOrder_pointsRows_succ S m, ← h.tickResults_eq hmr hT hkept hin, ← h.roster_eq]
      exact Database.pointsRows_saveTeampoints_self
        fun _ _ hp => (Database.tickResults_tick _ _ hp).1
  · intro tick htick
    rw [Database.pointsRows_scored_ne (by omega), h.noPoints tick (by omega)]

/-- Ranking the last tick keeps the agreement. -/
theorem ranked (h : Agrees S db skipped (m + 1) m db') (hm : m + 1 ∉ skipped)
    (hin : (db.inOrder S (m + 1)).rankingRows (m + 1 : ℕ) =
      (db'.ranked (m + 1)).rankingRows (m + 1 : ℕ)) :
    Agrees S db skipped (m + 1) (m + 1) (db'.ranked (m + 1)) where
  teams := h.teams
  services := h.services
  submittedFlags := h.submittedFlags
  checkerResults := h.checkerResults
  points := h.points
  noPoints := h.noPoints
  ranking t ht htm hskip := by
    rcases Nat.lt_succ_iff_lt_or_eq.1 (Nat.lt_succ_of_le htm) with hlt | rfl
    · rw [Database.rankingRows_ranked_ne (by omega), h.ranking t ht (by omega) hskip]
    · exact hin.symm
  noRanking tick htick := by
    have hne : tick ≠ (m + 1 : ℕ) := htick (m + 1) (by omega) le_rfl hm
    rw [Database.rankingRows_ranked_ne hne]
    exact h.noRanking tick fun t ht htm => htick t ht (by omega)

/-- A skipped tick is not ranked. -/
theorem skip (h : Agrees S db skipped m r db') (hr : r + 1 ∈ skipped) :
    Agrees S db skipped m (r + 1) db' where
  teams := h.teams
  services := h.services
  submittedFlags := h.submittedFlags
  checkerResults := h.checkerResults
  points := h.points
  noPoints := h.noPoints
  ranking t ht htr hskip := by
    refine h.ranking t ht ?_ hskip
    rcases Nat.lt_succ_iff_lt_or_eq.1 (Nat.lt_succ_of_le htr) with hlt | rfl
    · omega
    · exact absurd hr hskip
  noRanking tick htick := h.noRanking tick fun t ht htr => htick t ht (by omega)

omit [Field K] [LinearOrder K] in
theorem ranksKept_empty : RanksKept S db ∅ T :=
  fun _ _ _ _ _ _ _ _ t ht => absurd ht (Finset.notMem_empty t)

theorem inOrder (hpoints : db.teamPoints = []) (hrankings : db.teamRankings = []) (t : ℕ) :
    Agrees S db ∅ t t (db.inOrder S t) := by
  induction t with
  | zero => exact initial hpoints hrankings
  | succ t ih =>
    exact ((ih.scored le_rfl (Nat.lt_succ_self t) ranksKept_empty ih).2).ranked
      (Finset.notMem_empty _) rfl

theorem resultsMissing_of_le (h : Agrees S db skipped m r db') {t : ℕ} (ht : 1 ≤ t) (htm : t ≤ m) :
    db'.resultsMissing t = false := by
  obtain ⟨t, rfl⟩ : ∃ t', t = t' + 1 := ⟨t - 1, by omega⟩
  simp only [Database.resultsMissing, h.points _ ht htm, db.length_inOrder_pointsRows S t, h.teams,
    h.services, lt_irrefl, decide_false]

/-- Without teams or without services there are no results to miss. -/
theorem of_not_missing (h : Agrees S db skipped m r db') {n : ℕ} (hmn : m < n)
    (hn : db'.resultsMissing n = false) : Agrees S db skipped n r db' := by
  have hsize : db.teams.length * db.services.length = 0 := by
    simp only [Database.resultsMissing, h.noPoints n (by omega), h.teams, h.services,
      List.length_nil, decide_eq_false_iff_not, not_lt, Nat.le_zero] at hn
    exact hn
  refine { h with points := fun t ht htn => ?_, noPoints := fun tick htick => ?_ }
  · by_cases htm : t ≤ m
    · exact h.points t ht htm
    · obtain ⟨t, rfl⟩ : ∃ t', t = t' + 1 := ⟨t - 1, by omega⟩
      have hlength := db.length_inOrder_pointsRows S t
      rw [hsize, List.length_eq_zero_iff] at hlength
      rw [hlength, h.noPoints _ (by omega)]
  · exact h.noPoints tick (by omega)

variable (hpoints : db.teamPoints = []) (hrankings : db.teamRankings = [])

include hpoints hrankings

/-- **Scoring a tick restores all missing results before it.** -/
theorem fill (hkept : RanksKept S db skipped T) (h : Agrees S db skipped m r db') {n : ℕ}
    (hmn : m < n) (hnr : n ≤ r + 1) (hnT : n ≤ T) :
    ∃ db'', db'.calculateScoringForTick S n = .ok db'' ∧ Agrees S db skipped n r db'' := by
  have hin := inOrder (S := S) hpoints hrankings
  induction n with
  | zero => omega
  | succ n ih =>
    cases n with
    | zero =>
      obtain rfl : m = 0 := by omega
      exact ⟨_, h.scored (by omega) (by omega) hkept (hin 0)⟩
    | succ k =>
      -- the results of the tick before are there, or are computed now
      obtain ⟨db₁, hdb₁, h₁⟩ : ∃ db₁, (if db'.resultsMissing (k + 1) then
          db'.calculateScoringForTick S (k + 1) else .ok db') = .ok db₁ ∧
            Agrees S db skipped (k + 1) r db₁ := by
        by_cases hm : m = k + 1
        · subst hm
          exact ⟨db', by simp [h.resultsMissing_of_le (by omega) le_rfl], h⟩
        · cases hmissing : db'.resultsMissing (k + 1) with
          | false =>
            exact ⟨db', rfl, h.of_not_missing (by omega) hmissing⟩
          | true => exact ih (by omega) (by omega) (by omega)
      obtain ⟨hscore, hagrees⟩ := h₁.scored (by omega) (by omega) hkept (hin (k + 1))
      refine ⟨_, ?_, hagrees⟩
      rw [Database.calculateScoringForTick, hdb₁, Raising.andThen_ok, ← hscore]
      rfl

theorem rankingRows_eq (h : Agrees S db skipped (m + 1) r db') :
    (db.inOrder S (m + 1)).rankingRows (m + 1 : ℕ) =
      (db'.ranked (m + 1)).rankingRows (m + 1 : ℕ) := by
  have hin := inOrder (S := S) hpoints hrankings (m + 1)
  have hdict : (db.inOrder S (m + 1)).pointsDict (m + 1 : ℕ) = db'.pointsDict (m + 1 : ℕ) := by
    funext key
    rw [Database.pointsDict, Database.pointsDict, hin.pointsRows_eq h]
  have hleft : (db.inOrder S (m + 1)).rankingRows (m + 1 : ℕ) =
      Database.orderByPoints ((db.inOrder S (m + 1)).unranked (m + 1 : ℕ)
        ((db.inOrder S (m + 1)).roster.pairs.filterMap
          ((db.inOrder S (m + 1)).pointsDict (m + 1 : ℕ)))) :=
    Database.rankingRows_ranked_self (m + 1)
  rw [hleft, Database.rankingRows_ranked_self, hdict, hin.roster_eq, h.roster_eq,
    Database.unranked, Database.unranked, hin.teams, h.teams]

/-- One call of `scoring_and_ranking`. -/
theorem scoringAndRanking (hkept : RanksKept S db skipped T) (h : Agrees S db skipped m r db')
    (hmr : m ≤ r) (hrT : r < T) (hr : r + 1 ∉ skipped) :
    ∃ db'', db'.scoringAndRanking S (r + 1) = .ok db'' ∧
      Agrees S db skipped (r + 1) (r + 1) db'' := by
  obtain ⟨db₁, hdb₁, h₁⟩ :=
    h.fill hpoints hrankings hkept (n := r + 1) (by omega) le_rfl (by omega)
  refine ⟨db₁.ranked (r + 1), ?_, h₁.ranked hr (h₁.rankingRows_eq hpoints hrankings)⟩
  rw [Database.scoringAndRanking, hdb₁, Raising.andThen_ok]
  exact Database.calculateRankingPerTick_eq (by omega)
    (h₁.resultsMissing_of_le (by omega) le_rfl)

/-- The calls of `scoring_and_ranking` for all ticks that are not skipped. -/
theorem forEach (hkept : RanksKept S db skipped T) {t : ℕ} (ht : t ≤ T) :
    ∃ db' m, m ≤ t ∧
      Raising.forEach (Database.scoringAndRanking S) ((List.range' 1 t).filter (· ∉ skipped)) db =
        .ok db' ∧ Agrees S db skipped m t db' ∧ (t ∉ skipped → m = t) := by
  induction t with
  | zero => exact ⟨db, 0, le_rfl, rfl, initial hpoints hrankings, fun _ => rfl⟩
  | succ t ih =>
    obtain ⟨db₁, m, hm, hloop, h, -⟩ := ih (by omega)
    rw [List.range'_1_concat, List.filter_append, Raising.forEach_append, hloop, Raising.andThen_ok,
      Nat.add_comm 1 t]
    by_cases hskip : t + 1 ∈ skipped
    · exact ⟨db₁, m, by omega, by simp [hskip], h.skip hskip, fun hnot => absurd hskip hnot⟩
    · obtain ⟨db₂, hdb₂, h₂⟩ := h.scoringAndRanking hpoints hrankings hkept hm (by omega) hskip
      exact ⟨db₂, t + 1, le_rfl, by simp [hskip, hdb₂], h₂, fun _ => rfl⟩

end Agrees

/-! ## Catching up -/

/-- **Catching up equals scoring in order**, if no flag of a team that counts was issued in
the tick after a skipped one: `scoring_and_ranking` for the ticks that are not skipped and then for
`T` stores the same results and the same ranking for `T` as for `1, 2, …, T`. -/
theorem catchUp_eq_inOrder (S : Setup K) {db : Database K} (hpoints : db.teamPoints = [])
    (hrankings : db.teamRankings = []) {T : ℕ} (hT : 1 ≤ T) {skipped : Finset ℕ}
    (hskipped : ∀ t ∈ skipped, t < T) (hkept : RanksKept S db skipped T) :
    ∃ inOrder caughtUp,
      Raising.forEach (Database.scoringAndRanking S) (List.range' 1 T) db = .ok inOrder ∧
      Raising.forEach (Database.scoringAndRanking S) ((List.range' 1 T).filter (· ∉ skipped)) db =
        .ok caughtUp ∧
      caughtUp.pointsRows T = inOrder.pointsRows T ∧
      caughtUp.rankingRows T = inOrder.rankingRows T := by
  obtain ⟨a, m, -, ha, hagrees, hm⟩ :=
    Agrees.forEach (T := T) hpoints hrankings (Agrees.ranksKept_empty (S := S)) le_rfl
  obtain rfl := hm (Finset.notMem_empty T)
  obtain ⟨b, m', -, hb, hagrees', hm'⟩ := Agrees.forEach hpoints hrankings hkept le_rfl
  have hnot : m ∉ skipped := fun hmem => lt_irrefl m (hskipped m hmem)
  obtain rfl := hm' hnot
  refine ⟨a, b, by simpa using ha, hb, ?_, ?_⟩
  · exact hagrees'.pointsRows_eq hagrees _
  · rw [hagrees'.ranking m' hT le_rfl hnot, hagrees.ranking m' hT le_rfl (Finset.notMem_empty m')]

instance (S : Setup K) (db : Database K) (skipped : Finset ℕ) (T : ℕ) :
    Decidable (RanksKept S db skipped T) :=
  inferInstanceAs
    (Decidable (∀ f ∈ db.submittedFlags.rows, _ → _ → _ → _ → _ → _ → ∀ t ∈ skipped, _))

/-- Tick 1 is skipped; the flag was issued in tick 1. -/
theorem catchUp_eq_inOrder_first_tick :
    ∃ inOrder caughtUp,
      Raising.forEach (Database.scoringAndRanking (SaarctfVariant.plain.setup exampleConfig
        exampleRoots)) [1, 2] (exampleDatabase 9 0 1 []) = .ok inOrder ∧
      Raising.forEach (Database.scoringAndRanking (SaarctfVariant.plain.setup exampleConfig
        exampleRoots)) [2] (exampleDatabase 9 0 1 []) = .ok caughtUp ∧
      caughtUp.pointsRows 2 = inOrder.pointsRows 2 ∧
      caughtUp.rankingRows 2 = inOrder.rankingRows 2 := by
  have h := catchUp_eq_inOrder (SaarctfVariant.plain.setup exampleConfig exampleRoots)
    (show (exampleDatabase 9 0 1 []).teamPoints = [] from rfl) rfl (T := 2) (by decide)
    (show ∀ t ∈ ({1} : Finset ℕ), t < 2 by decide) (by decide)
  have hticks : (List.range' 1 2).filter (· ∉ ({1} : Finset ℕ)) = [2] := by decide
  rw [hticks] at h
  exact h

/-- If the flag was issued in tick 2, its victim has no rank when tick 1 was skipped, and
the captors get fewer points. -/
theorem not_catchUp_eq_inOrder_second_tick :
    ¬ ∃ inOrder caughtUp,
      Raising.forEach (Database.scoringAndRanking (SaarctfVariant.plain.setup exampleConfig
        exampleRoots)) [1, 2] (exampleDatabase 9 0 2 []) = .ok inOrder ∧
      Raising.forEach (Database.scoringAndRanking (SaarctfVariant.plain.setup exampleConfig
        exampleRoots)) [2] (exampleDatabase 9 0 2 []) = .ok caughtUp ∧
      caughtUp.pointsRows 2 = inOrder.pointsRows 2 ∧
      caughtUp.rankingRows 2 = inOrder.rankingRows 2 := by
  rintro ⟨a, b, ha, hb, hpoints, -⟩
  have hdiffer : (Raising.forEach (Database.scoringAndRanking (SaarctfVariant.plain.setup
      exampleConfig exampleRoots)) [2] (exampleDatabase 9 0 2 [])).state.pointsRows 2 ≠
      (Raising.forEach (Database.scoringAndRanking (SaarctfVariant.plain.setup exampleConfig
        exampleRoots)) [1, 2] (exampleDatabase 9 0 2 [])).state.pointsRows 2 := by
    decide +kernel
  rw [ha, hb] at hdiffer
  exact hdiffer hpoints

end Gameserver.Scoring
