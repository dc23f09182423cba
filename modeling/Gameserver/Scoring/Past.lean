import Gameserver.Scoring.CatchUp

/-!
# What scoring a tick reads

When a tick is scored, the database may hold rows of later ticks: flags that were
submitted in the meantime, or results, if the tick is scored again.  All queries but one
leave them out.  The exception is `_sla_delta_for`, which reads the results of the tick a
flag was issued in; a flag that is submitted before that tick makes it read later results.

* `SamePast` — two databases with the same past of a tick.
* `SamePast.tickResults_eq` — **the results of a tick depend on its past only**, if its
  flags were issued in the tick or before.
-/

namespace Gameserver.Scoring

variable {K : Type*}

namespace Database

/-- The checker results up to a tick. -/
def checkerResultsUpTo (db : Database K) (tick : ℤ) : List CheckerResult :=
  db.checkerResults.filter fun row => row.tick ≤ tick

/-- Everything before a tick is the same, and so are its flags and checker results. -/
structure SamePast (t : ℕ) (db db' : Database K) : Prop where
  teams : db'.teams = db.teams
  services : db'.services = db.services
  flags : db'.flagsUpTo t = db.flagsUpTo t
  checkerResults : db'.checkerResultsUpTo t = db.checkerResultsUpTo t
  points : ∀ tick : ℤ, tick < t → db'.pointsRows tick = db.pointsRows tick
  ranking : ∀ tick : ℤ, tick < t → db'.rankingRows tick = db.rankingRows tick

/-- The flags of a tick that count were issued in the tick or before. -/
def IssuedBy (db : Database K) (t : ℕ) : Prop :=
  ∀ f ∈ db.flagsOfTick t, (f.submittedBy, f.serviceId) ∈ db.roster.pairs →
    (f.teamId, f.serviceId) ∈ db.roster.pairs → f.tickIssued ≤ t

theorem checkerResultsUpTo_of_le (db : Database K) {tick : ℤ} (tick' : ℤ) (h : tick ≤ tick') :
    db.checkerResultsUpTo tick = (db.checkerResultsUpTo tick').filter fun row =>
      row.tick ≤ tick := by
  rw [checkerResultsUpTo, checkerResultsUpTo, List.filter_filter]
  apply List.filter_congr
  intro row _
  by_cases hrow : row.tick ≤ tick
  · simp [hrow, hrow.trans h]
  · simp [hrow]

section Flags

variable {db db' : Database K} {tick tick' : ℤ} (h : db'.flagsUpTo tick = db.flagsUpTo tick)

include h

/-- Queries for flags up to a tick give the same rows. -/
theorem filter_flags_congr {p : SubmittedFlag → Bool}
    (hp : ∀ f, p f = true → f.tickSubmitted ≤ tick) :
    db'.submittedFlags.rows.filter p = db.submittedFlags.rows.filter p := by
  have hfilter : ∀ db : Database K, db.submittedFlags.rows.filter p =
      (db.flagsUpTo tick).filter p := by
    intro db
    rw [flagsUpTo, List.filter_filter]
    apply List.filter_congr
    intro f _
    cases hf : p f with
    | false => simp
    | true => simp [hp f hf]
  rw [hfilter, hfilter, h]

theorem flagsOfTick_congr (htick : tick' ≤ tick) :
    db'.flagsOfTick tick' = db.flagsOfTick tick' := by
  rw [flagsOfTick, flagsOfTick, filter_flags_congr h]
  intro f hf
  have := of_decide_eq_true hf
  omega

end Flags

namespace SamePast

variable {db db' db'' : Database K} {t u : ℕ}

theorem refl (t : ℕ) (db : Database K) : SamePast t db db :=
  ⟨rfl, rfl, rfl, rfl, fun _ _ => rfl, fun _ _ => rfl⟩

theorem symm (h : SamePast t db db') : SamePast t db' db :=
  ⟨h.teams.symm, h.services.symm, h.flags.symm, h.checkerResults.symm,
    fun tick htick => (h.points tick htick).symm, fun tick htick => (h.ranking tick htick).symm⟩

theorem trans (h : SamePast t db db') (h' : SamePast t db' db'') : SamePast t db db'' :=
  ⟨h'.teams.trans h.teams, h'.services.trans h.services, h'.flags.trans h.flags,
    h'.checkerResults.trans h.checkerResults,
    fun tick htick => (h'.points tick htick).trans (h.points tick htick),
    fun tick htick => (h'.ranking tick htick).trans (h.ranking tick htick)⟩

theorem of_le (h : SamePast t db db') (hut : u ≤ t) : SamePast u db db' where
  teams := h.teams
  services := h.services
  flags := by
    rw [flagsUpTo_of_le db' t (by omega), h.flags, ← flagsUpTo_of_le db t (by omega)]
  checkerResults := by
    rw [checkerResultsUpTo_of_le db' t (by omega), h.checkerResults,
      ← checkerResultsUpTo_of_le db t (by omega)]
  points tick htick := h.points tick (by omega)
  ranking tick htick := h.ranking tick (by omega)

variable (h : SamePast t db db')

include h

theorem roster_eq : db'.roster = db.roster := by
  simp only [roster, h.teams, h.services]

theorem getSubmittedFlags_eq (frv : ℤ) :
    db'.getSubmittedFlags frv t = db.getSubmittedFlags frv t := by
  rw [getSubmittedFlags, getSubmittedFlags, flagsOfTick_congr h.flags le_rfl]
  apply List.map_congr_left
  intro f _
  have hprevious : db'.previousSubmissions frv t f.key = db.previousSubmissions frv t f.key :=
    filter_flags_congr h.flags fun g hg => (of_decide_eq_true hg).1.le
  have hsubmissions : db'.submissionsInTick t f.key = db.submissionsInTick t f.key :=
    filter_flags_congr h.flags fun g hg => (of_decide_eq_true hg).1.le
  rw [stolenFlag, stolenFlag, hprevious, hsubmissions]

theorem getCheckerResults_eq : db'.getCheckerResults t = db.getCheckerResults t := by
  have hfind : ∀ (db : Database K) (key : TeamServicePair),
      (db.checkerResults.find? fun row => row.tick = (t : ℤ) ∧ (row.teamId, row.serviceId) = key) =
        (db.checkerResultsUpTo t).find?
          fun row => row.tick = (t : ℤ) ∧ (row.teamId, row.serviceId) = key := by
    intro db key
    rw [checkerResultsUpTo, List.find?_filter]
    congr 1
    funext row
    by_cases hrow : row.tick = (t : ℤ) <;> simp [hrow]
  funext key
  rw [getCheckerResults, getCheckerResults, hfind, hfind, h.checkerResults]

theorem rankingForLastTicks_eq (frv : ℤ) :
    db'.rankingForLastTicks frv t = db.rankingForLastTicks frv t := by
  funext key
  rw [rankingForLastTicks_eq_rankingRows, rankingForLastTicks_eq_rankingRows]
  by_cases hwindow : (t : ℤ) - frv - 1 ≤ key.1 ∧ key.1 < t
  · rw [if_pos hwindow, if_pos hwindow, h.ranking key.1 hwindow.2]
  · rw [if_neg hwindow, if_neg hwindow]

theorem pointsDict_eq {tick : ℤ} (htick : tick < t) : db'.pointsDict tick = db.pointsDict tick := by
  funext key
  rw [pointsDict, pointsDict, h.points tick htick]

theorem issuedBy (hissued : db.IssuedBy t) : db'.IssuedBy t := by
  unfold IssuedBy
  rw [flagsOfTick_congr h.flags le_rfl, h.roster_eq]
  exact hissued

omit h

variable [Field K]

theorem lastResults_eq (h : SamePast (t + 1) db db') : db'.lastResults t = db.lastResults t := by
  unfold lastResults
  split
  · rw [initialResults, initialResults, h.roster_eq]
  · exact h.pointsDict_eq (by omega)

variable [LinearOrder K] (S : Setup K)

/-- **The results of a tick depend on its past only.** -/
theorem tickResults_eq (h : SamePast t db db') (hissued : db.IssuedBy t)
    (lastTickPoints : PointsDict K) :
    tickResults S db'.roster (db'.tickInput S t lastTickPoints) =
      tickResults S db.roster (db.tickInput S t lastTickPoints) := by
  have hinput : db'.tickInput S t lastTickPoints =
      { db.tickInput S t lastTickPoints with slaDeltaFor := db'.slaDeltaFor } := by
    simp only [tickInput, h.getCheckerResults_eq, h.rankingForLastTicks_eq, h.getSubmittedFlags_eq]
  rw [h.roster_eq, hinput]
  refine tickResults_congr S db.roster (db.tickInput S t lastTickPoints) (fun _ _ _ => rfl) ?_
  intro flag hflag hsubmitter hvictim hne
  obtain ⟨f, hf, rfl⟩ := List.mem_map.1 hflag
  have hle : f.tickIssued ≤ t := hissued f hf hsubmitter hvictim
  have hlt : f.tickIssued < t := lt_of_le_of_ne hle hne
  show (db'.pointsDict f.tickIssued (f.teamId, f.serviceId)).map _ =
    (db.pointsDict f.tickIssued (f.teamId, f.serviceId)).map _
  rw [h.pointsDict_eq hlt]

end SamePast

/-! ## Ticks whose results are settled -/

/-- Everything up to a tick is the same, with its results and its ranking. -/
structure SameUpTo (t : ℕ) (db db' : Database K) : Prop extends SamePast t db db' where
  points_self : db'.pointsRows t = db.pointsRows t
  ranking_self : db'.rankingRows t = db.rankingRows t

/-- `recreate_ranking` deletes points and ranking of a tick before it scores the tick. -/
def withoutTick (db : Database K) (tick : ℤ) : Database K :=
  { db with
    teamPoints := db.teamPoints.filter fun row => row.tick ≠ tick
    teamRankings := db.teamRankings.filter fun row => row.tick ≠ tick }

/-- The same rows in every table; those of `team_points` and `team_rankings` may be stored
in another order. -/
structure SameTables (db db' : Database K) : Prop where
  teams : db'.teams = db.teams
  services : db'.services = db.services
  submittedFlags : db'.submittedFlags = db.submittedFlags
  checkerResults : db'.checkerResults = db.checkerResults
  teamPoints : db'.teamPoints.Perm db.teamPoints
  teamRankings : db'.teamRankings.Perm db.teamRankings
  points : ∀ tick, db'.pointsRows tick = db.pointsRows tick
  ranking : ∀ tick, db'.rankingRows tick = db.rankingRows tick

theorem SameTables.refl (db : Database K) : SameTables db db :=
  ⟨rfl, rfl, rfl, rfl, .refl _, .refl _, fun _ => rfl, fun _ => rfl⟩

theorem SameTables.trans {db db' db'' : Database K} (h : SameTables db db')
    (h' : SameTables db' db'') : SameTables db db'' :=
  ⟨h'.teams.trans h.teams, h'.services.trans h.services, h'.submittedFlags.trans h.submittedFlags,
    h'.checkerResults.trans h.checkerResults, h'.teamPoints.trans h.teamPoints,
    h'.teamRankings.trans h.teamRankings, fun tick => (h'.points tick).trans (h.points tick),
    fun tick => (h'.ranking tick).trans (h.ranking tick)⟩

section WithoutTick

variable (db : Database K) {tick tick' : ℤ}

theorem pointsRows_withoutTick_ne (h : tick' ≠ tick) :
    (db.withoutTick tick).pointsRows tick' = db.pointsRows tick' := by
  rw [pointsRows, withoutTick, List.filter_filter, pointsRows]
  apply List.filter_congr
  intro row _
  by_cases hrow : row.tick = tick' <;> simp [hrow, h]

theorem rankingRows_withoutTick_ne (h : tick' ≠ tick) :
    (db.withoutTick tick).rankingRows tick' = db.rankingRows tick' := by
  rw [rankingRows, withoutTick, List.filter_filter, rankingRows]
  apply List.filter_congr
  intro row _
  by_cases hrow : row.tick = tick' <;> simp [hrow, h]

/-- The rows of one tick, kept apart. -/
theorem perm_filter_append {α : Type*} (rows : List α) (p : α → Prop) [DecidablePred p] :
    ((rows.filter fun row => ¬ p row) ++ rows.filter fun row => p row).Perm rows := by
  have h := List.filter_append_perm (fun row => decide (¬ p row)) rows
  simpa using h

theorem teamPoints_perm (tick : ℤ) :
    ((db.withoutTick tick).teamPoints ++ db.pointsRows tick).Perm db.teamPoints :=
  perm_filter_append db.teamPoints fun row => row.tick = tick

theorem teamRankings_perm (tick : ℤ) :
    ((db.withoutTick tick).teamRankings ++ db.rankingRows tick).Perm db.teamRankings :=
  perm_filter_append db.teamRankings fun row => row.tick = tick

variable {db} {db₁ : Database K} {t : ℕ}

/-- Databases that differ in the results of one tick have the same past of it. -/
theorem SamePast.of_withoutTick (h : db₁.withoutTick t = db.withoutTick t) : SamePast t db db₁ where
  teams := by simpa [withoutTick] using congrArg Database.teams h
  services := by simpa [withoutTick] using congrArg Database.services h
  flags := congrArg (fun db => db.flagsUpTo t) h
  checkerResults := congrArg (fun db => db.checkerResultsUpTo t) h
  points tick htick := by
    rw [← db₁.pointsRows_withoutTick_ne htick.ne, h, db.pointsRows_withoutTick_ne htick.ne]
  ranking tick htick := by
    rw [← db₁.rankingRows_withoutTick_ne htick.ne, h, db.rankingRows_withoutTick_ne htick.ne]

end WithoutTick

variable [Field K] [LinearOrder K]

/-- The results and rankings of the ticks `1 … t` are those that scoring them now would
store. -/
structure ResultsSettled (S : Setup K) (t : ℕ) (db : Database K) : Prop where
  issued : ∀ u < t, db.IssuedBy (u + 1)
  points : ∀ u < t, db.pointsRows (u + 1 : ℕ) =
    db.roster.pairs.filterMap
      (tickResults S db.roster (db.tickInput S (u + 1 : ℕ) (db.lastResults u)))
  ranking : ∀ u < t, db.rankingRows (u + 1 : ℕ) =
    orderByPoints (db.unranked (u + 1 : ℕ) (db.roster.pairs.filterMap (db.pointsDict (u + 1 : ℕ))))

namespace ResultsSettled

variable {S : Setup K} {db db' : Database K} {t u : ℕ}

theorem zero : ResultsSettled S 0 db :=
  ⟨fun _ h => absurd h (Nat.not_lt_zero _), fun _ h => absurd h (Nat.not_lt_zero _),
    fun _ h => absurd h (Nat.not_lt_zero _)⟩

variable (h : ResultsSettled S t db)

include h

theorem covers (hu : u ≤ t) : (db.lastResults u).Covers db.roster := by
  induction u with
  | zero => exact newResultsForTick_covers db.roster 0
  | succ u ih =>
    have hcovers : (tickResults S db.roster
        (db.tickInput S (u + 1 : ℕ) (db.lastResults u))).Covers db.roster :=
      tickResults_covers fun key hkey => (ih (by omega) key).2 hkey
    have hdict : db.lastResults (u + 1) =
        tickResults S db.roster (db.tickInput S (u + 1 : ℕ) (db.lastResults u)) := by
      funext key
      rw [lastResults, if_neg (Nat.succ_ne_zero u), pointsDict, h.points u hu]
      exact find?_filterMap hcovers (fun _ _ hp => (tickResults_tick _ _ hp).2) key
    rw [hdict]
    exact hcovers

/-- No results are missing. -/
theorem resultsMissing_eq (hu : u ≤ t) (hpos : u ≠ 0) : db.resultsMissing u = false := by
  obtain ⟨u, rfl⟩ := Nat.exists_eq_succ_of_ne_zero hpos
  have hlength : (db.pointsRows (u + 1 : ℕ)).length = db.teams.length * db.services.length := by
    rw [h.points u hu]
    exact length_filterMap_of_covers
      (tickResults_covers fun key hkey => (h.covers (by omega) key).2 hkey)
  simp only [resultsMissing, decide_eq_false_iff_not, not_lt]
  exact hlength.ge

/-- What comes after the tick changes nothing. -/
theorem congr (hsame : SameUpTo t db db') : ResultsSettled S t db' := by
  have hpast : ∀ u < t, SamePast (u + 1) db db' := fun u hu => hsame.toSamePast.of_le hu
  have hpoints : ∀ u < t, db'.pointsRows (u + 1 : ℕ) = db.pointsRows (u + 1 : ℕ) := by
    intro u hu
    rcases Nat.lt_or_ge (u + 1) t with hlt | hge
    · exact hsame.points _ (by omega)
    · obtain rfl : u + 1 = t := by omega
      exact hsame.points_self
  constructor
  · exact fun u hu => (hpast u hu).issuedBy (h.issued u hu)
  · intro u hu
    rw [hpoints u hu, h.points u hu, (hpast u hu).tickResults_eq S (h.issued u hu),
      (hpast u hu).lastResults_eq, hsame.roster_eq]
  · intro u hu
    have hranking : db'.rankingRows (u + 1 : ℕ) = db.rankingRows (u + 1 : ℕ) := by
      rcases Nat.lt_or_ge (u + 1) t with hlt | hge
      · exact hsame.ranking _ (by omega)
      · obtain rfl : u + 1 = t := by omega
        exact hsame.ranking_self
    have hdict : db'.pointsDict (u + 1 : ℕ) = db.pointsDict (u + 1 : ℕ) := by
      funext key
      rw [pointsDict, pointsDict, hpoints u hu]
    rw [hranking, h.ranking u hu, hdict, hsame.roster_eq, unranked, unranked, hsame.teams]

end ResultsSettled

/-! ## Scoring a tick, and scoring it again -/

variable (S : Setup K) (db : Database K) (t : ℕ)

/-- A tick is scored and ranked on top of the results of the tick before. -/
def rescored : Database K := (db.scored S (t + 1 : ℕ) (db.lastResults t)).ranked (t + 1)

theorem pointsRows_rescored_self :
    (db.rescored S t).pointsRows (t + 1 : ℕ) = db.roster.pairs.filterMap
      (tickResults S db.roster (db.tickInput S (t + 1 : ℕ) (db.lastResults t))) :=
  pointsRows_saveTeampoints_self fun _ _ hp => (tickResults_tick _ _ hp).1

theorem pointsRows_rescored_ne {tick : ℤ} (h : tick ≠ (t + 1 : ℕ)) :
    (db.rescored S t).pointsRows tick = db.pointsRows tick :=
  pointsRows_scored_ne h

theorem rankingRows_rescored_self :
    (db.rescored S t).rankingRows (t + 1 : ℕ) = orderByPoints ((db.rescored S t).unranked
      (t + 1 : ℕ) ((db.rescored S t).roster.pairs.filterMap
        ((db.rescored S t).pointsDict (t + 1 : ℕ)))) :=
  rankingRows_ranked_self (t + 1)

theorem rankingRows_rescored_ne {tick : ℤ} (h : tick ≠ (t + 1 : ℕ)) :
    (db.rescored S t).rankingRows tick = db.rankingRows tick :=
  rankingRows_ranked_ne h

theorem samePast_rescored : SamePast (t + 1) db (db.rescored S t) :=
  ⟨rfl, rfl, rfl, rfl, fun _ htick => db.pointsRows_rescored_ne S t (by omega),
    fun _ htick => db.rankingRows_rescored_ne S t (by omega)⟩

variable {S db t}

/-- The next tick. -/
theorem ResultsSettled.succ (h : ResultsSettled S t db) (hissued : db.IssuedBy (t + 1)) :
    ResultsSettled S (t + 1) (db.rescored S t) := by
  have hpast := db.samePast_rescored S t
  have hold : ResultsSettled S t (db.rescored S t) :=
    h.congr ⟨hpast.of_le (Nat.le_succ t), hpast.points t (by omega), hpast.ranking t (by omega)⟩
  constructor
  · intro u hu
    rcases Nat.lt_succ_iff_lt_or_eq.1 hu with hlt | rfl
    · exact hold.issued u hlt
    · exact hpast.issuedBy hissued
  · intro u hu
    rcases Nat.lt_succ_iff_lt_or_eq.1 hu with hlt | rfl
    · exact hold.points u hlt
    · rw [pointsRows_rescored_self, hpast.tickResults_eq S hissued, hpast.lastResults_eq,
        hpast.roster_eq]
  · intro u hu
    rcases Nat.lt_succ_iff_lt_or_eq.1 hu with hlt | rfl
    · exact hold.ranking u hlt
    · exact db.rankingRows_rescored_self S u

/-- **Scoring a settled tick again changes nothing**, whether its rows were deleted or not. -/
theorem ResultsSettled.rescored {T : ℕ} (h : ResultsSettled S T db) (ht : t < T)
    {db₁ : Database K} (hdb₁ : db₁.withoutTick (t + 1 : ℕ) = db.withoutTick (t + 1 : ℕ)) :
    SameTables db (db₁.rescored S t) := by
  have hpast : SamePast (t + 1) db db₁ := .of_withoutTick hdb₁
  have hnew : db₁.roster.pairs.filterMap
      (tickResults S db₁.roster (db₁.tickInput S (t + 1 : ℕ) (db₁.lastResults t))) =
        db.pointsRows (t + 1 : ℕ) := by
    rw [h.points t ht, hpast.tickResults_eq S (h.issued t ht), hpast.lastResults_eq,
      hpast.roster_eq]
  have hpoints : ∀ tick, (db₁.rescored S t).pointsRows tick = db.pointsRows tick := by
    intro tick
    by_cases htick : tick = (t + 1 : ℕ)
    · rw [htick, pointsRows_rescored_self, hnew]
    · rw [db₁.pointsRows_rescored_ne S t htick, ← db₁.pointsRows_withoutTick_ne htick, hdb₁,
        db.pointsRows_withoutTick_ne htick]
  have hself : (db₁.rescored S t).rankingRows (t + 1 : ℕ) = db.rankingRows (t + 1 : ℕ) := by
    have hdict : (db₁.rescored S t).pointsDict (t + 1 : ℕ) = db.pointsDict (t + 1 : ℕ) := by
      funext key
      rw [pointsDict, pointsDict, hpoints]
    have hroster : (db₁.rescored S t).roster = db.roster := hpast.roster_eq
    have hteams : (db₁.rescored S t).teams = db.teams := hpast.teams
    rw [rankingRows_rescored_self, h.ranking t ht, hdict, hroster, unranked, unranked, hteams]
  have hflags : db₁.submittedFlags = db.submittedFlags := by
    simpa [withoutTick] using congrArg Database.submittedFlags hdb₁
  have hchecker : db₁.checkerResults = db.checkerResults := by
    simpa [withoutTick] using congrArg Database.checkerResults hdb₁
  refine ⟨hpast.teams, hpast.services, hflags, hchecker, ?_, ?_, hpoints, ?_⟩
  · have hrows : (db₁.rescored S t).teamPoints = (db₁.withoutTick (t + 1 : ℕ)).teamPoints ++
        db₁.roster.pairs.filterMap
          (tickResults S db₁.roster (db₁.tickInput S (t + 1 : ℕ) (db₁.lastResults t))) := rfl
    rw [hrows, hnew, hdb₁]
    exact db.teamPoints_perm (t + 1 : ℕ)
  · have hrows : (db₁.rescored S t).teamRankings = (db₁.withoutTick (t + 1 : ℕ)).teamRankings ++
        orderByPoints ((db₁.rescored S t).unranked (t + 1 : ℕ)
          ((db₁.rescored S t).roster.pairs.filterMap
            ((db₁.rescored S t).pointsDict (t + 1 : ℕ)))) := rfl
    rw [hrows, ← rankingRows_rescored_self, hself, hdb₁]
    exact db.teamRankings_perm (t + 1 : ℕ)
  · intro tick
    by_cases htick : tick = (t + 1 : ℕ)
    · rw [htick, hself]
    · rw [db₁.rankingRows_rescored_ne S t htick, ← db₁.rankingRows_withoutTick_ne htick, hdb₁,
        db.rankingRows_withoutTick_ne htick]

end Database

end Gameserver.Scoring
