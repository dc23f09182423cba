import Gameserver.Scoring.Algorithm

/-!
# Results and rankings in the database

`class ScoringCalculation` of `controlserver/scoring/scoring.py`: the queries that
collect the input of a tick, the recursion that fills in missing results of earlier
ticks, and the ranking.

The first blood marks, which `_calculate_scoring_for_tick` writes in the same
transaction, do not enter the points; they are modelled on their own.
-/

namespace Gameserver.Scoring

/-- The tables the scoring works on. -/
structure Database (K : Type*) where
  teams : List ℕ
  services : List Service
  submittedFlags : SubmittedFlags
  checkerResults : List CheckerResult
  teamPoints : List (TeamPointsLite K)
  teamRankings : List (TeamRanking K)

namespace Database

variable {K : Type*}

/-- The arguments an algorithm is built with. -/
def roster (db : Database K) : Roster := ⟨db.teams, db.services⟩

/-! ## The queries -/

/-- The rows of `team_points` for one tick. -/
def pointsRows (db : Database K) (tick : ℤ) : List (TeamPointsLite K) :=
  db.teamPoints.filter fun row => row.tick = tick

/-- The results of one tick as a dictionary. -/
def pointsDict (db : Database K) (tick : ℤ) : PointsDict K := fun key =>
  (db.pointsRows tick).find? fun row => (row.teamId, row.serviceId) = key

/-- `_ranking_for_last_ticks`. -/
def rankingForLastTicks (db : Database K) (flagsRoundsValid tick : ℤ) : ℤ × ℕ → Option ℕ :=
  fun key =>
  ((db.teamRankings.filter fun row => tick - flagsRoundsValid - 1 ≤ row.tick ∧
    row.tick < tick).find?
    fun row => (row.tick, row.teamId) = key).map fun row => row.rank

/-- `_sla_delta_for`. -/
def slaDeltaFor (db : Database K) : ℕ × ℤ → ℕ → Option K := fun key teamId =>
  (db.pointsDict key.2 (teamId, key.1)).map TeamPointsLite.slaDelta

/-- `_get_checker_results`: a missing result counts as `REVOKED`. -/
def getCheckerResults (db : Database K) (tick : ℤ) : TeamServicePair → CheckerStatus := fun key =>
  if tick ≤ 0 then .revoked
  else
    ((db.checkerResults.find? fun row => row.tick = tick ∧ (row.teamId, row.serviceId) = key).map
      CheckerResult.status).getD .revoked

/-- The join partners `sf2` of a flag: the submissions of the same flag in a window of
earlier ticks. -/
def previousSubmissions (db : Database K) (flagsRoundsValid tick : ℤ) (flag : FlagKey) :
    List SubmittedFlag :=
  db.submittedFlags.rows.filter fun sf2 =>
    sf2.tickSubmitted < tick ∧ tick - flagsRoundsValid - 2 ≤ sf2.tickSubmitted ∧ sf2.key = flag

/-- The join partners `sf3` of a flag: its submissions in this tick. -/
def submissionsInTick (db : Database K) (tick : ℤ) (flag : FlagKey) : List SubmittedFlag :=
  db.submittedFlags.rows.filter fun sf3 => sf3.tickSubmitted = tick ∧ sf3.key = flag

/-- The rows of one tick, in the order in which they are processed. -/
def flagsOfTick (db : Database K) (tick : ℤ) : List SubmittedFlag :=
  (db.submittedFlags.rows.filter fun sf1 => sf1.tickSubmitted = tick).insertionSort
    SubmittedFlag.Before

/-- One row of the result of `_get_submitted_flags`.  `array_agg(distinct …)` sorts. -/
def stolenFlag (db : Database K) (flagsRoundsValid tick : ℤ) (flag : SubmittedFlag) :
    StolenFlag where
  flag := flag
  numPreviousSubmissions :=
    ((db.previousSubmissions flagsRoundsValid tick flag.key).map SubmittedFlag.id).dedup.length
  numSubmissions := ((db.submissionsInTick tick flag.key).map SubmittedFlag.id).dedup.length
  previousSubmitterIds :=
    ((db.previousSubmissions flagsRoundsValid tick flag.key).map
      SubmittedFlag.submittedBy).dedup.insertionSort (· ≤ ·)

/-- `_get_submitted_flags`. -/
def getSubmittedFlags (db : Database K) (flagsRoundsValid tick : ℤ) : List StolenFlag :=
  (db.flagsOfTick tick).map (db.stolenFlag flagsRoundsValid tick)

/-! ## Results -/

/-- The results of tick 0: no points for anybody. -/
def initialResults [Field K] (db : Database K) (tick : ℤ) : PointsDict K :=
  newResultsForTick db.roster tick

/-- `_save_teampoints`. -/
def saveTeampoints (db : Database K) (tick : ℤ) (points : PointsDict K) : Database K :=
  { db with
    teamPoints := (db.teamPoints.filter fun row => row.tick ≠ tick)
      ++ db.roster.pairs.filterMap points }

section Scoring

variable [Field K] [LinearOrder K] (S : Setup K)

/-- Everything `_calculate_scoring_for_tick` reads from the database for one tick, given
the results of the tick before. -/
def tickInput (db : Database K) (tick : ℤ) (lastTickPoints : PointsDict K) : TickInput K where
  tick := tick
  checkerResults := db.getCheckerResults tick
  lastTickPoints := lastTickPoints
  teamRankInTick := db.rankingForLastTicks S.config.flagsRoundsValid tick
  flags := db.getSubmittedFlags S.config.flagsRoundsValid tick
  slaDeltaFor := db.slaDeltaFor

/-- `_calculate_scoring_for_tick`, once the results of the tick before are there. -/
def scoreTick (db : Database K) (tick : ℤ) (lastTickPoints : PointsDict K) :
    Raising PyError (Database K) :=
  (S.calculateScoringForTick db.roster (db.tickInput S tick lastTickPoints)).andThen (fun _ => db)
    fun points => .ok (db.saveTeampoints tick points)

/-- Are the results of this tick incomplete? -/
def resultsMissing (db : Database K) (tick : ℕ) : Bool :=
  (db.pointsRows tick).length < db.teams.length * db.services.length

/-- `_calculate_scoring_for_tick`: the results of the tick before are computed first
where they are missing. -/
def calculateScoringForTick (db : Database K) : ℕ → Raising PyError (Database K)
  | 0 => db.scoreTick S 0 (db.initialResults (-1))
  | 1 => db.scoreTick S 1 (db.initialResults 0)
  | tick + 2 =>
    (if db.resultsMissing (tick + 1) then calculateScoringForTick db (tick + 1) else .ok db).andThen
      id fun db => db.scoreTick S (tick + 2 : ℕ) (db.pointsDict (tick + 1 : ℕ))

/-- `_get_results_for_tick_lite`. -/
def getResultsForTickLite (db : Database K) (tick : ℕ) :
    Raising PyError (Database K × PointsDict K) :=
  if tick = 0 then .ok (db, db.initialResults 0)
  else
    (if db.resultsMissing tick then db.calculateScoringForTick S tick else .ok db).andThen
      (fun db => (db, db.pointsDict tick)) fun db => .ok (db, db.pointsDict tick)

/-- Fetching the results of the tick before is the first step of scoring a tick. -/
theorem calculateScoringForTick_succ (db : Database K) (tick : ℕ) :
    db.calculateScoringForTick S (tick + 1) =
      (db.getResultsForTickLite S tick).andThen Prod.fst
        fun r => r.1.scoreTick S (tick + 1 : ℕ) r.2 := by
  cases tick with
  | zero => simp [calculateScoringForTick, getResultsForTickLite]
  | succ tick =>
    simp only [calculateScoringForTick, getResultsForTickLite, Nat.add_one_ne_zero, if_false]
    split
    · cases db.calculateScoringForTick S (tick + 1) <;> rfl
    · rfl

end Scoring

/-! ## Ranking -/

section Ranking

variable [Field K] [LinearOrder K] (S : Setup K)

/-- The loop of `_order_by_points`: the next rank `i`, and the entry before. -/
def assignRanks : ℕ+ → Option (TeamRanking K) → List (TeamRanking K) → List (TeamRanking K)
  | _, _, [] => []
  | i, previous, entry :: rest =>
    let rank :=
      match previous with
      | some p => if p.points = entry.points then p.rank else i
      | none => i
    let ranked := { entry with rank := rank }
    ranked :: assignRanks (if 0 < entry.points then i + 1 else i) (some ranked) rest

/-- `_order_by_points`: a stable sort by descending points, then the ranks. -/
def orderByPoints (ranking : List (TeamRanking K)) : List (TeamRanking K) :=
  assignRanks 1 none (ranking.insertionSort fun a b => b.points ≤ a.points)

/-- The total points of one team: the sum over its results, `results.values()`. -/
def totalPoints (results : List (TeamPointsLite K)) (teamId : ℕ) : K :=
  ((results.filter fun r => r.teamId = teamId).map
    fun r => r.offPoints + r.defPoints + r.slaPoints).sum

/-- The entries `calculate_ranking_per_tick` ranks; `_order_by_points` sets the rank. -/
def unranked (db : Database K) (tick : ℤ) (results : List (TeamPointsLite K)) :
    List (TeamRanking K) :=
  db.teams.map fun teamId =>
    { tick := tick, teamId := teamId, rank := 1, points := totalPoints results teamId }

/-- `calculate_ranking_per_tick`, for ticks from 1 on. -/
def calculateRankingPerTick (db : Database K) (tick : ℕ) : Raising PyError (Database K) :=
  let cleared := { db with teamRankings := db.teamRankings.filter fun row => row.tick ≠ tick }
  (cleared.getResultsForTickLite S tick).andThen Prod.fst fun r =>
    .ok { r.1 with
      teamRankings := r.1.teamRankings
        ++ orderByPoints (r.1.unranked tick (r.1.roster.pairs.filterMap r.2)) }

/-- `scoring_and_ranking`. -/
def scoringAndRanking (db : Database K) (tick : ℕ) : Raising PyError (Database K) :=
  (db.calculateScoringForTick S tick).andThen id fun db => db.calculateRankingPerTick S tick

end Ranking

end Database

end Gameserver.Scoring
