import Gameserver.Calculation.BadRows
import Gameserver.Board.Statistics

/-!
# The scoreboard generator

`class Scoreboard` of `controlserver/scoring/scoreboard.py`: the JSON files of a tick, for
all teams and services.  From the freeze tick on, the public scoreboard should show the
points of the freeze tick.

* `TickInformation`, `fetchData` — the data of one tick; missing results are computed.
* `roundJson` — `__create_json_for_tick`, with the teams in the order of the ranking.
* `teamStatistic`, `serviceStatistic` — the two kinds of statistics files.
* `createScoreboard`, `resetToTick` — the two operations that write them.

The generator works on a `World`: the database, the lists of teams and services it has
loaded, and the output folder.  An exception leaves what was written before it.
-/

namespace Gameserver.Board

open Gameserver.Scoring Gameserver.Calculation

/-- Columns that are only shown. -/
structure Texts where
  teamName : ℕ → String
  serviceName : ℕ → String
  /-- `checker_results.message` -/
  message : ℤ → TeamServicePair → String

/-! ## The files -/

/-- A number that may be hidden, as `'?'`. -/
inductive Count where
  | number (n : ℕ)
  | hidden
  deriving DecidableEq

/-- The entry of one service of one team: `o`, `d`, `s`, `do`, `dd`, `ds`, `st`, `cap`,
`dst`, `dcap`, `c`, `m`, `dc`. -/
structure ServiceCell (K : Type) where
  offPoints : K
  defPoints : K
  slaPoints : K
  offDelta : K
  defDelta : K
  slaDelta : K
  stolen : ℕ
  captured : ℕ
  stolenDelta : ℤ
  capturedDelta : ℤ
  status : CheckerStatus
  message : String
  lastStatus : List CheckerStatus
  deriving DecidableEq

/-- The entry of one team. -/
structure TeamEntry (K : Type) where
  teamId : ℕ
  rank : ℕ+
  points : K
  services : List (ServiceCell K)
  offPoints : K
  defPoints : K
  slaPoints : K
  offDelta : K
  defDelta : K
  slaDelta : K
  deriving DecidableEq

/-- `{"name": "...", "ts": ..., "confirmed": ..., "level": ...}` -/
structure FirstBloodTeam where
  name : String
  ts : ℤ
  confirmed : Bool
  level : ℕ
  deriving DecidableEq

/-- The entry of one service. -/
structure ServiceEntry where
  name : String
  attackers : Count
  victims : Count
  firstBlood : List FirstBloodTeam
  flagStores : ℕ
  flagStoresExploited : ℕ
  deriving DecidableEq

/-- `scoreboard_round_<tick>.json` -/
structure RoundFile (K : Type) where
  tick : ℤ
  scoreboard : List (TeamEntry K)
  services : List ServiceEntry
  deriving DecidableEq

/-- `{"a": ..., "v": ...}` -/
structure ServiceStat where
  attackers : Count
  victims : Count
  deriving DecidableEq

/-- The files with results in the output folder. -/
@[ext]
structure Folder (K : Type) where
  rounds : ℤ → Option (RoundFile K)
  teams : ℕ → Option (StatisticFile K)
  serviceStats : Option (StatisticFile ServiceStat)

/-- What the generator works on; `teams` and `services` are those it has loaded. -/
structure World (K Cache : Type) where
  st : State K Cache
  teams : List ℕ
  services : List Service
  folder : Folder K

/-! ## The data of a tick -/

/-- `class TickInformation`. -/
structure TickInformation (K : Type) where
  ticknumber : ℤ
  ranking : List (TeamRanking K)
  teamPoints : List (TeamPointsLite K)
  checkerResults : TeamServicePair → CheckerStatus × String

namespace TickInformation

variable {K : Type} (info previousInfo : TickInformation K)

/-- `team_points[...]` -/
def points (key : TeamServicePair) : Except Error (TeamPointsLite K) :=
  match info.teamPoints.find? fun row => pairOf row = key with
  | some pts => .ok pts
  | none => .error .keyError

/-- `ranking_by_team_id[...]` -/
def rankingByTeamId (teamId : ℕ) : Except Error (TeamRanking K) :=
  match info.ranking.find? fun row => row.teamId = teamId with
  | some ranking => .ok ranking
  | none => .error .keyError

/-- `get_attacker_victim_count`. -/
def getAttackerVictimCount : Except Error ((ℕ → ℕ) × (ℕ → ℕ)) :=
  info.teamPoints.foldlM (fun count pts => do
    let prevPts ← previousInfo.points (pairOf pts)
    let attackers := if prevPts.flagCapturedCount < pts.flagCapturedCount then
      Function.update count.1 pts.serviceId (count.1 pts.serviceId + 1) else count.1
    let victims := if prevPts.flagStolenCount < pts.flagStolenCount then
      Function.update count.2 pts.serviceId (count.2 pts.serviceId + 1) else count.2
    return (attackers, victims)) (fun _ => 0, fun _ => 0)

end TickInformation

/-- The configuration and the objects of a `Scoreboard`. -/
structure Scoreboard (K Cache : Type) where
  calculation : ScoringCalculation K Cache
  /-- `first_blood.get_required_level()` -/
  firstbloodLevel : ℕ
  /-- Non-public includes confidential information. -/
  isPublic : Bool
  /-- `config.SCOREBOARD_FREEZE` -/
  scoreboardFreeze : Option ℤ
  texts : Texts

namespace Scoreboard

variable {K Cache : Type} (sb : Scoreboard K Cache)

/-- `is_frozen(tick, True)` -/
def frozenAt (tick : ℤ) : Bool :=
  match sb.scoreboardFreeze with
  | some freeze => freeze < tick
  | none => false

/-- `is_frozen(tick, self.public)` -/
def isFrozen (tick : ℤ) : Bool := sb.isPublic && sb.frozenAt tick

/-- `get_checker_results_lite`. -/
def getCheckerResultsLite (db : Database K) (tick : ℤ) : TeamServicePair → CheckerStatus × String :=
  fun key => (db.getCheckerResults tick key, if tick ≤ 0 then "" else sb.texts.message tick key)

/-- `ORDER BY rank, team_id` -/
def storedRanking (db : Database K) (tick : ℤ) : List (TeamRanking K) :=
  (db.rankingRows tick).insertionSort fun a b =>
    a.rank < b.rank ∨ (a.rank = b.rank ∧ a.teamId ≤ b.teamId)

/-! ### First bloods -/

/-- `ORDER BY -is_firstblood, ts` -/
def LevelBefore (marks : ℕ → ℕ) (f g : SubmittedFlag) : Prop :=
  marks g.id < marks f.id ∨ (marks f.id = marks g.id ∧ f.ts ≤ g.ts)

instance (marks : ℕ → ℕ) : DecidableRel (LevelBefore marks) := fun f g =>
  inferInstanceAs (Decidable (marks g.id < marks f.id ∨ (_ ∧ f.ts ≤ g.ts)))

/-- One team scores several first bloods within 300 seconds; time stamps are in
microseconds. -/
def joins (last : Option FirstBloodTeam) (fp : FirstBloodTeam) : Bool :=
  match last with
  | some l => l.name = fp.name ∧ l.confirmed = fp.confirmed ∧ (l.ts - fp.ts).natAbs < 300 * 1000000
  | none => false

/-- The loop body of `__get_first_blood_info`.  The name of an unknown team is an
`AttributeError`. -/
def addFirstBlood (st : State K Cache) (result : ℕ → List FirstBloodTeam × List ℕ)
    (flag : SubmittedFlag) : Except Error (ℕ → List FirstBloodTeam × List ℕ) :=
  if flag.payload ∈ (result flag.serviceId).2 then .ok result
  else if flag.submittedBy ∈ st.db.teams then
    let fp : FirstBloodTeam :=
      { name := sb.texts.teamName flag.submittedBy
        ts := flag.ts
        confirmed := st.isFirstblood flag.id = sb.firstbloodLevel
        level := st.isFirstblood flag.id }
    let lst := (result flag.serviceId).1
    .ok (Function.update result flag.serviceId
      (if joins lst.getLast? fp then lst
        else lst ++ [fp], flag.payload :: (result flag.serviceId).2))
  else .error .attributeError

/-- The first bloods up to a tick. -/
def firstBloodFlags (st : State K Cache) (tick : ℤ) : List SubmittedFlag :=
  (st.db.submittedFlags.rows.filter fun flag => flag.tickSubmitted ≤ tick ∧
    0 < st.isFirstblood flag.id ∧ st.isFirstblood flag.id ≤ sb.firstbloodLevel).insertionSort
      (LevelBefore st.isFirstblood)

/-- `__get_first_blood_info`. -/
def getFirstBloodInfo (st : State K Cache) (tick : ℤ) :
    Except Error (ℕ → List FirstBloodTeam × List ℕ) :=
  (sb.firstBloodFlags st tick).foldlM (sb.addFirstBlood st) fun _ => ([], [])

/-- `flag_stores_exploited` -/
def flagStoresExploited (service : Service) (payloads : List ℕ) : ℕ :=
  if 1 < service.numPayloads then payloads.length else if payloads = [] then 0 else 1

/-! ### The file of a tick -/

section Round

variable [Field K] (services : List Service) (info previousInfo : TickInformation K)
  (lastCheckerResults : List (TeamServicePair → CheckerStatus × String)) (frozen : Bool)

/-- The entry of one service of one team. -/
def serviceCell (teamId : ℕ) (service : Service) : Except Error (ServiceCell K) := do
  let check := info.checkerResults (teamId, service.id)
  let prevPts ← previousInfo.points (teamId, service.id)
  let pts ← info.points (teamId, service.id)
  let lastStatus := lastCheckerResults.map fun results => (results (teamId, service.id)).1
  if frozen then
    return { offPoints := prevPts.offPoints, defPoints := prevPts.defPoints
             slaPoints := prevPts.slaPoints, offDelta := 0, defDelta := 0, slaDelta := 0
             stolen := prevPts.flagStolenCount, captured := prevPts.flagCapturedCount
             stolenDelta := 0, capturedDelta := 0
             status := check.1, message := check.2, lastStatus := lastStatus }
  else
    return { offPoints := pts.offPoints, defPoints := pts.defPoints, slaPoints := pts.slaPoints
             offDelta := pts.offPoints - prevPts.offPoints
             defDelta := pts.defPoints - prevPts.defPoints
             slaDelta := pts.slaPoints - prevPts.slaPoints
             stolen := pts.flagStolenCount, captured := pts.flagCapturedCount
             stolenDelta := pts.flagStolenCount - prevPts.flagStolenCount
             capturedDelta := pts.flagCapturedCount - prevPts.flagCapturedCount
             status := check.1, message := check.2, lastStatus := lastStatus }

/-- The entry of one team.  Without services, a frozen entry fails: there is nothing to
unpack from `zip`. -/
def teamEntry (ranking : TeamRanking K) : Except Error (TeamEntry K) := do
  let cells ← services.mapM
    (serviceCell info previousInfo lastCheckerResults frozen ranking.teamId)
  if frozen then
    let prevRanking ← previousInfo.rankingByTeamId ranking.teamId
    let results ← services.mapM fun service => previousInfo.points (prevRanking.teamId, service.id)
    if results = [] then throw .valueError
    return { teamId := prevRanking.teamId, rank := prevRanking.rank, points := prevRanking.points
             services := cells
             offPoints := (results.map TeamPointsLite.offPoints).sum
             defPoints := (results.map TeamPointsLite.defPoints).sum
             slaPoints := (results.map TeamPointsLite.slaPoints).sum
             offDelta := 0, defDelta := 0, slaDelta := 0 }
  else
    let pts ← services.mapM fun service => info.points (ranking.teamId, service.id)
    let prevPts ← services.mapM fun service => previousInfo.points (ranking.teamId, service.id)
    let total := fun (rows : List (TeamPointsLite K)) (f : TeamPointsLite K → K) => (rows.map f).sum
    return { teamId := ranking.teamId, rank := ranking.rank, points := ranking.points
             services := cells
             offPoints := total pts TeamPointsLite.offPoints
             defPoints := total pts TeamPointsLite.defPoints
             slaPoints := total pts TeamPointsLite.slaPoints
             offDelta := total pts TeamPointsLite.offPoints - total prevPts TeamPointsLite.offPoints
             defDelta := total pts TeamPointsLite.defPoints - total prevPts TeamPointsLite.defPoints
             slaDelta :=
               total pts TeamPointsLite.slaPoints - total prevPts TeamPointsLite.slaPoints }

/-- The entry of one service. -/
def serviceEntry (name : String) (attackers victims : Count)
    (firstBloodInfo : ℕ → List FirstBloodTeam × List ℕ) (service : Service) : ServiceEntry where
  name := name
  attackers := attackers
  victims := victims
  firstBlood := (firstBloodInfo service.id).1
  flagStores := if 1 < service.numPayloads then service.numPayloads else 1
  flagStoresExploited := flagStoresExploited service (firstBloodInfo service.id).2

/-- `__create_json_for_tick`.  The sort is stable. -/
def roundJson [LinearOrder K] (st : State K Cache) : Except Error (RoundFile K) := do
  let scoreboard ← info.ranking.mapM
    (teamEntry services info previousInfo lastCheckerResults frozen)
  if frozen then
    let firstBloodInfo ← sb.getFirstBloodInfo st previousInfo.ticknumber
    return { tick := info.ticknumber
             scoreboard := scoreboard.insertionSort fun a b => b.points ≤ a.points
             services := services.map fun service =>
               serviceEntry (sb.texts.serviceName service.id) .hidden .hidden firstBloodInfo
                 service }
  else
    let firstBloodInfo ← sb.getFirstBloodInfo st info.ticknumber
    let count ← info.getAttackerVictimCount previousInfo
    return { tick := info.ticknumber
             scoreboard := scoreboard
             services := services.map fun service =>
               serviceEntry (if 0 ≤ info.ticknumber then sb.texts.serviceName service.id else "???")
                 (.number (count.1 service.id)) (.number (count.2 service.id)) firstBloodInfo
                 service }

/-! ### Statistics -/

/-- `off_points + def_points + sla_points` -/
def totalPoints (pts : TeamPointsLite K) : K := pts.offPoints + pts.defPoints + pts.slaPoints

/-- `TeamStatisticJsonGenerator`.  For all ticks, frozen results are computed and dropped:
what is returned are the points. -/
def teamStatistic (db : Database K) (scoreboardFreeze : Bool) (teamId : ℕ) : Statistic K where
  singleTickInfo := services.mapM fun service => do
    let pts ← if scoreboardFreeze && sb.frozenAt info.ticknumber then
      previousInfo.points (teamId, service.id) else info.points (teamId, service.id)
    return (service.id, totalPoints pts)
  allTickInfo :=
    (db.teamPoints.filter fun row => row.teamId = teamId ∧ 0 ≤ row.tick ∧
      row.tick ≤ info.ticknumber).map fun row => ((row.tick.toNat, row.serviceId), totalPoints row)
  emptyValue := 0

end Round

/-- The query of `ServiceStatisticJsonGenerator.get_all_tick_info`: the rows that are
counted.  Every row is compared with the entry of `lookup` for its own tick. -/
def countedRows (db : Database K) (scoreboardFreeze : Bool) (maxTick : ℤ)
    (count : TeamPointsLite K → ℕ) : List (TeamPointsLite K) :=
  let rawResults := db.teamPoints.filter fun row => 0 ≤ row.tick ∧ row.tick ≤ maxTick
  let lookup := fun row : TeamPointsLite K =>
    rawResults.reverse.find? fun last => last.tick = row.tick ∧ pairOf last = pairOf row
  rawResults.filter fun row => !(scoreboardFreeze && sb.frozenAt row.tick) &&
    match lookup row with
    | some last => count last < count row
    | none => false

/-- `ServiceStatisticJsonGenerator`. -/
def serviceStatistic (services : List Service) (info previousInfo : TickInformation K)
    (db : Database K) (scoreboardFreeze : Bool) : Statistic ServiceStat where
  singleTickInfo :=
    if scoreboardFreeze && sb.frozenAt info.ticknumber then
      .ok (services.map fun service => (service.id, ⟨.hidden, .hidden⟩))
    else do
      let count ← info.getAttackerVictimCount previousInfo
      return services.map fun service =>
        (service.id, ⟨.number (count.1 service.id), .number (count.2 service.id)⟩)
  allTickInfo :=
    let captured :=
      sb.countedRows db scoreboardFreeze info.ticknumber TeamPointsLite.flagCapturedCount
    let stolen := sb.countedRows db scoreboardFreeze info.ticknumber TeamPointsLite.flagStolenCount
    let keyOf := fun row : TeamPointsLite K => (row.tick.toNat, row.serviceId)
    ((captured ++ stolen).map keyOf).dedup.map fun key =>
      (key, ⟨.number ((captured.map keyOf).count key), .number ((stolen.map keyOf).count key)⟩)
  emptyValue := ⟨.number 0, .number 0⟩

/-! ### Fetching data -/

section Operations

variable [Field K] [LinearOrder K]

/-- A computation on the database; its errors are not caught. -/
def calculate (f : State K Cache → Raising Failure (State K Cache)) :
    EStateM Error (World K Cache) Unit := fun w =>
  match f w.st with
  | .ok st => .ok () { w with st := st }
  | .raised e st => .error (.calculation e) { w with st := st }

/-- `get_ranking_for_tick`. -/
def getRankingForTick (tick : ℤ) : EStateM Error (World K Cache) (List (TeamRanking K)) := do
  let w ← get
  if tick ≤ 0 then
    return (w.st.db.teams.insertionSort (· ≤ ·)).map fun teamId =>
      { tick := 0, teamId := teamId, rank := ⟨1, Nat.one_pos⟩, points := 0 }
  else if storedRanking w.st.db tick = [] then
    calculate fun st => sb.calculation.calculateRankingPerTick st tick.toNat
    return storedRanking (← get).st.db tick
  else
    return storedRanking w.st.db tick

/-- `get_results_for_tick_lite`, for the teams that are loaded. -/
def getResultsForTick (tick : ℤ) : EStateM Error (World K Cache) (List (TeamPointsLite K)) := do
  let w ← get
  if tick ≤ 0 then
    let roster : Roster := ⟨w.teams, w.st.db.services⟩
    return roster.pairs.filterMap (newResultsForTick roster tick)
  else if (w.st.db.pointsRows tick).length < w.teams.length * w.st.db.services.length then
    calculate fun st => sb.calculation.calculateScoringForTick st tick.toNat
    return (← get).st.db.pointsRows tick
  else
    return w.st.db.pointsRows tick

/-- `__fetch_data`. -/
def fetchData (tick : ℤ) : EStateM Error (World K Cache) (TickInformation K) := do
  let ranking ← sb.getRankingForTick tick
  let teamPoints ← sb.getResultsForTick tick
  return ⟨tick, ranking, teamPoints, sb.getCheckerResultsLite (← get).st.db tick⟩

/-! ### Writing files -/

/-- A file is written unless its content could not be computed. -/
def write {α : Type} (content : World K Cache → Except Error α)
    (store : World K Cache → α → Folder K) : EStateM Error (World K Cache) Unit := fun w =>
  match content w with
  | .ok file => .ok () { w with folder := store w file }
  | .error e => .error e w

/-- `__create_json_for_tick`. -/
def createJsonForTick (info previousInfo : TickInformation K)
    (lastCheckerResults : List (TeamServicePair → CheckerStatus × String)) (frozen : Bool) :
    EStateM Error (World K Cache) Unit :=
  write (fun w => sb.roundJson w.services info previousInfo lastCheckerResults frozen w.st)
    fun w file =>
      { w.folder with rounds := Function.update w.folder.rounds info.ticknumber (some file) }

/-- The loop body of `__create_json_for_teams`. -/
def createJsonForTeam (info previousInfo : TickInformation K) (scoreboardFreeze : Bool)
    (teamId : ℕ) : EStateM Error (World K Cache) Unit :=
  write (fun w => updateFile w.services
      (sb.teamStatistic w.services info previousInfo w.st.db scoreboardFreeze teamId)
      sb.texts.serviceName info.ticknumber (w.folder.teams teamId))
    fun w file => { w.folder with teams := Function.update w.folder.teams teamId (some file) }

/-- `__create_json_for_teams`. -/
def createJsonForTeams (info previousInfo : TickInformation K) (scoreboardFreeze : Bool) :
    EStateM Error (World K Cache) Unit := do
  for teamId in (← get).teams do
    sb.createJsonForTeam info previousInfo scoreboardFreeze teamId

/-- `__create_service_stat_json`. -/
def createServiceStatJson (info previousInfo : TickInformation K) (scoreboardFreeze : Bool) :
    EStateM Error (World K Cache) Unit :=
  write (fun w => updateFile w.services
      (sb.serviceStatistic w.services info previousInfo w.st.db scoreboardFreeze)
      sb.texts.serviceName info.ticknumber w.folder.serviceStats)
    fun w file => { w.folder with serviceStats := some file }

/-- `__update_team_service_list`. -/
def updateTeamServiceList (w : World K Cache) : World K Cache :=
  { w with
    teams := w.st.db.teams.insertionSort (· ≤ ·)
    services := w.st.db.services.insertionSort fun a b => a.id ≤ b.id }

/-- `create_scoreboard`.  A freeze tick of 0 is not a value that counts as true. -/
def createScoreboard (ticknumber : ℤ) (hasStarted : Bool) : EStateM Error (World K Cache) Unit := do
  modify updateTeamServiceList
  let tick := if ticknumber = 0 ∧ !hasStarted then -1 else ticknumber
  let scoreboardIsFrozen := sb.isFrozen tick
  let info ← sb.fetchData tick
  let previousInfo ← sb.fetchData (tick - 1)
  let frozenPreviousInfo ←
    match sb.scoreboardFreeze with
    | some freeze =>
      if scoreboardIsFrozen ∧ freeze ≠ 0 then some <$> sb.fetchData freeze else pure none
    | none => pure none
  let db := (← get).st.db
  let lastCheckerResults := [previousInfo.checkerResults, sb.getCheckerResultsLite db (tick - 2),
    sb.getCheckerResultsLite db (tick - 3)]
  let prevInfo := frozenPreviousInfo.getD previousInfo
  sb.createJsonForTick info prevInfo lastCheckerResults scoreboardIsFrozen
  sb.createJsonForTeams info prevInfo scoreboardIsFrozen
  sb.createServiceStatJson info prevInfo scoreboardIsFrozen

/-- `reset_to_tick`. -/
def resetToTick (tick : ℤ) : EStateM Error (World K Cache) Unit := do
  let info ← sb.fetchData tick
  let previousInfo ← sb.fetchData (tick - 1)
  sb.createJsonForTeams info previousInfo (sb.isFrozen tick)
  sb.createServiceStatJson info previousInfo (sb.isFrozen tick)

end Operations

end Scoreboard

end Gameserver.Board
