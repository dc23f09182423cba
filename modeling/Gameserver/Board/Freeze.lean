import Gameserver.Board.Daemon
import Gameserver.Board.Policy

/-!
# What the frozen scoreboard is made from

Histories that are the same up to the freeze tick, and what the generator reads of them for a
later tick.

* `ScoredUntil` — a history whose ticks have been scored.
* `AgreeUntil` — two histories that are the same up to a tick.
* `infoAt`, `fetchData_eq` — the data of a scored tick; nothing is computed.
* `createScoreboard_eq`, `resetToTick_eq` — the two operations on a frozen scoreboard.
* `infoAt_eq` — the ticks whose data is the same.
-/

namespace Gameserver.Board

open Gameserver.Scoring Gameserver.Calculation

variable {K Cache : Type}

/-! ## Histories -/

/-- The results and the ranking of a tick are there. -/
structure ResultsThere (db : Database K) (tick : ℤ) : Prop where
  points : ((db.pointsRows tick).map pairOf).Perm db.roster.pairs
  rankings : ((db.rankingRows tick).map TeamRanking.teamId).Perm db.teams
  ne_nil : db.rankingRows tick ≠ []

/-- The ticks up to this one have been scored, from the first one on.  First bloods are recorded for
known teams only.  The generator has loaded nothing yet, or all teams and services. -/
structure ScoredUntil (w : World K Cache) (tick : ℤ) : Prop where
  constraints : Constraints w.st.db
  points_pos : ∀ row ∈ w.st.db.teamPoints, 1 ≤ row.tick
  results : ∀ u, 1 ≤ u → u ≤ tick → ResultsThere w.st.db u
  firstBloods : ∀ flag ∈ w.st.db.submittedFlags.rows, 0 < w.st.isFirstblood flag.id →
    flag.submittedBy ∈ w.st.db.teams
  loaded : (w.teams = [] ∧ w.services = []) ∨
    (w.teams.Perm w.st.db.teams ∧ w.services.Perm w.st.db.services)

/-- The histories are the same up to the tick, and so is everything else that is not a result, and
the output folder. -/
structure AgreeUntil (tick : ℤ) (w w' : World K Cache) : Prop where
  teams : w'.st.db.teams = w.st.db.teams
  services : w'.st.db.services = w.st.db.services
  checkerResults : w'.st.db.checkerResults = w.st.db.checkerResults
  teamPoints : (w'.st.db.teamPoints.filter fun row => row.tick ≤ tick) =
    w.st.db.teamPoints.filter fun row => row.tick ≤ tick
  teamRankings : (w'.st.db.teamRankings.filter fun row => row.tick ≤ tick) =
    w.st.db.teamRankings.filter fun row => row.tick ≤ tick
  submittedFlags : (w'.st.db.submittedFlags.rows.filter fun flag => flag.tickSubmitted ≤ tick) =
    w.st.db.submittedFlags.rows.filter fun flag => flag.tickSubmitted ≤ tick
  isFirstblood : ∀ flag ∈ w.st.db.submittedFlags.rows, flag.tickSubmitted ≤ tick →
    w'.st.isFirstblood flag.id = w.st.isFirstblood flag.id
  loadedTeams : w'.teams = w.teams
  loadedServices : w'.services = w.services
  folder : w'.folder = w.folder

/-- The output folder after an operation, whether or not it raises. -/
def folderAfter (m : EStateM Error (World K Cache) Unit) (w : World K Cache) : Folder K :=
  match m w with
  | .ok _ w' => w'.folder
  | .error _ w' => w'.folder

/-- The files an operation for this tick writes do not depend on what happens after the freeze. -/
def RevealsNothing (m : EStateM Error (World K Cache) Unit) (freeze tick : ℤ) (w : World K Cache) :
    Prop :=
  ∀ w', AgreeUntil freeze w w' → ScoredUntil w' tick → folderAfter m w' = folderAfter m w

/-! ## The data of a tick -/

namespace TickInformation

variable [Field K] (info : TickInformation K)

/-- The points of a pair. -/
def row (key : TeamServicePair) : TeamPointsLite K :=
  (info.teamPoints.find? fun row => pairOf row = key).getD
    ⟨key.1, key.2, info.ticknumber, 0, 0, 0, 0, 0, 0⟩

/-- The place of a team. -/
def rankingOf (teamId : ℕ) : TeamRanking K :=
  (info.ranking.find? fun row => row.teamId = teamId).getD
    ⟨info.ticknumber, teamId, ⟨1, Nat.one_pos⟩, 0⟩

theorem points_eq_row {key : TeamServicePair} (h : key ∈ info.teamPoints.map pairOf) :
    info.points key = .ok (info.row key) := by
  obtain ⟨row, hrow, hkey⟩ := List.mem_map.1 h
  cases hfind : info.teamPoints.find? fun row => pairOf row = key with
  | none => exact absurd hkey (by simpa using List.find?_eq_none.1 hfind row hrow)
  | some found => rw [points, TickInformation.row, hfind, Option.getD_some]

theorem rankingByTeamId_eq {teamId : ℕ} (h : teamId ∈ info.ranking.map TeamRanking.teamId) :
    info.rankingByTeamId teamId = .ok (info.rankingOf teamId) := by
  obtain ⟨row, hrow, hid⟩ := List.mem_map.1 h
  cases hfind : info.ranking.find? fun row => row.teamId = teamId with
  | none => exact absurd hid (by simpa using List.find?_eq_none.1 hfind row hrow)
  | some found => rw [rankingByTeamId, rankingOf, hfind, Option.getD_some]

theorem teamId_rankingOf (teamId : ℕ) : (info.rankingOf teamId).teamId = teamId := by
  rw [rankingOf]
  cases hfind : info.ranking.find? fun row => row.teamId = teamId with
  | none => rfl
  | some found => simpa using List.find?_some hfind

end TickInformation

theorem foldlM_congr {α β ε : Type} {f g : β → α → Except ε β} {l : List α}
    (h : ∀ a ∈ l, ∀ b, f b a = g b a) (b : β) : l.foldlM f b = l.foldlM g b := by
  induction l generalizing b with
  | nil => rfl
  | cons a l ih =>
    rw [List.foldlM_cons, List.foldlM_cons, h a List.mem_cons_self]
    exact congrArg _ (funext fun b => ih (fun a ha => h a (List.mem_cons_of_mem _ ha)) b)

/-! ## Fetching data -/

namespace Scoreboard

variable [Field K] (sb : Scoreboard K Cache)

/-- What `__fetch_data` gives if nothing has to be computed. -/
def infoAt (w : World K Cache) (tick : ℤ) : TickInformation K where
  ticknumber := tick
  ranking :=
    if tick ≤ 0 then
      (w.st.db.teams.insertionSort (· ≤ ·)).map fun teamId =>
        { tick := 0, teamId := teamId, rank := ⟨1, Nat.one_pos⟩, points := 0 }
    else storedRanking w.st.db tick
  teamPoints :=
    if tick ≤ 0 then
      (⟨w.teams, w.st.db.services⟩ : Roster).pairs.filterMap
        (newResultsForTick ⟨w.teams, w.st.db.services⟩ tick)
    else w.st.db.pointsRows tick
  checkerResults := sb.getCheckerResultsLite w.st.db tick

variable {sb} {w w' : World K Cache} {tick u : ℤ}

theorem infoAt_ranking : (sb.infoAt w u).ranking =
    if u ≤ 0 then
      (w.st.db.teams.insertionSort (· ≤ ·)).map fun teamId =>
        { tick := 0, teamId := teamId, rank := ⟨1, Nat.one_pos⟩, points := 0 }
    else storedRanking w.st.db u := rfl

theorem infoAt_teamPoints : (sb.infoAt w u).teamPoints =
    if u ≤ 0 then
      (⟨w.teams, w.st.db.services⟩ : Roster).pairs.filterMap
        (newResultsForTick ⟨w.teams, w.st.db.services⟩ u)
    else w.st.db.pointsRows u := rfl

omit [Field K] in
theorem length_teams_le (h : ScoredUntil w tick) : w.teams.length ≤ w.st.db.teams.length := by
  rcases h.loaded with ⟨hteams, -⟩ | ⟨hteams, -⟩
  · rw [hteams]
    exact Nat.zero_le _
  · exact hteams.length_eq.le

variable [LinearOrder K]

theorem getRankingForTick_eq (h : ScoredUntil w tick) (hu : u ≤ tick) :
    sb.getRankingForTick u w = .ok (sb.infoAt w u).ranking w := by
  show (if u ≤ 0 then _ else if storedRanking w.st.db u = [] then _ else _ :
    EStateM Error (World K Cache) _) w = _
  by_cases hpos : u ≤ 0
  · rw [if_pos hpos, infoAt_ranking, if_pos hpos]
    rfl
  · have hstored : storedRanking w.st.db u ≠ [] := by
      intro hnil
      have hperm := List.perm_insertionSort (fun a b : TeamRanking K =>
        a.rank < b.rank ∨ (a.rank = b.rank ∧ a.teamId ≤ b.teamId)) (w.st.db.rankingRows u)
      rw [show List.insertionSort _ (w.st.db.rankingRows u) = [] from hnil] at hperm
      exact (h.results u (by omega) hu).ne_nil hperm.nil_eq.symm
    rw [if_neg hpos, if_neg hstored, infoAt_ranking, if_neg hpos]
    rfl

theorem getResultsForTick_eq (h : ScoredUntil w tick) (hu : u ≤ tick) :
    sb.getResultsForTick u w = .ok (sb.infoAt w u).teamPoints w := by
  show (if u ≤ 0 then _ else
    if (w.st.db.pointsRows u).length < w.teams.length * w.st.db.services.length then _ else _ :
    EStateM Error (World K Cache) _) w = _
  by_cases hpos : u ≤ 0
  · rw [if_pos hpos, infoAt_teamPoints, if_pos hpos]
    rfl
  · have hlength : ¬ (w.st.db.pointsRows u).length < w.teams.length * w.st.db.services.length := by
      have hrows := (h.results u (by omega) hu).points.length_eq
      rw [List.length_map, length_pairs] at hrows
      rw [hrows, not_lt]
      exact Nat.mul_le_mul_right _ (length_teams_le h)
    rw [if_neg hpos, if_neg hlength, infoAt_teamPoints, if_neg hpos]
    rfl

theorem fetchData_eq (h : ScoredUntil w tick) (hu : u ≤ tick) :
    sb.fetchData u w = .ok (sb.infoAt w u) w := by
  show EStateM.bind _ _ w = _
  rw [EStateM.bind, getRankingForTick_eq h hu]
  show EStateM.bind _ _ w = _
  rw [EStateM.bind, getResultsForTick_eq h hu]
  rfl

/-! ### What is there -/

omit [LinearOrder K] in
theorem pairs_teamPoints (h : ScoredUntil w tick) (hloaded : w.teams.Perm w.st.db.teams)
    (hu : u ≤ tick) : ((sb.infoAt w u).teamPoints.map pairOf).Perm w.st.db.roster.pairs := by
  rw [infoAt_teamPoints]
  split_ifs with hpos
  · have hpairs : ∀ pairs ⊆ (⟨w.teams, w.st.db.services⟩ : Roster).pairs, (pairs.filterMap
        (newResultsForTick (K := K) ⟨w.teams, w.st.db.services⟩ u)).map pairOf = pairs := by
      intro pairs hsub
      induction pairs with
      | nil => rfl
      | cons pair pairs ih =>
        obtain ⟨hpair, hpairs⟩ := List.cons_subset.1 hsub
        rw [List.filterMap_cons, newResultsForTick, if_pos hpair, List.map_cons, ih hpairs]
        rfl
    rw [hpairs _ (List.Subset.refl _)]
    exact hloaded.flatMap_right _
  · exact (h.results u (by omega) hu).points

variable (sb) in
omit [LinearOrder K] in
theorem teams_ranking (h : ScoredUntil w tick) (hu : u ≤ tick) :
    ((sb.infoAt w u).ranking.map TeamRanking.teamId).Perm w.st.db.teams := by
  rw [infoAt_ranking]
  split_ifs with hpos
  · rw [List.map_map]
    show (List.map id _).Perm _
    rw [List.map_id]
    exact List.perm_insertionSort _ _
  · exact ((List.perm_insertionSort _ _).map _).trans (h.results u (by omega) hu).rankings

/-! ## The operations -/

variable (sb) in
/-- What both operations write, on a frozen scoreboard, about teams and services. -/
def createStatistics (info previousInfo : TickInformation K) :
    EStateM Error (World K Cache) Unit := do
  sb.createJsonForTeams info previousInfo true
  sb.createServiceStatJson info previousInfo true

variable (sb) in
/-- The checker results of the three ticks before. -/
def lastCheckerResults (db : Database K) (tick : ℤ) :
    List (TeamServicePair → CheckerStatus × String) :=
  [sb.getCheckerResultsLite db (tick - 1), sb.getCheckerResultsLite db (tick - 2),
    sb.getCheckerResultsLite db (tick - 3)]

/-- The tick whose points `create_scoreboard` shows. -/
def shownTick (freeze tick : ℤ) : ℤ := if freeze ≠ 0 then freeze else tick - 1

/-- The files that `create_scoreboard` writes, once the data is fetched. -/
def createFrozen (sb : Scoreboard K Cache) (w : World K Cache) (freeze tick : ℤ) :
    EStateM Error (World K Cache) Unit := do
  sb.createJsonForTick (sb.infoAt w tick) (sb.infoAt w (shownTick freeze tick))
    (sb.lastCheckerResults w.st.db tick) true
  sb.createStatistics (sb.infoAt w tick) (sb.infoAt w (shownTick freeze tick))

variable {freeze : ℤ}

omit [Field K] [LinearOrder K] in
theorem isFrozen_eq_true (hpublic : sb.isPublic = true)
    (hfreeze : sb.scoreboardFreeze = some freeze)
    (hlt : freeze < tick) : sb.isFrozen tick = true := by
  simp [isFrozen, frozenAt, hpublic, hfreeze, hlt]

theorem createScoreboard_eq (hpublic : sb.isPublic = true)
    (hfreeze : sb.scoreboardFreeze = some freeze) {ticknumber : ℤ} {hasStarted : Bool}
    (hlt : freeze < fileTick ticknumber hasStarted)
    (h : ScoredUntil (updateTeamServiceList w) (fileTick ticknumber hasStarted)) :
    sb.createScoreboard ticknumber hasStarted w =
      sb.createFrozen (updateTeamServiceList w) freeze (fileTick ticknumber hasStarted)
        (updateTeamServiceList w) := by
  have htick : fileTick ticknumber hasStarted =
      if ticknumber = 0 ∧ (!hasStarted) = true then -1 else ticknumber := by
    cases hasStarted <;> simp [fileTick]
  generalize hw : updateTeamServiceList w = w₀ at h
  generalize htick' : fileTick ticknumber hasStarted = tick at *
  show EStateM.bind _ _ (updateTeamServiceList w) = _
  rw [← htick, hw]
  rw [EStateM.bind, fetchData_eq h le_rfl]
  show EStateM.bind _ _ w₀ = _
  rw [EStateM.bind, fetchData_eq h (by omega)]
  simp only [hfreeze, isFrozen_eq_true hpublic hfreeze hlt, createFrozen, shownTick, true_and]
  by_cases hzero : freeze ≠ 0
  · have hfetch : (some <$> sb.fetchData freeze) w₀ = .ok (some (sb.infoAt w₀ freeze)) w₀ := by
      show EStateM.map _ _ w₀ = _
      rw [EStateM.map, fetchData_eq h hlt.le]
    rw [if_pos hzero, if_pos hzero]
    show EStateM.bind _ _ w₀ = _
    rw [EStateM.bind, hfetch]
    rfl
  · rw [if_neg hzero, if_neg hzero]
    rfl

theorem resetToTick_eq (hpublic : sb.isPublic = true) (hfreeze : sb.scoreboardFreeze = some freeze)
    (hlt : freeze < tick) (h : ScoredUntil w tick) :
    sb.resetToTick tick w = sb.createStatistics (sb.infoAt w tick) (sb.infoAt w (tick - 1)) w := by
  have hfrozen := isFrozen_eq_true hpublic hfreeze hlt
  show EStateM.bind _ _ w = _
  rw [EStateM.bind, fetchData_eq h le_rfl]
  show EStateM.bind _ _ w = _
  rw [EStateM.bind, fetchData_eq h (by omega), hfrozen]
  rfl

/-! ## What is the same in both histories -/

section Agree

omit [LinearOrder K]

omit [Field K] in
theorem filter_filter_tick {α : Type} {f : α → ℤ} {p : α → Bool}
    (hp : ∀ a, p a = true → f a ≤ freeze) (l : List α) :
    (l.filter fun a => f a ≤ freeze).filter p = l.filter p := by
  rw [List.filter_filter]
  refine List.filter_congr fun a _ => ?_
  cases hpa : p a with
  | false => rfl
  | true => simp [hp a hpa]

omit [Field K] in
theorem getCheckerResultsLite_eq (h : AgreeUntil freeze w w') (u : ℤ) :
    sb.getCheckerResultsLite w'.st.db u = sb.getCheckerResultsLite w.st.db u := by
  unfold getCheckerResultsLite Database.getCheckerResults
  rw [h.checkerResults]

omit [Field K] in
theorem lastCheckerResults_eq (h : AgreeUntil freeze w w') (tick : ℤ) :
    sb.lastCheckerResults w'.st.db tick = sb.lastCheckerResults w.st.db tick := by
  unfold lastCheckerResults
  rw [getCheckerResultsLite_eq h, getCheckerResultsLite_eq h, getCheckerResultsLite_eq h]

/-- The data of a tick is the same up to the freeze, and before the first tick. -/
theorem infoAt_eq (h : AgreeUntil freeze w w') (hu : u ≤ max freeze 0) :
    sb.infoAt w' u = sb.infoAt w u := by
  unfold infoAt
  rw [h.teams, h.services, h.loadedTeams, getCheckerResultsLite_eq h]
  by_cases hpos : u ≤ 0
  · rw [if_pos hpos, if_pos hpos, if_pos hpos, if_pos hpos]
  · have hle : u ≤ freeze := by omega
    have hrankings : w'.st.db.rankingRows u = w.st.db.rankingRows u := by
      have hrow : ∀ row : TeamRanking K, decide (row.tick = u) = true → row.tick ≤ freeze :=
        fun row hrow => (of_decide_eq_true hrow).trans_le hle
      rw [Database.rankingRows, Database.rankingRows, ← filter_filter_tick hrow, h.teamRankings,
        filter_filter_tick hrow]
    have hpoints : w'.st.db.pointsRows u = w.st.db.pointsRows u := by
      have hrow : ∀ row : TeamPointsLite K, decide (row.tick = u) = true → row.tick ≤ freeze :=
        fun row hrow => (of_decide_eq_true hrow).trans_le hle
      rw [Database.pointsRows, Database.pointsRows, ← filter_filter_tick hrow, h.teamPoints,
        filter_filter_tick hrow]
    rw [storedRanking, storedRanking, hrankings, hpoints]

omit [Field K] in
theorem firstBloodFlags_eq (h : AgreeUntil freeze w w') (hu : u ≤ freeze) :
    sb.firstBloodFlags w'.st u = sb.firstBloodFlags w.st u := by
  have hrows : (w'.st.db.submittedFlags.rows.filter fun flag =>
      flag.tickSubmitted ≤ u ∧ 0 < w'.st.isFirstblood flag.id ∧
        w'.st.isFirstblood flag.id ≤ sb.firstbloodLevel) =
      w.st.db.submittedFlags.rows.filter fun flag => flag.tickSubmitted ≤ u ∧
        0 < w.st.isFirstblood flag.id ∧ w.st.isFirstblood flag.id ≤ sb.firstbloodLevel := by
    have hflag : ∀ (marks : ℕ → ℕ) (flag : SubmittedFlag), decide (flag.tickSubmitted ≤ u ∧
        0 < marks flag.id ∧ marks flag.id ≤ sb.firstbloodLevel) = true →
        flag.tickSubmitted ≤ freeze :=
      fun _ flag hflag => (of_decide_eq_true hflag).1.trans hu
    rw [← filter_filter_tick (hflag _), h.submittedFlags, filter_filter_tick (hflag _)]
    refine List.filter_congr fun flag hrow => ?_
    by_cases hle : flag.tickSubmitted ≤ u
    · rw [h.isFirstblood flag hrow (hle.trans hu)]
    · simp [hle]
  rw [firstBloodFlags, firstBloodFlags, hrows]
  have hmarks : ∀ flag ∈ w.st.db.submittedFlags.rows.filter fun flag => flag.tickSubmitted ≤ u ∧
      0 < w.st.isFirstblood flag.id ∧ w.st.isFirstblood flag.id ≤ sb.firstbloodLevel,
      w'.st.isFirstblood flag.id = w.st.isFirstblood flag.id := by
    intro flag hflag
    obtain ⟨hrow, hselect⟩ := List.mem_filter.1 hflag
    exact h.isFirstblood flag hrow ((of_decide_eq_true hselect).1.trans hu)
  have hsort := List.map_insertionSort (LevelBefore w'.st.isFirstblood)
    (LevelBefore w.st.isFirstblood) id _ fun f hf g hg => by
      rw [id, id, LevelBefore, LevelBefore, hmarks f hf, hmarks g hg]
  rwa [List.map_id, List.map_id] at hsort

variable (sb) in
omit [Field K] in
theorem getFirstBloodInfo_eq (h : AgreeUntil freeze w w') (hu : u ≤ freeze) :
    sb.getFirstBloodInfo w'.st u = sb.getFirstBloodInfo w.st u := by
  rw [getFirstBloodInfo, getFirstBloodInfo, firstBloodFlags_eq h hu]
  refine foldlM_congr (fun flag hflag result => ?_) _
  obtain ⟨hrow, hselect⟩ := List.mem_filter.1 ((List.perm_insertionSort _ _).mem_iff.1 hflag)
  have hmark := h.isFirstblood flag hrow ((of_decide_eq_true hselect).1.trans hu)
  rw [addFirstBlood, addFirstBlood, h.teams, hmark]

end Agree

/-! ## The file of a frozen tick -/

section Round

variable (services : List Service) (prev : TickInformation K)
  (checks : TeamServicePair → CheckerStatus × String)
  (last : List (TeamServicePair → CheckerStatus × String))

/-- The entry of a service on the frozen scoreboard. -/
def frozenCell (key : TeamServicePair) : ServiceCell K where
  offPoints := (prev.row key).offPoints
  defPoints := (prev.row key).defPoints
  slaPoints := (prev.row key).slaPoints
  offDelta := 0
  defDelta := 0
  slaDelta := 0
  stolen := (prev.row key).flagStolenCount
  captured := (prev.row key).flagCapturedCount
  stolenDelta := 0
  capturedDelta := 0
  status := (checks key).1
  message := (checks key).2
  lastStatus := last.map fun results => (results key).1

/-- The entry of a team on the frozen scoreboard. -/
def frozenEntry (teamId : ℕ) : TeamEntry K where
  teamId := teamId
  rank := (prev.rankingOf teamId).rank
  points := (prev.rankingOf teamId).points
  services := services.map fun service => frozenCell prev checks last (teamId, service.id)
  offPoints := (services.map fun service => (prev.row (teamId, service.id)).offPoints).sum
  defPoints := (services.map fun service => (prev.row (teamId, service.id)).defPoints).sum
  slaPoints := (services.map fun service => (prev.row (teamId, service.id)).slaPoints).sum
  offDelta := 0
  defDelta := 0
  slaDelta := 0

variable {services prev last} {info : TickInformation K} {ranking : TeamRanking K}

omit [LinearOrder K] in
theorem teamEntry_frozen (hservices : services ≠ [])
    (hinfo : ∀ service ∈ services, (ranking.teamId, service.id) ∈ info.teamPoints.map pairOf)
    (hprev : ∀ service ∈ services, (ranking.teamId, service.id) ∈ prev.teamPoints.map pairOf)
    (hranking : ranking.teamId ∈ prev.ranking.map TeamRanking.teamId) :
    teamEntry services info prev last true ranking =
      .ok (frozenEntry services prev info.checkerResults last ranking.teamId) := by
  have hcells : services.mapM (serviceCell info prev last true ranking.teamId) =
      .ok (services.map fun service =>
        frozenCell prev info.checkerResults last (ranking.teamId, service.id)) := by
    refine History.mapM_ok services fun service hservice => ?_
    rw [serviceCell, prev.points_eq_row (hprev service hservice),
      info.points_eq_row (hinfo service hservice)]
    rfl
  have hresults : (services.mapM fun service =>
      prev.points ((prev.rankingOf ranking.teamId).teamId, service.id)) =
      .ok (services.map fun service => prev.row (ranking.teamId, service.id)) := by
    refine History.mapM_ok services fun service hservice => ?_
    rw [prev.teamId_rankingOf]
    exact prev.points_eq_row (hprev service hservice)
  have hne : (services.map fun service => prev.row (ranking.teamId, service.id)) ≠ [] := by
    simpa using hservices
  rw [teamEntry, hcells, prev.rankingByTeamId_eq hranking]
  simp only [bind, Except.bind, if_true, hresults, if_neg hne]
  rw [frozenEntry, List.map_map, List.map_map, List.map_map, prev.teamId_rankingOf]
  rfl

omit [LinearOrder K] in
/-- Without services there is nothing to unpack. -/
theorem teamEntry_without_services
    (hranking : ranking.teamId ∈ prev.ranking.map TeamRanking.teamId) :
    teamEntry [] info prev last true ranking = .error .valueError := by
  rw [teamEntry, prev.rankingByTeamId_eq hranking]
  rfl

variable (sb services prev last) in
/-- The file of a frozen tick. -/
def frozenRound (ticknumber : ℤ) (teamIds : List ℕ)
    (firstBloodInfo : ℕ → List FirstBloodTeam × List ℕ) : RoundFile K where
  tick := ticknumber
  scoreboard := (teamIds.map (frozenEntry services prev checks last)).insertionSort
    fun a b => b.points ≤ a.points
  services := services.map fun service =>
    serviceEntry (sb.texts.serviceName service.id) .hidden .hidden firstBloodInfo service

theorem roundJson_frozen (hservices : services ≠ []) {teams : List ℕ}
    (hinfo : info.ranking.map TeamRanking.teamId ⊆ teams)
    (hrows : ∀ teamId ∈ teams, ∀ service ∈ services,
      (teamId, service.id) ∈ info.teamPoints.map pairOf)
    (hprev : ∀ teamId ∈ teams, ∀ service ∈ services,
      (teamId, service.id) ∈ prev.teamPoints.map pairOf)
    (hranking : teams ⊆ prev.ranking.map TeamRanking.teamId) (st : State K Cache) :
    sb.roundJson services info prev last true st =
      (sb.getFirstBloodInfo st prev.ticknumber).map
        (sb.frozenRound services prev info.checkerResults last info.ticknumber
          (info.ranking.map TeamRanking.teamId)) := by
  have hentries : info.ranking.mapM (teamEntry services info prev last true) =
      .ok (info.ranking.map fun ranking =>
        frozenEntry services prev info.checkerResults last ranking.teamId) := by
    refine History.mapM_ok _ fun ranking hmem => ?_
    have hteam := hinfo (List.mem_map_of_mem hmem)
    exact teamEntry_frozen hservices (hrows _ hteam) (hprev _ hteam) (hranking hteam)
  rw [roundJson, hentries]
  cases sb.getFirstBloodInfo st prev.ticknumber with
  | error e => rfl
  | ok firstBloodInfo =>
    rw [Except.map, frozenRound, List.map_map]
    rfl

theorem roundJson_without_services (hne : info.ranking ≠ [])
    (hranking : info.ranking.map TeamRanking.teamId ⊆ prev.ranking.map TeamRanking.teamId)
    (st : State K Cache) :
    sb.roundJson [] info prev last true st = .error .valueError := by
  obtain ⟨ranking, rest, hcons⟩ := List.exists_cons_of_ne_nil hne
  have hfirst : ranking.teamId ∈ prev.ranking.map TeamRanking.teamId :=
    hranking (List.mem_map_of_mem (hcons ▸ List.mem_cons_self))
  rw [roundJson, hcons, List.mapM_cons, teamEntry_without_services hfirst]
  rfl

end Round

end Scoreboard

end Gameserver.Board
