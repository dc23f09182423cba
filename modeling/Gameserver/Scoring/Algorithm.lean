import Gameserver.Scoring.Model

/-!
# Scoring one tick

`ScoreTickAlgorithmBase.calculate_scoring_for_tick` of `algorithms/algorithm.py`,
with its helpers, for any algorithm that fills in the hooks.

A dictionary from `(team_id, service_id)` to points is a function to `Option`
(`PointsDict`); its keys are the pairs of known teams and services, and looking up
another key is a `KeyError`.  The points are mutable objects in the code, so a
`KeyError` in the middle of a flag leaves behind what was added before it: the
helpers return a `Raising`.
-/

namespace Gameserver.Scoring

variable {K : Type*} [Field K]

/-- `dict[TeamServicePair, TeamPointsLite]`. -/
abbrev PointsDict (K : Type*) := TeamServicePair → Option (TeamPointsLite K)

/-- Change the points of one pair in place; a missing pair is a `KeyError`. -/
def PointsDict.modify (d : PointsDict K) (key : TeamServicePair)
    (f : TeamPointsLite K → TeamPointsLite K) : Raising PyError (PointsDict K) :=
  match d key with
  | some points => .ok (Function.update d key (some (f points)))
  | none => .raised .keyError d

/-- The teams and services a scoring algorithm is built for. -/
structure Roster where
  teamIds : List ℕ
  services : List Service
  deriving DecidableEq

namespace Roster

/-- `services_by_id`. -/
def serviceById (roster : Roster) (id : ℕ) : Option Service :=
  roster.services.find? fun service => service.id = id

/-- The keys of the results, in the order in which they are created. -/
def pairs (roster : Roster) : List TeamServicePair :=
  roster.teamIds.flatMap fun teamId => roster.services.map fun service => (teamId, service.id)

end Roster

/-- The arguments of `calculate_scoring_for_tick`, with the entries of
`sla_delta_for` that its caller sets beforehand. -/
structure TickInput (K : Type*) where
  tick : ℤ
  checkerResults : TeamServicePair → CheckerStatus
  lastTickPoints : PointsDict K
  /-- `(tick, team_id) => rank` -/
  teamRankInTick : ℤ × ℕ → Option ℕ
  flags : List StolenFlag
  /-- `(service_id, tick) => team_id => sla_delta` -/
  slaDeltaFor : ℕ × ℤ → ℕ → Option K

/-- `_new_results_for_tick`. -/
def newResultsForTick (roster : Roster) (tick : ℤ) : PointsDict K := fun key =>
  if key ∈ roster.pairs then
    some
      { teamId := key.1, serviceId := key.2, tick := tick, flagCapturedCount := 0,
        flagStolenCount := 0, offPoints := 0, defPoints := 0, slaPoints := 0, slaDelta := 0 }
  else none

/-! ## SLA -/

section Sla

variable [LinearOrder K] (S : Setup K) (roster : Roster)

/-- `active_status`. -/
def activeStatus : List CheckerStatus := [.success, .flagmissing, .recovering]

/-- Does the checker result make its team an active one? -/
def isActive (tick : ℤ) (status : CheckerStatus) : Bool :=
  0 < S.algorithm.slaPoints tick status ∨ status ∈ activeStatus

/-- The number of active teams, at least 1 (`_calculate_sla`). -/
def numActiveTeams (tick : ℤ) (checkerResults : TeamServicePair → CheckerStatus) : ℕ :=
  max 1 (roster.pairs.foldl (fun activeTeamIds key =>
    if isActive S tick (checkerResults key) then activeTeamIds.insert key.1 else activeTeamIds)
    []).length

/-- `sla_delta` of a pair (`_calculate_sla`). -/
def slaDelta (tick : ℤ) (checkerResults : TeamServicePair → CheckerStatus)
    (key : TeamServicePair) : K :=
  S.algorithm.slaPoints tick (checkerResults key) * S.config.slaFactor
    * S.fn.sqrt (numActiveTeams S roster tick checkerResults)

/-- `_calculate_sla`: set `sla_delta` in the new results. -/
def calculateSla (input : TickInput K) (newTickPoints : PointsDict K) : PointsDict K := fun key =>
  (newTickPoints key).map fun points =>
    { points with slaDelta := slaDelta S roster input.tick input.checkerResults key }

/-- `sla_delta_for` after `_calculate_sla`: the entries of the known services for this
tick are new, all others are those the caller set. -/
def slaDeltaForTick (input : TickInput K) : ℕ × ℤ → ℕ → Option K := fun key teamId =>
  if key.2 = input.tick ∧ (roster.serviceById key.1).isSome then
    (newResultsForTick (K := K) roster input.tick (teamId, key.1)).map fun _ =>
      slaDelta S roster input.tick input.checkerResults (teamId, key.1)
  else input.slaDeltaFor key teamId

end Sla

/-! ## Flags -/

section Flags

variable (S : Setup K)

/-- `_flag_stolen_attacker`: give an attacker points. -/
def flagStolenAttacker (newTickPoints : PointsDict K) (flag : StolenFlag) (service : Service)
    (victimRank : ℕ) : Raising PyError (PointsDict K) :=
  newTickPoints.modify (flag.flag.submittedBy, flag.flag.serviceId) fun attacker =>
    { attacker with
      flagCapturedCount := attacker.flagCapturedCount + 1
      offPoints := attacker.offPoints
        + S.algorithm.offPoints flag victimRank / service.flagsPerTick * S.config.offFactor }

/-- `_flag_stolen_victim`: deduce defensive points. -/
def flagStolenVictim (newTickPoints : PointsDict K) (flag : StolenFlag) (service : Service)
    (numActiveTeams : ℕ) (slaDeltaFor : ℕ × ℤ → ℕ → Option K) : Raising PyError (PointsDict K) :=
  newTickPoints.modify (flag.flag.teamId, flag.flag.serviceId) fun victim =>
    let victimSlaWhenIssued :=
      (slaDeltaFor (flag.flag.serviceId, flag.flag.tickIssued) flag.flag.teamId).getD 0
    let prevDamage := S.algorithm.defPointsPrevious flag numActiveTeams victimSlaWhenIssued
    let newDamage := S.algorithm.defPoints flag numActiveTeams victimSlaWhenIssued
    { victim with
      defPoints := victim.defPoints
        - (newDamage - prevDamage) / service.flagsPerTick * S.config.defFactor
      flagStolenCount := victim.flagStolenCount
        + if flag.numPreviousSubmissions = 0 then 1 else 0 }

/-- `_flag_stolen_previous_attackers`: correct the points of the submitters of earlier
ticks.  The ids are read only if there are any. -/
def flagStolenPreviousAttackers (newTickPoints : PointsDict K) (flag : StolenFlag)
    (service : Service) (victimRank : ℕ) : Raising PyError (PointsDict K) :=
  if 0 < flag.numPreviousSubmissions then
    if flag.previousSubmitterIds.length = flag.numPreviousSubmissions then
      match S.algorithm.offPointsPrevious flag victimRank with
      | some previousFlagpoints =>
        let newFlagpoints := S.algorithm.offPoints flag victimRank
        Raising.forEach (fun points ps =>
          points.modify (ps, flag.flag.serviceId) fun attacker =>
            { attacker with
              offPoints := attacker.offPoints + (newFlagpoints - previousFlagpoints)
                / service.flagsPerTick * S.config.offFactor })
          flag.previousSubmitterIds newTickPoints
      | none => .ok newTickPoints
    else .raised .assertionError newTickPoints
  else .ok newTickPoints

/-- The results so far and the flags seen so far in this tick. -/
structure LoopState (K : Type*) where
  newTickPoints : PointsDict K
  stolenFlags : FlagSet

/-- Put the points back into the state of the loop. -/
def LoopState.withPoints (st : LoopState K) (newTickPoints : PointsDict K) : LoopState K :=
  { st with newTickPoints := newTickPoints }

/-- What the loop over the flags reads but does not change. -/
structure FlagContext (K : Type*) where
  roster : Roster
  numActiveTeams : ℕ
  slaDeltaFor : ℕ × ℤ → ℕ → Option K
  teamRankInTick : ℤ × ℕ → Option ℕ

/-- The victim's rank at the end of the tick before the flag was issued. -/
def FlagContext.victimRank (ctx : FlagContext K) (flag : SubmittedFlag) : ℕ :=
  (ctx.teamRankInTick (flag.tickIssued - 1, flag.teamId)).getD ctx.roster.teamIds.length

/-- The body of the `try` block: one flag. -/
def scoreFlag (ctx : FlagContext K) (st : LoopState K) (flag : StolenFlag) :
    Raising PyError (LoopState K) :=
  match ctx.roster.serviceById flag.flag.serviceId with
  | none => .raised .keyError st
  | some service =>
    let victimRank := ctx.victimRank flag.flag
    (flagStolenAttacker S st.newTickPoints flag service victimRank).andThen st.withPoints
      fun points =>
    let (isNew, stolenFlags) := st.stolenFlags.isNew flag.flag
    if isNew then
      (flagStolenVictim S points flag service ctx.numActiveTeams ctx.slaDeltaFor).andThen
        (⟨·, stolenFlags⟩) fun points =>
      (flagStolenPreviousAttackers S points flag service victimRank).andThen
        (⟨·, stolenFlags⟩) fun points =>
      .ok ⟨points, stolenFlags⟩
    else .ok ⟨points, stolenFlags⟩

/-- `except KeyError`: the flag is reported as invalid, and the loop goes on. -/
def isKeyError : PyError → Bool
  | .keyError => true
  | .assertionError => false

/-- The loop over the flags of the tick. -/
def scoreFlags (ctx : FlagContext K) (flags : List StolenFlag) (st : LoopState K) :
    Raising PyError (LoopState K) :=
  Raising.forEach (fun st flag => (scoreFlag S ctx st flag).handle isKeyError) flags st

end Flags

/-! ## The whole tick -/

/-- Add the points of the previous tick; a pair that has none is a `KeyError`. -/
def addLastTickPoints (roster : Roster) (lastTickPoints newTickPoints : PointsDict K) :
    Raising PyError (PointsDict K) :=
  if roster.pairs.all fun key => (lastTickPoints key).isSome then
    .ok fun key => (newTickPoints key).bind fun points => (lastTickPoints key).map fun lr =>
      { points with
        offPoints := points.offPoints + lr.offPoints
        defPoints := points.defPoints + lr.defPoints
        slaPoints := lr.slaPoints + points.slaDelta
        flagCapturedCount := points.flagCapturedCount + lr.flagCapturedCount
        flagStolenCount := points.flagStolenCount + lr.flagStolenCount }
  else .raised .keyError newTickPoints

variable [LinearOrder K]

/-- What the flags of a tick are scored against. -/
def TickInput.context (S : Setup K) (roster : Roster) (input : TickInput K) : FlagContext K where
  roster := roster
  numActiveTeams := numActiveTeams S roster input.tick input.checkerResults
  slaDeltaFor := slaDeltaForTick S roster input
  teamRankInTick := input.teamRankInTick

/-- `ScoreTickAlgorithmBase.calculate_scoring_for_tick`. -/
def Setup.calculateScoringForTick (S : Setup K) (roster : Roster) (input : TickInput K) :
    Raising PyError (PointsDict K) :=
  let newTickPoints := calculateSla S roster input (newResultsForTick roster input.tick)
  (scoreFlags S (input.context S roster) input.flags ⟨newTickPoints, .empty⟩).andThen
    LoopState.newTickPoints fun st =>
  addLastTickPoints roster input.lastTickPoints st.newTickPoints

end Gameserver.Scoring
