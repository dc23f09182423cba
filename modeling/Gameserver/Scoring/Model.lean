import Mathlib
import Gameserver.Lib.Raising

/-!
# The data model of the scoring

The database rows and configuration that `controlserver/scoring` works on, and the
formulas of `algorithms/saarctf.py`.

* `SubmittedFlag`, `SubmittedFlags` — a row of `submitted_flags`, and the table with
  its primary key and the constraint `submitted_flags_unique_1`.
* `Service`, `CheckerResult`, `TeamPointsLite`, `TeamRanking` — the other rows.
* `FlagSet`, `StolenFlag` — the helper classes of `algorithms/algorithm.py`.
* `ScoreTickAlgorithm` — the hooks of `ScoreTickAlgorithmBase`;
  `saarctfScoreAlgorithm` and `saarctfScoreAlgorithmWithHappyHour` fill them in.

Points are computed exactly, in a field `K`; the square root and the power `0.3` are
arbitrary functions on it (`Roots`).  Configured factors and `flags_per_tick` are
stored numbers, hence rational.
-/

namespace Gameserver.Scoring

/-- The identity of a flag, whoever submits it: service, team, tick of issue, payload. -/
abbrev FlagKey := ℕ × ℕ × ℤ × ℕ

/-- A `(team_id, service_id)` pair. -/
abbrev TeamServicePair := ℕ × ℕ

instance (key : FlagKey) (keys : List FlagKey) : Decidable (key ∈ keys) :=
  List.instDecidableMemOfLawfulBEq key keys

instance (key : TeamServicePair) (keys : List TeamServicePair) : Decidable (key ∈ keys) :=
  List.instDecidableMemOfLawfulBEq key keys

/-- A row of `submitted_flags`.  The mark `is_firstblood` is kept apart. -/
structure SubmittedFlag where
  id : ℕ
  submittedBy : ℕ
  teamId : ℕ
  serviceId : ℕ
  tickIssued : ℤ
  payload : ℕ
  tickSubmitted : ℤ
  ts : ℤ
  deriving DecidableEq, Repr

namespace SubmittedFlag

/-- The key of `FlagSet`. -/
def key (f : SubmittedFlag) : FlagKey := (f.serviceId, f.teamId, f.tickIssued, f.payload)

/-- The columns of `submitted_flags_unique_1`. -/
def uniqueKey (f : SubmittedFlag) : ℕ × FlagKey := (f.submittedBy, f.key)

/-- `ORDER BY ts, tick_submitted, id`. -/
def Before (f g : SubmittedFlag) : Prop :=
  f.ts < g.ts ∨ (f.ts = g.ts ∧ (f.tickSubmitted < g.tickSubmitted ∨
    (f.tickSubmitted = g.tickSubmitted ∧ f.id ≤ g.id)))

instance : DecidableRel Before := fun f g =>
  inferInstanceAs (Decidable (f.ts < g.ts ∨ (f.ts = g.ts ∧ (_ ∨ (_ ∧ _)))))

end SubmittedFlag

/-- The table `submitted_flags`. -/
structure SubmittedFlags where
  rows : List SubmittedFlag
  primaryKey : (rows.map SubmittedFlag.id).Nodup
  /-- `submitted_flags_unique_1` -/
  unique : (rows.map SubmittedFlag.uniqueKey).Nodup

/-- A row of `services`, as far as the scoring reads it. -/
structure Service where
  id : ℕ
  /-- Number of possible payloads, 0 for unlimited. -/
  numPayloads : ℕ
  flagsPerTick : ℚ
  flagsPerTick_ne_zero : flagsPerTick ≠ 0
  deriving DecidableEq

/-- A service with the default of `flags_per_tick`. -/
def Service.new (id numPayloads : ℕ) : Service := ⟨id, numPayloads, 1, one_ne_zero⟩

/-- The states of a checker result. -/
inductive CheckerStatus where
  | success
  | flagmissing
  | mumble
  | offline
  | timeout
  | recovering
  | revoked
  | crashed
  | pending
  deriving DecidableEq, Repr

/-- A row of `checker_results`. -/
structure CheckerResult where
  teamId : ℕ
  serviceId : ℕ
  tick : ℤ
  status : CheckerStatus
  deriving DecidableEq, Repr

/-- A row of `team_points`, `TeamPointsLite` in the code. -/
structure TeamPointsLite (K : Type*) where
  teamId : ℕ
  serviceId : ℕ
  tick : ℤ
  flagCapturedCount : ℕ
  flagStolenCount : ℕ
  offPoints : K
  defPoints : K
  slaPoints : K
  slaDelta : K
  deriving DecidableEq, Repr

/-- A row of `team_rankings`, with `rank [1, ...]`. -/
structure TeamRanking (K : Type*) where
  tick : ℤ
  teamId : ℕ
  rank : ℕ+
  points : K
  deriving DecidableEq, Repr

/-- `ScoringConfig`. -/
structure ScoringConfig where
  flagsRoundsValid : ℤ
  offFactor : ℚ
  defFactor : ℚ
  slaFactor : ℚ
  /-- `data["happy_hour_tick"]` -/
  happyHourTick : Option ℤ
  deriving DecidableEq

/-- What ends a statement of the scoring. -/
inductive PyError where
  | keyError
  | assertionError
  deriving DecidableEq, Repr

/-! ## The helper classes of `algorithm.py` -/

/-- `class FlagSet`. -/
structure FlagSet where
  seen : List FlagKey
  deriving DecidableEq

/-- `FlagSet()`. -/
def FlagSet.empty : FlagSet := ⟨[]⟩

/-- `FlagSet.is_new`. -/
def FlagSet.isNew (set : FlagSet) (flag : SubmittedFlag) : Bool × FlagSet :=
  if flag.key ∈ set.seen then (false, set) else (true, ⟨flag.key :: set.seen⟩)

/-- `class StolenFlag`. -/
structure StolenFlag where
  flag : SubmittedFlag
  numPreviousSubmissions : ℕ
  numSubmissions : ℕ
  previousSubmitterIds : List ℕ
  deriving DecidableEq

/-! ## The scoring formulas -/

/-- The hooks a scoring algorithm fills in: `FlagPointAlgorithm`,
`DefensiveAlgorithm` and `SlaAlgorithm`. -/
structure ScoreTickAlgorithm (K : Type*) where
  offPoints (flag : StolenFlag) (victimRank : ℕ) : K
  offPointsPrevious (flag : StolenFlag) (victimRank : ℕ) : Option K
  defPoints (flag : StolenFlag) (numActiveTeams : ℕ) (victimSlaWhenIssued : K) : K
  defPointsPrevious (flag : StolenFlag) (numActiveTeams : ℕ) (victimSlaWhenIssued : K) : K
  slaPoints (tick : ℤ) (status : CheckerStatus) : K

/-- The functions that exact arithmetic does not have: the square root and `** 0.3`. -/
structure Roots (K : Type*) where
  sqrt : K → K
  pow03 : K → K

section Formulas

variable {K : Type*} [Field K] (fn : Roots K)

/-- `SlaSaarCtfDefault.sla_points`. -/
def slaPoints (status : CheckerStatus) : K :=
  match status with
  | .success => 1
  | .recovering => 1 / 2
  | _ => 0

/-- The formula of `FlagPointsSaarCtfDefault`, for a flag with `n` submissions. -/
def flagPoints (n victimRank : ℕ) : K := 1 + fn.sqrt (1 / n) + fn.sqrt (1 / victimRank)

/-- The formula of `DefensiveSaarCtfDefault`, for a flag with `n` submissions. -/
def defDamage (n numActiveTeams : ℕ) (victimSlaWhenIssued : K) : K :=
  fn.pow03 (n / numActiveTeams) * victimSlaWhenIssued

/-- `SaarctfScoreAlgorithm`. -/
def saarctfScoreAlgorithm : ScoreTickAlgorithm K where
  offPoints flag victimRank :=
    flagPoints fn (flag.numPreviousSubmissions + flag.numSubmissions) victimRank
  offPointsPrevious flag victimRank := some (flagPoints fn flag.numPreviousSubmissions victimRank)
  defPoints flag numActiveTeams sla :=
    defDamage fn (flag.numPreviousSubmissions + flag.numSubmissions) numActiveTeams sla
  defPointsPrevious flag numActiveTeams sla :=
    defDamage fn flag.numPreviousSubmissions numActiveTeams sla
  slaPoints _ status := slaPoints status

/-- `HappyHourFlagPointsSaarctfDefault.factor`. -/
def happyHourFactor (config : ScoringConfig) (tick : ℤ) : K :=
  if config.happyHourTick.getD 0xffffff ≤ tick then 2 else 1

/-- `SaarctfScoreAlgorithmWithHappyHour`. -/
def saarctfScoreAlgorithmWithHappyHour (config : ScoringConfig) : ScoreTickAlgorithm K :=
  { saarctfScoreAlgorithm fn with
    offPoints := fun flag victimRank =>
      (saarctfScoreAlgorithm fn).offPoints flag victimRank
        * happyHourFactor config flag.flag.tickIssued
    offPointsPrevious := fun flag victimRank =>
      ((saarctfScoreAlgorithm fn).offPointsPrevious flag victimRank).map
        (· * happyHourFactor config flag.flag.tickIssued) }

end Formulas

/-- What a scoring run is set up with: the configuration, the algorithm it names, and
the functions on `K`. -/
structure Setup (K : Type*) where
  config : ScoringConfig
  fn : Roots K
  algorithm : ScoreTickAlgorithm K

end Gameserver.Scoring
