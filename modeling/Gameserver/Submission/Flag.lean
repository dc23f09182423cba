import Mathlib.Data.Int.Notation

/-!
# Checking a submitted flag

`progress_flag` of `flag-submission-server/src/flagchecker.cpp`, from the decoded flag to
the lookup in the flag cache: all checks that need neither cache nor database.

* `FlagFormat` — a decoded flag.
* `Answer` — what a submitter is told, with the texts of the server.
* `checks` — the checks, in the order of the source.
-/

namespace Gameserver.Submission

/-- `struct FlagFormat`. -/
structure FlagFormat where
  round : UInt16
  teamId : UInt16
  serviceId : UInt16
  payload : UInt16
  mac : Vector UInt8 16
  deriving DecidableEq

/-- `Redis::state`. -/
inductive GameState where
  | stopped
  | suspended
  | running
  deriving DecidableEq, Repr

/-- The constants `STOPPED`, `SUSPENDED` and `RUNNING`. -/
def GameState.toInt : GameState → ℤ
  | stopped => 1
  | suspended => 2
  | running => 3

/-- `class Config`, as far as `progress_flag` reads it.  HMAC-SHA256 with the secret key
is a parameter. -/
structure Config where
  /-- `0` for none. -/
  nopTeamId : ℤ
  flagRoundsValid : ℤ
  /-- `verify_hmac` for the first four fields and `mac`. -/
  verifyHmac : FlagFormat → Bool

/-- The global variables `progress_flag` reads: the limits, and the replica of the timer
in `class Redis`. -/
structure Globals where
  maxTeamId : UInt32
  maxServiceId : UInt32
  state : GameState
  currentRound : ℤ
  deriving DecidableEq

/-- The initial values. -/
def Globals.initial : Globals where
  maxTeamId := 255
  maxServiceId := 10
  state := .stopped
  currentRound := -1

/-- What `progress_flag` returns for a flag that could be decoded. -/
inductive Answer where
  | notRunning
  | invalidSource
  | invalidService
  | invalidTeam
  | flagOfNopTeam
  | testing
  | ownFlag
  | asNopTeam
  | expired
  | invalid
  | alreadySubmitted
  | databaseError
  | ok
  | statusCheck (submitter : UInt16) (globals : Globals) (nopTeamId : ℤ)
  | teamCheck (submitter : UInt16)
  deriving DecidableEq

/-- The texts. -/
def Answer.text : Answer → String
  | notRunning => "[OFFLINE] CTF not running\n"
  | invalidSource => "[ERR] Invalid source IP\n"
  | invalidService => "[ERR] Invalid flag (service)\n"
  | invalidTeam => "[ERR] Invalid flag (team)\n"
  | flagOfNopTeam => "[ERR] Can't submit flag from NOP team\n"
  | testing => "[ERR] Invalid flag (issued for testing purposes)\n"
  | ownFlag => "[ERR] This is your own flag\n"
  | asNopTeam => "[ERR] Can't submit flag as NOP team\n"
  | expired => "[ERR] Expired\n"
  | invalid => "[ERR] Invalid flag\n"
  | alreadySubmitted => "[ERR] Already submitted\n"
  | databaseError => "[ERR] Internal error (database)\n"
  | ok => "[OK]\n"
  | statusCheck submitter globals nopTeamId =>
    "[OK] Status check passed. submitter=" ++ toString submitter ++
      " max_team_id=" ++ toString globals.maxTeamId.toInt32 ++
      " max_service_id=" ++ toString globals.maxServiceId.toInt32 ++
      " online_status=" ++ toString globals.state.toInt ++
      " tick=" ++ toString globals.currentRound ++
      " nop_team_id=" ++ toString nopTeamId ++ "\n"
  | teamCheck submitter => "[OK] You are team " ++ toString submitter ++ "\n"

/-- `is_test_flag`, with `FLAG_SERVICE_CHECK_LIMIT`. -/
def isTestFlag (flag : FlagFormat) : Bool := 0xfffe ≤ flag.serviceId

/-- `answer_test_flag`. -/
def answerTestFlag (config : Config) (globals : Globals) (flag : FlagFormat)
    (submittingTeam : UInt16) : Answer :=
  if flag.serviceId = 0xffff then .statusCheck submittingTeam globals config.nopTeamId
  else if flag.serviceId = 0xfffe then .teamCheck submittingTeam
  else .invalidService

/-- The checks for flags that are not test flags. -/
def gameChecks (config : Config) (globals : Globals) (thisTeam : UInt16) (flag : FlagFormat) :
    Option Answer :=
  if globals.maxServiceId.toNat < flag.serviceId.toNat then some .invalidService
  else if globals.maxTeamId.toNat < flag.teamId.toNat then some .invalidTeam
  else if config.nopTeamId ≠ 0 ∧ (flag.teamId.toNat : ℤ) = config.nopTeamId then some .flagOfNopTeam
  else if 0x7fff < flag.round then some .testing
  else if thisTeam = flag.teamId then some .ownFlag
  else if config.nopTeamId ≠ 0 ∧ (thisTeam.toNat : ℤ) = config.nopTeamId then some .asNopTeam
  -- <round issued> + <number of valid rounds> is the last round a flag is valid
  else if (flag.round.toNat : ℤ) + config.flagRoundsValid < globals.currentRound then some .expired
  else none

/-- `progress_flag` up to the cache, for a flag from the team `source`: an answer, or the
submitting team. -/
def checks (config : Config) (globals : Globals) (source : UInt16) (flag : FlagFormat) :
    Except Answer UInt16 :=
  if globals.state ≠ .running ∧ ¬ isTestFlag flag then .error .notRunning
  else
    let validSource := source.toNat ≤ globals.maxTeamId.toNat ∧ source ≠ 0
    if ¬ validSource ∧ ¬ isTestFlag flag then .error .invalidSource
    else
      let thisTeam := if validSource then source else 0xffff
      match if isTestFlag flag then none else gameChecks config globals thisTeam flag with
      | some answer => .error answer
      | none =>
        if ¬ config.verifyHmac flag then .error .invalid
        else if isTestFlag flag then .error (answerTestFlag config globals flag thisTeam)
        else .ok thisTeam

end Gameserver.Submission
