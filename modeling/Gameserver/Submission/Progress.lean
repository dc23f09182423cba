import Gameserver.Network.IpSpec
import Gameserver.Submission.Cache
import Gameserver.Submission.RoundTrip

/-!
# Which flags reach the database

`progress_flag` as a whole: from a line, the address it came from and the team id of its connection
to an answer, or to the call of `submit_flag`.

* `SubmissionConfig`, `progressFlag` — the function.
* `checks_eq_ok_iff` — what the checks let through.
* `Admissible` — what a flag in the database should be; `submitted_admissible_iff` — all of it
  holds, except that team 0 and service 0 are not refused.
-/

namespace Gameserver.Submission

open Network (Octets IpSpec)

/-- What does not change while the server runs. -/
structure SubmissionConfig extends Config where
  charIsSigned : Bool
  flagPrefix : String
  teamRange : IpSpec
  vpnPeersRange : IpSpec

/-- `get_team_id_from_ip`: "127.0.0.1 is team 1". -/
def getTeamIdFromIp (config : SubmissionConfig) (ip : Octets) : Option UInt16 := do
  let teamId ← Network.getTeamIdFromIp config.teamRange config.vpnPeersRange ip
  return if teamId = 0 then 1 else teamId

/-- The submitting team, and `*team_id_cache` afterwards; `none` for no cache. -/
def getThisTeam (config : SubmissionConfig) (ip : Octets) :
    Option UInt16 → Option (UInt16 × Option UInt16)
  | some cached =>
    if cached = 0xffff then (getTeamIdFromIp config ip).map fun team => (team, some team)
    else some (cached, some cached)
  | none => (getTeamIdFromIp config ip).map fun team => (team, none)

/-- How `progress_flag` ends, or gets to `submit_flag`. -/
inductive Progress where
  | noFlag (answer : FormatAnswer)
  | answer (answer : Answer)
  | submitFlag (thisTeam : UInt16) (flag : FlagFormat)
  deriving DecidableEq

/-- With what `progress_flag` leaves behind. -/
structure ProgressResult where
  progress : Progress
  teamIdCache : Option UInt16
  flagCache : FlagCache

/-- `progress_flag`; `none` for undefined behaviour. -/
def progressFlag (config : SubmissionConfig) (globals : Globals) (flagCache : FlagCache)
    (ip : Octets)
    (teamIdCache : Option UInt16) (line : List UInt8) : Option ProgressResult :=
  match parseFlag config.charIsSigned config.flagPrefix line with
  | .error answer => some ⟨.noFlag answer, teamIdCache, flagCache⟩
  | .ok flag =>
    -- the team is looked up only if the game is running
    if globals.state ≠ .running ∧ ¬ isTestFlag flag then
      some ⟨.answer .notRunning, teamIdCache, flagCache⟩
    else
      match getThisTeam config ip teamIdCache with
      | none => none
      | some (source, teamIdCache) =>
        match checks config.toConfig globals source flag with
        | .error answer => some ⟨.answer answer, teamIdCache, flagCache⟩
        | .ok thisTeam =>
          match flagCache.checkFlag thisTeam flag.teamId flag.serviceId flag.round flag.payload with
          | none => none
          | some (false, flagCache) => some ⟨.answer .alreadySubmitted, teamIdCache, flagCache⟩
          | some (true, flagCache) => some ⟨.submitFlag thisTeam flag, teamIdCache, flagCache⟩

/-! ## The checks -/

section Checks

variable {config : Config} {globals : Globals} {source team : UInt16} {flag : FlagFormat}

/-- What `gameChecks` lets through. -/
theorem gameChecks_eq_none_iff :
    gameChecks config globals team flag = none ↔
      flag.serviceId.toNat ≤ globals.maxServiceId.toNat ∧
        flag.teamId.toNat ≤ globals.maxTeamId.toNat ∧
      ¬ (config.nopTeamId ≠ 0 ∧ (flag.teamId.toNat : ℤ) = config.nopTeamId) ∧ flag.round ≤ 0x7fff ∧
      team ≠ flag.teamId ∧ ¬ (config.nopTeamId ≠ 0 ∧ (team.toNat : ℤ) = config.nopTeamId) ∧
      globals.currentRound ≤ (flag.round.toNat : ℤ) + config.flagRoundsValid := by
  unfold gameChecks
  split_ifs with hservice hteam hnop hround hown hasNop hexpired
  all_goals simp_all

/-- What the checks let through. -/
theorem checks_eq_ok_iff :
    checks config globals source flag = .ok team ↔
      globals.state = .running ∧ isTestFlag flag = false ∧ source = team ∧
      (team.toNat ≤ globals.maxTeamId.toNat ∧ team ≠ 0) ∧
      gameChecks config globals team flag = none ∧ config.verifyHmac flag = true := by
  unfold checks
  dsimp only
  by_cases htest : isTestFlag flag = true
  · -- a test flag is answered at the end
    refine iff_of_false ?_ fun h => Bool.false_ne_true (h.2.1.symm.trans htest)
    simp only [htest, not_true_eq_false, and_false, if_false, if_true]
    split_ifs <;> simp
  rw [Bool.not_eq_true] at htest
  by_cases hstate : globals.state = .running
  · by_cases hsource : source.toNat ≤ globals.maxTeamId.toNat ∧ source ≠ 0
    · simp only [htest, hstate, hsource, ne_eq, not_true_eq_false, not_false_eq_true, and_self,
        false_and, if_false, if_true, Bool.false_eq_true, true_and]
      cases hgame : gameChecks config globals source flag with
      | some answer =>
        refine iff_of_false (by simp) ?_
        rintro ⟨rfl, -, hnone, -⟩
        exact Option.some_ne_none _ (hgame.symm.trans hnone)
      | none =>
        by_cases hmac : config.verifyHmac flag = true
        · simp only [hmac, not_true_eq_false, if_false, Except.ok.injEq, and_true]
          constructor
          · rintro rfl
            exact ⟨rfl, hsource, hgame⟩
          · exact fun h => h.1
        · simp [hmac]
    · refine iff_of_false ?_ ?_
      · simp [htest, hstate, hsource]
      · rintro ⟨-, -, rfl, hteam, -⟩
        exact hsource hteam
  · simp [htest, hstate]

end Checks

section Submitted

variable {config : SubmissionConfig} {globals : Globals} {flagCache flagCache' : FlagCache}
  {ip : Octets}
  {teamIdCache teamIdCache' : Option UInt16} {line : List UInt8} {team : UInt16}
    {flag flag' : FlagFormat}

/-- **What is known when `submit_flag` is called.** -/
theorem progressFlag_submitFlag
    (h : progressFlag config globals flagCache ip teamIdCache line =
      some ⟨.submitFlag team flag, teamIdCache', flagCache'⟩) :
    parseFlag config.charIsSigned config.flagPrefix line = .ok flag ∧
      ∃ source, checks config.toConfig globals source flag = .ok team := by
  unfold progressFlag at h
  split at h
  · simp at h
  · rename_i parsed hparse
    split_ifs at h
    · simp at h
    split at h
    · cases h
    · rename_i source cached hteam
      split at h
      · simp at h
      · rename_i thisTeam hchecks
        split at h
        · cases h
        · simp at h
        · simp only [Option.some.injEq, ProgressResult.mk.injEq, Progress.submitFlag.injEq] at h
          obtain ⟨⟨rfl, rfl⟩, -⟩ := h
          exact ⟨hparse, source, hchecks⟩

/-- A flag that the checks let through and that is not in the cache gets there. -/
theorem progressFlag_of_checks {source : UInt16}
    (hparse : parseFlag config.charIsSigned config.flagPrefix line = .ok flag)
    (hteam : getThisTeam config ip teamIdCache = some (source, teamIdCache'))
    (hchecks : checks config.toConfig globals source flag = .ok team)
    (hnew : flagCache.checkFlag team flag.teamId flag.serviceId flag.round flag.payload =
      some (true, flagCache')) :
    progressFlag config globals flagCache ip teamIdCache line =
      some ⟨.submitFlag team flag, teamIdCache', flagCache'⟩ := by
  have hrunning := (checks_eq_ok_iff.1 hchecks).1
  simp only [progressFlag, hparse, hrunning, hteam, hchecks, hnew, ne_eq, not_true_eq_false,
    false_and, if_false]

/-- What a flag that is put into the database should be. -/
structure Admissible (config : Config) (globals : Globals) (thisTeam : UInt16) (flag : FlagFormat) :
    Prop where
  running : globals.state = .running
  verified : config.verifyHmac flag = true
  submitter : 1 ≤ thisTeam.toNat ∧ thisTeam.toNat ≤ globals.maxTeamId.toNat
  victim : 1 ≤ flag.teamId.toNat ∧ flag.teamId.toNat ≤ globals.maxTeamId.toNat
  service : 1 ≤ flag.serviceId.toNat ∧ flag.serviceId.toNat ≤ globals.maxServiceId.toNat
  notOwn : thisTeam ≠ flag.teamId
  notNop : config.nopTeamId ≠ 0 →
    (thisTeam.toNat : ℤ) ≠ config.nopTeamId ∧ (flag.teamId.toNat : ℤ) ≠ config.nopTeamId
  round : flag.round.toNat ≤ 0x7fff
  notExpired : globals.currentRound ≤ (flag.round.toNat : ℤ) + config.flagRoundsValid
  notTest : isTestFlag flag = false

theorem one_le_toNat_iff {n : UInt16} : 1 ≤ n.toNat ↔ n ≠ 0 := by
  rw [Nat.one_le_iff_ne_zero, ne_eq, ne_eq, ← UInt16.toNat_inj]
  rfl

/-- **A flag that gets to `submit_flag` is admissible exactly if it names neither team 0 nor
service 0.** -/
theorem submitted_admissible_iff
    (hparse : parseFlag config.charIsSigned config.flagPrefix line = .ok flag)
    (h : progressFlag config globals flagCache ip teamIdCache line =
      some ⟨.submitFlag team flag', teamIdCache', flagCache'⟩) :
    Admissible config.toConfig globals team flag' ↔ flag.teamId ≠ 0 ∧ flag.serviceId ≠ 0 := by
  obtain ⟨hparse', source, hchecks⟩ := progressFlag_submitFlag h
  obtain rfl : flag = flag' := Except.ok.inj (hparse.symm.trans hparse')
  obtain ⟨hrunning, htest, -, ⟨hteam, hteam'⟩, hgame, hmac⟩ := checks_eq_ok_iff.1 hchecks
  obtain ⟨hservice, hvictim, hnopVictim, hround, hown, hnop, hexpired⟩ :=
    gameChecks_eq_none_iff.1 hgame
  constructor
  · intro hadmissible
    exact ⟨one_le_toNat_iff.1 hadmissible.victim.1, one_le_toNat_iff.1 hadmissible.service.1⟩
  · rintro ⟨hvictim', hservice'⟩
    exact
      { running := hrunning
        verified := hmac
        submitter := ⟨one_le_toNat_iff.2 hteam', hteam⟩
        victim := ⟨one_le_toNat_iff.2 hvictim', hvictim⟩
        service := ⟨one_le_toNat_iff.2 hservice', hservice⟩
        notOwn := hown
        notNop := fun hsome => ⟨fun heq => hnop ⟨hsome, heq⟩, fun heq => hnopVictim ⟨hsome, heq⟩⟩
        round := UInt16.le_iff_toNat_le.1 hround
        notExpired := hexpired
        notTest := htest }

end Submitted

/-! A running game; team 5 submits flags that a checker has issued. -/

def exampleSubmission : SubmissionConfig where
  nopTeamId := 1
  flagRoundsValid := 10
  verifyHmac := verifyHmac exampleHmac (.replicate 32 97)
  charIsSigned := true
  flagPrefix := "SAAR"
  teamRange := .ofAddress (.replicate 4 ⟨Nat.succPNat 0, Nat.succPNat 199, 0⟩)
  vpnPeersRange := .ofAddress (.replicate 4 ⟨Nat.succPNat 0, Nat.succPNat 199, 0⟩)

def runningGame : Globals := ⟨255, 10, .running, 3⟩

def flagOfTeam (teamId serviceId : ℕ) : FlagFormat :=
  issuedFlag exampleHmac (.replicate 32 97) serviceId teamId 2 0

/-- The checker writes a flag that the server can read. -/
theorem parseFlag_flagOfTeam (teamId serviceId : ℕ) :
    parseFlag true "SAAR" (flagText "SAAR" (flagOfTeam teamId serviceId)) =
      .ok (flagOfTeam teamId serviceId) := by
  have htrim := rtrim_append true "SAAR" (flagOfTeam teamId serviceId) [] (by simp)
  rw [List.append_nil] at htrim
  exact (parseFlag_eq_ok_iff (by decide)).2 htrim

theorem verifyHmac_flagOfTeam (teamId serviceId : ℕ) :
    verifyHmac exampleHmac (.replicate 32 97) (flagOfTeam teamId serviceId) = true := by
  rw [verifyHmac, decide_eq_true_eq]
  exact mac_issuedFlag exampleHmac (.replicate 32 97) serviceId teamId 2 0

theorem checks_flagOfTeam (teamId serviceId : ℕ)
    (h : gameChecks exampleSubmission.toConfig runningGame 5 (flagOfTeam teamId serviceId) = none)
    (htest : isTestFlag (flagOfTeam teamId serviceId) = false) :
    checks exampleSubmission.toConfig runningGame 5 (flagOfTeam teamId serviceId) = .ok 5 := by
  have hverify : exampleSubmission.verifyHmac = verifyHmac exampleHmac (.replicate 32 97) := rfl
  have hteam : (5 : UInt16).toNat ≤ runningGame.maxTeamId.toNat ∧ (5 : UInt16) ≠ 0 := by decide
  rw [checks_eq_ok_iff, hverify]
  exact ⟨rfl, htest, rfl, hteam, h, verifyHmac_flagOfTeam teamId serviceId⟩

theorem submitted_admissible_sample :
    Admissible exampleSubmission.toConfig runningGame 5 (flagOfTeam 7 2) := by
  have hcached : getThisTeam exampleSubmission (.replicate 4 7) (some 5) = some (5, some 5) := rfl
  have hnew : FlagCache.initial.checkFlag 5 (flagOfTeam 7 2).teamId (flagOfTeam 7 2).serviceId
      (flagOfTeam 7 2).round (flagOfTeam 7 2).payload = some (true, .initial) := rfl
  have hchecks := checks_flagOfTeam 7 2 (by decide) (by decide)
  exact (submitted_admissible_iff (parseFlag_flagOfTeam 7 2)
    (progressFlag_of_checks (parseFlag_flagOfTeam 7 2) hcached hchecks hnew)).2 (by decide)

/-- A flag of team 0 gets to the database. -/
theorem flag_of_team_zero_submitted :
    (∃ result, progressFlag exampleSubmission runningGame (.resize 255 10) #v[7, 7, 7, 7] (some 5)
        (flagText "SAAR" (flagOfTeam 0 2)) = some result ∧
      result.progress = .submitFlag 5 (flagOfTeam 0 2)) ∧
    ¬ Admissible exampleSubmission.toConfig runningGame 5 (flagOfTeam 0 2) := by
  constructor
  · exact ⟨_, progressFlag_of_checks (parseFlag_flagOfTeam 0 2) rfl
      (checks_flagOfTeam 0 2 (by decide) (by decide)) rfl, rfl⟩
  · exact fun h => absurd h.victim.1 (by decide)

end Gameserver.Submission
