import Mathlib.Data.Int.Range
import Gameserver.Game.System

/-!
# How long is a flag valid?

`flags_rounds_valid` is used in three places: the flag-id file lists the ticks whose flags
can still be submitted, the submission server rejects expired flags, and the scoring loads
rankings and earlier submissions from a window of ticks.

* `getServiceFlagIds`, `generate` — `FlagIDFileGenerator`.
* `NeverExpired` — no flag of a tick is rejected as expired.
* `flagIds_listed_iff` — the file and the server agree, as long as ticks fit in a flag.
* `Found` — the windows of the scoring are wide enough for a row.
* `Punctual` — the round does not move on too far while a flag is under way, for the
  server looks at it twice: once for the check, once for the row.
* `windows_agree` — **the windows agree in every run in which the round is punctual**;
  `window_missed` is a run in which it is not.
-/

namespace Gameserver.Game

open Gameserver.Scoring Gameserver.Submission

/-! ## The flag-id file -/

/-- A row of `teams`, as far as the flag-id file reads it. -/
structure Team where
  id : ℕ
  name : String
  affiliation : Option String
  logo : Option String
  vpnConnected : Bool
  vpn2Connected : Bool
  wgVulnboxConnected : Bool

/-- A row of `services`, as far as the flag-id file reads it. -/
structure FlagIdService where
  id : ℕ
  name : String
  flagIds : Option String

/-- A key `custom_flag_ids:service:tick:team:index` of Redis, and its value. -/
structure CustomFlagId where
  serviceId : ℕ
  tick : ℤ
  teamId : ℕ
  index : ℕ
  value : Option String

/-- What the file has for one team and tick. -/
inductive FlagIds where
  | one (id : Option String)
  | many (ids : List (Option String))
  deriving DecidableEq

/-- `data[key] = value` on a dictionary. -/
def setItem {κ ν : Type*} [DecidableEq κ] (key : κ) (value : ν) : List (κ × ν) → List (κ × ν)
  | [] => [(key, value)]
  | (k, v) :: data => if k = key then (k, value) :: data else (k, v) :: setItem key value data

/-- What the generator gets from elsewhere: the gamelib, the network configuration, Redis
and the timer. -/
structure FlagIdSources where
  flagRegex : String
  generateFlagId : String → ℕ → ℕ → ℤ → ℕ → String
  teamIdToVulnboxIp : ℕ → String
  customFlagIds : List CustomFlagId
  currentTick : ℤ
  tickStart : Option ℤ
  tickEnd : Option ℤ

namespace FlagIdSources

variable (sources : FlagIdSources)

/-- `_load_custom_flag_ids`. -/
def loadCustomFlagIds (service : FlagIdService) (minTick latestTick : ℤ) :
    ℤ × ℕ × ℕ → Option String := fun key =>
  ((sources.customFlagIds.filter fun entry =>
      entry.serviceId = service.id ∧ entry.tick ∈ Int.range minTick latestTick).find?
    fun entry => (entry.tick, entry.teamId, entry.index) = key).bind CustomFlagId.value

/-- `service.flag_ids.split(",")`. -/
def flagIdTypes (service : FlagIdService) : List String :=
  match service.flagIds with
  | none | some "" => []
  | some flagIds => flagIds.splitOn ","

/-- `ids[0]`, if there is only one. -/
def pack : List (Option String) → FlagIds
  | [id] => .one id
  | ids => .many ids

/-- `get_service_flag_ids`: for every vulnbox the flag ids of the last ticks. -/
def getServiceFlagIds (flagsRoundsValid : ℤ) (service : FlagIdService) (teams : List Team)
    (latestTick : ℤ) : List (String × List (ℤ × FlagIds)) :=
  let types := flagIdTypes service
  let minTick := max 1 (latestTick - flagsRoundsValid)
  let customFlagIds : ℤ × ℕ × ℕ → Option String :=
    if "custom" ∈ types then sources.loadCustomFlagIds service minTick latestTick else fun _ => none
  teams.foldl (fun data team =>
    setItem (sources.teamIdToVulnboxIp team.id)
      ((Int.range minTick latestTick).map fun tick =>
        (tick, pack (types.zipIdx.map fun type =>
          if type.1 = "custom" then customFlagIds (tick, team.id, type.2)
          else some (sources.generateFlagId type.1 service.id team.id tick type.2))))
      data) []

end FlagIdSources

/-- What the file says about a team. -/
structure TeamEntry where
  id : ℕ
  name : String
  affiliation : Option String
  logo : Option String
  ip : String
  online : Bool

/-- `attack.json`. -/
structure FlagIdFile where
  flagRegex : String
  teams : List TeamEntry
  flagIds : List (String × List (String × List (ℤ × FlagIds)))
  currentTick : ℤ
  currentTickStart : Option ℤ
  currentTickUntil : Option ℤ

/-- `generate`. -/
def generate (sources : FlagIdSources) (flagsRoundsValid : ℤ) (teams : List Team)
    (services : List FlagIdService) (tick : ℤ) : FlagIdFile where
  flagRegex := sources.flagRegex
  teams := teams.map fun team =>
    ⟨team.id, team.name, team.affiliation, team.logo, sources.teamIdToVulnboxIp team.id,
      team.vpnConnected || team.vpn2Connected || team.wgVulnboxConnected⟩
  flagIds := (services.filter fun service => service.flagIds.getD "" ≠ "").foldl
    (fun data service =>
      setItem service.name (sources.getServiceFlagIds flagsRoundsValid service teams tick) data) []
  currentTick := sources.currentTick
  currentTickStart := sources.tickStart
  currentTickUntil := sources.tickEnd

/-- The file has flag ids of this service, vulnbox and tick. -/
def FlagIdFile.Lists (file : FlagIdFile) (serviceName ip : String) (tick : ℤ) : Prop :=
  ∃ data, (serviceName, data) ∈ file.flagIds ∧
    ∃ entries, (ip, entries) ∈ data ∧ tick ∈ entries.map Prod.fst

section Dictionary

variable {κ ν ι : Type*} [DecidableEq κ] {key : ι → κ} {value : ι → ν}

theorem mem_keys_setItem {k k' : κ} {v : ν} (data : List (κ × ν)) :
    k' ∈ (setItem k v data).map Prod.fst ↔ k' = k ∨ k' ∈ data.map Prod.fst := by
  induction data with
  | nil => simp [setItem]
  | cons p data ih =>
    by_cases hkey : p.1 = k
    · simp [setItem, hkey]
    · simp only [setItem, if_neg hkey, List.map_cons, List.mem_cons, ih]
      tauto

theorem mem_values_setItem {k : κ} {v v' : ν} (data : List (κ × ν)) :
    v' ∈ (setItem k v data).map Prod.snd → v' = v ∨ v' ∈ data.map Prod.snd := by
  induction data with
  | nil => simp [setItem]
  | cons p data ih =>
    by_cases hkey : p.1 = k
    · simp only [setItem, if_pos hkey, List.map_cons, List.mem_cons]
      tauto
    · simp only [setItem, if_neg hkey, List.map_cons, List.mem_cons]
      tauto

/-- A dictionary that is filled in a loop has the keys of the loop. -/
theorem mem_keys_foldl_setItem (xs : List ι) (data : List (κ × ν)) {k : κ} :
    k ∈ (xs.foldl (fun data x => setItem (key x) (value x) data) data).map Prod.fst ↔
      k ∈ data.map Prod.fst ∨ k ∈ xs.map key := by
  induction xs generalizing data with
  | nil => simp
  | cons x xs ih =>
    rw [List.foldl_cons, ih, mem_keys_setItem, List.map_cons, List.mem_cons]
    tauto

/-- ... and no other values than the loop has stored. -/
theorem mem_values_foldl_setItem (xs : List ι) (data : List (κ × ν)) {v : ν}
    (h : v ∈ (xs.foldl (fun data x => setItem (key x) (value x) data) data).map Prod.snd) :
    v ∈ data.map Prod.snd ∨ v ∈ xs.map value := by
  induction xs generalizing data with
  | nil => exact .inl h
  | cons x xs ih =>
    rcases ih _ h with hdata | hxs
    · rcases mem_values_setItem data hdata with rfl | hdata
      · exact .inr List.mem_cons_self
      · exact .inl hdata
    · exact .inr (List.mem_cons_of_mem _ hxs)

end Dictionary

/-- **Which ticks are in the file**: for every service with flag ids and every team the
same ones. -/
theorem lists_generate_iff (sources : FlagIdSources) {flagsRoundsValid : ℤ} {teams : List Team}
    {services : List FlagIdService} {latestTick : ℤ} {service : FlagIdService} {team : Team}
    (hservice : service ∈ services) (hids : service.flagIds.getD "" ≠ "") (hteam : team ∈ teams)
    {tick : ℤ} :
    (generate sources flagsRoundsValid teams services latestTick).Lists service.name
        (sources.teamIdToVulnboxIp team.id) tick ↔
      max 1 (latestTick - flagsRoundsValid) ≤ tick ∧ tick < latestTick := by
  -- Whatever a service has for a vulnbox, its ticks are the range of the loop.
  have hentries : ∀ (service : FlagIdService) entries,
      entries ∈ (sources.getServiceFlagIds flagsRoundsValid service teams latestTick).map Prod.snd →
        entries.map Prod.fst = Int.range (max 1 (latestTick - flagsRoundsValid)) latestTick := by
    intro service entries hentries
    rcases mem_values_foldl_setItem teams [] hentries with hnil | hloop
    · cases hnil
    · obtain ⟨team, -, rfl⟩ := List.mem_map.1 hloop
      rw [List.map_map]
      exact List.map_id _
  rw [← Int.mem_range_iff]
  constructor
  · rintro ⟨data, hdata, entries, hmem, htick⟩
    rcases mem_values_foldl_setItem _ []
      (List.mem_map_of_mem (f := Prod.snd) hdata) with hnil | hloop
    · cases hnil
    · obtain ⟨service', -, rfl⟩ := List.mem_map.1 hloop
      rwa [hentries service' entries (List.mem_map_of_mem (f := Prod.snd) hmem)] at htick
  · intro htick
    have hname : service.name ∈
        ((generate sources flagsRoundsValid teams services latestTick).flagIds).map Prod.fst :=
      (mem_keys_foldl_setItem _ []).2
        (.inr (List.mem_map_of_mem (List.mem_filter.2 ⟨hservice, decide_eq_true hids⟩)))
    obtain ⟨⟨_, data⟩, hdata, rfl⟩ := List.mem_map.1 hname
    rcases mem_values_foldl_setItem _ []
      (List.mem_map_of_mem (f := Prod.snd) hdata) with hnil | hloop
    · cases hnil
    · obtain ⟨service', -, rfl⟩ := List.mem_map.1 hloop
      have hip : sources.teamIdToVulnboxIp team.id ∈
          (sources.getServiceFlagIds flagsRoundsValid service' teams latestTick).map Prod.fst :=
        (mem_keys_foldl_setItem teams []).2 (.inr (List.mem_map_of_mem hteam))
      obtain ⟨⟨_, entries⟩, hmem, rfl⟩ := List.mem_map.1 hip
      refine ⟨_, hdata, entries, hmem, ?_⟩
      rwa [hentries service' entries (List.mem_map_of_mem (f := Prod.snd) hmem)]

/-! ## Expiry -/

/-- A flag of this tick: the round is `tick & 0xFFFF`. -/
def IssuedIn (tick : ℤ) (flag : FlagFormat) : Prop := (flag.round.toNat : ℤ) = tick % 65536

/-- No flag of this tick is rejected as expired in this round. -/
def NeverExpired (config : Config) (round tick : ℤ) : Prop :=
  ∀ (globals : Globals) (source : UInt16) (flag : FlagFormat), globals.currentRound = round →
    IssuedIn tick flag → checks config globals source flag ≠ .error .expired

/-- The file and the server mean the same tick: it is not mistaken for a tick of a test
run, or for a tick that was `2 ^ 16` ticks earlier. -/
def TicksFit (flagsRoundsValid latestTick : ℤ) : Prop :=
  latestTick ≤ 2 ^ 15 ∨
    latestTick ≤ 2 ^ 15 + flagsRoundsValid ∧ (latestTick ≤ 2 ^ 16 ∨ latestTick ≤ flagsRoundsValid)

theorem gameChecks_eq_expired {config : Config} {globals : Globals} {team : UInt16}
    {flag : FlagFormat}
    (h : gameChecks config globals team flag = some .expired) :
    flag.round.toNat ≤ 0x7fff ∧
      (flag.round.toNat : ℤ) + config.flagRoundsValid < globals.currentRound := by
  simp only [gameChecks] at h
  repeat' split at h
  all_goals cases h
  rename_i hround _ _ hexpired
  exact ⟨UInt16.le_iff_toNat_le.1 (UInt16.not_lt.1 hround), hexpired⟩

theorem gameChecks_eq_none {config : Config} {globals : Globals} {team : UInt16} {flag : FlagFormat}
    (h : gameChecks config globals team flag = none) :
    globals.currentRound ≤ flag.round.toNat + config.flagRoundsValid := by
  by_contra hvalid
  simp only [gameChecks, if_pos (not_le.1 hvalid)] at h
  split_ifs at h

/-- When `progress_flag` can find a flag expired. -/
theorem checks_eq_expired {config : Config} {globals : Globals} {source : UInt16}
    {flag : FlagFormat}
    (h : checks config globals source flag = .error .expired) :
    flag.round.toNat ≤ 0x7fff ∧
      (flag.round.toNat : ℤ) + config.flagRoundsValid < globals.currentRound := by
  simp only [checks] at h
  split at h
  · cases h
  split at h
  · cases h
  split at h
  · rename_i answer hanswer
    cases h
    split at hanswer
    · cases hanswer
    · exact gameChecks_eq_expired hanswer
  · split at h
    · cases h
    split at h
    · simp only [answerTestFlag] at h
      split at h
      · cases h
      · split at h <;> cases h
    · cases h

/-- What `progress_flag` lets pass is not expired. -/
theorem checks_eq_ok {config : Config} {globals : Globals} {source team : UInt16}
    {flag : FlagFormat}
    (h : checks config globals source flag = .ok team) :
    globals.currentRound ≤ flag.round.toNat + config.flagRoundsValid := by
  simp only [checks] at h
  split at h
  · cases h
  split at h
  · cases h
  split at h
  · cases h
  · rename_i hnone
    split at h
    · cases h
    split at h
    · cases h
    · rename_i htest
      rw [if_neg htest] at hnone
      exact gameChecks_eq_none hnone

/-- Two teams that are not the NOP team. -/
theorem exists_players (nopTeamId : ℤ) : ∃ source team : UInt16, source ≠ 0 ∧ source ≠ team ∧
    source.toNat ≤ 255 ∧ team.toNat ≤ 255 ∧ (source.toNat : ℤ) ≠ nopTeamId ∧
    (team.toNat : ℤ) ≠ nopTeamId := by
  by_cases h1 : nopTeamId = 1
  · exact ⟨2, 3, by decide, by decide, by decide, by decide, by simp [h1], by simp [h1]⟩
  by_cases h2 : nopTeamId = 2
  · exact ⟨1, 3, by decide, by decide, by decide, by decide, by simp [h2], by simp [h2]⟩
  · exact ⟨1, 2, by decide, by decide, by decide, by decide, by simpa [eq_comm] using h1,
      by simpa [eq_comm] using h2⟩

theorem neverExpired_iff {config : Config} {round tick : ℤ} :
    NeverExpired config round tick ↔
      0x7fff < tick % 65536 ∨ round ≤ tick % 65536 + config.flagRoundsValid := by
  constructor
  · intro h
    by_contra! hexpired
    obtain ⟨source, team, hsource, hne, hsource', hteam, hnop, hnop'⟩ :=
      exists_players config.nopTeamId
    have hnonneg : 0 ≤ tick % 65536 := Int.emod_nonneg _ (by decide)
    obtain ⟨n, hn⟩ := Int.eq_ofNat_of_zero_le hnonneg
    have hround : (UInt16.ofNat n).toNat = n := by
      rw [UInt16.toNat_ofNat']
      omega
    refine h ⟨255, 10, .running, round⟩ source
      ⟨UInt16.ofNat n, team, 0, 0, Vector.replicate 16 0⟩ rfl
      (by simp only [IssuedIn, hround, hn]) ?_
    have hround' : ¬ (0x7fff : UInt16) < UInt16.ofNat n := by
      rw [UInt16.lt_iff_toNat_lt, hround]
      simp
      omega
    have hexpired' : (n : ℤ) + config.flagRoundsValid < round := by omega
    simp [checks, isTestFlag, gameChecks, hsource, hsource', not_lt.2 hteam, hne, hnop, hnop',
      hround,
      hround', hexpired']
  · intro h globals source flag hcurrent hissued hrejected
    obtain ⟨htest, hexpired⟩ := checks_eq_expired hrejected
    rw [IssuedIn] at hissued
    omega

/-- **The file lists the ticks whose flags are not expired, exactly as long as ticks
fit.** -/
theorem flagIds_listed_iff (sources : FlagIdSources) (config : Config) {teams : List Team}
    {services : List FlagIdService} (latestTick : ℤ) {service : FlagIdService} {team : Team}
    (hservice : service ∈ services) (hids : service.flagIds.getD "" ≠ "") (hteam : team ∈ teams) :
    (∀ tick, (generate sources config.flagRoundsValid teams services latestTick).Lists service.name
        (sources.teamIdToVulnboxIp team.id) tick ↔
      1 ≤ tick ∧ tick < latestTick ∧ NeverExpired config latestTick tick) ↔
    TicksFit config.flagRoundsValid latestTick := by
  simp only [lists_generate_iff sources hservice hids hteam, neverExpired_iff, TicksFit]
  constructor
  · intro h
    have htest := h (2 ^ 15)
    have hwrapped := h (2 ^ 16)
    omega
  · intro hfit tick
    omega

/-! ## Rows -/

/-- The scoring finds all it looks for when it scores this row: the ranking of the tick
before the flag was issued, and the submissions of the flag in earlier ticks. -/
structure Found {K : Type*} (flagsRoundsValid : ℤ) (db : Database K) (f : SubmittedFlag) :
    Prop where
  ranking : ∀ teamId, db.rankingForLastTicks flagsRoundsValid f.tickSubmitted (f.tickIssued - 1,
    teamId) =
    (db.teamRankings.find? fun row => (row.tick, row.teamId) = (f.tickIssued - 1, teamId)).map
      fun row => (row.rank : ℕ)
  previous : ∀ f' ∈ db.submittedFlags.rows, f'.key = f.key → f'.tickSubmitted < f.tickSubmitted →
    f' ∈ db.previousSubmissions flagsRoundsValid f.tickSubmitted f.key

/-- A flag of tick `issued` is valid in tick `submitted`. -/
def Valid (flagsRoundsValid issued submitted : ℤ) : Prop :=
  issued ≤ submitted ∧ submitted ≤ issued + flagsRoundsValid

/-- The windows of the scoring cover the rows with valid flags. -/
theorem Found.of_valid {K : Type*} {flagsRoundsValid : ℤ} {db : Database K}
    (hvalid : ∀ f ∈ db.submittedFlags.rows, Valid flagsRoundsValid f.tickIssued f.tickSubmitted)
    {f : SubmittedFlag} (hf : f ∈ db.submittedFlags.rows) : Found flagsRoundsValid db f where
  ranking teamId := by
    obtain ⟨hissued, hexpires⟩ := hvalid f hf
    refine congrArg (Option.map fun row : TeamRanking K => (row.rank : ℕ)) ?_
    rw [List.find?_filter]
    refine congrArg (List.find? · db.teamRankings) (funext fun row => ?_)
    rw [decide_eq_decide, decide_eq_true_eq, decide_eq_true_eq, and_iff_right_iff_imp]
    intro hkey
    have htick : row.tick = f.tickIssued - 1 := congrArg Prod.fst hkey
    omega
  previous f' hf' hkey hearlier := by
    obtain ⟨hissued, hexpires⟩ := hvalid f hf
    obtain ⟨hissued', -⟩ := hvalid f' hf'
    have hsame : f'.tickIssued = f.tickIssued := congrArg (fun key : FlagKey => key.2.2.1) hkey
    refine List.mem_filter.2 ⟨hf', decide_eq_true ⟨hearlier, ?_, hkey⟩⟩
    omega

end Gameserver.Game

namespace Gameserver.Submission

open Gameserver.Game

/-- The flag of a worker between the checks and reading the round, unless the cache has
answered. -/
def Phase.underway : Phase → Option FlagFormat
  | .checked _ flag => some flag
  | .located _ flag _ _ => some flag
  | .lookedUp _ flag true => some flag
  | _ => none

/-- A flag under way is valid in the current round, and a flag on its way into the table
in the round that was read for it. -/
def Phase.Valid (config : Config) (currentRound : ℤ) : Phase → Prop
  | .idle => True
  | .checked _ flag => Game.Valid config.flagRoundsValid flag.round.toNat currentRound
  | .located _ flag _ _ => Game.Valid config.flagRoundsValid flag.round.toNat currentRound
  | .lookedUp _ flag isNew =>
    isNew = true → Game.Valid config.flagRoundsValid flag.round.toNat currentRound
  | .submitting _ flag isNew round =>
    isNew = true → Game.Valid config.flagRoundsValid flag.round.toNat round
  | .counting _ _ _ _ => True
  | .answering _ _ _ => True

namespace Server

variable {checkCache : Bool} {config : Config} {s : Server}

/-- Accepted flags are of a tick that has begun, and the current round is not set to a
round in which a flag under way is not valid. -/
def Punctual (config : Config) (s : Server) : Event → Prop
  | .submit _ source flag =>
    ∀ team, checks config s.globals source flag = .ok team →
      flag.round.toNat ≤ s.globals.currentRound
  | .setCurrentRound round =>
    ∀ worker, ∀ flag ∈ (s.workers worker).underway,
      Game.Valid config.flagRoundsValid flag.round.toNat round
  | _ => True

/-- What holds in every run with punctual rounds. -/
structure InWindow (config : Config) (s : Server) : Prop where
  workers : ∀ worker, (s.workers worker).Valid config s.globals.currentRound
  rows : ∀ row ∈ s.table.rows,
    Game.Valid config.flagRoundsValid row.tickIssued.toNat row.tickSubmitted

theorem inWindow_initial : InWindow config .initial where
  workers _ := trivial
  rows _ h := by cases h

/-- A worker goes on, everything else stays. -/
theorem valid_update (h : ∀ worker, (s.workers worker).Valid config s.globals.currentRound)
    (worker : ℕ) (phase : Phase) (hphase : phase.Valid config s.globals.currentRound) (w : ℕ) :
    (Function.update s.workers worker phase w).Valid config s.globals.currentRound := by
  by_cases hw : w = worker
  · rw [hw, Function.update_self]
    exact hphase
  · rw [Function.update_of_ne hw]
    exact h w

/-- One event and the workers. -/
theorem InWindow.step_workers (h : InWindow config s) (e : Submission.Event)
    (he : s.Punctual config e) (w : ℕ) :
    ((s.step checkCache config e).workers w).Valid config
      (s.step checkCache config e).globals.currentRound := by
  cases e with
  | submit worker source flag =>
    simp only [step]
    cases s.workers worker with
    | idle =>
      cases hchecks : checks config s.globals source flag with
      | error answer =>
        exact valid_update h.workers worker (.counting source _ flag answer) trivial w
      | ok team =>
        exact valid_update h.workers worker (.checked team flag)
          ⟨he team hchecks, checks_eq_ok hchecks⟩ w
    | _ => exact h.workers w
  | lookup worker =>
    simp only [step]
    cases hworker : s.workers worker with
    | checked team flag =>
      have hvalid := h.workers worker
      rw [hworker] at hvalid
      exact valid_update h.workers worker (.located team flag _ s.resets) hvalid w
    | _ => exact h.workers w
  | exchange worker =>
    simp only [step]
    cases hworker : s.workers worker with
    | located team flag cell resets =>
      have hvalid := h.workers worker
      rw [hworker] at hvalid
      rw [(s.exchange_frame worker team flag cell).1]
      rcases s.exchange_workers worker team flag cell with heq | ⟨isNew, heq⟩
      · rw [heq]
        exact h.workers w
      · rw [heq]
        exact valid_update h.workers worker (.lookedUp team flag isNew) (fun _ => hvalid) w
    | _ => exact h.workers w
  | readRound worker =>
    simp only [step]
    cases hworker : s.workers worker with
    | lookedUp team flag isNew =>
      have hvalid := h.workers worker
      rw [hworker] at hvalid
      exact valid_update h.workers worker (.submitting team flag isNew s.globals.currentRound)
        hvalid w
    | _ => exact h.workers w
  | insert worker outcome =>
    simp only [step]
    cases s.workers worker with
    | submitting team flag isNew round =>
      obtain ⟨answer, heq⟩ := s.insert_workers worker team flag isNew round outcome
      rw [s.insert_globals, heq]
      exact valid_update h.workers worker (.counting team team flag answer) trivial w
    | _ => exact h.workers w
  | count worker =>
    simp only [step]
    cases s.workers worker with
    | counting source thisTeam flag answer =>
      exact valid_update h.workers worker (.answering source flag answer) trivial w
    | _ => exact h.workers w
  | answer worker =>
    simp only [step]
    cases s.workers worker with
    | answering source flag answer => exact valid_update h.workers worker .idle trivial w
    | _ => exact h.workers w
  | initModelSizes _ _ =>
    simp only [step]
    split <;> exact h.workers w
  | resize _ _ =>
    simp only [step]
    split <;> exact h.workers w
  | setCurrentState _ => exact h.workers w
  | setCurrentRound round =>
    have hround := he w
    have hold := h.workers w
    simp only [step]
    cases hworker : s.workers w with
    | idle => trivial
    | checked team flag => exact hround flag (by simp [hworker, Phase.underway])
    | located team flag cell resets => exact hround flag (by simp [hworker, Phase.underway])
    | lookedUp team flag isNew =>
      intro hnew
      exact hround flag (by simp [hworker, hnew, Phase.underway])
    | submitting team flag isNew read => rwa [hworker] at hold
    | counting _ _ _ _ => trivial
    | answering _ _ _ => trivial

/-- The row that an event adds is that of a valid flag. -/
theorem InWindow.newRow (h : InWindow config s) {e : Submission.Event} {row : Row}
    (hrow : s.newRow e = some row) :
    Game.Valid config.flagRoundsValid row.tickIssued.toNat row.tickSubmitted := by
  cases e with
  | insert worker outcome =>
    have hvalid := h.workers worker
    simp only [Server.newRow] at hrow
    split at hrow
    · rename_i team flag round hworker
      obtain ⟨rfl, -⟩ := Table.not_stored_of_newRow hrow
      rw [hworker] at hvalid
      exact hvalid rfl
    · cases hrow
  | _ => cases hrow

/-- **One event**: a valid flag stays valid until it is in the table. -/
theorem InWindow.step (h : InWindow config s) (e : Submission.Event) (he : s.Punctual config e) :
    InWindow config (s.step checkCache config e) where
  workers := h.step_workers e he
  rows row hrow := by
    rw [step_table_rows, List.mem_append, Option.mem_toList] at hrow
    rcases hrow with hold | hnew
    · exact h.rows row hold
    · exact h.newRow hnew

end Server

end Gameserver.Submission

namespace Gameserver.Game

open Gameserver.Scoring Gameserver.Submission

/-- **The windows agree.**  The flag-id file and the submission server agree exactly as long
as ticks fit; and in every run in which the round is punctual, the scoring finds all it
looks for, whatever row it scores. -/
theorem windows_agree (K : Type*) (config : Config) :
    (∀ (sources : FlagIdSources) (teams : List Team) (services : List FlagIdService)
      (latestTick : ℤ), ∀ service ∈ services, service.flagIds.getD "" ≠ "" → ∀ team ∈ teams,
        ((∀ tick, (generate sources config.flagRoundsValid teams services latestTick).Lists
            service.name (sources.teamIdToVulnboxIp team.id) tick ↔
          1 ≤ tick ∧ tick < latestTick ∧ NeverExpired config latestTick tick) ↔
        TicksFit config.flagRoundsValid latestTick)) ∧
    ∀ (checkCache : Bool) (ts : ℕ → ℤ) (es : List Submission.Event),
      Machine.Along (Server.step checkCache config) (Server.Punctual config) .initial es →
      ∀ db : Database K, db.submittedFlags =
          submittedFlags ts (Machine.exec (Server.step checkCache config) .initial es).table →
        ∀ f ∈ db.submittedFlags.rows, Found config.flagRoundsValid db f := by
  constructor
  · intro sources teams services latestTick service hservice hids team hteam
    exact flagIds_listed_iff sources config latestTick hservice hids hteam
  · intro checkCache ts es hpunctual db hdb f hf
    have hwindow := hpunctual.invariant (fun _ e h he => h.step e he) Server.inWindow_initial
    refine Found.of_valid ?_ hf
    intro f' hf'
    rw [hdb] at hf'
    obtain ⟨⟨row, i⟩, hrow, rfl⟩ := List.mem_map.1 hf'
    exact hwindow.rows row (List.fst_mem_of_mem_zipIdx hrow)

/-! ## A round update in between -/

/-- Flags are valid for ten rounds; all flags here have a valid MAC. -/
def tenRounds : Config := ⟨0, 10, fun _ => true⟩

/-- Team 1 submits a flag of team 2 in round 12, and round 13 begins before the row is
written. -/
def roundInBetween (issued : UInt16) : List Submission.Event :=
  Server.wholeInitModelSizes [] 3 1 ++ [.setCurrentState .running, .setCurrentRound 12,
    .submit 0 1 ⟨issued, 2, 1, 0, Vector.replicate 16 0⟩, .lookup 0, .exchange 0,
    .setCurrentRound 13, .readRound 0, .insert 0 .executed, .count 0, .answer 0]

/-- The server after that. -/
def serverInBetween (issued : UInt16) : Server :=
  Machine.exec (Server.step true tenRounds) .initial (roundInBetween issued)

/-- The database after that.  Team 2 had rank 1 in tick 1. -/
def databaseInBetween (issued : UInt16) : Database ℚ where
  teams := [1, 2, 3]
  services := [.new 1 0]
  submittedFlags := submittedFlags (fun i => i) (serverInBetween issued).table
  checkerResults := []
  teamPoints := []
  teamRankings := [{ tick := 1, teamId := 2, rank := ⟨1, Nat.one_pos⟩, points := 5 }]

/-- A flag of round 3 is still valid in round 13. -/
theorem windows_agree_in_time :
    TicksFit tenRounds.flagRoundsValid 13 ∧
      (databaseInBetween 3).submittedFlags.rows = [⟨1, 1, 2, 1, 3, 0, 13, 0⟩] ∧
      ∀ f ∈ (databaseInBetween 3).submittedFlags.rows, Found 10 (databaseInBetween 3) f := by
  refine ⟨.inl (by decide), by decide +kernel, ?_⟩
  refine (windows_agree ℚ tenRounds).2 true (fun i => i) (roundInBetween 3) ?_ _ rfl
  refine ⟨trivial, trivial, trivial, trivial, trivial, trivial, ?_, ?_, trivial, trivial, ?_,
    trivial, trivial, trivial, trivial, trivial⟩
  · intro worker flag hflag
    cases hflag
  · intro team _
    decide
  · intro worker flag hflag
    cases worker with
    | zero =>
      obtain rfl : ⟨3, 2, 1, 0, Vector.replicate 16 0⟩ = flag := Option.some.inj hflag
      exact ⟨by decide, by decide⟩
    | succ worker => cases hflag

/-- **The round a flag was checked in is not the round of its row.**  A flag of round 2 is
accepted in its last round 12, and stored for round 13: the ranking of tick 1 is not
loaded. -/
theorem window_missed :
    (serverInBetween 2).replies.map Reply.answer = [.ok] ∧
      (databaseInBetween 2).submittedFlags.rows = [⟨1, 1, 2, 1, 2, 0, 13, 0⟩] ∧
      (databaseInBetween 2).rankingForLastTicks 10 13 (2 - 1, 2) = none ∧
      ¬ ∀ f ∈ (databaseInBetween 2).submittedFlags.rows, Found 10 (databaseInBetween 2) f := by
  have hnone : (databaseInBetween 2).rankingForLastTicks 10 13 (2 - 1, 2) =
    none := by decide +kernel
  have hrows : (databaseInBetween 2).submittedFlags.rows = [⟨1, 1, 2, 1, 2, 0, 13, 0⟩] := by
    decide +kernel
  refine ⟨by decide +kernel, hrows, hnone, ?_⟩
  intro h
  have hranking :=
    (h ⟨1, 1, 2, 1, 2, 0, 13, 0⟩ (by rw [hrows]; exact List.mem_singleton_self _)).ranking 2
  exact absurd (hnone.symm.trans hranking) (by decide +kernel)

end Gameserver.Game
