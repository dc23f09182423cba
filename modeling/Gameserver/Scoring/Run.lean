import Gameserver.Scoring.Database
import Gameserver.Scoring.Effect

/-!
# Runs of the scoring

Ticks are scored one after the other while the database goes on changing.

* `stolenFlag_consistent` — the assertion on the number of earlier submitters never
  fails, by the unique constraint of the table.
* `scoreTick_eq` — scoring a tick stores `tickResults` and changes nothing else.
* `ScoringRun` — ticks `1 … T` scored in order; between two ticks everything may
  happen that leaves the past alone (`Between`).
* `ScoringRun.pointsAt_succ` — the results of a tick from those of the tick before.
-/

namespace Gameserver.Scoring

variable {K : Type*}

/-! ## The flag queries -/

namespace SubmittedFlags

/-- Submissions of the same flag have different submitters. -/
theorem submittedBy_nodup (table : SubmittedFlags) (key : FlagKey) (p : SubmittedFlag → Bool)
    (hp : ∀ f, p f → f.key = key) :
    ((table.rows.filter p).map SubmittedFlag.submittedBy).Nodup := by
  have h : ((table.rows.filter p).map SubmittedFlag.uniqueKey).Nodup :=
    table.unique.sublist ((List.filter_sublist).map _)
  have heq : (table.rows.filter p).map SubmittedFlag.uniqueKey =
      ((table.rows.filter p).map SubmittedFlag.submittedBy).map (·, key) := by
    rw [List.map_map]
    apply List.map_congr_left
    intro f hf
    simp [SubmittedFlag.uniqueKey, hp f (List.mem_filter.1 hf).2]
  rw [heq] at h
  exact h.of_map _

theorem id_nodup (table : SubmittedFlags) (p : SubmittedFlag → Bool) :
    ((table.rows.filter p).map SubmittedFlag.id).Nodup :=
  table.primaryKey.sublist ((List.filter_sublist).map _)

end SubmittedFlags

namespace Database

variable (db : Database K) (frv tick : ℤ)

theorem numPreviousSubmissions_eq (flag : SubmittedFlag) :
    (db.stolenFlag frv tick flag).numPreviousSubmissions =
      (db.previousSubmissions frv tick flag.key).length := by
  simp only [stolenFlag, previousSubmissions]
  rw [(db.submittedFlags.id_nodup _).dedup, List.length_map]

theorem numSubmissions_eq (flag : SubmittedFlag) :
    (db.stolenFlag frv tick flag).numSubmissions = (db.submissionsInTick tick flag.key).length := by
  simp only [stolenFlag, submissionsInTick]
  rw [(db.submittedFlags.id_nodup _).dedup, List.length_map]

theorem previousSubmissions_submittedBy_nodup (key : FlagKey) :
    ((db.previousSubmissions frv tick key).map SubmittedFlag.submittedBy).Nodup :=
  db.submittedFlags.submittedBy_nodup key _ fun f hf => by
    simp only [decide_eq_true_eq] at hf
    exact hf.2.2

theorem previousSubmitterIds_perm (flag : SubmittedFlag) :
    (db.stolenFlag frv tick flag).previousSubmitterIds.Perm
      ((db.previousSubmissions frv tick flag.key).map SubmittedFlag.submittedBy) := by
  simp only [stolenFlag]
  rw [(db.previousSubmissions_submittedBy_nodup frv tick _).dedup]
  exact List.perm_insertionSort _ _

/-- The query never returns rows that fail the assertion of
`_flag_stolen_previous_attackers`. -/
theorem stolenFlag_consistent (flag : SubmittedFlag) :
    Consistent (db.stolenFlag frv tick flag) := by
  rw [Consistent, db.numPreviousSubmissions_eq,
    (db.previousSubmitterIds_perm frv tick flag).length_eq,
    List.length_map]

theorem flagsOfTick_perm :
    (db.flagsOfTick tick).Perm (db.submittedFlags.rows.filter fun sf1 =>
      sf1.tickSubmitted = tick) :=
  List.perm_insertionSort _ _

theorem mem_flagsOfTick {tick : ℤ} {f : SubmittedFlag} :
    f ∈ db.flagsOfTick tick ↔ f ∈ db.submittedFlags.rows ∧ f.tickSubmitted = tick := by
  rw [(db.flagsOfTick_perm tick).mem_iff]
  simp

/-! ## Scoring one tick -/

section Scoring

variable {db tick}

@[simp] theorem saveTeampoints_roster (points : PointsDict K) :
    (db.saveTeampoints tick points).roster = db.roster := rfl

theorem pointsRows_saveTeampoints_ne {tick' : ℤ} (h : tick' ≠ tick) {points : PointsDict K}
    (hpoints : ∀ key p, points key = some p → p.tick = tick) :
    (db.saveTeampoints tick points).pointsRows tick' = db.pointsRows tick' := by
  have hnew : (db.roster.pairs.filterMap points).filter (fun row => row.tick = tick') = [] := by
    apply List.filter_eq_nil_iff.2
    intro p hp
    obtain ⟨key, -, hkey⟩ := List.mem_filterMap.1 hp
    simp [hpoints key p hkey, h.symm]
  simp only [pointsRows, saveTeampoints, List.filter_append, List.filter_filter, hnew,
    List.append_nil]
  apply List.filter_congr
  intro row _
  by_cases hrow : row.tick = tick' <;> simp [hrow, h]

theorem pointsRows_saveTeampoints_self {points : PointsDict K}
    (hpoints : ∀ key p, points key = some p → p.tick = tick) :
    (db.saveTeampoints tick points).pointsRows tick = db.roster.pairs.filterMap points := by
  have hnew : (db.roster.pairs.filterMap points).filter (fun row => row.tick = tick) =
      db.roster.pairs.filterMap points := by
    apply List.filter_eq_self.2
    intro p hp
    obtain ⟨key, -, hkey⟩ := List.mem_filterMap.1 hp
    simp [hpoints key p hkey]
  simp only [pointsRows, saveTeampoints, List.filter_append, List.filter_filter, hnew]
  rw [List.filter_eq_nil_iff.2 (by simp), List.nil_append]

/-- The rows of a dictionary that covers the roster are as many as its pairs. -/
theorem length_filterMap_of_covers {roster : Roster} {points : PointsDict K}
    (h : points.Covers roster) :
    (roster.pairs.filterMap points).length = roster.teamIds.length * roster.services.length := by
  have : ∀ keys : List TeamServicePair, (∀ key ∈ keys, (points key).isSome) →
      (keys.filterMap points).length = keys.length := by
    intro keys
    induction keys with
    | nil => simp
    | cons key keys ih =>
      intro hkeys
      obtain ⟨p, hp⟩ := Option.isSome_iff_exists.1 (hkeys key (List.mem_cons_self ..))
      simp [hp, ih fun k hk => hkeys k (List.mem_cons_of_mem _ hk)]
  rw [this _ fun key hkey => (h key).2 hkey, Roster.pairs, List.length_flatMap]
  simp

/-- Reading back the rows of a dictionary gives the dictionary. -/
theorem find?_filterMap {roster : Roster} {points : PointsDict K} (h : points.Covers roster)
    (hkeys : ∀ key p, points key = some p → (p.teamId, p.serviceId) = key) (key : TeamServicePair) :
    (roster.pairs.filterMap points).find? (fun row => (row.teamId, row.serviceId) = key) =
      points key := by
  cases hkey : points key with
  | none =>
    refine List.find?_eq_none.2 fun p hp => ?_
    obtain ⟨key', -, hkey'⟩ := List.mem_filterMap.1 hp
    have := hkeys key' p hkey'
    rintro hp'
    simp only [decide_eq_true_eq] at hp'
    rw [← this, hp', hkey] at hkey'
    cases hkey'
  | some p =>
    have hmem : key ∈ roster.pairs := (h key).1 (by simp [hkey])
    revert hmem
    generalize roster.pairs = keys
    induction keys with
    | nil => simp
    | cons key' keys ih =>
      intro hmem
      by_cases heq : key' = key
      · subst heq
        simp [hkey, hkeys key' p hkey]
      · have hmem' : key ∈ keys := by simpa [Ne.symm heq] using hmem
        cases hkey' : points key' with
        | none => simp [hkey', ih hmem']
        | some p' =>
          have hp' : ¬ (p'.teamId, p'.serviceId) = key := by rw [hkeys key' p' hkey']; exact heq
          simp only [List.filterMap_cons, hkey', List.find?_cons, hp', decide_false]
          exact ih hmem'

variable [Field K] [LinearOrder K] {S : Setup K}

theorem tickResults_tick (roster : Roster) (input : TickInput K) {key : TeamServicePair}
    {p : TeamPointsLite K} (h : tickResults S roster input key = some p) :
    p.tick = input.tick ∧ (p.teamId, p.serviceId) = key := by
  unfold tickResults at h
  split at h
  · obtain ⟨lr, -, rfl⟩ := Option.map_eq_some_iff.1 h
    exact ⟨rfl, rfl⟩
  · cases h

theorem tickResults_covers {roster : Roster} {input : TickInput K}
    (hlast : ∀ key ∈ roster.pairs, (input.lastTickPoints key).isSome) :
    (tickResults S roster input).Covers roster := by
  intro key
  by_cases h : key ∈ roster.pairs
  · simpa [tickResults, h] using hlast key h
  · simp [tickResults, h]

variable (S) in
/-- What scoring a tick stores. -/
def scored (db : Database K) (tick : ℤ) (lastTickPoints : PointsDict K) : Database K :=
  db.saveTeampoints tick (tickResults S db.roster (db.tickInput S tick lastTickPoints))

/-- **Scoring a tick never fails**, and stores `tickResults`. -/
theorem scoreTick_eq {lastTickPoints : PointsDict K}
    (hlast : ∀ key ∈ db.roster.pairs, (lastTickPoints key).isSome) :
    db.scoreTick S tick lastTickPoints = .ok (db.scored S tick lastTickPoints) := by
  rw [scoreTick, calculateScoringForTick_eq hlast]
  · rfl
  · intro flag hflag
    obtain ⟨f, -, rfl⟩ := List.mem_map.1 hflag
    exact db.stolenFlag_consistent _ _ f

variable {lastTickPoints : PointsDict K}
  (hlast : ∀ key ∈ db.roster.pairs, (lastTickPoints key).isSome)

@[simp] theorem scored_roster : (db.scored S tick lastTickPoints).roster = db.roster := rfl

theorem pointsRows_scored_ne {tick' : ℤ} (h : tick' ≠ tick) :
    (db.scored S tick lastTickPoints).pointsRows tick' = db.pointsRows tick' :=
  pointsRows_saveTeampoints_ne h fun _ _ hp => (tickResults_tick _ _ hp).1

include hlast

theorem pointsDict_scored :
    (db.scored S tick lastTickPoints).pointsDict tick =
      tickResults S db.roster (db.tickInput S tick lastTickPoints) := by
  funext key
  rw [pointsDict, scored, pointsRows_saveTeampoints_self fun _ _ hp => (tickResults_tick _ _ hp).1]
  exact find?_filterMap (tickResults_covers hlast) (fun _ _ hp => (tickResults_tick _ _ hp).2) key

theorem pointsDict_scored_covers :
    ((db.scored S tick lastTickPoints).pointsDict tick).Covers db.roster := by
  rw [pointsDict_scored hlast]
  exact tickResults_covers hlast

theorem length_pointsRows_scored :
    ((db.scored S tick lastTickPoints).pointsRows tick).length =
      db.teams.length * db.services.length := by
  rw [scored, pointsRows_saveTeampoints_self fun _ _ hp => (tickResults_tick _ _ hp).1]
  exact length_filterMap_of_covers (tickResults_covers hlast)

end Scoring

/-! ## Runs -/

/-- The submissions up to a tick. -/
def flagsUpTo (db : Database K) (tick : ℤ) : List SubmittedFlag :=
  db.submittedFlags.rows.filter fun f => f.tickSubmitted ≤ tick

/-- The rank of a team after a tick. -/
def rankAt (db : Database K) (tick : ℤ) (teamId : ℕ) : Option ℕ :=
  (db.teamRankings.find? fun row => (row.tick, row.teamId) = (tick, teamId)).map fun row => row.rank

/-- What may happen after the scoring of a tick: the ranking of that tick is set, and
everything from later ticks may change. -/
structure Between (t : ℕ) (db db' : Database K) : Prop where
  teams : db'.teams = db.teams
  services : db'.services = db.services
  flags : db'.flagsUpTo t = db.flagsUpTo t
  points : ∀ tick : ℤ, tick ≤ t → db'.pointsRows tick = db.pointsRows tick
  ranking : ∀ tick : ℤ, tick < t → ∀ teamId, db'.rankAt tick teamId = db.rankAt tick teamId

end Database

variable [Field K] [LinearOrder K]

/-- Ticks `1 … T` are scored in order: `before t` is the database when the scoring of
tick `t` starts, `after t` when it is done. -/
structure ScoringRun (S : Setup K) (T : ℕ) where
  before : ℕ → Database K
  after : ℕ → Database K
  scored : ∀ t < T, (before (t + 1)).calculateScoringForTick S (t + 1) = .ok (after (t + 1))
  between : ∀ t, 1 ≤ t → t < T → (after t).Between t (before (t + 1))

namespace ScoringRun

variable {S : Setup K} {T : ℕ} (run : ScoringRun S T)

/-- The teams and services of the game. -/
def roster : Roster := (run.before 1).roster

/-- The results after tick `t`. -/
def pointsAt : ℕ → PointsDict K
  | 0 => (run.before 1).initialResults 0
  | t + 1 => (run.after (t + 1)).pointsDict (t + 1 : ℕ)

/-- What is known after each tick of a run. -/
structure Scored (t : ℕ) : Prop where
  roster_eq : (run.before (t + 1)).roster = run.roster
  covers : (run.pointsAt t).Covers run.roster
  after_eq : run.after (t + 1) = (run.before (t + 1)).scored S (t + 1 : ℕ) (run.pointsAt t)

theorem scored_zero (h : 0 < T) : run.Scored 0 := by
  have hcovers : (run.pointsAt 0).Covers run.roster := newResultsForTick_covers run.roster 0
  refine ⟨rfl, hcovers, ?_⟩
  have hscored : (run.before 1).scoreTick S 1 (run.pointsAt 0) = .ok (run.after 1) := by
    have := run.scored 0 h
    rwa [Nat.zero_add, Database.calculateScoringForTick] at this
  rw [Database.scoreTick_eq fun key hkey => (hcovers key).2 hkey] at hscored
  exact (Raising.ok.inj hscored).symm

theorem Scored.lastTickPoints {run : ScoringRun S T} {t : ℕ} (h : run.Scored t) :
    ∀ key ∈ (run.before (t + 1)).roster.pairs, (run.pointsAt t key).isSome := by
  intro key hkey
  rw [h.roster_eq] at hkey
  exact (h.covers key).2 hkey

theorem Scored.covers_succ {run : ScoringRun S T} {t : ℕ} (h : run.Scored t) :
    (run.pointsAt (t + 1)).Covers run.roster := by
  rw [pointsAt, h.after_eq, ← h.roster_eq]
  exact Database.pointsDict_scored_covers h.lastTickPoints

theorem Scored.succ {run : ScoringRun S T} {t : ℕ} (h : run.Scored t) (ht : t + 1 < T) :
    run.Scored (t + 1) := by
  have hbetween := run.between (t + 1) (by omega) ht
  have hroster : (run.before (t + 2)).roster = (run.after (t + 1)).roster := by
    simp [Database.roster, hbetween.teams, hbetween.services]
  have hroster' : (run.before (t + 2)).roster = run.roster := by
    rw [hroster, h.after_eq, Database.scored_roster, h.roster_eq]
  refine ⟨hroster', h.covers_succ, ?_⟩
  have hrows := hbetween.points (t + 1 : ℕ) le_rfl
  have hcomplete : (run.before (t + 2)).resultsMissing (t + 1) = false := by
    have hlength : ((run.after (t + 1)).pointsRows (t + 1 : ℕ)).length = _ :=
      h.after_eq ▸ Database.length_pointsRows_scored h.lastTickPoints
    rw [← hrows] at hlength
    have hteams : (run.before (t + 2)).roster = (run.before (t + 1)).roster :=
      hroster'.trans h.roster_eq.symm
    simp only [Database.roster, Roster.mk.injEq] at hteams
    simp only [Database.resultsMissing, hteams, decide_eq_false_iff_not, not_lt]
    exact hlength.ge
  have hscored := run.scored (t + 1) ht
  have hpoints : (run.before (t + 2)).pointsDict (t + 1 : ℕ) = run.pointsAt (t + 1) := by
    funext key
    simp only [pointsAt, Database.pointsDict, hrows]
  rw [Database.calculateScoringForTick, hcomplete] at hscored
  simp only [Bool.false_eq_true, if_false, Raising.andThen_ok] at hscored
  rw [hpoints, Database.scoreTick_eq] at hscored
  · exact (Raising.ok.inj hscored).symm
  · intro key hkey
    rw [hroster'] at hkey
    exact (h.covers_succ key).2 hkey

/-- **Every tick of a run is scored on top of the results of the tick before.** -/
theorem scored_of_lt {t : ℕ} (ht : t < T) : run.Scored t := by
  induction t with
  | zero => exact run.scored_zero ht
  | succ t ih => exact (ih (by omega)).succ ht

/-- The input of a tick of the run. -/
def input (t : ℕ) : TickInput K :=
  (run.before (t + 1)).tickInput S (t + 1 : ℕ) (run.pointsAt t)

theorem pointsAt_succ {t : ℕ} (ht : t < T) :
    run.pointsAt (t + 1) = tickResults S run.roster (run.input t) := by
  have h := run.scored_of_lt ht
  rw [pointsAt, h.after_eq, Database.pointsDict_scored h.lastTickPoints, h.roster_eq, input]

/-- **One tick of the run, seen from one pair**: what the flags of the tick add. -/
theorem pointsAt_succ_eq_some {pair : TeamServicePair} (hpair : pair ∈ run.roster.pairs) {t : ℕ}
    (ht : t < T) {lr : TeamPointsLite K} (hlr : run.pointsAt t pair = some lr) :
    ∃ p, run.pointsAt (t + 1) pair = some p ∧
      p.offPoints = (tickDelta S run.roster (run.input t) pair).1 + lr.offPoints ∧
      p.defPoints = (tickDelta S run.roster (run.input t) pair).2.1 + lr.defPoints ∧
      p.flagCapturedCount =
        (tickDelta S run.roster (run.input t) pair).2.2.1 + lr.flagCapturedCount ∧
      p.flagStolenCount =
        (tickDelta S run.roster (run.input t) pair).2.2.2 + lr.flagStolenCount := by
  rw [run.pointsAt_succ ht, tickResults, if_pos hpair]
  exact ⟨_, congrArg _ hlr, rfl, rfl, rfl, rfl⟩

theorem pointsAt_covers {t : ℕ} (ht : t ≤ T) : (run.pointsAt t).Covers run.roster := by
  cases t with
  | zero => exact newResultsForTick_covers run.roster 0
  | succ t => exact (run.scored_of_lt ht).covers_succ

end ScoringRun

/-! ## Runs on a database that nothing else changes -/

namespace Database

variable (S : Setup K) (db : Database K)

/-- The database after scoring the ticks `1 … t` in order. -/
def scoreInOrder : ℕ → Database K
  | 0 => db
  | 1 => db.scored S 1 (db.initialResults 0)
  | t + 2 => (scoreInOrder (t + 1)).scored S (t + 2 : ℕ)
      ((scoreInOrder (t + 1)).pointsDict (t + 1 : ℕ))

theorem scoreInOrder_roster (t : ℕ) : (db.scoreInOrder S t).roster = db.roster := by
  induction t using scoreInOrder.induct with
  | case1 => rfl
  | case2 => rfl
  | case3 t ih => exact ih

theorem scoreInOrder_spec (t : ℕ) :
    (db.scoreInOrder S t).calculateScoringForTick S (t + 1) = .ok (db.scoreInOrder S (t + 1)) ∧
      ((db.scoreInOrder S (t + 1)).pointsDict (t + 1 : ℕ)).Covers db.roster ∧
      ((db.scoreInOrder S (t + 1)).pointsRows (t + 1 : ℕ)).length =
        db.teams.length * db.services.length := by
  induction t with
  | zero =>
    have hlast : ∀ key ∈ db.roster.pairs, (db.initialResults 0 key).isSome := fun key hkey =>
      (newResultsForTick_covers db.roster 0 key).2 hkey
    exact ⟨scoreTick_eq hlast, pointsDict_scored_covers hlast, length_pointsRows_scored hlast⟩
  | succ t ih =>
    obtain ⟨-, hcovers, hlength⟩ := ih
    have hroster := db.scoreInOrder_roster S (t + 1)
    have hlast : ∀ key ∈ (db.scoreInOrder S (t + 1)).roster.pairs,
        ((db.scoreInOrder S (t + 1)).pointsDict (t + 1 : ℕ) key).isSome := fun key hkey =>
      (hcovers key).2 (hroster ▸ hkey)
    have hsizes : (db.scoreInOrder S (t + 1)).teams = db.teams ∧
        (db.scoreInOrder S (t + 1)).services = db.services := by
      simpa [roster] using hroster
    have hcomplete : (db.scoreInOrder S (t + 1)).resultsMissing (t + 1) = false := by
      simp only [resultsMissing, hsizes, decide_eq_false_iff_not, not_lt]
      exact hlength.ge
    refine ⟨?_, hroster ▸ pointsDict_scored_covers hlast, ?_⟩
    · rw [calculateScoringForTick, hcomplete]
      exact scoreTick_eq hlast
    · rw [← hsizes.1, ← hsizes.2]
      exact length_pointsRows_scored hlast

/-- The run in which nothing else happens. -/
def scoringRun (T : ℕ) : ScoringRun S T where
  before t := db.scoreInOrder S (t - 1)
  after t := db.scoreInOrder S t
  scored t _ := (db.scoreInOrder_spec S t).1
  between _ _ _ := ⟨rfl, rfl, rfl, fun _ _ => rfl, fun _ _ _ => rfl⟩

end Database

end Gameserver.Scoring
