import Gameserver.FirstBlood.Default
import Gameserver.FirstBlood.Multi
import Gameserver.Scoring.CatchUp

/-!
# Points, rankings and first bloods together

`class ScoringCalculation` of `controlserver/scoring/scoring.py` as a whole: a tick is
scored in one transaction that marks the first bloods and saves the points.  If anything
in it raises, nothing is stored and the caches of the first blood algorithm are reset.

* `ScoringCalculation`, `State` — the object, and what it works on.
* `computeFirstbloodIncremental` — `_record_first_blood` writes a log entry with the names
  of submitter and victim, and raises if one of them is not a team.
* `calculateScoringForTick`, `calculateRankingPerTick`, `scoringAndRanking`.
* `scoreTick_eq_ok_iff` — the two halves of a tick: **a tick is scored exactly if its first
  bloods can be recorded**, and then it stores their marks and the points.
* `scoringAndRanking_db` — the points and the ranking are those of `Scoring.Database`.
-/

namespace Gameserver.Calculation

open Gameserver.Scoring Gameserver.FirstBlood

/-- What ends a transaction. -/
inductive Failure where
  /-- `get_firstbloods` raises, or the service of a first blood is unknown. -/
  | firstblood (e : PyError)
  /-- `expect`: "Missing object" -/
  | missingObject
  /-- The scoring algorithm raises. -/
  | points (e : PyError)
  deriving DecidableEq

/-- `class ScoringCalculation`: the scoring algorithm, and the first blood algorithm with
the services it was built with. -/
structure ScoringCalculation (K Cache : Type*) where
  setup : Setup K
  services : List Service
  firstBlood : Algorithm Cache

/-- The database with the column `is_firstblood`, by id, and the caches. -/
structure State (K Cache : Type*) where
  db : Database K
  isFirstblood : ℕ → ℕ
  cache : Cache

/-- `config.firstblood_algorithm`. -/
inductive FirstBloodChoice where
  | default
  | multi (limit : ℕ)
  deriving DecidableEq

/-- The caches of the algorithm. -/
abbrev FirstBloodChoice.Cache : FirstBloodChoice → Type
  | default => ServiceCache
  | multi _ => MultiCache

/-- `FirstBloodAlgorithmFactory.build`. -/
def FirstBloodChoice.algorithm (services : List Service) :
    (choice : FirstBloodChoice) → Algorithm choice.Cache
  | default => defaultFirstBlood services
  | multi limit => multiFirstBlood services limit

/-- The object for this choice. -/
def FirstBloodChoice.calculation {K : Type*} (choice : FirstBloodChoice) (S : Setup K)
    (services : List Service) : ScoringCalculation K choice.Cache :=
  ⟨S, services, choice.algorithm services⟩

namespace ScoringCalculation

variable {K Cache : Type*} (C : ScoringCalculation K Cache)

/-! ## First bloods -/

/-- `_record_first_blood` with `write_log`: `expect` wants submitter and victim for the
text of the log entry. -/
def recordFirstBlood (teams : List ℕ) (marks : ℕ → ℕ) (firstblood : SubmittedFlag × ℕ) :
    Except Failure (ℕ → ℕ) :=
  match serviceById C.services firstblood.1.serviceId with
  | none => .error (.firstblood .keyError)
  | some _ =>
    if firstblood.1.submittedBy ∈ teams ∧ firstblood.1.teamId ∈ teams then
      .ok (Function.update marks firstblood.1.id firstblood.2)
    else .error .missingObject

/-- The loop over the first bloods. -/
def recordFirstBloods (teams : List ℕ) :
    (ℕ → ℕ) → List (SubmittedFlag × ℕ) → Except Failure (ℕ → ℕ)
  | marks, [] => .ok marks
  | marks, firstblood :: firstbloods =>
    match C.recordFirstBlood teams marks firstblood with
    | .ok marks => recordFirstBloods teams marks firstbloods
    | .error e => .error e

/-- What a session sees of the submitted flags. -/
def view (st : State K Cache) : FlagView := ⟨st.db.submittedFlags.rows, st.isFirstblood⟩

/-- `compute_firstblood_incremental`. -/
def computeFirstbloodIncremental (st : State K Cache) (flags : List SubmittedFlag) :
    Except Failure ((ℕ → ℕ) × Cache) :=
  match C.firstBlood.getFirstbloods (view st) st.cache flags with
  | .error e => .error (.firstblood e)
  | .ok (firstbloods, cache) =>
    match C.recordFirstBloods st.db.teams st.isFirstblood firstbloods with
    | .error e => .error e
    | .ok marks => .ok (marks, cache)

/-- `reset_caches`, also by a new `ScoringCalculation`. -/
def resetCaches (st : State K Cache) : State K Cache := { st with cache := C.firstBlood.empty }

/-! ## Ticks -/

section Tick

variable [Field K] [LinearOrder K]

/-- `_calculate_scoring_for_tick`, once the results of the tick before are there. -/
def scoreTick (st : State K Cache) (tick : ℤ) (lastTickPoints : PointsDict K) :
    Raising Failure (State K Cache) :=
  match C.computeFirstbloodIncremental st (st.db.flagsOfTick tick) with
  | .error e => .raised e (C.resetCaches st)
  | .ok (marks, cache) =>
    match st.db.scoreTick C.setup tick lastTickPoints with
    | .ok db => .ok ⟨db, marks, cache⟩
    | .raised e _ => .raised (.points e) (C.resetCaches st)

/-- `_calculate_scoring_for_tick`: the results of the tick before are computed first
where they are missing. -/
def calculateScoringForTick (st : State K Cache) : ℕ → Raising Failure (State K Cache)
  | 0 => C.scoreTick st 0 (st.db.initialResults (-1))
  | 1 => C.scoreTick st 1 (st.db.initialResults 0)
  | tick + 2 =>
    (if st.db.resultsMissing (tick + 1) then calculateScoringForTick st (tick + 1)
      else .ok st).andThen
      id fun st => C.scoreTick st (tick + 2 : ℕ) (st.db.pointsDict (tick + 1 : ℕ))

/-- `_get_results_for_tick_lite`. -/
def getResultsForTickLite (st : State K Cache) (tick : ℕ) :
    Raising Failure (State K Cache × PointsDict K) :=
  if tick = 0 then .ok (st, st.db.initialResults 0)
  else
    (if st.db.resultsMissing tick then C.calculateScoringForTick st tick else .ok st).andThen
      (fun st => (st, st.db.pointsDict tick)) fun st => .ok (st, st.db.pointsDict tick)

/-- `calculate_ranking_per_tick`, for ticks from 1 on. -/
def calculateRankingPerTick (st : State K Cache) (tick : ℕ) : Raising Failure (State K Cache) :=
  let cleared := { st with
    db := { st.db with teamRankings := st.db.teamRankings.filter fun row => row.tick ≠ tick } }
  (C.getResultsForTickLite cleared tick).andThen Prod.fst fun r =>
    .ok { r.1 with
      db := { r.1.db with
        teamRankings := r.1.db.teamRankings ++ Database.orderByPoints
          (r.1.db.unranked tick (r.1.db.roster.pairs.filterMap r.2)) } }

/-- `scoring_and_ranking`. -/
def scoringAndRanking (st : State K Cache) (tick : ℕ) : Raising Failure (State K Cache) :=
  (C.calculateScoringForTick st tick).andThen id fun st => C.calculateRankingPerTick st tick

end Tick

/-! ## The two halves of a tick -/

variable {C} {st st' : State K Cache} {teams : List ℕ} {marks : ℕ → ℕ}

/-- Submitter, victim and service of a first blood are known. -/
def Recordable (C : ScoringCalculation K Cache) (teams : List ℕ) (flag : SubmittedFlag) : Prop :=
  (serviceById C.services flag.serviceId).isSome ∧ flag.submittedBy ∈ teams ∧ flag.teamId ∈ teams

theorem recordFirstBlood_of_recordable {firstblood : SubmittedFlag × ℕ}
    (h : C.Recordable teams firstblood.1) :
    C.recordFirstBlood teams marks firstblood =
      .ok (Function.update marks firstblood.1.id firstblood.2) := by
  obtain ⟨service, hservice⟩ := Option.isSome_iff_exists.1 h.1
  simp only [recordFirstBlood, hservice, if_pos h.2]

theorem recordable_of_recordFirstBlood {firstblood : SubmittedFlag × ℕ} {marks' : ℕ → ℕ}
    (h : C.recordFirstBlood teams marks firstblood = .ok marks') :
    C.Recordable teams firstblood.1 := by
  unfold recordFirstBlood at h
  cases hservice : serviceById C.services firstblood.1.serviceId with
  | none => simp [hservice] at h
  | some service =>
    simp only [hservice] at h
    split at h
    · exact ⟨by simp [hservice], ‹_›⟩
    · cases h

/-- **The first bloods are recorded exactly if all of them are recordable.** -/
theorem recordFirstBloods_eq_ok_iff {firstbloods : List (SubmittedFlag × ℕ)} {marks' : ℕ → ℕ} :
    C.recordFirstBloods teams marks firstbloods = .ok marks' ↔
      (∀ r ∈ firstbloods, C.Recordable teams r.1) ∧ record marks firstbloods = marks' := by
  induction firstbloods generalizing marks with
  | nil => simp [recordFirstBloods, record]
  | cons firstblood firstbloods ih =>
    rw [List.forall_mem_cons]
    constructor
    · intro h
      unfold recordFirstBloods at h
      cases hfirst : C.recordFirstBlood teams marks firstblood with
      | error e => simp [hfirst] at h
      | ok marks₁ =>
        have hknown := recordable_of_recordFirstBlood hfirst
        rw [recordFirstBlood_of_recordable hknown] at hfirst
        obtain rfl := Except.ok.inj hfirst
        simp only [recordFirstBlood_of_recordable hknown] at h
        obtain ⟨hrest, hmarks⟩ := ih.1 h
        exact ⟨⟨hknown, hrest⟩, hmarks⟩
    · rintro ⟨⟨hknown, hrest⟩, hmarks⟩
      simp only [recordFirstBloods, recordFirstBlood_of_recordable hknown]
      exact ih.2 ⟨hrest, hmarks⟩

theorem computeFirstbloodIncremental_eq_ok_iff {flags : List SubmittedFlag} {marks' : ℕ → ℕ}
    {cache' : Cache} :
    C.computeFirstbloodIncremental st flags = .ok (marks', cache') ↔
      ∃ firstbloods, C.firstBlood.getFirstbloods (view st) st.cache flags =
          .ok (firstbloods, cache') ∧
        (∀ r ∈ firstbloods, C.Recordable st.db.teams r.1) ∧
        record st.isFirstblood firstbloods = marks' := by
  constructor
  · intro h
    unfold computeFirstbloodIncremental at h
    cases hget : C.firstBlood.getFirstbloods (view st) st.cache flags with
    | error e => simp [hget] at h
    | ok r =>
      obtain ⟨firstbloods, cache⟩ := r
      simp only [hget] at h
      cases hrecord : C.recordFirstBloods st.db.teams st.isFirstblood firstbloods with
      | error e => simp [hrecord] at h
      | ok marks =>
        simp only [hrecord, Except.ok.injEq, Prod.mk.injEq] at h
        obtain ⟨rfl, rfl⟩ := h
        exact ⟨firstbloods, rfl, recordFirstBloods_eq_ok_iff.1 hrecord⟩
  · rintro ⟨firstbloods, hget, hknown⟩
    simp only [computeFirstbloodIncremental, hget, recordFirstBloods_eq_ok_iff.2 hknown]

variable [Field K] [LinearOrder K] {tick : ℤ} {lastTickPoints : PointsDict K}

/-- **A tick is scored exactly if its first bloods can be recorded.** -/
theorem scoreTick_eq_ok_iff (hlast : ∀ key ∈ st.db.roster.pairs, (lastTickPoints key).isSome) :
    C.scoreTick st tick lastTickPoints = .ok st' ↔
      C.computeFirstbloodIncremental st (st.db.flagsOfTick tick) =
          .ok (st'.isFirstblood, st'.cache) ∧
        st'.db = st.db.scored C.setup tick lastTickPoints := by
  unfold scoreTick
  rw [Database.scoreTick_eq hlast]
  cases C.computeFirstbloodIncremental st (st.db.flagsOfTick tick) with
  | error e => simp
  | ok r =>
    obtain ⟨marks, cache⟩ := r
    obtain ⟨db', marks', cache'⟩ := st'
    simp only [Raising.ok.injEq, State.mk.injEq, Except.ok.injEq, Prod.mk.injEq]
    constructor
    · rintro ⟨rfl, rfl, rfl⟩
      exact ⟨⟨rfl, rfl⟩, rfl⟩
    · rintro ⟨⟨rfl, rfl⟩, rfl⟩
      exact ⟨rfl, rfl, rfl⟩

/-! ## The points of a pass -/

theorem scoreTick_db (h : C.scoreTick st tick lastTickPoints = .ok st') :
    st.db.scoreTick C.setup tick lastTickPoints = .ok st'.db := by
  unfold scoreTick at h
  cases hcompute : C.computeFirstbloodIncremental st (st.db.flagsOfTick tick) with
  | error e => simp [hcompute] at h
  | ok r =>
    simp only [hcompute] at h
    cases hscore : st.db.scoreTick C.setup tick lastTickPoints with
    | ok db =>
      simp only [hscore, Raising.ok.injEq] at h
      exact congrArg _ (congrArg State.db h)
    | raised e db => simp [hscore] at h

theorem calculateScoringForTick_db {tick : ℕ} (h : C.calculateScoringForTick st tick = .ok st') :
    st.db.calculateScoringForTick C.setup tick = .ok st'.db := by
  induction tick using Nat.twoStepInduction generalizing st' with
  | zero => exact scoreTick_db h
  | one => exact scoreTick_db h
  | more tick _ ih =>
    obtain ⟨st₁, hbefore, hscore⟩ := Raising.andThen_eq_ok_iff.1 h
    refine Raising.andThen_eq_ok_iff.2 ⟨st₁.db, ?_, scoreTick_db hscore⟩
    split at hbefore
    · rw [if_pos ‹_›]
      exact ih hbefore
    · rw [if_neg ‹_›, Raising.ok.inj hbefore]

theorem getResultsForTickLite_db {tick : ℕ} {results : PointsDict K}
    (h : C.getResultsForTickLite st tick = .ok (st', results)) :
    st.db.getResultsForTickLite C.setup tick = .ok (st'.db, results) := by
  unfold getResultsForTickLite at h
  unfold Database.getResultsForTickLite
  by_cases htick : tick = 0
  · rw [if_pos htick] at h ⊢
    obtain ⟨rfl, rfl⟩ := Prod.mk.inj (Raising.ok.inj h)
    rfl
  · rw [if_neg htick] at h ⊢
    obtain ⟨st₁, hscore, hresults⟩ := Raising.andThen_eq_ok_iff.1 h
    obtain ⟨rfl, rfl⟩ := Prod.mk.inj (Raising.ok.inj hresults)
    refine Raising.andThen_eq_ok_iff.2 ⟨st₁.db, ?_, rfl⟩
    split at hscore
    · rw [if_pos ‹_›]
      exact calculateScoringForTick_db hscore
    · rw [if_neg ‹_›, Raising.ok.inj hscore]

/-- **A pass that is not ended by its first bloods stores the points and the ranking of a pass
without first bloods.** -/
theorem scoringAndRanking_db {tick : ℕ} (h : C.scoringAndRanking st tick = .ok st') :
    st.db.scoringAndRanking C.setup tick = .ok st'.db := by
  obtain ⟨st₁, hscore, hranking⟩ := Raising.andThen_eq_ok_iff.1 h
  refine Raising.andThen_eq_ok_iff.2 ⟨st₁.db, calculateScoringForTick_db hscore, ?_⟩
  obtain ⟨⟨st₂, results⟩, hresults, hst'⟩ := Raising.andThen_eq_ok_iff.1 hranking
  obtain rfl := Raising.ok.inj hst'
  exact Raising.andThen_eq_ok_iff.2 ⟨(st₂.db, results), getResultsForTickLite_db hresults, rfl⟩

end ScoringCalculation

end Gameserver.Calculation
