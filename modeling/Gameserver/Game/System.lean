import Gameserver.Calculation.Basic
import Gameserver.Submission.Server

/-!
# Submission server, timer and scoring together

Flags go from the submission server through `submitted_flags` to the scoring.  Three
clocks are involved: the timer, its replica in the submission server, and the passes of
the scoring, each in a thread of its own.

* `submittedFlags` — the table of the submission server as the scoring sees it.
* `committedTicks` — the ticks a pass really scores: it may raise, and then it keeps the
  missing ticks that it has scored before.
* `System`, `Event`, `step` — the parties.  The rounds the timer publishes are messages
  under way until the replica takes them.
* `Admissible` — rounds come from the timer, and every tick that has ended is scored once.
-/

namespace Gameserver.Game

open Gameserver.Scoring Gameserver.Calculation Gameserver.Submission

/-! ## The table -/

/-- A row as the scoring sees it: `id` counts the rows, `ts` is the time of the INSERT. -/
def submittedFlag (ts : ℕ → ℤ) (row : Row × ℕ) : SubmittedFlag where
  id := row.2 + 1
  submittedBy := row.1.submittedBy.toNat
  teamId := row.1.teamId.toNat
  serviceId := row.1.serviceId.toNat
  tickIssued := row.1.tickIssued.toNat
  payload := row.1.payload.toNat
  tickSubmitted := row.1.tickSubmitted
  ts := ts row.2

/-- The unique constraint, in the types of the scoring. -/
def uniqueKey (key : RowKey) : ℕ × FlagKey :=
  (key.1.toNat, key.2.2.1.toNat, key.2.1.toNat, (key.2.2.2.1.toNat : ℤ), key.2.2.2.2.toNat)

theorem uniqueKey_injective : Function.Injective uniqueKey := by
  rintro ⟨a, b, c, d, e⟩ ⟨a', b', c', d', e'⟩ h
  simp only [uniqueKey, Prod.mk.injEq, Int.natCast_inj, UInt16.toNat_inj] at h
  obtain ⟨rfl, rfl, rfl, rfl, rfl⟩ := h
  rfl

/-- `submitted_flags`, filled by the submission server. -/
def submittedFlags (ts : ℕ → ℤ) (table : Table) : SubmittedFlags where
  rows := table.rows.zipIdx.map (submittedFlag ts)
  primaryKey := by
    have hids : (table.rows.zipIdx.map (submittedFlag ts)).map SubmittedFlag.id =
        (List.range' 0 table.rows.length).map (· + 1) := by
      rw [List.map_map, ← List.zipIdx_map_snd 0 table.rows, List.map_map]
      rfl
    have hrange : (List.range' 0 table.rows.length).Nodup := List.nodup_range'
    rw [hids]
    exact hrange.map (add_left_injective 1)
  unique := by
    have hkeys : (table.rows.zipIdx.map (submittedFlag ts)).map SubmittedFlag.uniqueKey =
        (table.rows.map Row.key).map uniqueKey := by
      conv_rhs => rw [← List.zipIdx_map_fst 0 table.rows]
      rw [List.map_map, List.map_map, List.map_map]
      rfl
    rw [hkeys]
    exact table.unique.map uniqueKey_injective

/-! ## The ticks of a pass -/

section Committed

variable {K Cache : Type*} [Field K] [LinearOrder K] (C : ScoringCalculation K Cache)

/-- The tick, if it was scored. -/
def ifScored (tick : ℕ) (result : Raising Failure (State K Cache)) : List ℕ :=
  if result.isOk then [tick] else []

/-- The ticks that `calculate_scoring_for_tick` commits: the missing ticks before, as far as
they can be scored, and its own one. -/
def committedTicks (st : State K Cache) : ℕ → List ℕ
  | 0 => ifScored 0 (C.calculateScoringForTick st 0)
  | 1 => ifScored 1 (C.calculateScoringForTick st 1)
  | tick + 2 =>
    (if st.db.resultsMissing (tick + 1) then committedTicks st (tick + 1) else []) ++
      ifScored (tick + 2) (C.calculateScoringForTick st (tick + 2))

end Committed

/-! ## The parties -/

/-- A pass of the scoring, and the submissions it has counted. -/
structure Pass where
  tick : ℕ
  counted : List SubmittedFlag
  deriving DecidableEq

structure System (K Cache : Type*) where
  server : Server
  /-- `current_tick` of the timer -/
  tick : ℕ
  /-- A tick is running. -/
  running : Bool
  /-- Messages `timing:currentRound` on their way to the submission server. -/
  published : List ℤ
  /-- The database, and the scoring object. -/
  scoring : State K Cache
  /-- The passes so far, in order. -/
  passes : List Pass

inductive Event where
  /-- An event of the submission server. -/
  | server (e : Submission.Event)
  /-- The timer starts the next tick. -/
  | startTick
  /-- The timer ends the tick. -/
  | endTick
  /-- The submission server receives a round. -/
  | deliver
  /-- `collect_checker_results` -/
  | collectCheckerResults (results : List CheckerResult)
  /-- `scoring_and_ranking` for a tick, by `_on_end_tick_deferred` -/
  | score (tick : ℕ)

namespace System

variable {K Cache : Type*}

/-- `submitted_flags` and the other tables. -/
def db (s : System K Cache) : Database K := s.scoring.db

/-- Before the game. -/
def initial (C : ScoringCalculation K Cache) (teams : List ℕ) (services : List Service) :
    System K Cache where
  server := .initial
  tick := 0
  running := false
  published := []
  scoring :=
    { db :=
        { teams := teams, services := services,
          submittedFlags := ⟨[], List.nodup_nil, List.nodup_nil⟩,
          checkerResults := [], teamPoints := [], teamRankings := [] }
      isFirstblood := fun _ => 0
      cache := C.firstBlood.empty }
  passes := []

/-- The submission server moves on; what it has stored is in the database. -/
def withServer (ts : ℕ → ℤ) (s : System K Cache) (server : Server) : System K Cache :=
  { s with
    server := server
    scoring := { s.scoring with
      db := { s.scoring.db with submittedFlags := submittedFlags ts server.table } } }

section Step

variable [Field K] [LinearOrder K] (C : ScoringCalculation K Cache) (config : Config)
  (ts : ℕ → ℤ)

/-- One event.  A pass that raises has counted the rows of the ticks that it has committed. -/
def step (s : System K Cache) : Event → System K Cache
  | .server e => s.withServer ts (s.server.step true config e)
  | .startTick =>
    { s with
      tick := s.tick + 1
      running := true
      published := s.published ++ [(s.tick + 1 : ℤ)] }
  | .endTick => { s with running := false }
  | .deliver =>
    match s.published with
    | [] => s
    | round :: published =>
      { s with published := published }.withServer ts
        (s.server.step true config (.setCurrentRound round))
  | .collectCheckerResults results =>
    { s with
      scoring := { s.scoring with db := { s.scoring.db with checkerResults := results } } }
  | .score tick =>
    { s with
      scoring := (C.scoringAndRanking s.scoring tick).state
      passes := s.passes ++
        [⟨tick, (committedTicks C s.scoring tick).flatMap fun t : ℕ => s.db.flagsOfTick t⟩] }

end Step

/-- The schedules of the game: the submission server learns rounds from the timer, ticks
follow one another, and a tick is scored once, after it has ended. -/
def Admissible (s : System K Cache) : Event → Prop
  | .server (.setCurrentRound _) => False
  | .server _ => True
  | .startTick => s.running = false
  | .endTick => s.running = true
  | .deliver => True
  | .collectCheckerResults _ => True
  | .score tick => 1 ≤ tick ∧ (tick < s.tick ∨ tick = s.tick ∧ s.running = false) ∧
      ∀ pass ∈ s.passes, pass.tick ≠ tick

instance (s : System K Cache) (e : Event) : Decidable (s.Admissible e) :=
  match e with
  | .server (.setCurrentRound _) => inferInstanceAs (Decidable False)
  | .server (.submit ..) | .server (.lookup _) | .server (.exchange _) | .server (.readRound _)
  | .server (.insert ..) | .server (.count _) | .server (.answer _)
  | .server (.initModelSizes ..) | .server (.resize ..) | .server (.setCurrentState _)
  | .deliver | .collectCheckerResults _ => inferInstanceAs (Decidable True)
  | .startTick => inferInstanceAs (Decidable (s.running = false))
  | .endTick => inferInstanceAs (Decidable (s.running = true))
  | .score tick => inferInstanceAs (Decidable (1 ≤ tick ∧
      (tick < s.tick ∨ tick = s.tick ∧ s.running = false) ∧ ∀ pass ∈ s.passes, pass.tick ≠ tick))

end System

end Gameserver.Game
