import Gameserver.Calculation.InOrder
import Gameserver.Game.System

/-!
# Is every captured flag counted once?

A row of `submitted_flags` belongs to the tick that the submission server took for the
current one when it began the INSERT.  The pass of that tick counts the rows that it
finds, unless one of them makes it raise, and no other pass ever looks at the tick again.

* `CountedOnce` — every row whose pass has run was counted by exactly one pass, and
  `flag_captured_count` is the number of counted rows.
* `Timely` — rows are stored before their tick is scored, ticks are scored in order, and the
  rows of a tick are good (`GoodRows`) when it is scored.
* `scoringAndRanking_next`, `scoringAndRanking_completes` — what one pass does.
* `countedOnce_of_timely` — **in every run in which all rows are stored in time and are good,
  each is counted once**; `not_countedOnce_late` has a run in which a row comes too late, and
  one in which a row ends the pass.
-/

namespace Gameserver.Game

open Gameserver.Scoring Gameserver.FirstBlood Gameserver.Calculation Gameserver.Submission

variable {K Cache : Type*}

/-- Submitter, victim and service are known. -/
def Known (roster : Roster) (f : SubmittedFlag) : Prop :=
  (f.submittedBy, f.serviceId) ∈ roster.pairs ∧ (f.teamId, f.serviceId) ∈ roster.pairs

instance (roster : Roster) (f : SubmittedFlag) : Decidable (Known roster f) :=
  inferInstanceAs (Decidable (_ ∧ _))

namespace System

/-- The pass for this row has run, or there is none: ticks are counted from 1. -/
def Due (s : System K Cache) (f : SubmittedFlag) : Prop :=
  f.tickSubmitted ≤ 0 ∨ ∃ pass ∈ s.passes, (pass.tick : ℤ) = f.tickSubmitted

instance (s : System K Cache) (f : SubmittedFlag) : Decidable (s.Due f) :=
  inferInstanceAs (Decidable (_ ∨ ∃ pass ∈ s.passes, _))

/-- The number of passes that have counted a row. -/
def timesCounted (s : System K Cache) (f : SubmittedFlag) : ℕ :=
  (s.passes.filter fun pass => f ∈ pass.counted).length

/-- The tick of the last pass. -/
def lastScored (s : System K Cache) : ℕ := (s.passes.getLast?.map Pass.tick).getD 0

/-- No row is lost or counted twice. -/
structure CountedOnce [Field K] (s : System K Cache) : Prop where
  once : ∀ f ∈ s.db.submittedFlags.rows, Known s.db.roster f →
    s.timesCounted f ≤ 1 ∧ (s.Due f → s.timesCounted f = 1)
  captured : ∀ pair ∈ s.db.roster.pairs, ∃ points,
    s.db.lastResults s.lastScored pair = some points ∧
    points.flagCapturedCount = ((s.passes.flatMap Pass.counted).filter fun f =>
      (f.submittedBy, f.serviceId) = pair).length

/-- A row with a known submitter, victim and service is stored in a tick, and before this tick
is scored. -/
def InTime (ts : ℕ → ℤ) (s : System K Cache) (e : Submission.Event) : Prop :=
  ∀ row ∈ s.server.newRow e,
    Known s.db.roster (submittedFlag ts (row, s.server.table.rows.length)) →
      1 ≤ row.tickSubmitted ∧ ∀ pass ∈ s.passes, (pass.tick : ℤ) ≠ row.tickSubmitted

instance (ts : ℕ → ℤ) (s : System K Cache) (e : Submission.Event) : Decidable (s.InTime ts e) :=
  inferInstanceAs (Decidable (∀ row ∈ s.server.newRow e, _ → _ ∧ ∀ pass ∈ s.passes, _))

/-- Rows are stored in time; ticks are scored in order; and the rows of a tick are good when it is
scored: the services that the first blood algorithm looks up are known, and the rows that get a
level name two teams. -/
def Timely (choice : FirstBloodChoice) (services : List Service) (ts : ℕ → ℤ)
    (s : System K choice.Cache) : Event → Prop
  | .server e => s.InTime ts e
  | .score tick => tick = s.passes.length + 1 ∧ choice.GoodRows services s.scoring tick
  | _ => True

end System

/-! ## One pass -/

section Pass

variable [Field K] [LinearOrder K] {S : Setup K} {db : Database K} {n : ℕ}

/-- The results up to tick `n` are there. -/
structure Complete (db : Database K) (n : ℕ) : Prop where
  missing : n ≠ 0 → db.resultsMissing n = false
  covers : (db.lastResults n).Covers db.roster

theorem Complete.getResultsForTickLite (h : Complete db n) :
    db.getResultsForTickLite S n = .ok (db, db.lastResults n) := by
  by_cases hn : n = 0
  · simp [Database.getResultsForTickLite, Database.lastResults, hn]
  · simp [Database.getResultsForTickLite, Database.lastResults, hn, h.missing hn]

/-- **A pass in order adds the results of its tick**, and leaves the submissions alone. -/
theorem scoringAndRanking_next (h : Complete db n) :
    ∃ db', db.scoringAndRanking S (n + 1) = .ok db' ∧ db'.roster = db.roster ∧
      db'.submittedFlags = db.submittedFlags ∧ Complete db' (n + 1) ∧
      db'.lastResults (n + 1) =
        tickResults S db.roster (db.tickInput S (n + 1 : ℕ) (db.lastResults n)) := by
  have hlast : ∀ key ∈ db.roster.pairs, (db.lastResults n key).isSome := fun key hkey =>
    (h.covers key).2 hkey
  set scored := db.scored S (n + 1 : ℕ) (db.lastResults n)
  have hmissing : scored.resultsMissing (n + 1) = false := by
    have hlength : (scored.pointsRows (n + 1 : ℕ)).length = db.teams.length * db.services.length :=
      Database.length_pointsRows_scored hlast
    have hteams : scored.teams = db.teams ∧ scored.services = db.services := ⟨rfl, rfl⟩
    simp only [Database.resultsMissing, hteams, decide_eq_false_iff_not, not_lt]
    exact hlength.ge
  have hresults : (scored.ranked (n + 1)).lastResults (n + 1) =
      tickResults S db.roster (db.tickInput S (n + 1 : ℕ) (db.lastResults n)) := by
    rw [Database.lastResults, if_neg (Nat.succ_ne_zero n)]
    exact Database.pointsDict_scored hlast
  refine ⟨scored.ranked (n + 1), ?_, rfl, rfl, ⟨fun _ => hmissing, ?_⟩, hresults⟩
  · rw [Database.scoringAndRanking, Database.calculateScoringForTick_succ, h.getResultsForTickLite,
      Raising.andThen_ok, Database.scoreTick_eq hlast, Raising.andThen_ok]
    exact Database.calculateRankingPerTick_eq (Nat.succ_ne_zero n) hmissing
  · rw [hresults]
    exact Database.tickResults_covers hlast

omit [Field K] [LinearOrder K] in
/-- In order, no other tick is scored on the way. -/
theorem missingFlags_next (h : n ≠ 0 → db.resultsMissing n = false) :
    missingFlags db (n + 1) = [] := by
  cases n with
  | zero => rfl
  | succ n => rw [missingFlags_succ, h (Nat.succ_ne_zero n), if_neg Bool.false_ne_true]

/-- **A pass in order finishes if the rows of its tick are good.** -/
theorem scoringAndRanking_completes {choice : FirstBloodChoice} {services : List Service}
    {st : State K choice.Cache} (h : Complete st.db n)
    (hgood : choice.GoodRows services st (n + 1)) :
    ∃ st', (choice.calculation S services).scoringAndRanking st (n + 1) = .ok st' := by
  have hpending : pendingFlags st.db (n + 1) = st.db.flagsOfTick (n + 1 : ℕ) := by
    rw [pendingFlags, missingFlags_next h.missing, List.nil_append]
  have hclean : choice.CleanTick S services st (n + 1 : ℕ) := by
    rw [FirstBloodChoice.goodRows_iff, hpending] at hgood
    exact ((FirstBloodChoice.After.refl st).cleanTick_iff (List.nil_subset _)
      (FirstBloodChoice.orderly_of_nil (flagsOfTick_sorted st.db _))).2 hgood
  obtain ⟨⟨marks, cache⟩, hcompute⟩ := hclean
  exact ⟨⟨st.db.rescored S n, marks, cache⟩,
    (ScoringCalculation.scoringAndRanking_eq_ok_iff h.covers h.missing).2 ⟨hcompute, rfl⟩⟩

/-- In order, a pass commits its own tick only. -/
theorem committedTicks_next {C : ScoringCalculation K Cache} {st st' : State K Cache}
    (h : n ≠ 0 → st.db.resultsMissing n = false)
    (hpass : C.scoringAndRanking st (n + 1) = .ok st') : committedTicks C st (n + 1) = [n + 1] := by
  obtain ⟨st₁, hscore, -⟩ := Raising.andThen_eq_ok_iff.1 hpass
  have hown : ifScored (n + 1) (C.calculateScoringForTick st (n + 1)) = [n + 1] := by
    rw [hscore]
    rfl
  cases n with
  | zero => exact hown
  | succ n =>
    rw [committedTicks, h (Nat.succ_ne_zero n), if_neg Bool.false_ne_true, List.nil_append]
    exact hown

/-- The pass adds one to `flag_captured_count` for every row of its tick. -/
theorem captured_next {pair : TeamServicePair} (hpair : pair ∈ db.roster.pairs)
    {lr : TeamPointsLite K} (hlr : db.lastResults n pair = some lr) :
    ∃ points, tickResults S db.roster (db.tickInput S (n + 1 : ℕ) (db.lastResults n)) pair =
        some points ∧
      points.flagCapturedCount = lr.flagCapturedCount + ((db.flagsOfTick (n + 1 : ℕ)).filter
        fun f => (f.submittedBy, f.serviceId) = pair).length := by
  refine ⟨_, by rw [tickResults, if_pos hpair]; exact congrArg _ hlr, ?_⟩
  have hflags : (db.tickInput S (n + 1 : ℕ) (db.lastResults n)).flags =
      (db.flagsOfTick (n + 1 : ℕ)).map (db.stolenFlag S.config.flagsRoundsValid (n + 1 : ℕ)) := rfl
  rw [tickDelta_captured hpair, hflags, List.filter_map, List.length_map,
    Nat.add_comm lr.flagCapturedCount]
  rfl

end Pass

/-! ## Runs -/

section Run

variable [Field K] [LinearOrder K] {config : Config} {ts : ℕ → ℤ} {s : System K Cache}

/-- What holds in every run in which rows are stored in time and are good. -/
structure Inv (ts : ℕ → ℤ) (s : System K Cache) : Prop where
  flags : s.db.submittedFlags = submittedFlags ts s.server.table
  /-- The passes are those of the ticks `1 … n`. -/
  ticks : s.passes.map Pass.tick = List.range' 1 s.passes.length
  counted : ∀ pass ∈ s.passes, ∀ f ∈ pass.counted, f.tickSubmitted = pass.tick
  /-- The rows of a scored tick do not change any more. -/
  closed : ∀ pass ∈ s.passes, ∀ f ∈ s.db.submittedFlags.rows, Known s.db.roster f →
    f.tickSubmitted = pass.tick → f ∈ pass.counted
  positive : ∀ f ∈ s.db.submittedFlags.rows, Known s.db.roster f → 1 ≤ f.tickSubmitted
  complete : Complete s.db s.passes.length
  captured : ∀ pair ∈ s.db.roster.pairs, ∃ points,
    s.db.lastResults s.passes.length pair = some points ∧
    points.flagCapturedCount = ((s.passes.flatMap Pass.counted).filter fun f =>
      (f.submittedBy, f.serviceId) = pair).length

omit [LinearOrder K] in
theorem inv_initial (C : ScoringCalculation K Cache) (teams : List ℕ) (services : List Service) :
    Inv ts (System.initial C teams services) where
  flags := rfl
  ticks := rfl
  counted _ h := by cases h
  closed _ h := by cases h
  positive _ h := by cases h
  complete := ⟨fun h => absurd rfl h, newResultsForTick_covers _ _⟩
  captured pair hpair := by
    have hzero : (System.initial C teams services).db.lastResults 0 pair = some _ := if_pos hpair
    exact ⟨_, hzero, rfl⟩

theorem submittedFlags_rows_append {table table' : Table} {row : Option Row}
    (h : table'.rows = table.rows ++ row.toList) :
    (submittedFlags ts table').rows = (submittedFlags ts table).rows ++
      row.toList.map fun row => submittedFlag ts (row, table.rows.length) := by
  simp only [submittedFlags, h, List.zipIdx_append, List.map_append]
  cases row <;> simp

omit [LinearOrder K] in
/-- The submission server stores a row at most, and in time. -/
theorem Inv.withServer (h : Inv ts s) {server : Server} {row : Option Row}
    (htable : server.table.rows = s.server.table.rows ++ row.toList)
    (htimely : ∀ r ∈ row, Known s.db.roster (submittedFlag ts (r, s.server.table.rows.length)) →
      1 ≤ r.tickSubmitted ∧ ∀ pass ∈ s.passes, (pass.tick : ℤ) ≠ r.tickSubmitted) :
    Inv ts (s.withServer ts server) := by
  have hrows : ∀ f ∈ (s.withServer ts server).db.submittedFlags.rows, f ∈ s.db.submittedFlags.rows ∨
      ∃ r ∈ row, f = submittedFlag ts (r, s.server.table.rows.length) := by
    intro f hf
    simp only [System.withServer, System.db, submittedFlags_rows_append htable] at hf
    rw [← h.flags, List.mem_append, List.mem_map] at hf
    rcases hf with hf | ⟨r, hr, rfl⟩
    · exact .inl hf
    · exact .inr ⟨r, Option.mem_toList.1 hr, rfl⟩
  refine ⟨rfl, h.ticks, h.counted, ?_, ?_, ⟨h.complete.missing, h.complete.covers⟩, h.captured⟩
  · intro pass hpass f hf hknown htick
    rcases hrows f hf with hold | ⟨r, hr, rfl⟩
    · exact h.closed pass hpass f hold hknown htick
    · exact absurd htick.symm ((htimely r hr hknown).2 pass hpass)
  · intro f hf hknown
    rcases hrows f hf with hold | ⟨r, hr, rfl⟩
    · exact h.positive f hold hknown
    · exact (htimely r hr hknown).1

/-- A pass in order that finishes. -/
theorem Inv.score {C : ScoringCalculation K Cache} (h : Inv ts s) {st : State K Cache}
    (hpass : C.scoringAndRanking s.scoring (s.passes.length + 1) = .ok st) :
    Inv ts (s.step C config ts (.score (s.passes.length + 1))) := by
  obtain ⟨db', hnext, hroster, hflags, hcomplete, hresults⟩ :=
    scoringAndRanking_next (S := C.setup) h.complete
  obtain rfl : st.db = db' :=
    Raising.ok.inj ((ScoringCalculation.scoringAndRanking_db hpass).symm.trans hnext)
  set n := s.passes.length
  set pass : Pass := ⟨n + 1, s.db.flagsOfTick (n + 1 : ℕ)⟩
  have hstep : s.step C config ts (.score (n + 1)) =
      { s with scoring := st, passes := s.passes ++ [pass] } := by
    have hticks : committedTicks C s.scoring (n + 1) = [n + 1] :=
      committedTicks_next h.complete.missing hpass
    simp [System.step, hpass, hticks, pass, Raising.state]
  rw [hstep]
  have hrows : ∀ f, f ∈ st.db.submittedFlags.rows → f ∈ s.db.submittedFlags.rows := fun f hf =>
    hflags ▸ hf
  refine ⟨hflags.trans h.flags, ?_, ?_, ?_, ?_, ?_, ?_⟩
  · rw [List.map_append, h.ticks, List.length_append, List.length_singleton, List.range'_concat]
    simp [pass, n, Nat.add_comm]
  · intro p hp f hf
    rcases List.mem_append.1 hp with hp | hp
    · exact h.counted p hp f hf
    · obtain rfl := List.mem_singleton.1 hp
      exact ((s.db.mem_flagsOfTick).1 hf).2
  · intro p hp f hf hknown htick
    rcases List.mem_append.1 hp with hp | hp
    · exact h.closed p hp f (hrows f hf) (hroster ▸ hknown) htick
    · obtain rfl := List.mem_singleton.1 hp
      exact (s.db.mem_flagsOfTick).2 ⟨hrows f hf, htick⟩
  · exact fun f hf hknown => h.positive f (hrows f hf) (hroster ▸ hknown)
  · rw [show (s.passes ++ [pass]).length = n + 1 from List.length_append]
    exact hcomplete
  · intro pair hpair
    have hpair' : pair ∈ s.db.roster.pairs := hroster ▸ hpair
    obtain ⟨lr, hlr, hcount⟩ := h.captured pair hpair'
    obtain ⟨points, hpoints, hcaptured⟩ := captured_next (S := C.setup) hpair' hlr
    refine ⟨points, ?_, ?_⟩
    · rw [← hpoints, show (s.passes ++ [pass]).length = n + 1 from List.length_append]
      exact congrFun hresults pair
    · rw [hcaptured, hcount]
      simp [pass, n]

/-- **One event**: whatever the parties do in time, nothing is lost. -/
theorem Inv.step {choice : FirstBloodChoice} {S : Setup K} {services : List Service}
    {s : System K choice.Cache} (h : Inv ts s) (e : Event)
    (htimely : s.Timely choice services ts e) :
    Inv ts (s.step (choice.calculation S services) config ts e) := by
  cases e with
  | server e => exact h.withServer (s.server.step_table_rows true config e) htimely
  | startTick => exact { h with }
  | endTick => exact { h with }
  | deliver =>
    simp only [System.step]
    cases s.published with
    | nil => exact h
    | cons round published =>
      have h' : Inv ts { s with published := published } := { h with }
      exact h'.withServer (s.server.step_table_rows true config (.setCurrentRound round))
        fun r hr => by cases hr
  | collectCheckerResults results =>
    exact { h with complete := ⟨h.complete.missing, h.complete.covers⟩ }
  | score tick =>
    obtain ⟨rfl, hgood⟩ := htimely
    obtain ⟨st, hpass⟩ := scoringAndRanking_completes h.complete hgood
    exact h.score hpass

omit [LinearOrder K]

theorem Inv.nodup_ticks (h : Inv ts s) : (s.passes.map Pass.tick).Nodup := by
  rw [h.ticks]
  exact List.nodup_range'

omit [Field K] in
/-- There is one pass for a tick at most. -/
theorem length_filter_tick_le_one {passes : List Pass} (h : (passes.map Pass.tick).Nodup) (t : ℤ) :
    (passes.filter fun pass => (pass.tick : ℤ) = t).length ≤ 1 := by
  have hsub : (passes.filter fun pass => (pass.tick : ℤ) = t).Sublist passes := List.filter_sublist
  have hnodup := h.sublist (hsub.map _)
  have hall : ∀ pass ∈ passes.filter fun pass => (pass.tick : ℤ) = t, (pass.tick : ℤ) = t :=
    fun pass hpass => of_decide_eq_true (List.mem_filter.1 hpass).2
  cases hfilter : passes.filter fun pass => (pass.tick : ℤ) = t with
  | nil => simp
  | cons a rest =>
    cases rest with
    | nil => simp
    | cons b rest =>
      rw [hfilter] at hnodup hall
      have hne : a.tick ≠ b.tick := fun heq => by simp [heq] at hnodup
      have ha := hall a (by simp)
      have hb := hall b (by simp)
      omega

theorem Inv.lastScored_eq (h : Inv ts s) : s.lastScored = s.passes.length := by
  have hticks := h.ticks
  unfold System.lastScored
  rcases List.eq_nil_or_concat s.passes with hnil | ⟨passes, pass, hsnoc⟩
  · simp [hnil]
  · rw [hsnoc, List.concat_eq_append, List.map_append, List.length_append, List.length_singleton,
      List.range'_concat] at hticks
    have htick := (List.append_inj' hticks rfl).2
    rw [hsnoc]
    simp only [List.concat_eq_append, List.getLast?_append, List.length_append]
    simpa [Nat.add_comm] using htick

theorem Inv.countedOnce (h : Inv ts s) : s.CountedOnce where
  once f hf hknown := by
    have hle : s.timesCounted f ≤ 1 := by
      refine le_trans ?_ (length_filter_tick_le_one h.nodup_ticks f.tickSubmitted)
      unfold System.timesCounted
      rw [← List.countP_eq_length_filter, ← List.countP_eq_length_filter]
      refine List.countP_mono_left fun pass hpass hcounted => decide_eq_true ?_
      exact (h.counted pass hpass f (of_decide_eq_true hcounted)).symm
    refine ⟨hle, fun hdue => ?_⟩
    rcases hdue with hnever | ⟨pass, hpass, htick⟩
    · have := h.positive f hf hknown
      omega
    · refine le_antisymm hle (List.length_pos_of_mem (a := pass) ?_)
      exact List.mem_filter.2 ⟨hpass, decide_eq_true (h.closed pass hpass f hf hknown htick.symm)⟩
  captured := by
    rw [h.lastScored_eq]
    exact h.captured

end Run

/-! ## Three teams and one service -/

/-- Flags are valid for ten rounds; all flags here have a valid MAC. -/
def exampleServerConfig : Config := ⟨0, 10, fun _ => true⟩

/-- The scoring of the example game. -/
def exampleCalculation : ScoringCalculation ℚ FirstBloodChoice.default.Cache :=
  FirstBloodChoice.default.calculation (SaarctfVariant.plain.setup exampleConfig exampleRoots)
    [.new 1 0]

/-- The step of the example game. -/
def exampleStep : System ℚ FirstBloodChoice.default.Cache → Event →
    System ℚ FirstBloodChoice.default.Cache :=
  System.step exampleCalculation exampleServerConfig fun i => i

def exampleInitial : System ℚ FirstBloodChoice.default.Cache :=
  System.initial exampleCalculation [1, 2, 3] [.new 1 0]

/-- The game is running. -/
def exampleRunning : List Event :=
  (Server.wholeInitModelSizes [] 3 1).map .server ++ [.server (.setCurrentState .running)]

/-- Team 1 submits a flag: the call up to the INSERT. -/
def exampleBegin (victim : UInt16) : List Event :=
  [.server (.submit 0 1 ⟨1, victim, 1, 0, Vector.replicate 16 0⟩), .server (.lookup 0),
    .server (.exchange 0), .server (.readRound 0)]

/-- The INSERT, and the end of the call. -/
def exampleInsert : List Event :=
  [.server (.insert 0 .executed), .server (.count 0), .server (.answer 0)]

/-- The flag of team 2 as the scoring sees it. -/
def exampleRow (id : ℕ) (tickSubmitted : ℤ) : SubmittedFlag :=
  ⟨id + 1, 1, 2, 1, 1, 0, tickSubmitted, id⟩

/-- The flag is stored in tick 1, which is scored afterwards. -/
def exampleInTime : List Event :=
  exampleRunning ++ [.startTick, .deliver] ++ exampleBegin 2 ++ exampleInsert ++
    [.endTick, .startTick, .score 1, .deliver, .endTick, .score 2]

/-- A simple case of `Timely`: all rows of the tick name two teams and a known service. -/
def PlainlyTimely (s : System ℚ FirstBloodChoice.default.Cache) : Event → Prop
  | .server e => s.InTime (fun i => i) e
  | .score tick => tick = s.passes.length + 1 ∧ ∀ f ∈ pendingFlags s.db tick,
      f.submittedBy ∈ s.db.teams ∧ f.teamId ∈ s.db.teams
  | _ => True

instance (s : System ℚ FirstBloodChoice.default.Cache) (e : Event) :
    Decidable (PlainlyTimely s e) :=
  match e with
  | .server e => inferInstanceAs (Decidable (s.InTime (fun i => i) e))
  | .score tick =>
    inferInstanceAs (Decidable (tick = s.passes.length + 1 ∧ ∀ f ∈ pendingFlags s.db tick, _ ∧ _))
  | .startTick | .endTick | .deliver | .collectCheckerResults _ => inferInstanceAs (Decidable True)

theorem PlainlyTimely.timely (s : System ℚ FirstBloodChoice.default.Cache) (e : Event)
    (h : PlainlyTimely s e) : s.Timely .default [.new 1 0] (fun i => i) e := by
  cases e with
  | score tick =>
    refine ⟨h.1, trivial, fun before f after hsplit _ => h.2 f ?_⟩
    rw [System.db, hsplit]
    exact List.mem_append_right _ List.mem_cons_self
  | server e => exact h
  | _ => trivial

/-- Tick 1 is scored, and the submission server has not heard of tick 2 yet. -/
def exampleLate : List Event :=
  exampleRunning ++ [.startTick, .deliver, .endTick, .startTick, .score 1] ++ exampleBegin 2 ++
    exampleInsert ++ [.deliver]

/-- The submission server knows that the game is running, but not the round. -/
def exampleNoRound : List Event :=
  exampleRunning ++ [.startTick] ++ exampleBegin 2 ++ exampleInsert

/-- The pass of tick 2 overtakes the pass of tick 1, and does its work, too. -/
def exampleOvertaking : List Event :=
  exampleRunning ++ [.startTick, .deliver] ++ exampleBegin 2 ++ exampleInsert ++
    [.endTick, .startTick, .endTick, .score 2, .score 1]

/-- A flag of team 0 comes first in tick 1, which makes it a first blood. -/
def exampleRaising : List Event :=
  exampleRunning ++ [.startTick, .deliver] ++ exampleBegin 0 ++ exampleInsert ++ exampleBegin 2 ++
    exampleInsert ++ [.endTick, .startTick, .score 1]

end Gameserver.Game
