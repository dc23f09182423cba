import Gameserver.FirstBlood.Replay
import Gameserver.Scoring.Past
import Gameserver.Calculation.BadRows

/-!
# Scoring ticks in order

The ticks `1 … t` are scored and ranked one after the other, while flags and checker
results of later ticks arrive and caches may be lost.

* `Database.history` — the flags of the ticks so far, in the order of processing.
* `Reached` — the states that can be reached.
* `Settled` — points, rankings and first blood marks of all ticks so far are those of the
  rows, and the caches know nothing else.
* `Reached.settled` — **every state that is reached is settled**, if no flag was submitted
  before the tick it was issued in.
-/

namespace Gameserver.Scoring

/-! ## The order of processing -/

/-- A flag is processed before another one: tick by tick, and in a tick as sorted. -/
def SubmittedFlag.ProcessedBefore (f g : SubmittedFlag) : Prop :=
  f.tickSubmitted < g.tickSubmitted ∨ (f.tickSubmitted = g.tickSubmitted ∧ f.Before g ∧ f ≠ g)

instance : DecidableRel SubmittedFlag.ProcessedBefore := fun f g =>
  inferInstanceAs (Decidable (f.tickSubmitted < g.tickSubmitted ∨ (_ ∧ f.Before g ∧ f ≠ g)))

/-- Time stamps increase strictly in the order of processing. -/
def TsIncreasing (rows : List SubmittedFlag) : Prop :=
  ∀ f ∈ rows, ∀ g ∈ rows, f.ProcessedBefore g → f.ts < g.ts

instance (rows : List SubmittedFlag) : Decidable (TsIncreasing rows) :=
  inferInstanceAs (Decidable (∀ f ∈ rows, ∀ g ∈ rows, f.ProcessedBefore g → f.ts < g.ts))

namespace Database

variable {K : Type*} (db : Database K)

/-- The flags of the ticks `1 … t`, in the order of processing. -/
def history (t : ℕ) : List SubmittedFlag :=
  (List.range t).flatMap fun u => db.flagsOfTick (u + 1 : ℕ)

theorem history_succ (t : ℕ) : db.history (t + 1) = db.history t ++ db.flagsOfTick (t + 1 : ℕ) := by
  simp [history, List.range_succ]

variable {db} {t u : ℕ}

theorem mem_history {f : SubmittedFlag} :
    f ∈ db.history t ↔ f ∈ db.submittedFlags.rows ∧ 1 ≤ f.tickSubmitted ∧ f.tickSubmitted ≤ t := by
  simp only [history, List.mem_flatMap, List.mem_range, mem_flagsOfTick]
  constructor
  · rintro ⟨u, hu, hf, htick⟩
    exact ⟨hf, by omega, by omega⟩
  · rintro ⟨hf, hpos, hle⟩
    exact ⟨(f.tickSubmitted - 1).toNat, by omega, hf, by omega⟩

theorem history_prefix (h : t ≤ u) : db.history t <+: db.history u := by
  obtain ⟨n, rfl⟩ := Nat.exists_eq_add_of_le h
  induction n with
  | zero => rfl
  | succ n ih =>
    rw [← Nat.add_assoc, history_succ]
    exact (ih (by omega)).trans (List.prefix_append (db.history (t + n)) _)

theorem flagsOfTick_pairwise (hts : TsIncreasing db.submittedFlags.rows) (tick : ℤ) :
    (db.flagsOfTick tick).Pairwise fun f g => f.ts < g.ts := by
  have hnodup : (db.flagsOfTick tick).Nodup :=
    (db.flagsOfTick_perm tick).nodup_iff.2 ((db.submittedFlags.primaryKey.of_map _).filter _)
  have hsorted : (db.flagsOfTick tick).Pairwise SubmittedFlag.Before :=
    List.pairwise_insertionSort _ _
  refine (hsorted.and hnodup).imp_of_mem ?_
  intro f g hf hg hfg
  obtain ⟨hf, hftick⟩ := (mem_flagsOfTick _).1 hf
  obtain ⟨hg, hgtick⟩ := (mem_flagsOfTick _).1 hg
  exact hts f hf g hg (.inr ⟨hftick.trans hgtick.symm, hfg⟩)

/-- The history has increasing time stamps. -/
theorem history_pairwise (hts : TsIncreasing db.submittedFlags.rows) (t : ℕ) :
    (db.history t).Pairwise fun f g => f.ts < g.ts := by
  induction t with
  | zero => exact List.Pairwise.nil
  | succ t ih =>
    rw [history_succ, List.pairwise_append]
    refine ⟨ih, flagsOfTick_pairwise hts _, fun f hf g hg => ?_⟩
    obtain ⟨hf, -, hftick⟩ := mem_history.1 hf
    obtain ⟨hg, hgtick⟩ := (mem_flagsOfTick _).1 hg
    exact hts f hf g hg (.inl (by omega))

theorem id_injOn {f g : SubmittedFlag} (hf : f ∈ db.submittedFlags.rows)
    (hg : g ∈ db.submittedFlags.rows) (h : f.id = g.id) : f = g :=
  List.inj_on_of_nodup_map db.submittedFlags.primaryKey hf hg h

theorem history_ids (hts : TsIncreasing db.submittedFlags.rows) (t : ℕ) :
    ((db.history t).map SubmittedFlag.id).Nodup := by
  have hnodup : (db.history t).Nodup := (history_pairwise hts t).imp fun hlt heq => by
    rw [heq] at hlt
    exact lt_irrefl _ hlt
  exact hnodup.map_on fun f hf g hg heq => id_injOn (mem_history.1 hf).1 (mem_history.1 hg).1 heq

end Database

end Gameserver.Scoring

namespace Gameserver.FirstBlood

open Gameserver.Scoring

/-! ## What a batch saves -/

/-- A mark is an old one, or one that is saved. -/
theorem record_eq_or (marks : ℕ → ℕ) (results : List (SubmittedFlag × ℕ)) (id : ℕ) :
    record marks results id = marks id ∨ ∃ r ∈ results, r.1.id = id := by
  induction results generalizing marks with
  | nil => exact .inl rfl
  | cons r results ih =>
    rcases ih (Function.update marks r.1.id r.2) with heq | ⟨r', hr', hid⟩
    · by_cases hid : r.1.id = id
      · exact .inr ⟨r, List.mem_cons_self, hid⟩
      · exact .inl (heq.trans (Function.update_of_ne (Ne.symm hid) _ _))
    · exact .inr ⟨r', List.mem_cons_of_mem _ hr', hid⟩

end Gameserver.FirstBlood

namespace Gameserver.Calculation

open Gameserver.Scoring Gameserver.FirstBlood

variable {K : Type*}

/-! ## The two algorithms -/

namespace FirstBloodChoice

variable (services : List Service)

/-- What a flag is worth after all flags before it. -/
def level : FirstBloodChoice → List SubmittedFlag → SubmittedFlag → ℕ
  | default => defaultLevel services
  | multi limit => multiLevel services limit

/-- What is right about the caches while ticks are scored in order. -/
def CacheOk : (choice : FirstBloodChoice) → List SubmittedFlag → choice.Cache → Prop
  | default => DefaultCacheOk services
  | multi limit => MultiCacheOk services limit

/-- What is right about the caches at any time. -/
def ReplayOk (history : List SubmittedFlag) : (choice : FirstBloodChoice) → choice.Cache → Prop
  | default => fun _ => True
  | multi _ => MultiReplayOk services history

variable {services} {history : List SubmittedFlag}
  (hts : history.Pairwise fun f g => f.ts < g.ts)

include hts

theorem correct (choice : FirstBloodChoice) (hids : (history.map SubmittedFlag.id).Nodup) :
    (choice.algorithm services).Correct history (choice.level services)
    (choice.CacheOk services) := by
  cases choice with
  | default => exact defaultFirstBlood_correct services (hts.imp .inl) hids
  | multi limit => exact multiFirstBlood_correct services limit hts hids

theorem replays (choice : FirstBloodChoice) :
    (choice.algorithm services).Replays history (choice.level services)
      (choice.ReplayOk services history) := by
  cases choice with
  | default => exact defaultFirstBlood_replays services hts
  | multi limit => exact multiFirstBlood_replays services limit hts

end FirstBloodChoice

/-! ## Runs -/

/-- What may happen after a tick is scored: flags and checker results of later ticks
arrive, and the caches may be lost. -/
structure Between {Cache : Type*} (C : ScoringCalculation K Cache) (t : ℕ)
    (st st' : State K Cache) : Prop where
  teams : st'.db.teams = st.db.teams
  services : st'.db.services = st.db.services
  flags : st'.db.flagsUpTo t = st.db.flagsUpTo t
  rows : st.db.submittedFlags.rows ⊆ st'.db.submittedFlags.rows
  checkerResults : st'.db.checkerResultsUpTo t = st.db.checkerResultsUpTo t
  teamPoints : st'.db.teamPoints = st.db.teamPoints
  teamRankings : st'.db.teamRankings = st.db.teamRankings
  marks : st'.isFirstblood = st.isFirstblood
  cache : st'.cache = st.cache ∨ st'.cache = C.firstBlood.empty

section Rows

variable (last : Database K)

/-- A database of a run, seen from the last one: it has the flags of the ticks so far, and
no flags that are not there at last. -/
structure Leads (t : ℕ) (db : Database K) : Prop where
  teams : db.teams = last.teams
  services : db.services = last.services
  flags : db.flagsUpTo t = last.flagsUpTo t
  rows : db.submittedFlags.rows ⊆ last.submittedFlags.rows

/-- What is known of the rows at last.  Every flag is of a tick that is scored, and not of
a tick before the one it was issued in. -/
structure Timely (n : ℕ) : Prop where
  ts : TsIncreasing last.submittedFlags.rows
  tick : ∀ f ∈ last.submittedFlags.rows, 1 ≤ f.tickSubmitted ∧ f.tickSubmitted ≤ n
  issued : ∀ f ∈ last.submittedFlags.rows, (f.submittedBy, f.serviceId) ∈ last.roster.pairs →
    (f.teamId, f.serviceId) ∈ last.roster.pairs → f.tickIssued ≤ f.tickSubmitted

variable {last db : Database K} {n t u : ℕ}

theorem Timely.rows_subset (h : Timely last n) : last.submittedFlags.rows ⊆ last.history n := by
  intro f hf
  exact Database.mem_history.2 ⟨hf, h.tick f hf⟩

theorem Timely.mem_rows (h : Timely last n) {f : SubmittedFlag} (hf : f ∈ last.history t)
    {g : SubmittedFlag} (hg : g ∈ last.history n) (hlt : g.ts < f.ts) : g ∈ last.history t := by
  obtain ⟨hfrow, -, hftick⟩ := Database.mem_history.1 hf
  obtain ⟨hgrow, hgpos, -⟩ := Database.mem_history.1 hg
  refine Database.mem_history.2 ⟨hgrow, hgpos, ?_⟩
  by_contra hgt
  exact absurd hlt (h.ts f hfrow g hgrow (.inl (by omega))).asymm

namespace Leads

variable (h : Leads last t db)

include h

theorem roster_eq : db.roster = last.roster := by
  simp only [Database.roster, h.teams, h.services]

theorem of_le (hut : u ≤ t) : Leads last u db := by
  refine ⟨h.teams, h.services, ?_, h.rows⟩
  rw [Database.flagsUpTo_of_le db t (by omega), h.flags,
    ← Database.flagsUpTo_of_le last t (by omega)]

theorem of_tables {db' : Database K} (hteams : db.teams = db'.teams)
    (hservices : db.services = db'.services) (hflags : db.submittedFlags = db'.submittedFlags) :
    Leads last t db' := by
  refine ⟨hteams.symm.trans h.teams, hservices.symm.trans h.services, ?_, hflags ▸ h.rows⟩
  rw [Database.flagsUpTo, ← hflags]
  exact h.flags

theorem flagsOfTick_eq (hut : u ≤ t) : db.flagsOfTick u = last.flagsOfTick u :=
  Database.flagsOfTick_congr h.flags (by omega)

theorem history_subset : last.history t ⊆ db.submittedFlags.rows := by
  intro f hf
  obtain ⟨hf, -, htick⟩ := Database.mem_history.1 hf
  have hmem : f ∈ last.flagsUpTo t := Database.mem_flagsUpTo.2 ⟨hf, htick⟩
  rw [← h.flags] at hmem
  exact (Database.mem_flagsUpTo.1 hmem).1

theorem issuedBy (htimely : Timely last n) : db.IssuedBy t := by
  intro f hf hsubmitter hvictim
  obtain ⟨hmem, htick⟩ := (Database.mem_flagsOfTick _).1 hf
  rw [h.roster_eq] at hsubmitter hvictim
  exact (htimely.issued f (h.rows hmem) hsubmitter hvictim).trans htick.le

end Leads

end Rows

variable [Field K] [LinearOrder K]

/-- The states in which the ticks `1 … t` have been scored, in order. -/
inductive Reached {Cache : Type*} (C : ScoringCalculation K Cache) : ℕ → State K Cache → Prop
  | start (db : Database K) : Reached C 0 ⟨db, fun _ => 0, C.firstBlood.empty⟩
  | between {t : ℕ} {st st' : State K Cache} (h : Reached C t st) (hbetween : Between C t st st') :
      Reached C t st'
  | tick {t : ℕ} {st st' : State K Cache} (h : Reached C t st)
      (hscored : C.scoringAndRanking st (t + 1) = .ok st') : Reached C (t + 1) st'

/-! ## One call of `scoring_and_ranking` -/

namespace ScoringCalculation

variable {Cache : Type*} {C : ScoringCalculation K Cache} {st st' : State K Cache} {t : ℕ}

theorem calculateScoringForTick_eq (hcomplete : t ≠ 0 → st.db.resultsMissing t = false) :
    C.calculateScoringForTick st (t + 1) = C.scoreTick st (t + 1 : ℕ) (st.db.lastResults t) := by
  cases t with
  | zero => rfl
  | succ t =>
    rw [calculateScoringForTick, hcomplete (Nat.succ_ne_zero t), if_neg Bool.false_ne_true,
      Raising.andThen_ok, Database.lastResults, if_neg (Nat.succ_ne_zero t)]

theorem calculateRankingPerTick_eq (htick : t ≠ 0) (hcomplete : st.db.resultsMissing t = false) :
    C.calculateRankingPerTick st t = .ok { st with db := st.db.ranked t } := by
  have hcleared : Database.resultsMissing
      { st.db with teamRankings := st.db.teamRankings.filter fun row => row.tick ≠ t } t = false :=
    hcomplete
  rw [calculateRankingPerTick, getResultsForTickLite, if_neg htick, hcleared]
  rfl

/-- **The next tick**: the marks of its first bloods, and its points and ranking. -/
theorem scoringAndRanking_eq_ok_iff (hcovers : (st.db.lastResults t).Covers st.db.roster)
    (hcomplete : t ≠ 0 → st.db.resultsMissing t = false) :
    C.scoringAndRanking st (t + 1) = .ok st' ↔
      C.computeFirstbloodIncremental st (st.db.flagsOfTick (t + 1 : ℕ)) =
          .ok (st'.isFirstblood, st'.cache) ∧ st'.db = st.db.rescored C.setup t := by
  have hlast : ∀ key ∈ st.db.roster.pairs, (st.db.lastResults t key).isSome :=
    fun key hkey => (hcovers key).2 hkey
  have hranking : ∀ st₁ : State K Cache,
      st₁.db = st.db.scored C.setup (t + 1 : ℕ) (st.db.lastResults t) →
      C.calculateRankingPerTick st₁ (t + 1) = .ok { st₁ with db := st.db.rescored C.setup t } := by
    intro st₁ hdb
    have hfull : st₁.db.resultsMissing (t + 1) = false := by
      have hlength : ((st.db.scored C.setup (t + 1 : ℕ) (st.db.lastResults t)).pointsRows
          (t + 1 : ℕ)).length = st.db.teams.length * st.db.services.length :=
        Database.length_pointsRows_scored hlast
      rw [← hdb] at hlength
      simp only [Database.resultsMissing, decide_eq_false_iff_not, not_lt]
      rw [hlength, hdb]
      rfl
    rw [calculateRankingPerTick_eq (Nat.succ_ne_zero t) hfull, hdb]
    rfl
  rw [scoringAndRanking, calculateScoringForTick_eq hcomplete]
  constructor
  · intro h
    cases hscore : C.scoreTick st (t + 1 : ℕ) (st.db.lastResults t) with
    | raised e st₁ =>
      rw [hscore] at h
      cases h
    | ok st₁ =>
      obtain ⟨hcompute, hdb⟩ := (scoreTick_eq_ok_iff hlast).1 hscore
      rw [hscore, Raising.andThen_ok, hranking st₁ hdb] at h
      obtain rfl := Raising.ok.inj h
      exact ⟨hcompute, rfl⟩
  · rintro ⟨hcompute, hdb⟩
    have hscore : C.scoreTick st (t + 1 : ℕ) (st.db.lastResults t) =
        .ok { st' with db := st.db.scored C.setup (t + 1 : ℕ) (st.db.lastResults t) } :=
      (scoreTick_eq_ok_iff hlast).2 ⟨hcompute, rfl⟩
    rw [hscore, Raising.andThen_ok, hranking _ rfl, ← hdb]

end ScoringCalculation

/-! ## What scoring does not write -/

/-- Teams, services and flags are the same. -/
def SameRows (db db' : Database K) : Prop :=
  db'.teams = db.teams ∧ db'.services = db.services ∧ db'.submittedFlags = db.submittedFlags

omit [Field K] [LinearOrder K] in
theorem SameRows.trans {db db' db'' : Database K} (h : SameRows db db') (h' : SameRows db' db'') :
    SameRows db db'' :=
  ⟨h'.1.trans h.1, h'.2.1.trans h.2.1, h'.2.2.trans h.2.2⟩

namespace ScoringCalculation

variable {Cache : Type*} {C : ScoringCalculation K Cache} {st st' : State K Cache}

theorem scoreTick_sameRows {tick : ℤ} {lastTickPoints : PointsDict K}
    (h : C.scoreTick st tick lastTickPoints = .ok st') : SameRows st.db st'.db := by
  unfold scoreTick Database.scoreTick at h
  cases hcompute : C.computeFirstbloodIncremental st (st.db.flagsOfTick tick) with
  | error e => simp [hcompute] at h
  | ok r =>
    simp only [hcompute] at h
    cases hpoints : C.setup.calculateScoringForTick st.db.roster
        (st.db.tickInput C.setup tick lastTickPoints) with
    | raised e points => simp [hpoints] at h
    | ok points =>
      simp only [hpoints, Raising.andThen_ok, Raising.ok.injEq] at h
      subst h
      exact ⟨rfl, rfl, rfl⟩

theorem calculateScoringForTick_sameRows {tick : ℕ}
    (h : C.calculateScoringForTick st tick = .ok st') : SameRows st.db st'.db := by
  induction tick using Nat.twoStepInduction generalizing st' with
  | zero => exact scoreTick_sameRows h
  | one => exact scoreTick_sameRows h
  | more tick _ ih =>
    rw [calculateScoringForTick] at h
    split at h
    · cases hbefore : C.calculateScoringForTick st (tick + 1) with
      | raised e st₁ =>
        rw [hbefore] at h
        cases h
      | ok st₁ =>
        rw [hbefore, Raising.andThen_ok] at h
        exact (ih hbefore).trans (scoreTick_sameRows h)
    · exact scoreTick_sameRows h

theorem calculateRankingPerTick_sameRows {tick : ℕ}
    (h : C.calculateRankingPerTick st tick = .ok st') : SameRows st.db st'.db := by
  unfold calculateRankingPerTick getResultsForTickLite at h
  dsimp only at h
  split at h
  · obtain rfl := Raising.ok.inj h
    exact ⟨rfl, rfl, rfl⟩
  · split at h
    · generalize hcleared : State.mk _ st.isFirstblood st.cache = cleared at h
      cases hscore : C.calculateScoringForTick cleared tick with
      | raised e st₁ =>
        rw [hscore] at h
        cases h
      | ok st₁ =>
        rw [hscore] at h
        obtain rfl := Raising.ok.inj h
        have hrows := calculateScoringForTick_sameRows hscore
        rw [← hcleared] at hrows
        exact hrows
    · obtain rfl := Raising.ok.inj h
      exact ⟨rfl, rfl, rfl⟩

theorem scoringAndRanking_sameRows {tick : ℕ} (h : C.scoringAndRanking st tick = .ok st') :
    SameRows st.db st'.db := by
  unfold scoringAndRanking at h
  cases hscore : C.calculateScoringForTick st tick with
  | raised e st₁ =>
    rw [hscore] at h
    cases h
  | ok st₁ =>
    rw [hscore, Raising.andThen_ok] at h
    exact (calculateScoringForTick_sameRows hscore).trans (calculateRankingPerTick_sameRows h)

end ScoringCalculation

/-! ## Settled ticks -/

section Settled

variable (choice : FirstBloodChoice) (S : Setup K) (services : List Service) (last : Database K)

/-- Points, rankings and first blood marks of the ticks `1 … t` are those of the rows, and
nothing that the caches know is wrong.  No flag is later than tick `n`. -/
structure Settled (n t : ℕ) (st : State K choice.Cache) : Prop where
  leads : Leads last t st.db
  results : Database.ResultsSettled S t st.db
  marked : Marked (choice.level services) (last.history t) st.isFirstblood
  known : FirstBloodChoice.ServicesKnown services (last.history t) choice
  recordable : ∀ f ∈ last.submittedFlags.rows, 0 < st.isFirstblood f.id →
    (choice.calculation S services).Recordable last.teams f
  replayOk : choice.ReplayOk services (last.history n) st.cache

variable {choice S services last} {n t : ℕ} {st st' : State K choice.Cache}

namespace Settled

theorem start (htimely : Timely last n) {db : Database K} (hleads : Leads last 0 db) :
    Settled choice S services last n 0
      ⟨db, fun _ => 0, (choice.calculation S services).firstBlood.empty⟩ where
  leads := hleads
  results := .zero
  marked := .empty
  known := by
    cases choice with
    | default => exact trivial
    | multi limit => exact fun f hf => absurd hf List.not_mem_nil
  recordable f _ hpos := absurd hpos (lt_irrefl 0)
  replayOk := (choice.replays (Database.history_pairwise htimely.ts n)).empty

/-- Nothing that arrives later changes the ticks so far. -/
theorem between (h : Settled choice S services last n t st) (htimely : Timely last n)
    (hbetween : Between (choice.calculation S services) t st st') (hleads : Leads last t st'.db) :
    Settled choice S services last n t st' where
  leads := hleads
  results := by
    refine h.results.congr ⟨⟨hbetween.teams, hbetween.services, hbetween.flags,
      hbetween.checkerResults, fun tick _ => ?_, fun tick _ => ?_⟩, ?_, ?_⟩
    all_goals simp only [Database.pointsRows, Database.rankingRows, hbetween.teamPoints,
      hbetween.teamRankings]
  marked := hbetween.marks ▸ h.marked
  known := h.known
  recordable := hbetween.marks ▸ h.recordable
  replayOk := by
    rcases hbetween.cache with hcache | hcache
    · exact hcache ▸ h.replayOk
    · rw [hcache]
      exact (choice.replays (Database.history_pairwise htimely.ts n)).empty

/-- The next tick is scored. -/
theorem tick (h : Settled choice S services last n t st) (htimely : Timely last n)
    (hcache : choice.CacheOk services (last.history t) st.cache) (hn : t + 1 ≤ n)
    (hleads : Leads last (t + 1) st.db)
    (hscored : (choice.calculation S services).scoringAndRanking st (t + 1) = .ok st') :
    Settled choice S services last n (t + 1) st' ∧
      choice.CacheOk services (last.history (t + 1)) st'.cache := by
  obtain ⟨hcompute, hdb⟩ := (ScoringCalculation.scoringAndRanking_eq_ok_iff
    (h.results.covers le_rfl) (h.results.resultsMissing_eq le_rfl)).1 hscored
  obtain ⟨firstbloods, hget, hrecordable, hmarks⟩ :=
    ScoringCalculation.computeFirstbloodIncremental_eq_ok_iff.1 hcompute
  rw [hleads.flagsOfTick_eq le_rfl] at hget
  have hts := Database.history_pairwise htimely.ts n
  have hids := Database.history_ids htimely.ts n
  have hinit : last.history t ++ last.flagsOfTick (t + 1 : ℕ) <+: last.history n := by
    rw [← Database.history_succ]
    exact Database.history_prefix hn
  have hrows : last.history t ++ last.flagsOfTick (t + 1 : ℕ) ⊆ st.db.submittedFlags.rows := by
    rw [← Database.history_succ]
    exact hleads.history_subset
  have hhistory : st.db.submittedFlags.rows ⊆ last.history n :=
    fun f hf => htimely.rows_subset (hleads.rows hf)
  obtain ⟨rfl, hcache'⟩ := (choice.correct hts hids).batch _ _ _ _ _ _ _ hinit hrows hhistory
    h.marked hcache hget
  have hflags : ∀ f ∈ last.flagsOfTick (t + 1 : ℕ), f ∈ last.history (t + 1) := fun f hf => by
    rw [Database.history_succ]
    exact List.mem_append_right _ hf
  rw [Database.history_succ]
  refine ⟨⟨?_, ?_, ?_, ?_, ?_, ?_⟩, hcache'⟩
  · rw [hdb]
    exact ⟨hleads.teams, hleads.services, hleads.flags, hleads.rows⟩
  · rw [hdb]
    exact h.results.succ (hleads.issuedBy htimely)
  · rw [← hmarks, Database.history_succ]
    exact h.marked.append (hids.sublist (hinit.sublist.map _))
  · have hbatch := FirstBloodChoice.getFirstbloods_ok_iff.1 ⟨_, hget⟩
    rw [Database.history_succ]
    cases choice with
    | default => exact trivial
    | multi limit => exact fun f hf => (List.mem_append.1 hf).elim (h.known f) (hbatch f)
  · intro f hf hpos
    rw [← hmarks] at hpos
    rcases record_eq_or st.isFirstblood (levels (choice.level services) (last.history t)
        (last.flagsOfTick (t + 1 : ℕ))) f.id with hold | ⟨r, hr, hid⟩
    · rw [hold] at hpos
      exact h.recordable f hf hpos
    · have hmem := (Database.mem_flagsOfTick _).1 (fst_mem_of_mem_levels hr)
      obtain rfl := Database.id_injOn hmem.1 hf hid
      exact hleads.teams ▸ hrecordable r hr
  · refine (choice.replays hts).batch _ _ _ _ _ _ ?_ hhistory ?_ h.replayOk hget
    · exact fun f hf => hinit.subset (List.mem_append_right _ hf)
    · intro f hf g hg hlt
      exact hleads.history_subset (htimely.mem_rows (hflags f hf) hg hlt)

end Settled

/-- **Every state that is reached by scoring ticks in order is settled.** -/
theorem Reached.settled (hreached : Reached (choice.calculation S services) t st)
    (htimely : Timely last n) (ht : t ≤ n) (hleads : Leads last t st.db) :
    Settled choice S services last n t st ∧
      choice.CacheOk services (last.history t) st.cache := by
  have hcorrect : (choice.algorithm services).Correct (last.history n) (choice.level services)
      (choice.CacheOk services) :=
    choice.correct (Database.history_pairwise htimely.ts n) (Database.history_ids htimely.ts n)
  induction hreached with
  | start db => exact ⟨.start htimely hleads, hcorrect.initial⟩
  | between _ hbetween ih =>
    obtain ⟨hsettled, hcache⟩ := ih ht ⟨hbetween.teams.symm.trans hleads.teams,
      hbetween.services.symm.trans hleads.services, hbetween.flags.symm.trans hleads.flags,
      fun f hf => hleads.rows (hbetween.rows hf)⟩
    refine ⟨hsettled.between htimely hbetween hleads, ?_⟩
    rcases hbetween.cache with heq | heq
    · exact heq ▸ hcache
    · rw [heq]
      exact hcorrect.reset _ _ hcache
  | tick _ hscored ih =>
    obtain ⟨hteams, hservices, hflags⟩ := ScoringCalculation.scoringAndRanking_sameRows hscored
    have hleads' : Leads last _ _ := hleads.of_tables hteams hservices hflags
    obtain ⟨hsettled, hcache⟩ := ih (by omega) (hleads'.of_le (Nat.le_succ _))
    exact hsettled.tick htimely hcache ht hleads' hscored

end Settled

end Gameserver.Calculation
