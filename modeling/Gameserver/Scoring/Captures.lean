import Gameserver.Scoring.Run

/-!
# Captures of a flag over a run

A flag is captured in several ticks, by several teams.  This module counts its captures
and says what the queries of a tick return in terms of them.

* `Database.captures` — how often a flag has been captured up to a tick.
* `Database.previousSubmissions_eq` — the window of the self-join loses nothing.
* `Valuation` — an algorithm whose hooks depend on the number of captures only;
  `saarctfValuation` and `happyHourValuation`.
* `sum_newFlags` — the flags of a tick, each once, as a sum over their keys.
* `ScoringRun.captures_eq`, `ScoringRun.rank_eq` — what a tick of a run reads is what
  the last database still says.
-/

namespace Gameserver.Scoring

variable {K : Type*}

/-- A submission in time, by a team of the game and of a flag of a team of the game. -/
structure SubmittedFlag.Valid (roster : Roster) (flagsRoundsValid : ℤ) (f : SubmittedFlag) :
    Prop where
  tick_pos : 1 ≤ f.tickSubmitted
  issued : f.tickIssued ≤ f.tickSubmitted
  not_expired : f.tickSubmitted ≤ f.tickIssued + flagsRoundsValid
  submitter : f.submittedBy ∈ roster.teamIds
  victim : f.teamId ∈ roster.teamIds

instance (roster : Roster) (flagsRoundsValid : ℤ) (f : SubmittedFlag) :
    Decidable (f.Valid roster flagsRoundsValid) :=
  decidable_of_iff
    (1 ≤ f.tickSubmitted ∧ f.tickIssued ≤ f.tickSubmitted ∧
      f.tickSubmitted ≤ f.tickIssued + flagsRoundsValid ∧ f.submittedBy ∈ roster.teamIds ∧
      f.teamId ∈ roster.teamIds)
    ⟨fun ⟨h₁, h₂, h₃, h₄, h₅⟩ => ⟨h₁, h₂, h₃, h₄, h₅⟩,
      fun ⟨h₁, h₂, h₃, h₄, h₅⟩ => ⟨h₁, h₂, h₃, h₄, h₅⟩⟩

/-! ## Sums over lists of flags -/

theorem sum_map_filter {α M : Type*} [AddCommMonoid M] (p : α → Bool) (g : α → M) (l : List α) :
    ((l.filter p).map g).sum = (l.map fun a => if p a then g a else 0).sum := by
  induction l with
  | nil => rfl
  | cons a l ih => by_cases h : p a <;> simp [h, ih]

theorem sum_map_split {α M : Type*} [AddCommMonoid M] (p q r : α → Bool)
    (h : ∀ a, (p a = (q a || r a)) ∧ ¬ (q a ∧ r a)) (g : α → M) (l : List α) :
    ((l.filter p).map g).sum = ((l.filter q).map g).sum + ((l.filter r).map g).sum := by
  simp only [sum_map_filter]
  rw [← List.sum_map_add]
  congr 1
  apply List.map_congr_left
  intro a _
  obtain ⟨hor, hand⟩ := h a
  cases hq : q a <;> cases hr : r a <;> simp_all

theorem mem_newFlags_keys {seen : List FlagKey} {flags : List StolenFlag} {key : FlagKey} :
    key ∈ (newFlags seen flags).map (·.flag.key) ↔ key ∈ flags.map (·.flag.key) ∧ key ∉ seen := by
  induction flags generalizing seen with
  | nil => simp [newFlags]
  | cons f flags ih =>
    unfold newFlags
    by_cases h : f.flag.key ∈ seen
    · rw [if_pos h, ih, List.map_cons, List.mem_cons]
      constructor
      · rintro ⟨h1, h2⟩
        exact ⟨.inr h1, h2⟩
      · rintro ⟨rfl | h1, h2⟩
        · exact absurd h h2
        · exact ⟨h1, h2⟩
    · rw [if_neg h, List.map_cons, List.mem_cons, ih, List.map_cons, List.mem_cons, List.mem_cons]
      by_cases heq : key = f.flag.key
      · simp [heq, h]
      · simp [heq]

theorem newFlags_keys_nodup (seen : List FlagKey) (flags : List StolenFlag) :
    ((newFlags seen flags).map (·.flag.key)).Nodup := by
  induction flags generalizing seen with
  | nil => simp [newFlags]
  | cons f flags ih =>
    unfold newFlags
    split
    · exact ih seen
    · rw [List.map_cons, List.nodup_cons]
      exact ⟨fun h => (mem_newFlags_keys.1 h).2 (List.mem_cons_self ..), ih _⟩

/-- The flags of a tick, each once, are counted by their keys. -/
theorem sum_newFlags {M : Type*} [AddCommMonoid M] {g : StolenFlag → M} {h : FlagKey → M}
    {flags : List StolenFlag} (hg : ∀ f ∈ flags, g f = h f.flag.key) :
    ((newFlags [] flags).map g).sum = ∑ key ∈ (flags.map (·.flag.key)).toFinset, h key := by
  have hset : (flags.map (·.flag.key)).toFinset =
      ((newFlags [] flags).map (·.flag.key)).toFinset := by
    ext key
    rw [List.mem_toFinset, List.mem_toFinset, mem_newFlags_keys]
    simp
  rw [hset, List.sum_toFinset _ (newFlags_keys_nodup _ _), List.map_map]
  congr 1
  exact List.map_congr_left fun f hf => hg f (newFlags_subset hf)

/-! ## What the queries of a tick return -/

namespace Database

variable (db : Database K)

/-- How often a flag has been captured up to a tick. -/
def captures (key : FlagKey) (tick : ℤ) : ℕ := ((db.flagsUpTo tick).filter (·.key = key)).length

/-- The submissions of the flag are in time. -/
def InTime (flagsRoundsValid tick : ℤ) (key : FlagKey) : Prop :=
  ∀ f ∈ db.flagsUpTo tick, f.key = key →
    f.tickIssued ≤ f.tickSubmitted ∧ f.tickSubmitted ≤ f.tickIssued + flagsRoundsValid

variable {db} {frv tick : ℤ} {key : FlagKey}

theorem mem_flagsUpTo {f : SubmittedFlag} :
    f ∈ db.flagsUpTo tick ↔ f ∈ db.submittedFlags.rows ∧ f.tickSubmitted ≤ tick := by
  simp [flagsUpTo]

theorem flagsUpTo_of_le (db : Database K) (tick' : ℤ) (h : tick ≤ tick') :
    db.flagsUpTo tick = (db.flagsUpTo tick').filter fun f => f.tickSubmitted ≤ tick := by
  rw [flagsUpTo, flagsUpTo, List.filter_filter]
  apply List.filter_congr
  intro f _
  by_cases hf : f.tickSubmitted ≤ tick
  · simp [hf, hf.trans h]
  · simp [hf]

/-- **The window of the self-join loses nothing**: all earlier submissions of a flag that
is submitted in this tick are in it. -/
theorem previousSubmissions_eq (htime : db.InTime frv tick key)
    (hkey : ∃ f ∈ db.flagsOfTick tick, f.key = key) :
    db.previousSubmissions frv tick key = (db.flagsUpTo (tick - 1)).filter (·.key = key) := by
  obtain ⟨f₀, hf₀, rfl⟩ := hkey
  obtain ⟨hmem₀, htick₀⟩ := (db.mem_flagsOfTick).1 hf₀
  have h₀ := htime f₀ (mem_flagsUpTo.2 ⟨hmem₀, htick₀.le⟩) rfl
  rw [flagsUpTo, List.filter_filter, previousSubmissions]
  apply List.filter_congr
  intro f hf
  by_cases hk : f.key = f₀.key
  · by_cases ht : f.tickSubmitted < tick
    · have h := htime f (mem_flagsUpTo.2 ⟨hf, ht.le⟩) hk
      have hissued : f.tickIssued = f₀.tickIssued := by
        simp only [SubmittedFlag.key, Prod.mk.injEq] at hk
        exact hk.2.2.1
      have : f.tickSubmitted ≤ tick - 1 := by omega
      have : tick - frv - 2 ≤ f.tickSubmitted := by omega
      simp_all
    · have hle : ¬ f.tickSubmitted ≤ tick - 1 := by omega
      simp [ht, hle]
  · simp [hk]

theorem numPreviousSubmissions_eq_captures {f : SubmittedFlag} (htime : db.InTime frv tick f.key)
    (hf : f ∈ db.flagsOfTick tick) :
    (db.stolenFlag frv tick f).numPreviousSubmissions = db.captures f.key (tick - 1) := by
  rw [numPreviousSubmissions_eq, previousSubmissions_eq htime ⟨f, hf, rfl⟩, captures]

/-- The submissions up to a tick are those up to the tick before and those of the tick. -/
theorem sum_flagsUpTo (db : Database K) (tick : ℤ) {M : Type*} [AddCommMonoid M]
    (p : SubmittedFlag → Bool) (g : SubmittedFlag → M) :
    (((db.flagsUpTo tick).filter p).map g).sum =
      (((db.flagsUpTo (tick - 1)).filter p).map g).sum
        + (((db.flagsOfTick tick).filter p).map g).sum := by
  rw [(((db.flagsOfTick_perm tick).filter p).map g).sum_eq]
  simp only [flagsUpTo, List.filter_filter]
  refine sum_map_split _ _ _ (fun f => ?_) g _
  by_cases hp : p f
  · by_cases hle : f.tickSubmitted ≤ tick - 1
    · simp [hp, hle, show f.tickSubmitted ≤ tick by omega, show f.tickSubmitted ≠ tick by omega]
    · by_cases heq : f.tickSubmitted = tick
      · simp [hp, heq]
      · simp [hp, hle, heq, show ¬ f.tickSubmitted ≤ tick by omega]
  · simp [hp]

theorem captures_eq_add (db : Database K) (key : FlagKey) (tick : ℤ) :
    db.captures key tick = db.captures key (tick - 1) + (db.submissionsInTick tick key).length := by
  have h := db.sum_flagsUpTo tick (fun f => f.key = key) (fun _ => 1)
  rw [(((db.flagsOfTick_perm tick).filter _).map _).sum_eq] at h
  simp only [List.map_const', List.sum_replicate_nat, mul_one, List.filter_filter] at h
  rw [captures, h, captures, submissionsInTick]
  congr 2
  apply List.filter_congr
  intro f _
  rw [Bool.decide_and]
  exact Bool.and_comm _ _

theorem numSubmissions_eq_captures {f : SubmittedFlag} (htime : db.InTime frv tick f.key)
    (hf : f ∈ db.flagsOfTick tick) :
    (db.stolenFlag frv tick f).numPreviousSubmissions + (db.stolenFlag frv tick f).numSubmissions =
      db.captures f.key tick := by
  rw [numPreviousSubmissions_eq_captures htime hf, numSubmissions_eq, ← captures_eq_add]

theorem mem_previousSubmitterIds {f : SubmittedFlag} (htime : db.InTime frv tick f.key)
    (hf : f ∈ db.flagsOfTick tick) {teamId : ℕ} :
    teamId ∈ (db.stolenFlag frv tick f).previousSubmitterIds ↔
      ∃ g ∈ db.flagsUpTo (tick - 1), g.key = f.key ∧ g.submittedBy = teamId := by
  rw [(db.previousSubmitterIds_perm frv tick f).mem_iff, previousSubmissions_eq htime ⟨f, hf, rfl⟩]
  simp [and_assoc]

/-- Whoever is corrected has submitted the flag in an earlier tick. -/
theorem exists_of_mem_previousSubmitterIds {f : SubmittedFlag} {teamId : ℕ}
    (h : teamId ∈ (db.stolenFlag frv tick f).previousSubmitterIds) :
    ∃ g ∈ db.flagsUpTo (tick - 1), g.key = f.key ∧ g.submittedBy = teamId := by
  rw [(db.previousSubmitterIds_perm frv tick f).mem_iff, List.mem_map] at h
  obtain ⟨g, hg, hby⟩ := h
  simp only [previousSubmissions, List.mem_filter, decide_eq_true_eq] at hg
  exact ⟨g, mem_flagsUpTo.2 ⟨hg.1, by omega⟩, hg.2.2.2, hby⟩

/-- A flag that is not submitted in a tick keeps its number of captures. -/
theorem captures_of_not_submitted (h : ∀ f ∈ db.flagsOfTick tick, f.key ≠ key) :
    db.captures key tick = db.captures key (tick - 1) := by
  rw [captures_eq_add, submissionsInTick, List.filter_eq_nil_iff.2, List.length_nil, add_zero]
  intro f hf hcond
  simp only [decide_eq_true_eq] at hcond
  exact h f ((db.mem_flagsOfTick).2 ⟨hf, hcond.1⟩) hcond.2

/-- The window of ranks is wide enough for every flag that is submitted in time. -/
theorem rankingForLastTicks_eq {f : SubmittedFlag} (hissued : f.tickIssued ≤ tick)
    (htime : tick ≤ f.tickIssued + frv) (teamId : ℕ) :
    db.rankingForLastTicks frv tick (f.tickIssued - 1, teamId) =
      db.rankAt (f.tickIssued - 1) teamId := by
  rw [rankingForLastTicks, rankAt, List.find?_filter]
  congr 2
  funext row
  by_cases h : row.tick = f.tickIssued - 1
  · have : tick - frv - 1 ≤ row.tick ∧ row.tick < tick := by omega
    simp [this]
  · simp [h]

/-- A team captures a flag at most once. -/
theorem keys_nodup (db : Database K) (tick : ℤ) (teamId : ℕ) (p : SubmittedFlag → Bool)
    (hp : ∀ f, p f → f.submittedBy = teamId) :
    (((db.flagsUpTo tick).filter p).map SubmittedFlag.key).Nodup := by
  have h : (((db.flagsUpTo tick).filter p).map SubmittedFlag.uniqueKey).Nodup :=
    db.submittedFlags.unique.sublist
      (((List.filter_sublist).trans List.filter_sublist).map _)
  have heq : ((db.flagsUpTo tick).filter p).map SubmittedFlag.uniqueKey =
      (((db.flagsUpTo tick).filter p).map SubmittedFlag.key).map (teamId, ·) := by
    rw [List.map_map]
    apply List.map_congr_left
    intro f hf
    simp [SubmittedFlag.uniqueKey, hp f (List.mem_filter.1 hf).2]
  rw [heq] at h
  exact h.of_map _

end Database

/-! ## Algorithms that look at the number of captures only -/

/-- The hooks of an algorithm as functions of the number of captures. -/
structure Valuation [Field K] (algorithm : ScoreTickAlgorithm K) where
  /-- The value of a flag: tick of issue, captures, rank of the victim. -/
  value : ℤ → ℕ → ℕ → K
  /-- The damage of a flag: captures, active teams, SLA points of the victim. -/
  damage : ℕ → ℕ → K → K
  offPoints_eq : ∀ flag rank, algorithm.offPoints flag rank =
    value flag.flag.tickIssued (flag.numPreviousSubmissions + flag.numSubmissions) rank
  offPointsPrevious_eq : ∀ flag rank, algorithm.offPointsPrevious flag rank =
    some (value flag.flag.tickIssued flag.numPreviousSubmissions rank)
  defPoints_eq : ∀ flag active sla, algorithm.defPoints flag active sla =
    damage (flag.numPreviousSubmissions + flag.numSubmissions) active sla
  defPointsPrevious_eq : ∀ flag active sla, algorithm.defPointsPrevious flag active sla =
    damage flag.numPreviousSubmissions active sla

variable [Field K]

/-- The hooks of `SaarctfScoreAlgorithm`. -/
def saarctfValuation (fn : Roots K) : Valuation (saarctfScoreAlgorithm fn) where
  value _ n rank := flagPoints fn n rank
  damage n active sla := defDamage fn n active sla
  offPoints_eq _ _ := rfl
  offPointsPrevious_eq _ _ := rfl
  defPoints_eq _ _ _ := rfl
  defPointsPrevious_eq _ _ _ := rfl

/-- The hooks of `SaarctfScoreAlgorithmWithHappyHour`. -/
def happyHourValuation (config : ScoringConfig) (fn : Roots K) :
    Valuation (saarctfScoreAlgorithmWithHappyHour fn config) where
  value tickIssued n rank := flagPoints fn n rank * happyHourFactor config tickIssued
  damage n active sla := defDamage fn n active sla
  offPoints_eq _ _ := rfl
  offPointsPrevious_eq _ _ := rfl
  defPoints_eq _ _ _ := rfl
  defPointsPrevious_eq _ _ _ := rfl

/-- The two algorithms of `saarctf.py`. -/
inductive SaarctfVariant where
  | plain
  | happyHour
  deriving DecidableEq, Repr

namespace SaarctfVariant

/-- The algorithm a configuration names. -/
def algorithm (variant : SaarctfVariant) (config : ScoringConfig) (fn : Roots K) :
    ScoreTickAlgorithm K :=
  match variant with
  | plain => saarctfScoreAlgorithm fn
  | happyHour => saarctfScoreAlgorithmWithHappyHour fn config

/-- The factor on the value of flags issued in a tick. -/
def factor (variant : SaarctfVariant) (config : ScoringConfig) (tick : ℤ) : K :=
  match variant with
  | plain => 1
  | happyHour => happyHourFactor config tick

/-- The scoring with this algorithm. -/
def setup (variant : SaarctfVariant) (config : ScoringConfig) (fn : Roots K) : Setup K :=
  ⟨config, fn, variant.algorithm config fn⟩

/-- The hooks of both algorithms. -/
def valuation (variant : SaarctfVariant) (config : ScoringConfig) (fn : Roots K) :
    Valuation (variant.setup config fn).algorithm :=
  match variant with
  | plain => saarctfValuation fn
  | happyHour => happyHourValuation config fn

theorem valuation_value (variant : SaarctfVariant) (config : ScoringConfig) (fn : Roots K)
    (tickIssued : ℤ) (n rank : ℕ) :
    (variant.valuation config fn).value tickIssued n rank =
      flagPoints fn n rank * variant.factor config tickIssued := by
  cases variant with
  | plain => exact (mul_one _).symm
  | happyHour => rfl

theorem valuation_damage (variant : SaarctfVariant) (config : ScoringConfig) (fn : Roots K) :
    (variant.valuation config fn).damage = defDamage fn := by
  cases variant <;> rfl

end SaarctfVariant

/-! ## The input of a tick -/

namespace Database

/-- The submissions of a flag are valid. -/
def FlagValid (db : Database K) (config : ScoringConfig) (key : FlagKey) (tick : ℤ) : Prop :=
  ∀ f ∈ db.flagsUpTo tick, f.key = key → f.Valid db.roster config.flagsRoundsValid

instance (db : Database K) (config : ScoringConfig) (key : FlagKey) (tick : ℤ) :
    Decidable (db.FlagValid config key tick) :=
  inferInstanceAs (Decidable (∀ f ∈ db.flagsUpTo tick, _ → _))

section FlagValid

omit [Field K]

variable {db : Database K} {config : ScoringConfig} {tick : ℤ} {key : FlagKey}

theorem FlagValid.inTime (h : db.FlagValid config key tick) :
    db.InTime config.flagsRoundsValid tick key := by
  rintro f hf rfl
  have hvalid := h f hf rfl
  exact ⟨hvalid.issued, hvalid.not_expired⟩

/-- A row of this tick is among those whose validity is asked for. -/
theorem FlagValid.row {f : SubmittedFlag} (h : db.FlagValid config f.key tick)
    (hf : f ∈ db.flagsOfTick tick) : f.Valid db.roster config.flagsRoundsValid := by
  obtain ⟨hmem, htick⟩ := (db.mem_flagsOfTick).1 hf
  exact h f (mem_flagsUpTo.2 ⟨hmem, htick.le⟩) rfl

end FlagValid

/-- The entry of a flag in the input of a tick. -/
abbrev entry (db : Database K) (S : Setup K) (tick : ℤ) (f : SubmittedFlag) : StolenFlag :=
  db.stolenFlag S.config.flagsRoundsValid tick f

/-- The context in which the flags of a tick are scored. -/
abbrev context [LinearOrder K] (db : Database K) (S : Setup K) (tick : ℤ)
    (lastTickPoints : PointsDict K) : FlagContext K :=
  (db.tickInput S tick lastTickPoints).context S db.roster

omit [Field K] in
@[simp] theorem entry_flag (db : Database K) (S : Setup K) (tick : ℤ) (f : SubmittedFlag) :
    (db.entry S tick f).flag = f := rfl

@[simp] theorem context_roster [LinearOrder K] (db : Database K) (S : Setup K) (tick : ℤ)
    (lastTickPoints : PointsDict K) : (db.context S tick lastTickPoints).roster = db.roster := rfl

theorem entered_entry [LinearOrder K] {db : Database K} {S : Setup K} {tick : ℤ}
    {lastTickPoints : PointsDict K} {f : SubmittedFlag}
    (h : (f.submittedBy, f.serviceId) ∈ db.roster.pairs) :
    entered (db.context S tick lastTickPoints) (db.entry S tick f) = true :=
  decide_eq_true h

omit [Field K] in
/-- The submitter and the victim of a valid flag of a known service are pairs of the game. -/
theorem FlagValid.mem_pairs {db : Database K} {config : ScoringConfig} {tick : ℤ}
    {f : SubmittedFlag} (h : db.FlagValid config f.key tick) (hf : f ∈ db.flagsOfTick tick)
    {pair : TeamServicePair} (hpair : pair ∈ db.roster.pairs) (hs : f.serviceId = pair.2) :
    (f.submittedBy, f.serviceId) ∈ db.roster.pairs ∧ (f.teamId, f.serviceId) ∈ db.roster.pairs := by
  have hvalid := h.row hf
  rw [Roster.mem_pairs] at hpair
  rw [hs, Roster.mem_pairs, Roster.mem_pairs]
  exact ⟨⟨hvalid.submitter, hpair.2⟩, ⟨hvalid.victim, hpair.2⟩⟩

end Database

/-! ## Captures in a run -/

namespace ScoringRun

variable [LinearOrder K] {S : Setup K} {T : ℕ} (run : ScoringRun S T)

/-- The database when the last tick is scored. -/
def last : Database K := run.before T

theorem after_submittedFlags {t : ℕ} (ht : t < T) :
    (run.after (t + 1)).submittedFlags = (run.before (t + 1)).submittedFlags := by
  rw [(run.scored_of_lt ht).after_eq]
  rfl

theorem after_rankAt {t : ℕ} (ht : t < T) (tick : ℤ) (teamId : ℕ) :
    (run.after (t + 1)).rankAt tick teamId = (run.before (t + 1)).rankAt tick teamId := by
  rw [(run.scored_of_lt ht).after_eq]
  rfl

/-- The past is the same in every later database of the run. -/
theorem past_eq {t u : ℕ} (htu : t ≤ u) (hu : u < T) :
    (run.before (u + 1)).flagsUpTo (t + 1 : ℕ) = (run.before (t + 1)).flagsUpTo (t + 1 : ℕ) ∧
      ∀ tick : ℤ, tick ≤ t → ∀ teamId,
        (run.before (u + 1)).rankAt tick teamId = (run.before (t + 1)).rankAt tick teamId := by
  induction u, htu using Nat.le_induction with
  | base => exact ⟨rfl, fun _ _ _ => rfl⟩
  | succ u htu ih =>
    obtain ⟨hflags, hrank⟩ := ih (by omega)
    have hbetween := run.between (u + 1) (by omega) hu
    constructor
    · rw [← hflags, Database.flagsUpTo_of_le _ (u + 1 : ℕ) (by omega),
        hbetween.flags, Database.flagsUpTo_of_le (run.before (u + 1)) (u + 1 : ℕ) (by omega),
        Database.flagsUpTo, Database.flagsUpTo, run.after_submittedFlags (by omega)]
    · intro tick htick teamId
      rw [← hrank tick htick, hbetween.ranking tick (by omega), run.after_rankAt (by omega)]

theorem flagsUpTo_eq {t : ℕ} (ht : t < T) {tick : ℤ} (htick : tick ≤ (t + 1 : ℕ)) :
    (run.before (t + 1)).flagsUpTo tick = run.last.flagsUpTo tick := by
  obtain ⟨T, rfl⟩ : ∃ T', T = T' + 1 := ⟨T - 1, by omega⟩
  rw [Database.flagsUpTo_of_le _ _ htick, ← (run.past_eq (Nat.le_of_lt_succ ht) (by omega)).1,
    ← Database.flagsUpTo_of_le _ _ htick]
  rfl

theorem captures_eq {t : ℕ} (ht : t < T) {tick : ℤ} (htick : tick ≤ (t + 1 : ℕ)) (key : FlagKey) :
    (run.before (t + 1)).captures key tick = run.last.captures key tick := by
  rw [Database.captures, Database.captures, run.flagsUpTo_eq ht htick]

theorem rankAt_eq {t : ℕ} (ht : t < T) {tick : ℤ} (htick : tick ≤ t) (teamId : ℕ) :
    (run.before (t + 1)).rankAt tick teamId = run.last.rankAt tick teamId := by
  obtain ⟨T, rfl⟩ : ∃ T', T = T' + 1 := ⟨T - 1, by omega⟩
  exact ((run.past_eq (Nat.le_of_lt_succ ht) (by omega)).2 tick htick teamId).symm

end ScoringRun

/-! ## A small game -/

/-- Nine teams, one service, and flags that are valid for ten ticks. -/
def exampleConfig : ScoringConfig :=
  { flagsRoundsValid := 10, offFactor := 1, defFactor := 1, slaFactor := 1, happyHourTick := none }

/-- Roots of the numbers that come up in the examples. -/
def exampleRoots : Roots ℚ where
  sqrt x := if x = 4 then 2 else if x = 1 / 4 then 1 / 2 else if x = 1 / 9 then 1 / 3 else x
  pow03 x := x

/-- A flag of team `victim`, captured by team 1 in the tick of issue and by three more
teams in tick 2. -/
def exampleFlags (victim other : ℕ) (tickIssued : ℤ) : SubmittedFlags where
  rows :=
    [⟨1, 1, victim, 1, tickIssued, 0, tickIssued, 100⟩,
      ⟨2, other + 2, victim, 1, tickIssued, 0, 2, 200⟩,
      ⟨3, other + 3, victim, 1, tickIssued, 0, 2, 201⟩,
      ⟨4, other + 4, victim, 1, tickIssued, 0, 2, 202⟩]
  primaryKey := by simp
  unique := by simp [SubmittedFlag.uniqueKey]

/-- The database before the first tick: nine teams and one service. -/
def exampleDatabase (victim other : ℕ) (tickIssued : ℤ) (checkerResults : List CheckerResult) :
    Database K where
  teams := [1, 2, 3, 4, 5, 6, 7, 8, 9]
  services := [.new 1 0]
  submittedFlags := exampleFlags victim other tickIssued
  checkerResults := checkerResults
  teamPoints := []
  teamRankings := []

end Gameserver.Scoring
