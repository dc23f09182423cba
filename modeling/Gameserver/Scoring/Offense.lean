import Gameserver.Scoring.Captures

/-!
# Offensive points

The points of earlier captors are corrected tick by tick.  Over a whole run the
corrections telescope: what a team has gained by a flag is the value of the flag for
the number of captures it has by now.

* `Database.offSum` — the closed form: the sum over the captures of a team.
* `Database.tickDelta_off` — a tick adds the difference of two such sums.
* `offPoints_saarctf` — **the offensive points after a run are the closed form**.
-/

namespace Gameserver.Scoring

variable {K : Type*} [Field K]

/-- The `off_points` a delta adds to one pair. -/
def offAt (key : TeamServicePair) : (TeamServicePair → Delta K) →+ K :=
  (AddMonoidHom.fst K (K × ℕ × ℕ)).comp (Pi.evalAddMonoidHom (fun _ => Delta K) key)

theorem offAt_apply (key : TeamServicePair) (δ : TeamServicePair → Delta K) :
    offAt key δ = (δ key).1 := rfl

theorem offAt_single (key key' : TeamServicePair) (x : Delta K) :
    offAt key (Pi.single key' x) = if key' = key then x.1 else 0 := by
  by_cases h : key' = key
  · subst h
    simp [offAt_apply]
  · simp [offAt_apply, h]

/-- The sum of equal amounts for different teams. -/
theorem offAt_sum_single {ids : List ℕ} (hids : ids.Nodup) (serviceId : ℕ) (x : K)
    (key : TeamServicePair) :
    offAt key ((ids.map fun ps => Pi.single (ps, serviceId) ((x, 0, 0, 0) : Delta K)).sum) =
      if serviceId = key.2 ∧ key.1 ∈ ids then x else 0 := by
  induction ids with
  | nil => simp
  | cons ps ids ih =>
    obtain ⟨hps, hids⟩ := List.nodup_cons.1 hids
    rw [List.map_cons, List.sum_cons, map_add, ih hids, offAt_single]
    obtain ⟨teamId, serviceId'⟩ := key
    by_cases hs : serviceId = serviceId'
    · by_cases ht : ps = teamId
      · subst ht
        simp [hs, hps]
      · simp [hs, ht, Ne.symm ht]
    · simp [hs]

theorem offAt_victimLoss (S : Setup K) (ctx : FlagContext K) (flag : StolenFlag)
    (key : TeamServicePair) : offAt key (victimLoss S ctx flag) = 0 := by
  rw [victimLoss, offAt_single]
  exact ite_self 0

theorem offAt_corrections (S : Setup K) (ctx : FlagContext K) {flag : StolenFlag}
    (hflag : flag.previousSubmitterIds.Nodup) (key : TeamServicePair) :
    offAt key (corrections S ctx flag) =
      if flag.flag.serviceId = key.2 ∧ key.1 ∈ correctedIds ctx flag then correction S ctx flag
      else 0 := by
  have hnodup : (correctedIds ctx flag).Nodup := by
    unfold correctedIds
    split
    · exact hflag.sublist (List.takeWhile_sublist _)
    · exact List.nodup_nil
  exact offAt_sum_single hnodup _ _ key

namespace Database

section Rows

variable {K : Type*} (db : Database K)

/-- The victim's rank in the tick before the flag was issued; without a ranking, the
number of teams. -/
def victimRank (key : FlagKey) : ℕ := (db.rankAt (key.2.2.1 - 1) key.2.1).getD db.teams.length

/-- Is the flag captured by the team, of the service? -/
def capturedBy (pair : TeamServicePair) (f : SubmittedFlag) : Bool :=
  (f.submittedBy, f.serviceId) = pair

/-- The flags a team has captured up to a tick. -/
def capturedKeys (pair : TeamServicePair) (tick : ℤ) : Finset FlagKey :=
  (((db.flagsUpTo tick).filter (capturedBy pair)).map SubmittedFlag.key).toFinset

theorem mem_capturedKeys {db : Database K} {pair : TeamServicePair} {tick : ℤ} {key : FlagKey} :
    key ∈ db.capturedKeys pair tick ↔
      ∃ f ∈ db.flagsUpTo tick, (f.submittedBy, f.serviceId) = pair ∧ f.key = key := by
  simp [capturedKeys, capturedBy, and_assoc]

/-- A sum over the captures of a team is a sum over the flags it has captured. -/
theorem sum_capturedBy {M : Type*} [AddCommMonoid M] (pair : TeamServicePair) (tick : ℤ)
    (g : FlagKey → M) :
    (((db.flagsUpTo tick).filter (capturedBy pair)).map fun f => g f.key).sum =
      ∑ key ∈ db.capturedKeys pair tick, g key := by
  have hnodup := db.keys_nodup tick pair.1 (capturedBy pair) fun f hf => by
    simp only [capturedBy, decide_eq_true_eq] at hf
    rw [← hf]
  rw [capturedKeys, List.sum_toFinset _ hnodup, List.map_map]
  rfl

theorem previousSubmitterIds_nodup (frv tick : ℤ) (f : SubmittedFlag) :
    (db.stolenFlag frv tick f).previousSubmitterIds.Nodup :=
  (db.previousSubmitterIds_perm _ tick f).nodup_iff.2
    (db.previousSubmissions_submittedBy_nodup _ tick _)

theorem mem_capturedKeys_of_le {db : Database K} {pair : TeamServicePair} {tick tick' : ℤ}
    {key : FlagKey} (h : tick ≤ tick') (hkey : key ∈ db.capturedKeys pair tick) :
    key ∈ db.capturedKeys pair tick' := by
  obtain ⟨f, hf, hby, hk⟩ := mem_capturedKeys.1 hkey
  obtain ⟨hrow, hle⟩ := mem_flagsUpTo.1 hf
  exact mem_capturedKeys.2 ⟨f, mem_flagsUpTo.2 ⟨hrow, hle.trans h⟩, hby, hk⟩

/-- The submissions of the flags that a team has captured are valid. -/
def CapturesValid (db : Database K) (config : ScoringConfig) (pair : TeamServicePair) (tick : ℤ) :
    Prop :=
  ∀ key ∈ db.capturedKeys pair tick, db.FlagValid config key tick

instance (db : Database K) (config : ScoringConfig) (pair : TeamServicePair) (tick : ℤ) :
    Decidable (db.CapturesValid config pair tick) :=
  inferInstanceAs (Decidable (∀ key ∈ db.capturedKeys pair tick, _))

/-- A team whose points are corrected for a flag has captured it in an earlier tick. -/
theorem mem_capturedKeys_of_previous {db : Database K} {frv : ℤ} {pair : TeamServicePair}
    {tick : ℤ} {f : SubmittedFlag} (hs : f.serviceId = pair.2)
    (h : pair.1 ∈ (db.stolenFlag frv tick f).previousSubmitterIds) :
    f.key ∈ db.capturedKeys pair (tick - 1) := by
  obtain ⟨g, hg, hkey, hby⟩ := exists_of_mem_previousSubmitterIds h
  have hgs : g.serviceId = f.serviceId := congrArg Prod.fst hkey
  exact mem_capturedKeys.2 ⟨g, hg, by rw [hby, hgs, hs], hkey⟩

theorem previous_of_mem_capturedKeys {db : Database K} {config : ScoringConfig}
    {pair : TeamServicePair} {tick : ℤ} {f : SubmittedFlag}
    (hvalid : db.FlagValid config f.key tick) (hf : f ∈ db.flagsOfTick tick)
    (h : f.key ∈ db.capturedKeys pair (tick - 1)) :
    f.serviceId = pair.2 ∧
      pair.1 ∈ (db.stolenFlag config.flagsRoundsValid tick f).previousSubmitterIds := by
  obtain ⟨g, hg, rfl, hkey⟩ := mem_capturedKeys.1 h
  have hgs : g.serviceId = f.serviceId := congrArg Prod.fst hkey
  exact ⟨hgs.symm, (mem_previousSubmitterIds hvalid.inTime hf).2 ⟨g, hg, hkey, rfl⟩⟩

end Rows

variable [LinearOrder K] {S : Setup K} (V : Valuation S.algorithm) (db : Database K)

/-- What a flag with `n` captures is worth to each captor. -/
def flagOff (key : FlagKey) (n : ℕ) : K :=
  db.roster.perFlag key.1 (V.value key.2.2.1 n (db.victimRank key)) * S.config.offFactor

/-- The value of all captures of a team up to a tick, for the number of captures each
flag has by then. -/
def offSum (pair : TeamServicePair) (tick : ℤ) : K :=
  (((db.flagsUpTo tick).filter (capturedBy pair)).map fun f =>
    db.flagOff V f.key (db.captures f.key tick)).sum

section Flag

variable {V db} {pair : TeamServicePair} {tick : ℤ} {lastTickPoints : PointsDict K}
  {f : SubmittedFlag} (hvalid : db.FlagValid S.config f.key tick) (hf : f ∈ db.flagsOfTick tick)

include hvalid hf

theorem context_victimRank :
    (db.context S tick lastTickPoints).victimRank f = db.victimRank f.key := by
  have hrow := hvalid.row hf
  have hissued := hrow.issued
  have hexpired := hrow.not_expired
  rw [((db.mem_flagsOfTick).1 hf).2] at hissued hexpired
  exact congrArg (Option.getD · _) (rankingForLastTicks_eq hissued hexpired f.teamId)

theorem offPoints_entry :
    db.roster.perFlag f.serviceId (S.algorithm.offPoints (db.entry S tick f)
      ((db.context S tick lastTickPoints).victimRank f)) * S.config.offFactor =
        db.flagOff V f.key (db.captures f.key tick) := by
  rw [context_victimRank hvalid hf, V.offPoints_eq, numSubmissions_eq_captures hvalid.inTime hf]
  rfl

theorem correction_entry :
    correction S (db.context S tick lastTickPoints) (db.entry S tick f) =
      db.flagOff V f.key (db.captures f.key tick)
        - db.flagOff V f.key (db.captures f.key (tick - 1)) := by
  rw [correction, V.offPointsPrevious_eq]
  show db.roster.perFlag f.serviceId (S.algorithm.offPoints (db.entry S tick f)
      ((db.context S tick lastTickPoints).victimRank f) - V.value f.tickIssued
      (db.entry S tick f).numPreviousSubmissions
      ((db.context S tick lastTickPoints).victimRank f)) * S.config.offFactor = _
  rw [Roster.perFlag_sub, sub_mul, offPoints_entry (V := V) hvalid hf,
    context_victimRank hvalid hf, numPreviousSubmissions_eq_captures hvalid.inTime hf]
  rfl

omit hf in
/-- All earlier captors of a valid flag are known, hence corrected. -/
theorem correctedIds_entry (hpair : pair ∈ db.roster.pairs) (hs : f.serviceId = pair.2) :
    correctedIds (db.context S tick lastTickPoints) (db.entry S tick f) =
      (db.entry S tick f).previousSubmitterIds := by
  unfold correctedIds
  split
  · apply List.takeWhile_eq_self_iff.2
    intro ps hps
    obtain ⟨g, hg, hkey, rfl⟩ := exists_of_mem_previousSubmitterIds hps
    obtain ⟨hmem, htick⟩ := mem_flagsUpTo.1 hg
    have hknown := (hvalid g (mem_flagsUpTo.2 ⟨hmem, by omega⟩) hkey).submitter
    rw [Roster.mem_pairs] at hpair
    exact decide_eq_true (Roster.mem_pairs.2 ⟨hknown, hs ▸ hpair.2⟩)
  · have hlength := db.stolenFlag_consistent S.config.flagsRoundsValid tick f
    rw [eq_comm, ← List.length_eq_zero_iff, hlength]
    exact Nat.eq_zero_of_not_pos ‹_›

end Flag

omit [Field K] [LinearOrder K] in
/-- Only earlier captors are corrected. -/
theorem correctedIds_subset (ctx : FlagContext K) (flag : StolenFlag) :
    correctedIds ctx flag ⊆ flag.previousSubmitterIds := by
  unfold correctedIds
  split
  · exact (List.takeWhile_sublist _).subset
  · exact List.nil_subset _

section Tick

variable {V db} {pair : TeamServicePair} {tick : ℤ} {lastTickPoints : PointsDict K}
  (hvalid : db.CapturesValid S.config pair tick)

include hvalid

theorem offAt_attackerGain {f : SubmittedFlag} (hf : f ∈ db.flagsOfTick tick) :
    offAt pair (attackerGain S (db.context S tick lastTickPoints) (db.entry S tick f)) =
      if capturedBy pair f then db.flagOff V f.key (db.captures f.key tick) else 0 := by
  rw [attackerGain, offAt_single]
  by_cases h : (f.submittedBy, f.serviceId) = pair
  · obtain ⟨hmem, htick⟩ := (db.mem_flagsOfTick).1 hf
    have hkey : f.key ∈ db.capturedKeys pair tick :=
      mem_capturedKeys.2 ⟨f, mem_flagsUpTo.2 ⟨hmem, htick.le⟩, h, rfl⟩
    simp only [capturedBy, entry_flag, h, decide_true, if_true]
    exact offPoints_entry (hvalid _ hkey) hf
  · simp [capturedBy, h]

theorem offAt_onceDelta (hpair : pair ∈ db.roster.pairs) {f : SubmittedFlag}
    (hf : f ∈ db.flagsOfTick tick) :
    offAt pair (onceDelta S (db.context S tick lastTickPoints) (db.entry S tick f)) =
      if f.key ∈ db.capturedKeys pair (tick - 1) then
        db.flagOff V f.key (db.captures f.key tick)
          - db.flagOff V f.key (db.captures f.key (tick - 1))
      else 0 := by
  have honce : offAt pair (victimLoss S (db.context S tick lastTickPoints) (db.entry S tick f)
      + corrections S (db.context S tick lastTickPoints) (db.entry S tick f)) =
        if f.serviceId = pair.2 ∧
            pair.1 ∈ correctedIds (db.context S tick lastTickPoints) (db.entry S tick f) then
          correction S (db.context S tick lastTickPoints) (db.entry S tick f)
        else 0 := by
    rw [map_add, offAt_victimLoss, offAt_corrections _ _ (db.previousSubmitterIds_nodup _ tick f),
      zero_add, entry_flag]
  by_cases hkey : f.key ∈ db.capturedKeys pair (tick - 1)
  · have hflag := hvalid _ (mem_capturedKeys_of_le (by omega) hkey)
    obtain ⟨hs, hprevious⟩ := previous_of_mem_capturedKeys hflag hf hkey
    rw [if_pos hkey, onceDelta, entry_flag, context_roster,
      if_pos (hflag.mem_pairs hf hpair hs).2, honce, correctedIds_entry hflag hpair hs,
      correction_entry (V := V) hflag hf, if_pos ⟨hs, hprevious⟩]
  · -- the rows of a flag that the team has not captured before need not be valid
    rw [if_neg hkey, onceDelta]
    split
    · rw [honce, if_neg]
      rintro ⟨hs, hmem⟩
      exact hkey (mem_capturedKeys_of_previous hs (correctedIds_subset _ _ hmem))
    · exact map_zero _

variable (lastTickPoints) in
/-- The flags submitted by the team in this tick. -/
theorem sum_attackerGain (hpair : pair ∈ db.roster.pairs) :
    ((((db.flagsOfTick tick).map (db.entry S tick)).filter
        (entered (db.context S tick lastTickPoints))).map fun e =>
          offAt pair (attackerGain S (db.context S tick lastTickPoints) e)).sum =
      (((db.flagsOfTick tick).filter (capturedBy pair)).map fun f =>
        db.flagOff V f.key (db.captures f.key tick)).sum := by
  rw [sum_map_filter, sum_map_filter, List.map_map]
  congr 1
  apply List.map_congr_left
  intro f hf
  rw [Function.comp_apply, offAt_attackerGain (V := V) hvalid hf]
  by_cases h : (f.submittedBy, f.serviceId) = pair
  · simp [entered, h, hpair]
  · simp [capturedBy, h]

variable (lastTickPoints) in
/-- The flags the team had submitted in earlier ticks. -/
theorem sum_onceDelta (hpair : pair ∈ db.roster.pairs) :
    ((newFlags [] (((db.flagsOfTick tick).map (db.entry S tick)).filter
        (entered (db.context S tick lastTickPoints)))).map fun e =>
          offAt pair (onceDelta S (db.context S tick lastTickPoints) e)).sum =
      ∑ key ∈ db.capturedKeys pair (tick - 1), (db.flagOff V key (db.captures key tick)
        - db.flagOff V key (db.captures key (tick - 1))) := by
  rw [sum_newFlags (h := fun key =>
    if key ∈ db.capturedKeys pair (tick - 1) then
      db.flagOff V key (db.captures key tick) - db.flagOff V key (db.captures key (tick - 1))
    else 0), Finset.sum_ite_mem]
  · refine Finset.sum_subset Finset.inter_subset_right ?_
    intro key hkey hnot
    -- a flag that nobody submits in this tick keeps its value
    rw [captures_of_not_submitted, sub_self]
    rintro f hf rfl
    have hflag := hvalid _ (mem_capturedKeys_of_le (by omega) hkey)
    obtain ⟨hs, -⟩ := previous_of_mem_capturedKeys hflag hf hkey
    refine hnot (Finset.mem_inter.2 ⟨?_, hkey⟩)
    rw [List.mem_toFinset, List.mem_map]
    exact ⟨db.entry S tick f, List.mem_filter.2 ⟨List.mem_map_of_mem hf,
      entered_entry (hflag.mem_pairs hf hpair hs).1⟩, rfl⟩
  · intro e he
    obtain ⟨f, hf, rfl⟩ := List.mem_map.1 (List.mem_filter.1 he).1
    exact offAt_onceDelta hvalid hpair hf

/-- **A tick adds the difference of the closed forms before and after it.** -/
theorem tickDelta_off (hpair : pair ∈ db.roster.pairs) :
    offAt pair (tickDelta S db.roster (db.tickInput S tick lastTickPoints)) =
      db.offSum V pair tick - db.offSum V pair (tick - 1) := by
  have hdelta : offAt pair (tickDelta S db.roster (db.tickInput S tick lastTickPoints)) =
      (((db.flagsOfTick tick).filter (capturedBy pair)).map fun f =>
        db.flagOff V f.key (db.captures f.key tick)).sum
      + ∑ key ∈ db.capturedKeys pair (tick - 1), (db.flagOff V key (db.captures key tick)
        - db.flagOff V key (db.captures key (tick - 1))) := by
    rw [← sum_attackerGain lastTickPoints hvalid hpair, ← sum_onceDelta lastTickPoints hvalid hpair,
      tickDelta, flagsDelta,
      map_add, map_list_sum, map_list_sum, List.map_map, List.map_map]
    rfl
  have hbefore : db.offSum V pair (tick - 1) =
      ∑ key ∈ db.capturedKeys pair (tick - 1), db.flagOff V key (db.captures key (tick - 1)) :=
    db.sum_capturedBy pair (tick - 1) fun key => db.flagOff V key (db.captures key (tick - 1))
  have hafter : db.offSum V pair tick =
      ∑ key ∈ db.capturedKeys pair (tick - 1), db.flagOff V key (db.captures key tick)
      + (((db.flagsOfTick tick).filter (capturedBy pair)).map fun f =>
        db.flagOff V f.key (db.captures f.key tick)).sum := by
    rw [offSum, sum_flagsUpTo,
      db.sum_capturedBy pair (tick - 1) fun key => db.flagOff V key (db.captures key tick)]
  rw [hdelta, hbefore, hafter, Finset.sum_sub_distrib]
  abel

end Tick

end Database

/-! ## Over a run -/

namespace ScoringRun

variable [LinearOrder K] {S : Setup K} {T : ℕ} (run : ScoringRun S T) {V : Valuation S.algorithm}
  {pair : TeamServicePair}

theorem last_roster (hT : 0 < T) : run.last.roster = run.roster := by
  obtain ⟨T, rfl⟩ : ∃ T', T = T' + 1 := ⟨T - 1, by omega⟩
  exact (run.scored_of_lt (Nat.lt_succ_self T)).roster_eq

theorem flagValid_before {key : FlagKey} (hvalid : run.last.FlagValid S.config key T) {t : ℕ}
    (ht : t < T) : (run.before (t + 1)).FlagValid S.config key (t + 1 : ℕ) := by
  intro f hf hkey
  rw [run.flagsUpTo_eq ht le_rfl, Database.flagsUpTo_of_le _ T (by omega)] at hf
  rw [(run.scored_of_lt ht).roster_eq, ← run.last_roster (by omega)]
  exact hvalid f (List.mem_filter.1 hf).1 hkey

theorem capturesValid_before (hvalid : run.last.CapturesValid S.config pair T) {t : ℕ}
    (ht : t < T) : (run.before (t + 1)).CapturesValid S.config pair (t + 1 : ℕ) := by
  intro key hkey
  refine run.flagValid_before (hvalid key ?_) ht
  rw [Database.capturedKeys, run.flagsUpTo_eq ht le_rfl] at hkey
  exact Database.mem_capturedKeys_of_le (show ((t + 1 : ℕ) : ℤ) ≤ T by omega) hkey

theorem offSum_before (hvalid : run.last.CapturesValid S.config pair T) {t : ℕ} (ht : t < T)
    {tick : ℤ} (htick : tick ≤ (t + 1 : ℕ)) :
    (run.before (t + 1)).offSum V pair tick = run.last.offSum V pair tick := by
  have hroster : (run.before (t + 1)).roster = run.last.roster := by
    rw [(run.scored_of_lt ht).roster_eq, run.last_roster (by omega)]
  have hteams : (run.before (t + 1)).teams = run.last.teams := congrArg Roster.teamIds hroster
  rw [Database.offSum, Database.offSum, run.flagsUpTo_eq ht htick]
  congr 1
  apply List.map_congr_left
  intro f hf
  obtain ⟨hmem, hby⟩ := List.mem_filter.1 hf
  simp only [Database.capturedBy, decide_eq_true_eq] at hby
  obtain ⟨hrow, hle⟩ := Database.mem_flagsUpTo.1 hmem
  have hup : f ∈ run.last.flagsUpTo T := Database.mem_flagsUpTo.2 ⟨hrow, by omega⟩
  have hissued := (hvalid f.key (Database.mem_capturedKeys.2 ⟨f, hup, hby, rfl⟩) f hup rfl).issued
  have hrank : (run.before (t + 1)).rankAt (f.tickIssued - 1) f.teamId =
      run.last.rankAt (f.tickIssued - 1) f.teamId := run.rankAt_eq ht (by omega) f.teamId
  rw [run.captures_eq ht htick, Database.flagOff, Database.flagOff, hroster, Database.victimRank,
    Database.victimRank, hteams]
  simp only [SubmittedFlag.key, hrank]

/-- Nothing is captured before the first tick. -/
theorem filter_flagsUpTo_zero (hvalid : run.last.CapturesValid S.config pair T) :
    (run.last.flagsUpTo (0 : ℕ)).filter (Database.capturedBy pair) = [] := by
  apply List.filter_eq_nil_iff.2
  intro f hf hby
  simp only [Database.capturedBy, decide_eq_true_eq] at hby
  obtain ⟨hrow, hle⟩ := Database.mem_flagsUpTo.1 hf
  have hup : f ∈ run.last.flagsUpTo T := Database.mem_flagsUpTo.2 ⟨hrow, by omega⟩
  have := (hvalid f.key (Database.mem_capturedKeys.2 ⟨f, hup, hby, rfl⟩) f hup rfl).tick_pos
  omega

/-- The offensive points after every tick are the closed form of that tick. -/
theorem offPoints_eq_offSum (hpair : pair ∈ run.roster.pairs)
    (hvalid : run.last.CapturesValid S.config pair T) {t : ℕ} (ht : t ≤ T) :
    ∃ p, run.pointsAt t pair = some p ∧ p.offPoints = run.last.offSum V pair t := by
  induction t with
  | zero =>
    obtain ⟨p, hp⟩ := Option.isSome_iff_exists.1 ((run.pointsAt_covers ht pair).2 hpair)
    refine ⟨p, hp, ?_⟩
    have hzero : p.offPoints = 0 := by
      have : run.pointsAt 0 pair = newResultsForTick run.roster 0 pair := rfl
      rw [this, newResultsForTick, if_pos hpair] at hp
      rw [← Option.some.inj hp]
    rw [hzero, Database.offSum, run.filter_flagsUpTo_zero hvalid]
    rfl
  | succ t ih =>
    obtain ⟨lr, hlr, hoff⟩ := ih (by omega)
    obtain ⟨p, hp, hstep, -⟩ := run.pointsAt_succ_eq_some hpair ht hlr
    refine ⟨p, hp, ?_⟩
    have hscored := run.scored_of_lt ht
    have hdelta : offAt pair (tickDelta S (run.before (t + 1)).roster (run.input t)) = _ :=
      Database.tickDelta_off (V := V) (run.capturesValid_before hvalid ht)
        (hscored.roster_eq ▸ hpair)
    rw [hscored.roster_eq, run.offSum_before hvalid ht le_rfl,
      run.offSum_before hvalid ht (by omega)] at hdelta
    rw [hstep, hoff, ← offAt_apply, hdelta]
    simp

end ScoringRun

/-! ## The algorithms of `saarctf.py` -/

section Saarctf

variable [LinearOrder K] (variant : SaarctfVariant) (config : ScoringConfig) (fn : Roots K)

/-- What a capture is worth after tick `T`: the value of the flag for all its captures up
to `T`. -/
def captureValue (db : Database K) (service : Service) (T : ℤ) (f : SubmittedFlag) : K :=
  flagPoints fn (db.captures f.key T) (db.victimRank f.key) * variant.factor config f.tickIssued
    / service.flagsPerTick * config.offFactor

/-- The offensive points of a team as they should be: the sum over its captures. -/
def expectedOffPoints (db : Database K) (service : Service) (teamId serviceId : ℕ) (T : ℤ) : K :=
  (((db.flagsUpTo T).filter (Database.capturedBy (teamId, serviceId))).map
    (captureValue variant config fn db service T)).sum

/-- **Offensive points do not depend on the path by which submissions arrive.**  After
every run, the offensive points of a team in a service are the sum of the values of its
captures, each for the number of captures the flag has by now. -/
theorem offPoints_saarctf {T : ℕ} (run : ScoringRun (variant.setup config fn) T)
    {teamId serviceId : ℕ} {service : Service} (hteam : teamId ∈ run.roster.teamIds)
    (hservice : run.roster.serviceById serviceId = some service)
    (hvalid : run.last.CapturesValid config (teamId, serviceId) T) :
    ∃ p, run.pointsAt T (teamId, serviceId) = some p ∧
      p.offPoints = expectedOffPoints variant config fn run.last service teamId serviceId T := by
  have hpair := (Roster.mem_pairs_of_serviceById hservice).2 hteam
  obtain ⟨p, hp, hoff⟩ :=
    run.offPoints_eq_offSum (V := variant.valuation config fn) hpair hvalid le_rfl
  refine ⟨p, hp, hoff.trans ?_⟩
  rcases Nat.eq_zero_or_pos T with rfl | hT
  · have hnone : (run.last.flagsUpTo (0 : ℕ)).filter
        (Database.capturedBy (teamId, serviceId)) = [] := run.filter_flagsUpTo_zero hvalid
    rw [Database.offSum, expectedOffPoints, hnone]
    rfl
  · refine congrArg List.sum (List.map_congr_left fun f hf => ?_)
    have hby := (List.mem_filter.1 hf).2
    simp only [Database.capturedBy, decide_eq_true_eq, Prod.mk.injEq] at hby
    have hflag : run.last.roster.serviceById f.key.1 = some service := by
      rw [run.last_roster hT, ← hservice, ← hby.2]
      rfl
    rw [Database.flagOff, Roster.perFlag_of_serviceById hflag, variant.valuation_value]
    rfl

end Saarctf

/-! ## Examples -/

/-- Two ticks are scored. -/
def exampleRun (victim other : ℕ) (tickIssued : ℤ) :
    ScoringRun (SaarctfVariant.plain.setup exampleConfig exampleRoots) 2 :=
  (exampleDatabase victim other tickIssued []).scoringRun _ 2

/-- Team 1 ends with `1 + sqrt (1/4) + sqrt (1/9)`. -/
theorem offPoints_saarctf_corrected :
    ∃ p, (exampleRun 9 0 1).pointsAt 2 (1, 1) = some p ∧ p.offPoints = 1 + 1 / 2 + 1 / 3 := by
  obtain ⟨p, hp, hoff⟩ := offPoints_saarctf .plain exampleConfig exampleRoots (exampleRun 9 0 1)
    (show 1 ∈ _ by decide) (show Roster.serviceById _ 1 = some _ from rfl) (by decide)
  refine ⟨p, hp, hoff.trans ?_⟩
  decide +kernel

/-- The offensive points of team 1 in an example are the sum over its captures. -/
def exampleOffPoints (run : ScoringRun (SaarctfVariant.plain.setup exampleConfig exampleRoots) 2) :
    Prop :=
  (run.pointsAt 2 (1, 1)).map TeamPointsLite.offPoints =
    some (expectedOffPoints .plain exampleConfig exampleRoots run.last (.new 1 0) 1 1 2)

instance (run : ScoringRun (SaarctfVariant.plain.setup exampleConfig exampleRoots) 2) :
    Decidable (exampleOffPoints run) := inferInstanceAs (Decidable (_ = _))

/-- The flags of the example are submitted in time. -/
def exampleInTime (victim other : ℕ) (tickIssued : ℤ) : Prop :=
  ∀ f ∈ (exampleFlags victim other tickIssued).rows,
    f.tickIssued ≤ f.tickSubmitted ∧ f.tickSubmitted ≤ f.tickIssued + exampleConfig.flagsRoundsValid

instance (victim other : ℕ) (tickIssued : ℤ) : Decidable (exampleInTime victim other tickIssued) :=
  inferInstanceAs (Decidable (∀ f ∈ (exampleFlags victim other tickIssued).rows, _ ∧ _))

/-- With a victim that is not a team of the game, with submitters that are not, or with a
flag captured before the first tick, the corrections do not telescope. -/
theorem not_exampleOffPoints :
    (exampleInTime 10 0 1 ∧ ¬ exampleOffPoints (exampleRun 10 0 1)) ∧
      (exampleInTime 9 20 1 ∧ ¬ exampleOffPoints (exampleRun 9 20 1)) ∧
      (exampleInTime 9 0 0 ∧ ¬ exampleOffPoints (exampleRun 9 0 0)) := by
  decide +kernel

end Gameserver.Scoring
