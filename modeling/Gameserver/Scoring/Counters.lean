import Gameserver.Scoring.Defense

/-!
# Captured and stolen flags

`flag_captured_count` goes up with every submission.  `flag_stolen_count` goes up for the
first submission of a flag in a tick, if the self-join finds no submission in an earlier
tick; over a whole run this counts the different flags that were stolen.

* `tickDelta_stolen` — a tick adds the number of flags that are new among the stolen ones.
* `Database.stolenFlags` — the stolen flags of a team, by tick of issue and payload.
* `flagCounters` — **after every run both counters are what they should be**, for the
  submissions from tick 1 on.
-/

namespace Gameserver.Scoring

variable {K : Type*}

/-- A submission in time, by a team of the game and of a flag of a team of the game. -/
structure SubmittedFlag.Regular (roster : Roster) (flagsRoundsValid : ℤ) (f : SubmittedFlag) :
    Prop where
  issued : f.tickIssued ≤ f.tickSubmitted
  not_expired : f.tickSubmitted ≤ f.tickIssued + flagsRoundsValid
  submitter : f.submittedBy ∈ roster.teamIds
  victim : f.teamId ∈ roster.teamIds

instance (roster : Roster) (flagsRoundsValid : ℤ) (f : SubmittedFlag) :
    Decidable (f.Regular roster flagsRoundsValid) :=
  decidable_of_iff
    (f.tickIssued ≤ f.tickSubmitted ∧ f.tickSubmitted ≤ f.tickIssued + flagsRoundsValid ∧
      f.submittedBy ∈ roster.teamIds ∧ f.teamId ∈ roster.teamIds)
    ⟨fun h => ⟨h.1, h.2.1, h.2.2.1, h.2.2.2⟩, fun h => ⟨h.1, h.2, h.3, h.4⟩⟩

namespace Database

/-- The submissions of flags of a service are in time, with known teams. -/
def ServiceRegular (db : Database K) (config : ScoringConfig) (serviceId : ℕ) (tick : ℤ) : Prop :=
  ∀ f ∈ db.flagsUpTo tick, f.serviceId = serviceId → f.Regular db.roster config.flagsRoundsValid

instance (db : Database K) (config : ScoringConfig) (serviceId : ℕ) (tick : ℤ) :
    Decidable (db.ServiceRegular config serviceId tick) :=
  inferInstanceAs (Decidable (∀ f ∈ db.flagsUpTo tick, _ → _))

variable {db : Database K} {pair : TeamServicePair} {tick : ℤ}

theorem stolenKeys_mono {tick' : ℤ} (h : tick ≤ tick') :
    db.stolenKeys pair tick ⊆ db.stolenKeys pair tick' := by
  intro key hkey
  obtain ⟨f, hf, hpair, hfkey⟩ := mem_stolenKeys.1 hkey
  obtain ⟨hrow, htick⟩ := mem_flagsUpTo.1 hf
  exact mem_stolenKeys.2 ⟨f, mem_flagsUpTo.2 ⟨hrow, htick.trans h⟩, hpair, hfkey⟩

theorem captures_eq_zero_iff {f : SubmittedFlag} :
    db.captures f.key tick = 0 ↔ f.key ∉ db.stolenKeys (f.teamId, f.serviceId) tick := by
  rw [captures, List.length_eq_zero_iff, List.filter_eq_nil_iff, mem_stolenKeys]
  constructor
  · rintro hnone ⟨g, hg, -, hkey⟩
    exact hnone g hg (decide_eq_true hkey)
  · intro hnot g hg hkey
    have hkey' : g.key = f.key := of_decide_eq_true hkey
    refine hnot ⟨g, hg, ?_, hkey'⟩
    simp only [SubmittedFlag.key, Prod.mk.injEq] at hkey'
    rw [hkey'.1, hkey'.2.1]

end Database

/-! ## One tick -/

variable [Field K]

/-- What a delta adds to `flag_stolen_count` of one pair. -/
def stolenAt (key : TeamServicePair) : (TeamServicePair → Delta K) →+ ℕ :=
  ((AddMonoidHom.snd ℕ ℕ).comp ((AddMonoidHom.snd K (ℕ × ℕ)).comp
    (AddMonoidHom.snd K (K × ℕ × ℕ)))).comp (Pi.evalAddMonoidHom (fun _ => Delta K) key)

theorem stolenAt_apply (key : TeamServicePair) (δ : TeamServicePair → Delta K) :
    stolenAt key δ = (δ key).2.2.2 := rfl

theorem stolenAt_single (key key' : TeamServicePair) (x : Delta K) :
    stolenAt key (Pi.single key' x) = if key' = key then x.2.2.2 else 0 := by
  by_cases h : key' = key
  · subst h
    simp [stolenAt_apply]
  · simp [stolenAt_apply, h]

theorem stolenAt_attackerGain (S : Setup K) (ctx : FlagContext K) (flag : StolenFlag)
    (key : TeamServicePair) : stolenAt key (attackerGain S ctx flag) = 0 := by
  rw [attackerGain, stolenAt_single]
  exact ite_self 0

theorem stolenAt_corrections (S : Setup K) (ctx : FlagContext K) (flag : StolenFlag)
    (key : TeamServicePair) : stolenAt key (corrections S ctx flag) = 0 := by
  rw [corrections, map_list_sum, List.map_map]
  apply List.sum_eq_zero
  intro n hn
  obtain ⟨ps, -, rfl⟩ := List.mem_map.1 hn
  rw [Function.comp_apply, stolenAt_single]
  exact ite_self 0

namespace Database

variable [LinearOrder K] {S : Setup K} {db : Database K} {pair : TeamServicePair} {tick : ℤ}
  {lastTickPoints : PointsDict K} (hregular : db.ServiceRegular S.config pair.2 tick)
  (hpair : pair ∈ db.roster.pairs)

omit [Field K] [LinearOrder K] in
theorem ServiceRegular.of_mem {config : ScoringConfig} {serviceId : ℕ}
    (h : db.ServiceRegular config serviceId tick) {f : SubmittedFlag} (hf : f ∈ db.flagsOfTick tick)
    (hs : f.serviceId = serviceId) : f.Regular db.roster config.flagsRoundsValid := by
  obtain ⟨hrow, htick⟩ := (db.mem_flagsOfTick).1 hf
  exact h f (mem_flagsUpTo.2 ⟨hrow, htick.le⟩) hs

include hregular hpair

/-- A flag of this tick counts as stolen unless it was stolen before. -/
theorem stolenAt_onceDelta {f : SubmittedFlag} (hf : f ∈ db.flagsOfTick tick) :
    stolenAt pair (onceDelta S (db.context S tick lastTickPoints) (db.entry S tick f)) =
      if (f.key.2.1, f.key.1) = pair ∧ f.key ∉ db.stolenKeys pair (tick - 1) then 1 else 0 := by
  have hswap : (f.key.2.1, f.key.1) = (f.teamId, f.serviceId) := rfl
  rw [hswap, onceDelta, entry_flag, context_roster]
  by_cases hvictim : (f.teamId, f.serviceId) = pair
  · subst hvictim
    have htime : db.InTime S.config.flagsRoundsValid tick f.key := by
      intro g hg hkey
      have hvalid := hregular g hg (congrArg Prod.fst hkey)
      exact ⟨hvalid.issued, hvalid.not_expired⟩
    rw [if_pos hpair, map_add, stolenAt_corrections, add_zero, victimLoss, stolenAt_single,
      entry_flag, if_pos rfl]
    simp only [numPreviousSubmissions_eq_captures htime hf, captures_eq_zero_iff, true_and]
  · have hno : ¬ ((f.teamId, f.serviceId) = pair ∧ f.key ∉ db.stolenKeys pair (tick - 1)) :=
      fun h => hvictim h.1
    rw [if_neg hno]
    split
    · rw [map_add, stolenAt_corrections, add_zero, victimLoss, stolenAt_single, entry_flag,
        if_neg hvictim]
    · exact map_zero _

/-- **A tick adds the flags that were not stolen before.** -/
theorem tickDelta_stolen :
    stolenAt pair (tickDelta S db.roster (db.tickInput S tick lastTickPoints)) =
      (db.stolenKeys pair tick \ db.stolenKeys pair (tick - 1)).card := by
  set ctx := db.context S tick lastTickPoints
  set entries := ((db.flagsOfTick tick).map (db.entry S tick)).filter (entered ctx)
  have hsum : stolenAt pair (tickDelta S db.roster (db.tickInput S tick lastTickPoints)) =
      ((newFlags [] entries).map fun e => stolenAt pair (onceDelta S ctx e)).sum := by
    have hattackers : (entries.map fun e => stolenAt pair (attackerGain S ctx e)).sum = 0 := by
      apply List.sum_eq_zero
      intro n hn
      obtain ⟨e, -, rfl⟩ := List.mem_map.1 hn
      exact stolenAt_attackerGain S ctx e pair
    rw [← zero_add (List.sum _), ← hattackers, tickDelta, flagsDelta, map_add, map_list_sum,
      map_list_sum, List.map_map, List.map_map]
    rfl
  rw [hsum, sum_newFlags (h := fun key =>
    if (key.2.1, key.1) = pair ∧ key ∉ db.stolenKeys pair (tick - 1) then 1 else 0),
    ← Finset.card_filter]
  · congr 1
    ext key
    rw [Finset.mem_filter, List.mem_toFinset, Finset.mem_sdiff]
    constructor
    · rintro ⟨hkey, hvictim, hnew⟩
      obtain ⟨e, he, rfl⟩ := List.mem_map.1 hkey
      obtain ⟨f, hf, rfl⟩ := List.mem_map.1 (List.mem_filter.1 he).1
      obtain ⟨hrow, htick⟩ := (db.mem_flagsOfTick).1 hf
      exact ⟨mem_stolenKeys.2 ⟨f, mem_flagsUpTo.2 ⟨hrow, htick.le⟩, hvictim, rfl⟩, hnew⟩
    · rintro ⟨hkey, hnew⟩
      obtain ⟨f, hf, hvictim, rfl⟩ := mem_stolenKeys.1 hkey
      obtain ⟨hrow, htick⟩ := mem_flagsUpTo.1 hf
      -- a new flag is one of this tick
      have hnow : f.tickSubmitted = tick := by
        by_contra hne
        exact hnew (mem_stolenKeys.2 ⟨f, mem_flagsUpTo.2 ⟨hrow, by omega⟩, hvictim, rfl⟩)
      have hof : f ∈ db.flagsOfTick tick := (db.mem_flagsOfTick).2 ⟨hrow, hnow⟩
      have hs : f.serviceId = pair.2 := congrArg Prod.snd hvictim
      have hentered : entered ctx (db.entry S tick f) = true := by
        rw [Roster.mem_pairs] at hpair
        exact decide_eq_true (Roster.mem_pairs.2 ⟨(hregular.of_mem hof hs).submitter, hs ▸ hpair.2⟩)
      refine ⟨List.mem_map.2 ⟨db.entry S tick f, ?_, rfl⟩, hvictim, hnew⟩
      exact List.mem_filter.2 ⟨List.mem_map_of_mem hof, hentered⟩
  · intro e he
    obtain ⟨f, hf, rfl⟩ := List.mem_map.1 (List.mem_filter.1 he).1
    exact stolenAt_onceDelta hregular hpair hf

end Database

/-! ## Over a run -/

namespace ScoringRun

variable [LinearOrder K] {S : Setup K} {T : ℕ} (run : ScoringRun S T) {pair : TeamServicePair}

theorem serviceRegular_before {serviceId : ℕ}
    (hregular : run.last.ServiceRegular S.config serviceId T) {t : ℕ} (ht : t < T) :
    (run.before (t + 1)).ServiceRegular S.config serviceId (t + 1 : ℕ) := by
  intro f hf hs
  rw [run.flagsUpTo_eq ht le_rfl, Database.flagsUpTo_of_le _ T (by omega)] at hf
  rw [(run.scored_of_lt ht).roster_eq, ← run.last_roster (by omega)]
  exact hregular f (List.mem_filter.1 hf).1 hs

theorem stolenKeys_before {t : ℕ} (ht : t < T) {tick : ℤ} (htick : tick ≤ (t + 1 : ℕ)) :
    (run.before (t + 1)).stolenKeys pair tick = run.last.stolenKeys pair tick := by
  rw [Database.stolenKeys, Database.stolenKeys, run.flagsUpTo_eq ht htick]

/-- Before the first tick both counters are zero. -/
theorem counters_zero (hpair : pair ∈ run.roster.pairs) :
    ∃ p, run.pointsAt 0 pair = some p ∧ p.flagCapturedCount = 0 ∧ p.flagStolenCount = 0 :=
  ⟨_, if_pos hpair, rfl, rfl⟩

/-- A submission by the team, of the service, from tick 1 on. -/
def capturedInGame (pair : TeamServicePair) (f : SubmittedFlag) : Bool :=
  Database.capturedBy pair f && decide (1 ≤ f.tickSubmitted)

/-- A tick counts the submissions of the tick. -/
theorem captured_succ (hpair : pair ∈ run.roster.pairs) {t : ℕ} (ht : t < T) :
    (tickDelta S run.roster (run.input t) pair).2.2.1 +
        ((run.last.flagsUpTo t).filter (capturedInGame pair)).length =
      ((run.last.flagsUpTo (t + 1 : ℕ)).filter (capturedInGame pair)).length := by
  have hflags : (run.input t).flags =
      ((run.before (t + 1)).flagsOfTick (t + 1 : ℕ)).map
        ((run.before (t + 1)).entry S (t + 1 : ℕ)) :=
    rfl
  have hcaptured : (tickDelta S run.roster (run.input t) pair).2.2.1 =
      (((run.before (t + 1)).flagsOfTick (t + 1 : ℕ)).filter (capturedInGame pair)).length := by
    rw [tickDelta_captured hpair, hflags, List.filter_map, List.length_map]
    congr 1
    apply List.filter_congr
    intro f hf
    have htick : 1 ≤ f.tickSubmitted := by
      rw [((run.before (t + 1)).mem_flagsOfTick.1 hf).2]
      omega
    simp only [capturedInGame, Database.capturedBy, Function.comp_apply, htick, decide_true,
      Bool.and_true]
    exact decide_eq_decide.2 Iff.rfl
  have hsplit := (run.before (t + 1)).sum_flagsUpTo (t + 1 : ℕ) (capturedInGame pair) (fun _ => 1)
  simp only [List.map_const', List.sum_replicate_nat, mul_one] at hsplit
  rw [run.flagsUpTo_eq ht le_rfl, run.flagsUpTo_eq ht (by omega)] at hsplit
  rw [hcaptured, hsplit, Nat.add_comm, Nat.cast_add_one, add_sub_cancel_right]

/-- A tick counts the flags that are stolen in it for the first time. -/
theorem stolen_succ (hpair : pair ∈ run.roster.pairs)
    (hregular : run.last.ServiceRegular S.config pair.2 T) {t : ℕ} (ht : t < T) :
    (tickDelta S run.roster (run.input t) pair).2.2.2 =
      (run.last.stolenKeys pair (t + 1 : ℕ) \ run.last.stolenKeys pair t).card := by
  have hroster := (run.scored_of_lt ht).roster_eq
  have hdelta : stolenAt pair (tickDelta S (run.before (t + 1)).roster (run.input t)) = _ :=
    Database.tickDelta_stolen (run.serviceRegular_before hregular ht) (hroster ▸ hpair)
  rw [hroster, run.stolenKeys_before ht le_rfl, run.stolenKeys_before ht (by omega),
    Nat.cast_add_one, add_sub_cancel_right] at hdelta
  rw [← stolenAt_apply, hdelta, Nat.cast_add_one]

/-- The counters after every tick. -/
theorem counters_eq (hpair : pair ∈ run.roster.pairs)
    (hregular : run.last.ServiceRegular S.config pair.2 T) {t : ℕ} (ht : t ≤ T) :
    ∃ p, run.pointsAt t pair = some p ∧
      p.flagCapturedCount = ((run.last.flagsUpTo t).filter (capturedInGame pair)).length ∧
      p.flagStolenCount = (run.last.stolenKeys pair t \ run.last.stolenKeys pair 0).card := by
  induction t with
  | zero =>
    obtain ⟨p, hp, hcaptured, hstolen⟩ := run.counters_zero hpair
    refine ⟨p, hp, hcaptured.trans ?_, hstolen.trans ?_⟩
    · have hnone : (run.last.flagsUpTo (0 : ℕ)).filter (capturedInGame pair) = [] := by
        apply List.filter_eq_nil_iff.2
        intro f hf hgame
        have hle := (Database.mem_flagsUpTo.1 hf).2
        have hge := of_decide_eq_true (Bool.and_eq_true_iff.1 hgame).2
        omega
      rw [hnone]
      rfl
    · rw [Nat.cast_zero, Finset.sdiff_self, Finset.card_empty]
  | succ t ih =>
    obtain ⟨lr, hlr, hcaptured, hstolen⟩ := ih (by omega)
    obtain ⟨p, hp, -, -, hcaptured', hstolen'⟩ := run.pointsAt_succ_eq_some hpair ht hlr
    refine ⟨p, hp, ?_, ?_⟩
    · rw [hcaptured', hcaptured, run.captured_succ hpair ht]
    · rw [hstolen', hstolen, run.stolen_succ hpair hregular ht]
      have hold : run.last.stolenKeys pair 0 ⊆ run.last.stolenKeys pair t :=
        Database.stolenKeys_mono (by omega)
      have hnew : run.last.stolenKeys pair t ⊆ run.last.stolenKeys pair (t + 1 : ℕ) :=
        Database.stolenKeys_mono (by omega)
      rw [Finset.card_sdiff_of_subset hnew, Finset.card_sdiff_of_subset hold,
        Finset.card_sdiff_of_subset (hold.trans hnew)]
      have := Finset.card_le_card hold
      have := Finset.card_le_card hnew
      omega

end ScoringRun

/-! ## Flags as tick of issue and payload -/

/-- The flags of a team that have been stolen up to a tick: tick of issue and payload. -/
def Database.stolenFlags {K : Type*} (db : Database K) (pair : TeamServicePair) (tick : ℤ) :
    Finset (ℤ × ℕ) :=
  (((db.flagsUpTo tick).filter fun f => (f.teamId, f.serviceId) = pair).map
    fun f => (f.tickIssued, f.payload)).toFinset

omit [Field K] in
/-- Team and service are known, so tick of issue and payload are all there is to a flag. -/
theorem Database.card_stolenFlags (db : Database K) (pair : TeamServicePair) (tick : ℤ) :
    (db.stolenFlags pair tick).card = (db.stolenKeys pair tick).card := by
  have himage : db.stolenFlags pair tick = (db.stolenKeys pair tick).image fun key => key.2.2 := by
    ext flag
    simp [stolenFlags, stolenKeys, SubmittedFlag.key]
  rw [himage]
  refine Finset.card_image_of_injOn ?_
  rintro key hkey key' hkey' heq
  obtain ⟨f, -, hpair, rfl⟩ := mem_stolenKeys.1 hkey
  obtain ⟨f', -, hpair', rfl⟩ := mem_stolenKeys.1 hkey'
  simp only [SubmittedFlag.key, Prod.mk.injEq] at heq ⊢
  have hsame := hpair.trans hpair'.symm
  exact ⟨congrArg Prod.snd hsame, congrArg Prod.fst hsame, heq⟩

omit [Field K] in
theorem Database.stolenFlags_mono (db : Database K) (pair : TeamServicePair) {tick tick' : ℤ}
    (h : tick ≤ tick') : db.stolenFlags pair tick ⊆ db.stolenFlags pair tick' := by
  intro flag hflag
  simp only [stolenFlags, List.mem_toFinset, List.mem_map, List.mem_filter, mem_flagsUpTo]
    at hflag ⊢
  obtain ⟨f, ⟨⟨hrow, htick⟩, hpair⟩, hf⟩ := hflag
  exact ⟨f, ⟨⟨hrow, htick.trans h⟩, hpair⟩, hf⟩

/-- **The flag counters are conserved.**  After every run, `flag_captured_count` is the
number of submissions by the team from tick 1 on, and `flag_stolen_count` the number of
flags of the team that have been stolen, but for those stolen before tick 1. -/
theorem flagCounters [LinearOrder K] {S : Setup K} {T : ℕ} (run : ScoringRun S T)
    {pair : TeamServicePair} (hpair : pair ∈ run.roster.pairs)
    (hregular : run.last.ServiceRegular S.config pair.2 T) :
    ∃ p, run.pointsAt T pair = some p ∧
      p.flagCapturedCount =
        ((run.last.flagsUpTo T).filter (ScoringRun.capturedInGame pair)).length ∧
      p.flagStolenCount = (run.last.stolenFlags pair T \ run.last.stolenFlags pair 0).card := by
  obtain ⟨p, hp, hcaptured, hstolen⟩ := run.counters_eq hpair hregular le_rfl
  refine ⟨p, hp, hcaptured, hstolen.trans ?_⟩
  rw [Finset.card_sdiff_of_subset (Database.stolenKeys_mono (by omega)),
    Finset.card_sdiff_of_subset (run.last.stolenFlags_mono pair (by omega)),
    Database.card_stolenFlags, Database.card_stolenFlags]

/-- Team 1 has captured one flag; team 9 has lost one, which was captured in two ticks. -/
theorem flagCounters_two_ticks :
    (∃ p, (exampleRun 9 0 1).pointsAt 2 (1, 1) = some p ∧ p.flagCapturedCount = 1) ∧
      ∃ p, (exampleRun 9 0 1).pointsAt 2 (9, 1) = some p ∧ p.flagStolenCount = 1 := by
  obtain ⟨p, hp, hcaptured, -⟩ := flagCounters (exampleRun 9 0 1)
    (show ((1, 1) : TeamServicePair) ∈ _ by decide) (by decide)
  obtain ⟨q, hq, -, hstolen⟩ := flagCounters (exampleRun 9 0 1)
    (show ((9, 1) : TeamServicePair) ∈ _ by decide) (by decide)
  refine ⟨⟨p, hp, hcaptured.trans ?_⟩, q, hq, hstolen.trans ?_⟩
  · decide +kernel
  · decide +kernel

/-- **Tick 0 is not scored.**  A flag that is captured in tick 0 is not counted for its
captor, and not for its victim either, also when it is captured again later. -/
theorem flagCounters_tick_zero :
    (exampleRun 9 0 0).last.ServiceRegular exampleConfig 1 2 ∧
      ((exampleRun 9 0 0).pointsAt 2 (1, 1)).map TeamPointsLite.flagCapturedCount = some 0 ∧
      (((exampleRun 9 0 0).last.flagsUpTo 2).filter (Database.capturedBy (1, 1))).length = 1 ∧
      ((exampleRun 9 0 0).pointsAt 2 (9, 1)).map TeamPointsLite.flagStolenCount = some 0 ∧
      ((exampleRun 9 0 0).last.stolenFlags (9, 1) 2).card = 1 := by
  decide +kernel

end Gameserver.Scoring
