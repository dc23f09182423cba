import Gameserver.Lib.Recomputed
import Gameserver.Scoring.Offense

/-!
# Defensive points

What a victim has lost by a flag in earlier ticks is not stored: `def_points_previous`
recomputes it from the number of active teams of the current tick.

* `ScoringRun.deducted` — what the code deducts for one flag, tick by tick.
* `ScoringRun.defPoints_eq` — the defensive points of a team are minus the deductions
  for its flags, whatever the rows are.
* `ScoringRun.Steady` — the power of the captures per active team does not change from one
  capture to the next.
* `defPoints_telescope_iff` — **the deductions for a flag with valid rows telescope if and
  only if they are steady**, or its victim had no SLA points when it was issued.
-/

namespace Gameserver.Scoring

variable {K : Type*} [Field K]

/-- The `def_points` a delta adds to one pair. -/
def defAt (key : TeamServicePair) : (TeamServicePair → Delta K) →+ K :=
  ((AddMonoidHom.fst K (ℕ × ℕ)).comp (AddMonoidHom.snd K (K × ℕ × ℕ))).comp
    (Pi.evalAddMonoidHom (fun _ => Delta K) key)

theorem defAt_apply (key : TeamServicePair) (δ : TeamServicePair → Delta K) :
    defAt key δ = (δ key).2.1 := rfl

theorem defAt_single (key key' : TeamServicePair) (x : Delta K) :
    defAt key (Pi.single key' x) = if key' = key then x.2.1 else 0 := by
  by_cases h : key' = key
  · subst h
    simp [defAt_apply]
  · simp [defAt_apply, h]

theorem defAt_attackerGain (S : Setup K) (ctx : FlagContext K) (flag : StolenFlag)
    (key : TeamServicePair) : defAt key (attackerGain S ctx flag) = 0 := by
  rw [attackerGain, defAt_single]
  exact ite_self 0

theorem defAt_corrections (S : Setup K) (ctx : FlagContext K) (flag : StolenFlag)
    (key : TeamServicePair) : defAt key (corrections S ctx flag) = 0 := by
  rw [corrections, map_list_sum, List.map_map]
  apply List.sum_eq_zero
  intro x hx
  obtain ⟨ps, -, rfl⟩ := List.mem_map.1 hx
  rw [Function.comp_apply, defAt_single]
  exact ite_self 0

theorem defAt_victimLoss (S : Setup K) (ctx : FlagContext K) (flag : StolenFlag)
    (key : TeamServicePair) :
    defAt key (victimLoss S ctx flag) =
      if (flag.flag.teamId, flag.flag.serviceId) = key then
        -(ctx.roster.perFlag key.2 (newDamage S ctx flag) * S.config.defFactor) else 0 := by
  rw [victimLoss, defAt_single]
  by_cases h : (flag.flag.teamId, flag.flag.serviceId) = key
  · rw [if_pos h, if_pos h, ← h]
  · rw [if_neg h, if_neg h]

theorem Roster.perFlag_sum (roster : Roster) (id : ℕ) (l : List K) :
    roster.perFlag id l.sum = (l.map (roster.perFlag id)).sum := by
  induction l with
  | nil => simp
  | cons x l ih => rw [List.sum_cons, Roster.perFlag_add, ih, List.map_cons, List.sum_cons]

/-- A sum over the elements with a key in a set, key by key. -/
theorem sum_map_key {α κ M : Type*} [DecidableEq κ] [AddCommMonoid M] (k : α → κ) (s : Finset κ)
    (g : α → M) (l : List α) :
    (l.map fun a => if k a ∈ s then g a else 0).sum =
      ∑ key ∈ s, ((l.filter fun a => k a = key).map g).sum := by
  induction l with
  | nil => simp
  | cons a l ih =>
    have hcons : ∀ key, (((a :: l).filter fun a => k a = key).map g).sum =
        (if k a = key then g a else 0) + ((l.filter fun a => k a = key).map g).sum := by
      intro key
      by_cases h : k a = key <;> simp [h]
    simp only [hcons, Finset.sum_add_distrib, Finset.sum_ite_eq, List.map_cons, List.sum_cons, ih]

namespace Database

variable [LinearOrder K] (S : Setup K) (db : Database K)

/-- The flags of a tick for which the victim is charged, each once. -/
def chargedFlags (tick : ℤ) (lastTickPoints : PointsDict K) : List StolenFlag :=
  newFlags [] (((db.flagsOfTick tick).map (db.entry S tick)).filter
    (entered (db.context S tick lastTickPoints)))

/-- What is deducted for a flag in a tick. -/
def deduction (tick : ℤ) (lastTickPoints : PointsDict K) (key : FlagKey) : K :=
  (((db.chargedFlags S tick lastTickPoints).filter fun e => e.flag.key = key).map
    (newDamage S (db.context S tick lastTickPoints))).sum

/-- The flags of a team that have been captured up to a tick. -/
def stolenKeys (pair : TeamServicePair) (tick : ℤ) : Finset FlagKey :=
  (((db.flagsUpTo tick).filter fun f => (f.teamId, f.serviceId) = pair).map
    SubmittedFlag.key).toFinset

variable {S db} {pair : TeamServicePair} {tick : ℤ} {lastTickPoints : PointsDict K}

omit [Field K] [LinearOrder K] in
theorem mem_stolenKeys {key : FlagKey} :
    key ∈ db.stolenKeys pair tick ↔
      ∃ f ∈ db.flagsUpTo tick, (f.teamId, f.serviceId) = pair ∧ f.key = key := by
  simp [stolenKeys, and_assoc]

theorem mem_chargedFlags {e : StolenFlag} (he : e ∈ db.chargedFlags S tick lastTickPoints) :
    ∃ f ∈ db.flagsOfTick tick, db.entry S tick f = e :=
  List.mem_map.1 (List.mem_filter.1 (newFlags_subset he)).1

/-- **A tick deducts once for every flag of the team that is captured in it**, whatever the
other rows are. -/
theorem tickDelta_def (hpair : pair ∈ db.roster.pairs) {stolen : Finset FlagKey}
    (hstolen : ∀ f ∈ db.flagsOfTick tick, f.key ∈ stolen ↔ (f.teamId, f.serviceId) = pair) :
    defAt pair (tickDelta S db.roster (db.tickInput S tick lastTickPoints)) =
      ∑ key ∈ stolen, -(db.roster.perFlag pair.2 (db.deduction S tick lastTickPoints key)
        * S.config.defFactor) := by
  have hgain : ((((db.flagsOfTick tick).map (db.entry S tick)).filter
      (entered (db.context S tick lastTickPoints))).map fun e =>
        defAt pair (attackerGain S (db.context S tick lastTickPoints) e)).sum = 0 :=
    List.sum_eq_zero fun x hx => by
      obtain ⟨e, -, rfl⟩ := List.mem_map.1 hx
      exact defAt_attackerGain _ _ _ _
  have honce : ∀ e ∈ db.chargedFlags S tick lastTickPoints,
      defAt pair (onceDelta S (db.context S tick lastTickPoints) e) =
        if e.flag.key ∈ stolen then -(db.roster.perFlag pair.2
          (newDamage S (db.context S tick lastTickPoints) e) * S.config.defFactor) else 0 := by
    intro e he
    obtain ⟨f, hf, rfl⟩ := mem_chargedFlags he
    rw [onceDelta, entry_flag, context_roster]
    by_cases hvictim : (f.teamId, f.serviceId) = pair
    · rw [if_pos (hvictim ▸ hpair), if_pos ((hstolen f hf).2 hvictim), map_add, defAt_corrections,
        defAt_victimLoss, entry_flag, if_pos hvictim, add_zero, context_roster]
    · rw [if_neg (mt (hstolen f hf).1 hvictim)]
      split
      · rw [map_add, defAt_corrections, defAt_victimLoss, entry_flag, if_neg hvictim, add_zero]
      · exact map_zero _
  calc defAt pair (tickDelta S db.roster (db.tickInput S tick lastTickPoints))
      = ((db.chargedFlags S tick lastTickPoints).map fun e =>
          defAt pair (onceDelta S (db.context S tick lastTickPoints) e)).sum := by
        rw [← zero_add (List.sum _), ← hgain, tickDelta, flagsDelta, map_add, map_list_sum,
          map_list_sum, List.map_map, List.map_map]
        rfl
    _ = _ := by
        rw [List.map_congr_left honce, sum_map_key]
        refine Finset.sum_congr rfl fun key _ => ?_
        rw [deduction, Roster.perFlag_sum, List.map_map, ← List.sum_map_mul_right, List.sum_neg,
          List.map_map]
        rfl

/-! ### A valid flag -/

/-- The SLA points of the victim that a tick reads. -/
abbrev slaRead (db : Database K) (S : Setup K) (tick : ℤ) (lastTickPoints : PointsDict K)
    (key : FlagKey) : K :=
  ((db.context S tick lastTickPoints).slaDeltaFor (key.1, key.2.2.1) key.2.1).getD 0

variable (V : Valuation S.algorithm)

theorem newDamage_entry {f : SubmittedFlag}
    (htime : db.InTime S.config.flagsRoundsValid tick f.key) (hf : f ∈ db.flagsOfTick tick) :
    newDamage S (db.context S tick lastTickPoints) (db.entry S tick f) =
      V.damage (db.captures f.key tick) (db.context S tick lastTickPoints).numActiveTeams
          (db.slaRead S tick lastTickPoints f.key)
        - V.damage (db.captures f.key (tick - 1))
          (db.context S tick lastTickPoints).numActiveTeams
          (db.slaRead S tick lastTickPoints f.key) := by
  rw [newDamage, V.defPoints_eq, V.defPointsPrevious_eq, numSubmissions_eq_captures htime hf,
    numPreviousSubmissions_eq_captures htime hf]
  rfl

/-- What is deducted for a valid flag: the damage of all its captures, less that of the
captures of earlier ticks. -/
theorem deduction_of_valid {key : FlagKey} (hvalid : db.FlagValid S.config key tick)
    (hpair : (key.2.1, key.1) ∈ db.roster.pairs) :
    db.deduction S tick lastTickPoints key =
      V.damage (db.captures key tick) (db.context S tick lastTickPoints).numActiveTeams
          (db.slaRead S tick lastTickPoints key)
        - V.damage (db.captures key (tick - 1)) (db.context S tick lastTickPoints).numActiveTeams
          (db.slaRead S tick lastTickPoints key) := by
  rw [deduction, sum_map_filter, chargedFlags, sum_newFlags (h := fun key' =>
    if key' = key then
      V.damage (db.captures key tick) (db.context S tick lastTickPoints).numActiveTeams
          (db.slaRead S tick lastTickPoints key)
        - V.damage (db.captures key (tick - 1)) (db.context S tick lastTickPoints).numActiveTeams
          (db.slaRead S tick lastTickPoints key)
    else 0), Finset.sum_ite_eq']
  · rw [ite_eq_left_iff]
    intro hnot
    rw [captures_of_not_submitted, sub_self]
    rintro f hf rfl
    refine hnot ?_
    rw [List.mem_toFinset, List.mem_map]
    exact ⟨db.entry S tick f, List.mem_filter.2 ⟨List.mem_map_of_mem hf,
      entered_entry (hvalid.mem_pairs hf hpair rfl).1⟩, rfl⟩
  · intro e he
    obtain ⟨f, hf, rfl⟩ := List.mem_map.1 (List.mem_filter.1 he).1
    by_cases hkey : f.key = key
    · subst hkey
      simp only [entry_flag, decide_true, if_true]
      exact newDamage_entry V hvalid.inTime hf
    · simp [hkey]

end Database

/-! ## Over a run -/

namespace ScoringRun

variable [LinearOrder K] {S : Setup K} {T : ℕ} (run : ScoringRun S T)

/-- The number of active teams in tick `t`. -/
def numActiveTeams (t : ℕ) : ℕ :=
  Scoring.numActiveTeams S run.roster t ((run.before t).getCheckerResults t)

/-- The SLA points of the victim in the tick in which the flag was issued. -/
def victimSlaWhenIssued (key : FlagKey) : K :=
  ((run.after T).slaDeltaFor (key.1, key.2.2.1) key.2.1).getD 0

/-- Results that have been stored stay. -/
theorem pointsRows_eq {t u : ℕ} (htu : t ≤ u) (hu : u < T) {tick : ℤ} (htick : tick ≤ (t + 1 : ℕ)) :
    (run.after (u + 1)).pointsRows tick = (run.after (t + 1)).pointsRows tick := by
  induction u, htu using Nat.le_induction with
  | base => rfl
  | succ u htu ih =>
    rw [← ih (by omega), (run.scored_of_lt hu).after_eq,
      Database.pointsRows_scored_ne (by push_cast; omega),
      (run.between (u + 1) (by omega) hu).points tick (by push_cast; omega)]

theorem pointsDict_last {t : ℕ} (ht : t < T) {tick : ℤ} (htick : tick ≤ (t + 1 : ℕ)) :
    (run.after T).pointsDict tick = (run.after (t + 1)).pointsDict tick := by
  obtain ⟨T, rfl⟩ : ∃ T', T = T' + 1 := ⟨T - 1, by omega⟩
  funext key
  rw [Database.pointsDict, run.pointsRows_eq (Nat.le_of_lt_succ ht) (by omega) htick,
    Database.pointsDict]

/-- Every tick sees the same SLA points of the tick in which a flag was issued. -/
theorem slaDeltaForTick_eq {t : ℕ} (ht : t < T) {serviceId teamId : ℕ} {tickIssued : ℤ}
    (hpair : (teamId, serviceId) ∈ run.roster.pairs) (hissued : tickIssued ≤ (t + 1 : ℕ)) :
    slaDeltaForTick S run.roster (run.input t) (serviceId, tickIssued) teamId =
      (run.after T).slaDeltaFor (serviceId, tickIssued) teamId := by
  have hscored := run.scored_of_lt ht
  obtain ⟨service, hservice⟩ := Roster.serviceById_of_mem_pairs hpair
  rw [Database.slaDeltaFor, run.pointsDict_last ht hissued]
  by_cases hnow : tickIssued = (t + 1 : ℕ)
  · subst hnow
    obtain ⟨lr, hlr⟩ := Option.isSome_iff_exists.1 ((hscored.covers _).2 hpair)
    have hinput : (run.input t).tick = (t + 1 : ℕ) := rfl
    have hpoints : (run.after (t + 1)).pointsDict (t + 1 : ℕ) =
        tickResults S run.roster (run.input t) := run.pointsAt_succ ht
    have hlast : (run.input t).lastTickPoints (teamId, serviceId) = some lr := hlr
    rw [slaDeltaForTick, hpoints, if_pos ⟨hinput.symm, by simp [hservice]⟩]
    simp [newResultsForTick, hpair, tickResults, hlast]
  · have hne : tickIssued ≠ (run.input t).tick := hnow
    rw [slaDeltaForTick, if_neg fun h => hne h.1, Database.pointsDict, hscored.after_eq,
      Database.pointsRows_scored_ne hnow]
    rfl

/-- What has been deducted for a flag up to tick `t`. -/
def deducted (key : FlagKey) (t : ℕ) : K :=
  ∑ u ∈ Finset.range t, (run.before (u + 1)).deduction S (u + 1 : ℕ) (run.pointsAt u) key

variable {pair : TeamServicePair}

theorem flagsOfTick_subset {t : ℕ} (ht : t < T) {f : SubmittedFlag}
    (hf : f ∈ (run.before (t + 1)).flagsOfTick (t + 1 : ℕ)) :
    f ∈ run.last.flagsUpTo T ∧ f.tickSubmitted = (t + 1 : ℕ) := by
  obtain ⟨hmem, htick⟩ := (Database.mem_flagsOfTick _).1 hf
  have hup : f ∈ (run.before (t + 1)).flagsUpTo (t + 1 : ℕ) :=
    Database.mem_flagsUpTo.2 ⟨hmem, htick.le⟩
  rw [run.flagsUpTo_eq ht le_rfl, Database.flagsUpTo_of_le _ T (by omega)] at hup
  exact ⟨(List.mem_filter.1 hup).1, htick⟩

/-- **The defensive points of a team are minus the deductions for its flags.** -/
theorem defPoints_eq (hpair : pair ∈ run.roster.pairs) {t : ℕ} (ht : t ≤ T) :
    ∃ p, run.pointsAt t pair = some p ∧
      p.defPoints = ∑ key ∈ run.last.stolenKeys pair T,
        -(run.roster.perFlag pair.2 (run.deducted key t) * S.config.defFactor) := by
  induction t with
  | zero =>
    refine ⟨_, if_pos hpair, ?_⟩
    simp [deducted]
  | succ t ih =>
    obtain ⟨lr, hlr, hdef⟩ := ih (by omega)
    have hscored := run.scored_of_lt ht
    have hstolen : ∀ f ∈ (run.before (t + 1)).flagsOfTick (t + 1 : ℕ),
        f.key ∈ run.last.stolenKeys pair T ↔ (f.teamId, f.serviceId) = pair := by
      intro f hf
      rw [Database.mem_stolenKeys]
      constructor
      · rintro ⟨g, -, rfl, hkey⟩
        simp only [SubmittedFlag.key, Prod.mk.injEq] at hkey
        rw [hkey.1, hkey.2.1]
      · exact fun h => ⟨f, (run.flagsOfTick_subset ht hf).1, h, rfl⟩
    have hdelta : defAt pair (tickDelta S (run.before (t + 1)).roster (run.input t)) = _ :=
      Database.tickDelta_def (hscored.roster_eq ▸ hpair) hstolen
    rw [hscored.roster_eq] at hdelta
    obtain ⟨p, hp, -, hstep, -⟩ := run.pointsAt_succ_eq_some hpair ht hlr
    refine ⟨p, hp, ?_⟩
    rw [hstep, hdef, ← defAt_apply, hdelta, ← Finset.sum_add_distrib]
    refine Finset.sum_congr rfl ?_
    intro key _
    rw [deducted, deducted, Finset.sum_range_succ, Roster.perFlag_add, add_mul, neg_add, add_comm]

/-! ## Do the deductions telescope? -/

variable (V : Valuation S.algorithm)

/-- `def_points` of a flag in tick `t`. -/
def defPoints (key : FlagKey) (t : ℕ) : K :=
  V.damage (run.last.captures key t) (run.numActiveTeams t) (run.victimSlaWhenIssued key)

/-- `def_points_previous` of a flag in tick `t + 1`. -/
def defPointsPrevious (key : FlagKey) (t : ℕ) : K :=
  V.damage (run.last.captures key t) (run.numActiveTeams (t + 1)) (run.victimSlaWhenIssued key)

/-- Is the flag captured in tick `t + 1`? -/
def CapturedIn (key : FlagKey) (t : ℕ) : Prop :=
  Recomputed.Grows (fun t => run.last.captures key t) t

instance (key : FlagKey) (t : ℕ) : Decidable (run.CapturedIn key t) :=
  inferInstanceAs (Decidable (Recomputed.Grows _ t))

/-- The deductions for a flag telescope. -/
structure Telescopes (key : FlagKey) : Prop where
  /-- When the flag is captured again, `def_points_previous` is what has been deducted
  for it in the ticks before. -/
  previous : ∀ t < T, run.CapturedIn key t → 0 < run.last.captures key t →
    run.defPointsPrevious V key t = run.deducted key t
  /-- What has been deducted in the end is `def_points` of the last tick in which the flag
  was captured. -/
  total : ∀ t < T, run.CapturedIn key t → (∀ u < T, t < u → ¬ run.CapturedIn key u) →
    run.deducted key T = run.defPoints V key (t + 1)

/-- The number of active teams is the same in all ticks in which the flag is captured. -/
def SameActiveTeams (key : FlagKey) : Prop :=
  ∀ u < T, ∀ v < T, run.CapturedIn key u → run.CapturedIn key v →
    run.numActiveTeams (u + 1) = run.numActiveTeams (v + 1)

/-- The ticks `u + 1` and `v + 1` are consecutive captures of the flag. -/
abbrev CapturedNext (key : FlagKey) (u v : ℕ) : Prop :=
  Recomputed.Consecutive (fun t => run.last.captures key t) u v

variable {V} {key : FlagKey}

theorem captures_mono (key : FlagKey) : Monotone fun t : ℕ => run.last.captures key t :=
  monotone_nat_of_le_succ fun t => by
    have h := run.last.captures_eq_add key (t + 1 : ℕ)
    rw [show ((t + 1 : ℕ) : ℤ) - 1 = (t : ℕ) by omega] at h
    omega

section Valid

variable (hvalid : run.last.FlagValid S.config key T)

include hvalid

theorem captures_zero : run.last.captures key (0 : ℕ) = 0 := by
  rw [Database.captures, List.length_eq_zero_iff, List.filter_eq_nil_iff]
  intro f hf hkey
  simp only [decide_eq_true_eq] at hkey
  obtain ⟨hrow, hle⟩ := Database.mem_flagsUpTo.1 hf
  have := (hvalid f (Database.mem_flagsUpTo.2 ⟨hrow, by omega⟩) hkey).tick_pos
  omega

/-- The deduction of one tick of the run, for a valid flag. -/
theorem deduction_eq (hpair : (key.2.1, key.1) ∈ run.roster.pairs) {t : ℕ} (ht : t < T) :
    (run.before (t + 1)).deduction S (t + 1 : ℕ) (run.pointsAt t) key =
      Recomputed.charge (fun n active => V.damage n active (run.victimSlaWhenIssued key))
        (fun t => run.last.captures key t) run.numActiveTeams t := by
  have hscored := run.scored_of_lt ht
  have hprev : ((t + 1 : ℕ) : ℤ) - 1 = (t : ℕ) := by omega
  rw [Database.deduction_of_valid V (run.flagValid_before hvalid ht) (hscored.roster_eq ▸ hpair),
    run.captures_eq ht le_rfl, run.captures_eq ht (by omega), hprev, Recomputed.charge]
  by_cases hnow : ∃ f ∈ (run.before (t + 1)).flagsOfTick (t + 1 : ℕ), f.key = key
  · obtain ⟨f, hf, rfl⟩ := hnow
    obtain ⟨hmem, htick⟩ := run.flagsOfTick_subset ht hf
    have hissued := (hvalid f hmem rfl).issued
    have hsla : (run.before (t + 1)).slaRead S (t + 1 : ℕ) (run.pointsAt t) f.key =
        run.victimSlaWhenIssued f.key := by
      have hroster := hscored.roster_eq
      rw [victimSlaWhenIssued, ← run.slaDeltaForTick_eq ht hpair (htick ▸ hissued), ← hroster]
      rfl
    have hactive : ((run.before (t + 1)).context S (t + 1 : ℕ) (run.pointsAt t)).numActiveTeams =
        run.numActiveTeams (t + 1) := by
      rw [numActiveTeams, ← hscored.roster_eq]
      rfl
    rw [hsla, hactive]
  · have hcaptures : (run.before (t + 1)).captures key (t + 1 : ℕ) = _ :=
      Database.captures_of_not_submitted fun f hf heq => hnow ⟨f, hf, heq⟩
    rw [run.captures_eq ht le_rfl, run.captures_eq ht (by omega), hprev] at hcaptures
    rw [hcaptures, sub_self, sub_self]

theorem deducted_eq_charged (hpair : (key.2.1, key.1) ∈ run.roster.pairs) {t : ℕ} (ht : t ≤ T) :
    run.deducted key t =
      Recomputed.charged (fun n active => V.damage n active (run.victimSlaWhenIssued key))
        (fun t => run.last.captures key t) run.numActiveTeams t :=
  Finset.sum_congr rfl fun _ hu =>
    run.deduction_eq hvalid hpair (lt_of_lt_of_le (Finset.mem_range.1 hu) ht)

/-- Telescoping, for any damage. -/
theorem telescopes_iff (hpair : (key.2.1, key.1) ∈ run.roster.pairs) {cost : ℕ → ℕ → K}
    (hcost : ∀ n active, cost n active = V.damage n active (run.victimSlaWhenIssued key)) :
    run.Telescopes V key ↔
      (∀ v < T, ∀ u, run.CapturedNext key u v →
        cost (run.last.captures key v) (run.numActiveTeams (v + 1)) =
          cost (run.last.captures key v) (run.numActiveTeams (u + 1))
          - Recomputed.uncharged cost (fun t => run.last.captures key t) run.numActiveTeams u) ∧
      ∀ t < T, run.CapturedIn key t → (∀ u < T, t < u → ¬ run.CapturedIn key u) →
        Recomputed.uncharged cost (fun t => run.last.captures key t) run.numActiveTeams t = 0 := by
  have hcharged {t : ℕ} (ht : t ≤ T) : run.deducted key t = Recomputed.charged cost
      (fun t : ℕ => run.last.captures key t) run.numActiveTeams t := by
    rw [show cost = _ from funext₂ hcost]
    exact run.deducted_eq_charged hvalid hpair ht
  have hiff : Recomputed.IsRecomputed cost (fun t : ℕ => run.last.captures key t)
      run.numActiveTeams T ↔ _ :=
    Recomputed.recomputed_iff (run.captures_zero hvalid) (run.captures_mono key) T
  rw [← hiff]
  constructor
  · intro h
    have hre : Recomputed.IsRecomputed cost (fun t : ℕ => run.last.captures key t)
        run.numActiveTeams T := fun t ht hgrows hpos =>
      ((hcost _ _).trans (h.previous t ht hgrows hpos)).trans (hcharged ht.le)
    refine ⟨hre, fun t ht hgrows hlast => ?_⟩
    have htotal := h.total t ht hgrows hlast
    rw [hcharged le_rfl, Recomputed.charged_last (run.captures_mono key) hre ht hgrows hlast,
      defPoints, ← hcost, sub_eq_self] at htotal
    exact htotal
  · rintro ⟨hre, hlast⟩
    refine ⟨fun t ht hgrows hpos => ?_, fun t ht hgrows hnone => ?_⟩
    · rw [hcharged ht.le, defPointsPrevious, ← hcost]
      exact hre t ht hgrows hpos
    · rw [hcharged le_rfl, Recomputed.charged_last (run.captures_mono key) hre ht hgrows hnone,
        hlast t ht hgrows hnone, sub_zero, defPoints, ← hcost]

end Valid

end ScoringRun

/-! ## The algorithms of `saarctf.py` -/

section Saarctf

variable [LinearOrder K]

/-- The laws of the power `0.3`: it is 0 at 0, and different numbers that are not negative have
different powers. -/
structure Roots.PowLaws (fn : Roots K) : Prop where
  zero : fn.pow03 0 = 0
  injective : ∀ x y, 0 ≤ x → 0 ≤ y → fn.pow03 x = fn.pow03 y → x = y

namespace ScoringRun

variable {S : Setup K} {T : ℕ} (run : ScoringRun S T) (key : FlagKey)

/-- The power that the first capture of a flag leaves uncharged. -/
def unpaid (t : ℕ) : K := if run.last.captures key t = 0 then S.fn.pow03 0 else 0

/-- The power of the captures per active team does not change from one tick in which the flag
is captured to the next.  If the power of 0 is not 0, the first capture does not pay for it. -/
structure Steady : Prop where
  again : ∀ v < T, ∀ u, run.CapturedNext key u v →
    S.fn.pow03 (run.last.captures key v / run.numActiveTeams (v + 1)) =
      S.fn.pow03 (run.last.captures key v / run.numActiveTeams (u + 1)) - run.unpaid key u
  last : ∀ t < T, run.CapturedIn key t → (∀ u < T, t < u → ¬ run.CapturedIn key u) →
    run.unpaid key t = 0

variable {run key}

theorem CapturedNext.captures_pos {u v : ℕ} (h : run.CapturedNext key u v) :
    0 < run.last.captures key v := by
  have hcount : run.last.captures key v = run.last.captures key (u + 1 : ℕ) :=
    Recomputed.Consecutive.count_eq (run.captures_mono key) h
  rw [hcount]
  exact (Nat.zero_le _).trans_lt h.first

/-- With the laws of the power, steady means the same number of active teams. -/
theorem steady_iff_sameActiveTeams [IsStrictOrderedRing K] (hpow : S.fn.PowLaws)
    (hvalid : run.last.FlagValid S.config key T) : run.Steady key ↔ run.SameActiveTeams key := by
  have hunpaid : ∀ t, run.unpaid key t = 0 := fun t => by
    rw [unpaid, hpow.zero, ite_self]
  have hcons : run.Steady key ↔ ∀ v < T, ∀ u, run.CapturedNext key u v →
      run.numActiveTeams (u + 1) = run.numActiveTeams (v + 1) := by
    constructor
    · intro h v hv u huv
      have hpowers := h.again v hv u huv
      rw [hunpaid, sub_zero] at hpowers
      have hn : (run.last.captures key v : K) ≠ 0 := Nat.cast_ne_zero.2 huv.captures_pos.ne'
      have hdiv := hpow.injective _ _ (div_nonneg (Nat.cast_nonneg _) (Nat.cast_nonneg _))
        (div_nonneg (Nat.cast_nonneg _) (Nat.cast_nonneg _)) hpowers
      rw [div_eq_mul_inv, div_eq_mul_inv] at hdiv
      exact (Nat.cast_injective (inv_injective (mul_left_cancel₀ hn hdiv))).symm
    · intro h
      refine ⟨fun v hv u huv => ?_, fun t _ _ _ => hunpaid t⟩
      rw [h v hv u huv, hunpaid, sub_zero]
  rw [hcons, SameActiveTeams]
  exact Recomputed.forall_consecutive_iff (run.captures_mono key) (run.captures_zero hvalid)
    (fun u => run.numActiveTeams (u + 1)) T

end ScoringRun

variable (variant : SaarctfVariant) (config : ScoringConfig) (fn : Roots K)

/-- **When the deductions for one flag telescope**, for any power function. -/
theorem telescopes_iff_steady {T : ℕ} (run : ScoringRun (variant.setup config fn) T)
    {key : FlagKey} (hpair : (key.2.1, key.1) ∈ run.roster.pairs)
    (hvalid : run.last.FlagValid config key T) :
    run.Telescopes (variant.valuation config fn) key ↔
      run.victimSlaWhenIssued key = 0 ∨ run.Steady key := by
  have hcost : ∀ n active, defDamage fn n active (run.victimSlaWhenIssued key) =
      (variant.valuation config fn).damage n active (run.victimSlaWhenIssued key) := by
    intro n active
    rw [variant.valuation_damage]
  have huncharged : ∀ t, Recomputed.uncharged
      (fun n active => defDamage fn n active (run.victimSlaWhenIssued key))
      (fun t : ℕ => run.last.captures key t) run.numActiveTeams t =
        run.unpaid key t * run.victimSlaWhenIssued key := by
    intro t
    rw [Recomputed.uncharged, ScoringRun.unpaid, ite_mul, zero_mul, defDamage, Nat.cast_zero,
      zero_div]
    rfl
  rw [run.telescopes_iff hvalid hpair hcost]
  simp only [huncharged]
  simp only [defDamage, ← sub_mul]
  by_cases hsla : run.victimSlaWhenIssued key = 0
  · simp [hsla]
  · have hcancel : ∀ x y : K, x * run.victimSlaWhenIssued key = y * run.victimSlaWhenIssued key ↔
        x = y := fun x y => ⟨mul_right_cancel₀ hsla, fun h => by rw [h]⟩
    simp only [hcancel, mul_eq_zero, hsla, or_false, false_or]
    exact ⟨fun h => ⟨h.1, h.2⟩, fun h => ⟨h.again, h.last⟩⟩

/-- **When the defensive deductions telescope.**  The defensive points of a team are minus
the deductions for its flags, whatever the rows are.  Those for a flag with valid rows telescope
if and only if the victim had no SLA points when it was issued or the power of its captures per
active team is steady; with the laws of the power that means that the number of active teams is
the same in all ticks in which the flag is captured. -/
theorem defPoints_telescope_iff [IsStrictOrderedRing K] {T : ℕ}
    (run : ScoringRun (variant.setup config fn) T) {teamId serviceId : ℕ} {service : Service}
    (hteam : teamId ∈ run.roster.teamIds)
    (hservice : run.roster.serviceById serviceId = some service) :
    (∃ p, run.pointsAt T (teamId, serviceId) = some p ∧
      p.defPoints = ∑ key ∈ run.last.stolenKeys (teamId, serviceId) T,
        -(run.deducted key T / service.flagsPerTick * config.defFactor)) ∧
    ∀ tickIssued payload,
      run.last.FlagValid config (serviceId, teamId, tickIssued, payload) T →
        (run.Telescopes (variant.valuation config fn) (serviceId, teamId, tickIssued, payload) ↔
          run.victimSlaWhenIssued (serviceId, teamId, tickIssued, payload) = 0 ∨
            run.Steady (serviceId, teamId, tickIssued, payload)) ∧
        (fn.PowLaws →
          (run.Steady (serviceId, teamId, tickIssued, payload) ↔
            run.SameActiveTeams (serviceId, teamId, tickIssued, payload))) := by
  have hpair := (Roster.mem_pairs_of_serviceById hservice).2 hteam
  constructor
  · obtain ⟨p, hp, hdef⟩ := run.defPoints_eq hpair le_rfl
    simp only [Roster.perFlag_of_serviceById hservice] at hdef
    exact ⟨p, hp, hdef⟩
  · intro tickIssued payload hvalid
    exact ⟨telescopes_iff_steady variant config fn run hpair hvalid,
      fun hpow => ScoringRun.steady_iff_sameActiveTeams hpow hvalid⟩

end Saarctf

/-! ## Examples -/

/-- Teams 1, 2, 3 and 9 are up in a tick. -/
def fourTeamsUp (tick : ℤ) : List CheckerResult :=
  [⟨1, 1, tick, .success⟩, ⟨2, 1, tick, .success⟩, ⟨3, 1, tick, .success⟩, ⟨9, 1, tick, .success⟩]

/-- The functions of the code. -/
noncomputable def realRoots : Roots ℝ where
  sqrt := Real.sqrt
  pow03 x := x ^ (0.3 : ℝ)

theorem realRoots_powLaws : realRoots.PowLaws where
  zero := Real.zero_rpow (by norm_num)
  injective x y hx hy h := Real.rpow_left_injOn (by norm_num) hx hy h

/-- A flag captured in two ticks with four active teams each. -/
theorem defPoints_telescope_steady :
    ((exampleDatabase 9 0 1 (fourTeamsUp 1 ++ fourTeamsUp 2)).scoringRun
      (SaarctfVariant.plain.setup exampleConfig realRoots) 2).Telescopes
        (SaarctfVariant.plain.valuation exampleConfig realRoots) (1, 9, 1, 0) := by
  obtain ⟨-, htelescopes⟩ := defPoints_telescope_iff .plain exampleConfig realRoots
    ((exampleDatabase 9 0 1 (fourTeamsUp 1 ++ fourTeamsUp 2)).scoringRun _ 2)
    (show 9 ∈ _ by decide) (show Roster.serviceById _ 1 = some _ from rfl)
  obtain ⟨hiff, hsteady⟩ := htelescopes 1 0 (by decide)
  refine hiff.2 (.inr ((hsteady realRoots_powLaws).2 ?_))
  intro u hu v hv _ _
  interval_cases u <;> interval_cases v <;> rfl

/-- If only one team is left in the second tick, the deductions do not telescope. -/
theorem not_telescopes_when_teams_go_down :
    ¬ ((exampleDatabase 9 0 1 (fourTeamsUp 1)).scoringRun
      (SaarctfVariant.plain.setup exampleConfig exampleRoots) 2).Telescopes
        (SaarctfVariant.plain.valuation exampleConfig exampleRoots) (1, 9, 1, 0) := by
  intro h
  have hprevious := h.previous 1 (by decide) (by decide +kernel) (by decide +kernel)
  revert hprevious
  decide +kernel

end Gameserver.Scoring
