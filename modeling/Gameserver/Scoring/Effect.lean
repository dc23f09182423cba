import Gameserver.Scoring.Algorithm

/-!
# What the flags of a tick add to the results

The loop over the flags of a tick, said once: it never raises, and it adds to every
pair of team and service a sum over the flags.

* `Delta` — what is added to one pair; `PointsDict.shift` adds a delta to each pair.
* `attackerGain`, `victimLoss`, `corrections` — the three parts of a flag.
* `newFlags` — the flags for which `FlagSet.is_new` answers yes.
* `scoreFlags_of_asserted` — **the loop adds `flagsDelta`**, also when flags name unknown
  teams or services.
* `calculateScoringForTick_eq` — the results of a tick in terms of those before.
-/

namespace Gameserver.Scoring

variable {K : Type*} [Field K]

/-- What is added to the results of a pair: `off_points`, `def_points`,
`flag_captured_count` and `flag_stolen_count`. -/
abbrev Delta (K : Type*) := K × K × ℕ × ℕ

/-- Add a delta to one result. -/
def TeamPointsLite.add (points : TeamPointsLite K) (δ : Delta K) : TeamPointsLite K :=
  { points with
    offPoints := points.offPoints + δ.1
    defPoints := points.defPoints + δ.2.1
    flagCapturedCount := points.flagCapturedCount + δ.2.2.1
    flagStolenCount := points.flagStolenCount + δ.2.2.2 }

namespace PointsDict

/-- Add a delta to every result. -/
def shift (d : PointsDict K) (δ : TeamServicePair → Delta K) : PointsDict K := fun key =>
  (d key).map fun points => points.add (δ key)

@[simp] theorem shift_zero (d : PointsDict K) : d.shift 0 = d := by
  funext key
  cases h : d key <;> simp [shift, h, TeamPointsLite.add]

theorem shift_shift (d : PointsDict K) (δ ε : TeamServicePair → Delta K) :
    (d.shift δ).shift ε = d.shift (δ + ε) := by
  funext key
  cases h : d key <;> simp [shift, h, TeamPointsLite.add, add_assoc]

@[simp] theorem shift_isSome (d : PointsDict K) (δ : TeamServicePair → Delta K)
    (key : TeamServicePair) : (d.shift δ key).isSome = (d key).isSome := by
  simp [shift]

/-- The keys of the dictionary are the pairs of the roster. -/
def Covers (d : PointsDict K) (roster : Roster) : Prop :=
  ∀ key, (d key).isSome ↔ key ∈ roster.pairs

theorem Covers.shift {d : PointsDict K} {roster : Roster} (h : d.Covers roster)
    (δ : TeamServicePair → Delta K) : (d.shift δ).Covers roster := by
  intro key
  rw [shift_isSome]
  exact h key

omit [Field K] in
theorem Covers.eq_none {d : PointsDict K} {roster : Roster} (h : d.Covers roster)
    {key : TeamServicePair} (hkey : key ∉ roster.pairs) : d key = none := by
  rw [← Option.not_isSome_iff_eq_none, h key]
  exact hkey

/-- Changing a known pair adds a delta to it alone. -/
theorem modify_known {d : PointsDict K} {roster : Roster} (hd : d.Covers roster)
    {key : TeamServicePair} (hkey : key ∈ roster.pairs) {f : TeamPointsLite K → TeamPointsLite K}
    {x : Delta K} (hf : ∀ p, f p = p.add x) :
    d.modify key f = .ok (d.shift (Pi.single key x)) := by
  obtain ⟨p, hp⟩ := Option.isSome_iff_exists.1 ((hd key).2 hkey)
  simp only [modify, hp, Raising.ok.injEq]
  funext key'
  by_cases h : key' = key
  · subst h
    simp [shift, hp, hf]
  · simp [shift, Function.update_of_ne h, Pi.single_eq_of_ne h, TeamPointsLite.add]

omit [Field K] in
theorem modify_unknown {d : PointsDict K} {roster : Roster} (hd : d.Covers roster)
    {key : TeamServicePair} (hkey : key ∉ roster.pairs) (f : TeamPointsLite K → TeamPointsLite K) :
    d.modify key f = .raised .keyError d := by
  simp [modify, hd.eq_none hkey]

end PointsDict

namespace Roster

theorem mem_pairs {roster : Roster} {key : TeamServicePair} :
    key ∈ roster.pairs ↔ key.1 ∈ roster.teamIds ∧
      ∃ service ∈ roster.services, service.id = key.2 := by
  obtain ⟨teamId, serviceId⟩ := key
  simp only [pairs, List.mem_flatMap, List.mem_map, Prod.mk.injEq]
  constructor
  · rintro ⟨t, ht, s, hs, rfl, rfl⟩
    exact ⟨ht, s, hs, rfl⟩
  · rintro ⟨ht, s, hs, rfl⟩
    exact ⟨teamId, ht, s, hs, rfl, rfl⟩

theorem serviceById_isSome {roster : Roster} {id : ℕ} :
    (roster.serviceById id).isSome ↔ ∃ service ∈ roster.services, service.id = id := by
  simp [serviceById, List.find?_isSome]

theorem serviceById_of_mem_pairs {roster : Roster} {key : TeamServicePair}
    (h : key ∈ roster.pairs) : ∃ service, roster.serviceById key.2 = some service :=
  Option.isSome_iff_exists.1 (serviceById_isSome.2 (mem_pairs.1 h).2)

theorem mem_pairs_of_serviceById {roster : Roster} {teamId id : ℕ} {service : Service}
    (h : roster.serviceById id = some service) :
    (teamId, id) ∈ roster.pairs ↔ teamId ∈ roster.teamIds := by
  rw [mem_pairs, ← serviceById_isSome, h]
  simp

/-- Divide by the `flags_per_tick` of a service. -/
def perFlag (roster : Roster) (serviceId : ℕ) (x : K) : K :=
  match roster.serviceById serviceId with
  | some service => x / service.flagsPerTick
  | none => 0

theorem perFlag_of_serviceById {roster : Roster} {id : ℕ} {service : Service}
    (h : roster.serviceById id = some service) (x : K) :
    roster.perFlag id x = x / service.flagsPerTick := by
  simp [perFlag, h]

theorem perFlag_sub (roster : Roster) (id : ℕ) (x y : K) :
    roster.perFlag id (x - y) = roster.perFlag id x - roster.perFlag id y := by
  unfold perFlag
  split
  · exact sub_div _ _ _
  · simp

theorem perFlag_add (roster : Roster) (id : ℕ) (x y : K) :
    roster.perFlag id (x + y) = roster.perFlag id x + roster.perFlag id y := by
  unfold perFlag
  split
  · exact add_div _ _ _
  · simp

@[simp] theorem perFlag_zero (roster : Roster) (id : ℕ) : roster.perFlag id (0 : K) = 0 := by
  unfold perFlag
  split
  · exact zero_div _
  · rfl

end Roster

theorem newResultsForTick_covers (roster : Roster) (tick : ℤ) :
    (newResultsForTick (K := K) roster tick).Covers roster := by
  intro key
  by_cases h : key ∈ roster.pairs <;> simp [newResultsForTick, h]

/-! ## The parts of a flag -/

section Parts

variable (S : Setup K) (ctx : FlagContext K)

/-- What the submitter of a flag gains. -/
def attackerGain (flag : StolenFlag) : TeamServicePair → Delta K :=
  Pi.single (flag.flag.submittedBy, flag.flag.serviceId)
    (ctx.roster.perFlag flag.flag.serviceId (S.algorithm.offPoints flag (ctx.victimRank flag.flag))
      * S.config.offFactor, 0, 1, 0)

/-- The damage done to the victim by the submissions of this tick. -/
def newDamage (flag : StolenFlag) : K :=
  let sla := (ctx.slaDeltaFor (flag.flag.serviceId, flag.flag.tickIssued) flag.flag.teamId).getD 0
  S.algorithm.defPoints flag ctx.numActiveTeams sla
    - S.algorithm.defPointsPrevious flag ctx.numActiveTeams sla

/-- What the victim of a flag loses, once in every tick in which it is submitted. -/
def victimLoss (flag : StolenFlag) : TeamServicePair → Delta K :=
  Pi.single (flag.flag.teamId, flag.flag.serviceId)
    (0, -(ctx.roster.perFlag flag.flag.serviceId (newDamage S ctx flag) * S.config.defFactor), 0,
      if flag.numPreviousSubmissions = 0 then 1 else 0)

/-- The correction of the points of one earlier submitter. -/
def correction (flag : StolenFlag) : K :=
  match S.algorithm.offPointsPrevious flag (ctx.victimRank flag.flag) with
  | some previous =>
    ctx.roster.perFlag flag.flag.serviceId
      (S.algorithm.offPoints flag (ctx.victimRank flag.flag) - previous) * S.config.offFactor
  | none => 0

/-- The earlier submitters whose points are corrected: all those before the first
unknown one. -/
def correctedIds (flag : StolenFlag) : List ℕ :=
  if 0 < flag.numPreviousSubmissions then
    flag.previousSubmitterIds.takeWhile fun ps => (ps, flag.flag.serviceId) ∈ ctx.roster.pairs
  else []

/-- The corrections of the points of earlier submitters. -/
def corrections (flag : StolenFlag) : TeamServicePair → Delta K :=
  ((correctedIds ctx flag).map fun ps =>
    Pi.single (ps, flag.flag.serviceId) ((correction S ctx flag, 0, 0, 0) : Delta K)).sum

/-- What happens once for every flag of the tick. -/
def onceDelta (flag : StolenFlag) : TeamServicePair → Delta K :=
  if (flag.flag.teamId, flag.flag.serviceId) ∈ ctx.roster.pairs then
    victimLoss S ctx flag + corrections S ctx flag
  else 0

/-- Is the submitter of the flag known, and the service? -/
def entered (flag : StolenFlag) : Bool :=
  (flag.flag.submittedBy, flag.flag.serviceId) ∈ ctx.roster.pairs

/-- The flags that are not in the set, each once. -/
def newFlags : List FlagKey → List StolenFlag → List StolenFlag
  | _, [] => []
  | seen, flag :: flags =>
    if flag.flag.key ∈ seen then newFlags seen flags
    else flag :: newFlags (flag.flag.key :: seen) flags

/-- What the flags of a tick add to the results. -/
def flagsDelta (seen : List FlagKey) (flags : List StolenFlag) : TeamServicePair → Delta K :=
  ((flags.filter (entered ctx)).map (attackerGain S ctx)).sum
    + ((newFlags seen (flags.filter (entered ctx))).map (onceDelta S ctx)).sum

/-! ### Captured flags -/

theorem sum_captured (l : List (TeamServicePair → Delta K)) (key : TeamServicePair) :
    (l.sum key).2.2.1 = (l.map fun δ => (δ key).2.2.1).sum := by
  induction l with
  | nil => rfl
  | cons δ l ih => simp [ih]

theorem attackerGain_captured (flag : StolenFlag) (key : TeamServicePair) :
    (attackerGain S ctx flag key).2.2.1 =
      if (flag.flag.submittedBy, flag.flag.serviceId) = key then 1 else 0 := by
  unfold attackerGain
  by_cases h : (flag.flag.submittedBy, flag.flag.serviceId) = key
  · subst h
    simp
  · simp [h]

theorem victimLoss_captured (flag : StolenFlag) (key : TeamServicePair) :
    (victimLoss S ctx flag key).2.2.1 = 0 := by
  unfold victimLoss
  by_cases h : key = (flag.flag.teamId, flag.flag.serviceId)
  · subst h
    simp
  · simp [Pi.single_eq_of_ne h]

theorem corrections_captured (flag : StolenFlag) (key : TeamServicePair) :
    (corrections S ctx flag key).2.2.1 = 0 := by
  rw [corrections, sum_captured, List.map_map]
  apply List.sum_eq_zero
  intro n hn
  obtain ⟨ps, -, rfl⟩ := List.mem_map.1 hn
  by_cases h : key = (ps, flag.flag.serviceId)
  · subst h
    simp
  · simp [Pi.single_eq_of_ne h]

theorem onceDelta_captured (flag : StolenFlag) (key : TeamServicePair) :
    (onceDelta S ctx flag key).2.2.1 = 0 := by
  unfold onceDelta
  split
  · simp [victimLoss_captured, corrections_captured]
  · rfl

end Parts

/-! ## The loop over the flags -/

section Loop

variable {S : Setup K} {ctx : FlagContext K} {d : PointsDict K}

/-- The assertion of `_flag_stolen_previous_attackers` holds. -/
def Consistent (flag : StolenFlag) : Prop :=
  flag.previousSubmitterIds.length = flag.numPreviousSubmissions

instance : DecidablePred Consistent := fun _ => inferInstanceAs (Decidable (_ = _))

/-- The loop over earlier submitters corrects those before the first unknown one; an
unknown one is a `KeyError`. -/
theorem forEach_correct (hd : d.Covers ctx.roster) (serviceId : ℕ) (x : K) (ids : List ℕ)
    {f : TeamPointsLite K → TeamPointsLite K} (hf : ∀ p, f p = p.add (x, 0, 0, 0)) :
    (Raising.forEach (fun points ps => PointsDict.modify points (ps, serviceId) f) ids d).handle
        isKeyError =
      .ok (d.shift ((ids.takeWhile fun ps => (ps, serviceId) ∈ ctx.roster.pairs).map fun ps =>
        Pi.single (ps, serviceId) ((x, 0, 0, 0) : Delta K)).sum) := by
  induction ids generalizing d with
  | nil => simp
  | cons ps ids ih =>
    by_cases h : (ps, serviceId) ∈ ctx.roster.pairs
    · rw [Raising.forEach_cons, PointsDict.modify_known hd h hf, Raising.andThen_ok,
        ih (hd.shift _), PointsDict.shift_shift]
      simp [h]
    · rw [Raising.forEach_cons, PointsDict.modify_unknown hd h]
      simp [h, Raising.handle, isKeyError]

/-- The assertion holds, if it is reached. -/
def Asserted (ctx : FlagContext K) (flag : StolenFlag) : Prop :=
  (flag.flag.teamId, flag.flag.serviceId) ∈ ctx.roster.pairs → 0 < flag.numPreviousSubmissions →
    Consistent flag

theorem flagStolenPreviousAttackers_eq (hd : d.Covers ctx.roster) {flag : StolenFlag}
    (hflag : 0 < flag.numPreviousSubmissions → Consistent flag) {service : Service}
    (hservice : ctx.roster.serviceById flag.flag.serviceId = some service) :
    (flagStolenPreviousAttackers S d flag service (ctx.victimRank flag.flag)).handle isKeyError =
      .ok (d.shift (corrections S ctx flag)) := by
  unfold flagStolenPreviousAttackers corrections correctedIds correction
  by_cases hprev : 0 < flag.numPreviousSubmissions
  · have hlength : flag.previousSubmitterIds.length = flag.numPreviousSubmissions := hflag hprev
    rw [if_pos hprev, if_pos hlength, if_pos hprev]
    cases S.algorithm.offPointsPrevious flag (ctx.victimRank flag.flag) with
    | none => simp [Prod.mk_zero_zero]
    | some previous =>
      simp only [ctx.roster.perFlag_of_serviceById hservice]
      exact forEach_correct hd _ _ _ fun p => by simp [TeamPointsLite.add]
  · simp [hprev]

theorem flagStolenAttacker_eq (hd : d.Covers ctx.roster) {flag : StolenFlag} {service : Service}
    (hservice : ctx.roster.serviceById flag.flag.serviceId = some service)
    (hflag : (flag.flag.submittedBy, flag.flag.serviceId) ∈ ctx.roster.pairs) :
    flagStolenAttacker S d flag service (ctx.victimRank flag.flag) =
      .ok (d.shift (attackerGain S ctx flag)) := by
  refine PointsDict.modify_known hd hflag ?_
  intro p
  simp [TeamPointsLite.add, ctx.roster.perFlag_of_serviceById hservice]

theorem flagStolenVictim_eq (hd : d.Covers ctx.roster) {flag : StolenFlag} {service : Service}
    (hservice : ctx.roster.serviceById flag.flag.serviceId = some service)
    (hflag : (flag.flag.teamId, flag.flag.serviceId) ∈ ctx.roster.pairs) :
    flagStolenVictim S d flag service ctx.numActiveTeams ctx.slaDeltaFor =
      .ok (d.shift (victimLoss S ctx flag)) := by
  refine PointsDict.modify_known hd hflag ?_
  intro p
  simp [TeamPointsLite.add, ctx.roster.perFlag_of_serviceById hservice, newDamage, sub_eq_add_neg]

/-- The entry of an unknown submitter changes nothing. -/
theorem scoreFlag_of_unknown_submitter (hd : d.Covers ctx.roster) {flag : StolenFlag}
    (hflag : (flag.flag.submittedBy, flag.flag.serviceId) ∉ ctx.roster.pairs) (seen : FlagSet) :
    scoreFlag S ctx ⟨d, seen⟩ flag = .raised .keyError ⟨d, seen⟩ := by
  cases hservice : ctx.roster.serviceById flag.flag.serviceId with
  | none => simp [scoreFlag, hservice]
  | some service =>
    simp [scoreFlag, hservice, flagStolenAttacker, PointsDict.modify_unknown hd hflag,
      LoopState.withPoints]

/-- One flag, with the handler of `KeyError` around it. -/
theorem scoreFlag_eq (hd : d.Covers ctx.roster) {flag : StolenFlag} (seen : List FlagKey)
    (hflag : entered ctx flag → flag.flag.key ∉ seen → Asserted ctx flag) :
    ∃ seen', (scoreFlag S ctx ⟨d, ⟨seen⟩⟩ flag).handle isKeyError =
        .ok ⟨d.shift (flagsDelta S ctx seen [flag]), ⟨seen'⟩⟩ ∧
      seen' = if entered ctx flag ∧ flag.flag.key ∉ seen then flag.flag.key :: seen else seen := by
  by_cases hentered : (flag.flag.submittedBy, flag.flag.serviceId) ∈ ctx.roster.pairs
  · obtain ⟨service, hservice⟩ := Roster.serviceById_of_mem_pairs hentered
    have hattacker := flagStolenAttacker_eq (S := S) hd hservice hentered
    simp only [scoreFlag, hservice, hattacker, Raising.andThen_ok]
    by_cases hseen : flag.flag.key ∈ seen
    · simp [FlagSet.isNew, hseen, flagsDelta, entered, hentered, newFlags]
    · simp only [FlagSet.isNew, hseen, if_false, if_true]
      by_cases hvictim : (flag.flag.teamId, flag.flag.serviceId) ∈ ctx.roster.pairs
      · rw [flagStolenVictim_eq (hd.shift _) hservice hvictim, Raising.andThen_ok,
          Raising.handle_andThen_ok (flagStolenPreviousAttackers_eq ((hd.shift _).shift _)
            (hflag (decide_eq_true hentered) hseen hvictim) hservice)]
        simp [flagsDelta, entered, hentered, newFlags, hseen, onceDelta, hvictim,
          PointsDict.shift_shift, add_assoc]
      · -- the attacker has his points already when the victim turns out to be unknown
        rw [flagStolenVictim, PointsDict.modify_unknown (hd.shift _) hvictim]
        simp [Raising.handle, isKeyError, flagsDelta, entered, hentered, newFlags, hseen, onceDelta,
          hvictim]
  · simp [scoreFlag_of_unknown_submitter hd hentered, Raising.handle, isKeyError, flagsDelta,
      entered,
      hentered, newFlags]

theorem newFlags_cons (seen : List FlagKey) (flag : StolenFlag) (flags : List StolenFlag) :
    newFlags seen (flag :: flags) =
      newFlags seen [flag]
        ++ newFlags (if flag.flag.key ∈ seen then seen else flag.flag.key :: seen) flags := by
  by_cases h : flag.flag.key ∈ seen <;> simp [newFlags, h]

/-- The first flag, then the others. -/
theorem flagsDelta_cons (seen : List FlagKey) (flag : StolenFlag) (flags : List StolenFlag) :
    flagsDelta S ctx seen (flag :: flags) =
      flagsDelta S ctx seen [flag] + flagsDelta S ctx
        (if entered ctx flag ∧ flag.flag.key ∉ seen then flag.flag.key :: seen
          else seen) flags := by
  by_cases h : entered ctx flag = true
  · unfold flagsDelta
    rw [List.filter_cons_of_pos h, newFlags_cons]
    by_cases hseen : flag.flag.key ∈ seen
    · simp [h, hseen, newFlags, add_assoc]
    · simp [h, hseen, newFlags, add_add_add_comm]
  · simp [flagsDelta, h, newFlags]

theorem newFlags_subset {seen : List FlagKey} {flags : List StolenFlag} {f : StolenFlag}
    (h : f ∈ newFlags seen flags) : f ∈ flags := by
  induction flags generalizing seen with
  | nil => simp [newFlags] at h
  | cons g flags ih =>
    unfold newFlags at h
    split at h
    · exact List.mem_cons_of_mem _ (ih h)
    · rcases List.mem_cons.1 h with rfl | h
      · exact List.mem_cons_self ..
      · exact List.mem_cons_of_mem _ (ih h)

omit [Field K] in
/-- The flags that are scored in full, the first one and the others. -/
theorem newFlags_entered_cons (seen : List FlagKey) (flag : StolenFlag) (flags : List StolenFlag) :
    newFlags seen ((flag :: flags).filter (entered ctx)) =
      (if entered ctx flag ∧ flag.flag.key ∉ seen then [flag] else []) ++
        newFlags (if entered ctx flag ∧ flag.flag.key ∉ seen then flag.flag.key :: seen else seen)
          (flags.filter (entered ctx)) := by
  by_cases h : entered ctx flag = true
  · by_cases hseen : flag.flag.key ∈ seen <;> simp [h, hseen, newFlags]
  · simp [h]

/-- **The loop over the flags of a tick adds `flagsDelta`**, if the assertion always holds where it
is reached. -/
theorem scoreFlags_of_asserted (hd : d.Covers ctx.roster) {flags : List StolenFlag}
    {seen : List FlagKey}
    (hflags : ∀ flag ∈ newFlags seen (flags.filter (entered ctx)), Asserted ctx flag) :
    ∃ seen', scoreFlags S ctx flags ⟨d, ⟨seen⟩⟩ =
      .ok ⟨d.shift (flagsDelta S ctx seen flags), ⟨seen'⟩⟩ := by
  induction flags generalizing d seen with
  | nil => exact ⟨seen, by simp [scoreFlags, flagsDelta, newFlags]⟩
  | cons flag flags ih =>
    rw [newFlags_entered_cons] at hflags
    obtain ⟨seen', hstep, hseen'⟩ := scoreFlag_eq (S := S) hd seen fun hentered hnew =>
      hflags flag (by simp [hentered, hnew])
    have hafter : ∀ f ∈ newFlags seen' (flags.filter (entered ctx)), Asserted ctx f := fun f hf =>
      hflags f (List.mem_append_right _ (by rwa [← hseen']))
    obtain ⟨seen'', hrest⟩ := ih (hd.shift _) hafter
    refine ⟨seen'', ?_⟩
    rw [flagsDelta_cons, ← hseen', ← PointsDict.shift_shift, ← hrest]
    simp [scoreFlags, hstep]

end Loop

/-! ## The whole tick -/

section Tick

variable [LinearOrder K] (S : Setup K) (roster : Roster)

/-- What the flags of a tick add, for the input of that tick. -/
def tickDelta (input : TickInput K) : TeamServicePair → Delta K :=
  flagsDelta S (input.context S roster) [] input.flags

/-- The results of a tick: those of the tick before, plus what the tick adds. -/
def tickResults (input : TickInput K) : PointsDict K := fun key =>
  if key ∈ roster.pairs then
    (input.lastTickPoints key).map fun lr =>
      { teamId := key.1, serviceId := key.2, tick := input.tick
        flagCapturedCount := (tickDelta S roster input key).2.2.1 + lr.flagCapturedCount
        flagStolenCount := (tickDelta S roster input key).2.2.2 + lr.flagStolenCount
        offPoints := (tickDelta S roster input key).1 + lr.offPoints
        defPoints := (tickDelta S roster input key).2.1 + lr.defPoints
        slaPoints := lr.slaPoints + slaDelta S roster input.tick input.checkerResults key
        slaDelta := slaDelta S roster input.tick input.checkerResults key }
  else none

variable {S roster}

/-- Only the submitter's own flags count as captured. -/
theorem tickDelta_captured {input : TickInput K} {pair : TeamServicePair}
    (hpair : pair ∈ roster.pairs) :
    (tickDelta S roster input pair).2.2.1 =
      (input.flags.filter fun f => (f.flag.submittedBy, f.flag.serviceId) = pair).length := by
  have honce : ((newFlags [] (input.flags.filter (entered (input.context S roster)))).map
      fun flag => (onceDelta S (input.context S roster) flag pair).2.2.1).sum = 0 := by
    apply List.sum_eq_zero
    intro n hn
    obtain ⟨flag, -, rfl⟩ := List.mem_map.1 hn
    exact onceDelta_captured S _ flag pair
  have hsum : (tickDelta S roster input pair).2.2.1 =
      ((input.flags.filter (entered (input.context S roster))).map fun flag =>
        if (flag.flag.submittedBy, flag.flag.serviceId) = pair then 1 else 0).sum := by
    rw [tickDelta, flagsDelta, Pi.add_apply, Prod.snd_add, Prod.snd_add, Prod.fst_add, sum_captured,
      sum_captured, List.map_map, List.map_map]
    simp only [Function.comp_def, attackerGain_captured, honce, add_zero]
  have hentered : ∀ flag, (flag.flag.submittedBy, flag.flag.serviceId) = pair →
      entered (input.context S roster) flag = true := fun flag h =>
    decide_eq_true (by rw [h]; exact hpair)
  rw [hsum]
  induction input.flags with
  | nil => rfl
  | cons flag flags ih =>
    by_cases h : (flag.flag.submittedBy, flag.flag.serviceId) = pair
    · simp [h, hentered flag h, ih, Nat.add_comm]
    · by_cases he : entered (input.context S roster) flag = true <;> simp [h, he, ih]

theorem calculateSla_covers {d : PointsDict K} (hd : d.Covers roster) (input : TickInput K) :
    (calculateSla S roster input d).Covers roster := by
  intro key
  rw [calculateSla, Option.isSome_map]
  exact hd key

/-- **One tick of scoring**, when the results of the tick before are complete, and the assertion
holds where it is reached. -/
theorem calculateScoringForTick_of_asserted {input : TickInput K}
    (hlast : ∀ key ∈ roster.pairs, (input.lastTickPoints key).isSome)
    (hflags : ∀ flag ∈ newFlags [] (input.flags.filter (entered (input.context S roster))),
      Asserted (input.context S roster) flag) :
    S.calculateScoringForTick roster input = .ok (tickResults S roster input) := by
  have hcovers : (calculateSla S roster input (newResultsForTick roster input.tick)).Covers
      (input.context S roster).roster :=
    calculateSla_covers (newResultsForTick_covers roster input.tick) input
  obtain ⟨seen, hloop⟩ := scoreFlags_of_asserted (S := S) hcovers hflags
  have hall : (roster.pairs.all fun key => (input.lastTickPoints key).isSome) = true := by
    simpa using hlast
  simp only [Setup.calculateScoringForTick, FlagSet.empty, hloop, Raising.andThen_ok,
    addLastTickPoints, hall, if_true, Raising.ok.injEq]
  funext key
  by_cases hkey : key ∈ roster.pairs
  · simp [PointsDict.shift, calculateSla, newResultsForTick, hkey, TeamPointsLite.add, tickResults,
      tickDelta]
  · simp [PointsDict.shift, calculateSla, newResultsForTick, hkey, tickResults]

/-- **One tick of scoring**, when the results of the tick before are complete. -/
theorem calculateScoringForTick_eq {input : TickInput K}
    (hlast : ∀ key ∈ roster.pairs, (input.lastTickPoints key).isSome)
    (hflags : ∀ flag ∈ input.flags, Consistent flag) :
    S.calculateScoringForTick roster input = .ok (tickResults S roster input) :=
  calculateScoringForTick_of_asserted hlast fun flag hflag _ _ =>
    hflags flag (List.mem_of_mem_filter (newFlags_subset hflag))

end Tick

end Gameserver.Scoring
