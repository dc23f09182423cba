import Gameserver.Scoring.Captures

/-!
# The order of the flags of a tick

A flag that several teams submit in one tick has several entries.  Each gives its submitter points;
the victim's loss and the corrections of earlier submitters happen at the first entry.  What happens
there depends on the flag alone, so the order of the entries does not matter.

* `calculateScoringForTick_eq_ok_iff` — when a tick can be scored, and with which results; no
  assumption on its input.
* `FlagHooks` — the hooks of an algorithm read the flag and its counts, and not the submitter.
* `ScoreAlgorithm` — the algorithms of the repository; `ScoreAlgorithm.flagHooks`.
* `ScoreAlgorithm.scoring_order_independent` — the entries can come in any order.
-/

namespace Gameserver.Scoring

variable {K : Type*} [Field K]

/-! ## When a tick can be scored -/

section Raises

variable {S : Setup K} {ctx : FlagContext K} {d : PointsDict K}

/-- An entry that is scored in full and breaks the assertion ends the loop. -/
theorem scoreFlag_of_not_asserted (hd : d.Covers ctx.roster) {flag : StolenFlag}
    {seen : List FlagKey}
    (hentered : entered ctx flag = true) (hnew : flag.flag.key ∉ seen)
    (hnot : ¬ Asserted ctx flag) :
    ∃ st, (scoreFlag S ctx ⟨d, ⟨seen⟩⟩ flag).handle isKeyError = .raised .assertionError st := by
  rw [Asserted, Classical.not_imp, Classical.not_imp] at hnot
  obtain ⟨hvictim, hprev, hnot⟩ := hnot
  have hlength : ¬ flag.previousSubmitterIds.length = flag.numPreviousSubmissions := hnot
  have hpair := of_decide_eq_true hentered
  obtain ⟨service, hservice⟩ := Roster.serviceById_of_mem_pairs hpair
  refine ⟨⟨(d.shift (attackerGain S ctx flag)).shift (victimLoss S ctx flag),
    ⟨flag.flag.key :: seen⟩⟩, ?_⟩
  have hprevious : ∀ points rank, flagStolenPreviousAttackers S points flag service rank =
      .raised .assertionError points := by
    intro points rank
    rw [flagStolenPreviousAttackers, if_pos hprev, if_neg hlength]
  simp only [scoreFlag, hservice, flagStolenAttacker_eq (S := S) hd hservice hpair,
    Raising.andThen_ok,
    FlagSet.isNew, hnew, if_false, if_true, flagStolenVictim_eq (S := S)
      (hd.shift _) hservice hvictim,
    hprevious, Raising.andThen_raised]
  rfl

/-- **The loop ends without an exception exactly if the assertion holds where it is reached.** -/
theorem scoreFlags_isOk_iff (hd : d.Covers ctx.roster) {flags : List StolenFlag}
    {seen : List FlagKey} :
    (∃ st, scoreFlags S ctx flags ⟨d, ⟨seen⟩⟩ = .ok st) ↔
      ∀ flag ∈ newFlags seen (flags.filter (entered ctx)), Asserted ctx flag := by
  constructor
  · intro h
    induction flags generalizing d seen with
    | nil => exact fun flag hflag => absurd hflag (by simp [newFlags])
    | cons flag flags ih =>
      obtain ⟨st, hst⟩ := h
      rw [newFlags_entered_cons]
      by_cases hgood : entered ctx flag → flag.flag.key ∉ seen → Asserted ctx flag
      · obtain ⟨seen', hstep, hseen'⟩ := scoreFlag_eq (S := S) hd seen hgood
        have hrest : scoreFlags S ctx flags ⟨d.shift (flagsDelta S ctx seen [flag]), ⟨seen'⟩⟩ =
            .ok st := by
          rw [scoreFlags, Raising.forEach_cons, hstep] at hst
          exact hst
        intro f hf
        rcases List.mem_append.1 hf with hf | hf
        · split_ifs at hf with hnew
          · obtain rfl := List.mem_singleton.1 hf
            exact hgood hnew.1 hnew.2
          · cases hf
        · rw [← hseen'] at hf
          exact ih (hd.shift _) ⟨st, hrest⟩ f hf
      · rw [Classical.not_imp, Classical.not_imp] at hgood
        obtain ⟨st', hraised⟩ := scoreFlag_of_not_asserted (S := S) hd hgood.1 hgood.2.1 hgood.2.2
        rw [scoreFlags, Raising.forEach_cons, hraised] at hst
        cases hst
  · intro h
    obtain ⟨seen', hloop⟩ := scoreFlags_of_asserted (S := S) hd h
    exact ⟨_, hloop⟩

end Raises

section Tick

variable [LinearOrder K] {S : Setup K} {roster : Roster} {input : TickInput K} {r : PointsDict K}

/-- A tick can be scored if the assertion holds where it is reached, and all pairs have results of
the tick before. -/
structure Scorable (S : Setup K) (roster : Roster) (input : TickInput K) : Prop where
  asserted : ∀ flag ∈ newFlags [] (input.flags.filter (entered (input.context S roster))),
    Asserted (input.context S roster) flag
  last : ∀ key ∈ roster.pairs, (input.lastTickPoints key).isSome

/-- **The results of a tick**, for every input. -/
theorem calculateScoringForTick_eq_ok_iff :
    S.calculateScoringForTick roster input = .ok r ↔
      Scorable S roster input ∧ r = tickResults S roster input := by
  have hcovers : (calculateSla S roster input (newResultsForTick roster input.tick)).Covers
      (input.context S roster).roster :=
    calculateSla_covers (newResultsForTick_covers roster input.tick) input
  constructor
  · intro h
    have hscored := h
    rw [Setup.calculateScoringForTick] at h
    cases hloop : scoreFlags S (input.context S roster) input.flags
        ⟨calculateSla S roster input (newResultsForTick roster input.tick), .empty⟩ with
    | raised e st =>
      rw [hloop] at h
      cases h
    | ok st =>
      rw [hloop, Raising.andThen_ok, addLastTickPoints] at h
      split_ifs at h with hall
      have hscorable : Scorable S roster input :=
        ⟨(scoreFlags_isOk_iff hcovers).1 ⟨st, hloop⟩, by simpa using hall⟩
      refine ⟨hscorable, ?_⟩
      rw [calculateScoringForTick_of_asserted hscorable.last hscorable.asserted] at hscored
      exact (Raising.ok.inj hscored).symm
  · rintro ⟨hscorable, rfl⟩
    exact calculateScoringForTick_of_asserted hscorable.last hscorable.asserted

end Tick

/-! ## Entries in any order -/

/-- A sum over the flags of a tick, each once, does not depend on the order of the entries. -/
theorem sum_newFlags_perm {M : Type*} [AddCommMonoid M] {g : StolenFlag → M}
    {flags flags' : List StolenFlag} (hperm : flags'.Perm flags)
    (hg : ∀ f ∈ flags, ∀ f' ∈ flags, f.flag.key = f'.flag.key → g f = g f') :
    ((newFlags [] flags').map g).sum = ((newFlags [] flags).map g).sum := by
  -- any entry of a flag can stand for it
  have hkey : ∀ f ∈ flags, g f =
      ((flags.find? fun f' => f'.flag.key = f.flag.key).map g).getD 0 := by
    intro f hf
    cases hfind : flags.find? fun f' => f'.flag.key = f.flag.key with
    | none => exact absurd (List.find?_eq_none.1 hfind f hf) (by simp)
    | some f' =>
      have hsame := List.find?_some hfind
      exact hg f hf f' (List.mem_of_find?_eq_some hfind) (of_decide_eq_true hsame).symm
  let h : FlagKey → M := fun key => ((flags.find? fun f' => f'.flag.key = key).map g).getD 0
  rw [sum_newFlags (h := h) hkey, sum_newFlags (h := h) fun f hf => hkey f (hperm.mem_iff.1 hf)]
  exact congrArg (fun s => ∑ key ∈ s, h key) (List.toFinset_eq_of_perm _ _ (hperm.map _))

/-- Two entries are of one flag with the same counts and the same earlier submitters. -/
def SameCounts (f g : StolenFlag) : Prop :=
  f.numPreviousSubmissions = g.numPreviousSubmissions ∧ f.numSubmissions = g.numSubmissions ∧
    f.previousSubmitterIds = g.previousSubmitterIds

instance : DecidableRel SameCounts := fun _ _ => inferInstanceAs (Decidable (_ ∧ _ ∧ _))

/-- The hooks read a flag, its counts and its earlier submitters, and not who submitted it. -/
structure FlagHooks (algorithm : ScoreTickAlgorithm K) : Prop where
  offPoints : ∀ f g rank, f.flag.key = g.flag.key → SameCounts f g →
    algorithm.offPoints f rank = algorithm.offPoints g rank
  offPointsPrevious : ∀ f g rank, f.flag.key = g.flag.key → SameCounts f g →
    algorithm.offPointsPrevious f rank = algorithm.offPointsPrevious g rank
  defPoints : ∀ f g n sla, f.flag.key = g.flag.key → SameCounts f g →
    algorithm.defPoints f n sla = algorithm.defPoints g n sla
  defPointsPrevious : ∀ f g n sla, f.flag.key = g.flag.key → SameCounts f g →
    algorithm.defPointsPrevious f n sla = algorithm.defPointsPrevious g n sla

section Same

variable {S : Setup K} {ctx : FlagContext K} {f g : StolenFlag}

/-- What happens once for a flag does not depend on the entry. -/
theorem onceDelta_of_sameCounts (hhooks : FlagHooks S.algorithm) (hkey : f.flag.key = g.flag.key)
    (hcounts : SameCounts f g) : onceDelta S ctx f = onceDelta S ctx g := by
  obtain ⟨hprev, hsub, hids⟩ := id hcounts
  have hfields := hkey
  simp only [SubmittedFlag.key, Prod.mk.injEq] at hfields
  obtain ⟨hservice, hteam, htick, -⟩ := hfields
  have hrank : ctx.victimRank f.flag = ctx.victimRank g.flag := by
    rw [FlagContext.victimRank, FlagContext.victimRank, htick, hteam]
  simp only [onceDelta, victimLoss, newDamage, corrections, correctedIds, correction, hservice,
    hteam,
    htick, hrank, hprev, hids, hhooks.offPoints f g _ hkey hcounts,
    hhooks.offPointsPrevious f g _ hkey hcounts, hhooks.defPoints f g _ _ hkey hcounts,
    hhooks.defPointsPrevious f g _ _ hkey hcounts]

omit [Field K] in
theorem asserted_of_sameCounts (hkey : f.flag.key = g.flag.key) (hcounts : SameCounts f g)
    (h : Asserted ctx f) : Asserted ctx g := by
  simp only [SubmittedFlag.key, Prod.mk.injEq] at hkey
  obtain ⟨hservice, hteam, -, -⟩ := hkey
  obtain ⟨hprev, -, hids⟩ := hcounts
  rwa [Asserted, Consistent, ← hservice, ← hteam, ← hprev, ← hids]

omit [Field K] in
/-- If the entries of a flag agree, it does not matter which of them is the first. -/
theorem forall_newFlags_asserted_iff {flags : List StolenFlag}
    (hsame : ∀ f ∈ flags, ∀ g ∈ flags, f.flag.key = g.flag.key → SameCounts f g) :
    (∀ flag ∈ newFlags [] flags, Asserted ctx flag) ↔ ∀ flag ∈ flags, Asserted ctx flag := by
  constructor
  · intro h flag hflag
    have hmem : flag.flag.key ∈ (newFlags [] flags).map (·.flag.key) :=
      mem_newFlags_keys.2 ⟨List.mem_map_of_mem hflag, List.not_mem_nil⟩
    obtain ⟨first, hfirst, hkey⟩ := List.mem_map.1 hmem
    exact asserted_of_sameCounts hkey (hsame first (newFlags_subset hfirst) flag hflag hkey)
      (h first hfirst)
  · exact fun h flag hflag => h flag (newFlags_subset hflag)

/-- What the flags of a tick add does not depend on their order. -/
theorem flagsDelta_perm (hhooks : FlagHooks S.algorithm) {flags flags' : List StolenFlag}
    (hperm : flags'.Perm flags)
    (hsame : ∀ f ∈ flags, ∀ g ∈ flags, f.flag.key = g.flag.key → SameCounts f g) :
    flagsDelta S ctx [] flags' = flagsDelta S ctx [] flags := by
  have hentered := hperm.filter (entered ctx)
  have honce : ∀ f ∈ flags.filter (entered ctx), ∀ g ∈ flags.filter (entered ctx),
      f.flag.key = g.flag.key → onceDelta S ctx f = onceDelta S ctx g := fun f hf g hg hkey =>
    onceDelta_of_sameCounts hhooks hkey
      (hsame f (List.mem_of_mem_filter hf) g (List.mem_of_mem_filter hg) hkey)
  rw [flagsDelta, flagsDelta, sum_newFlags_perm hentered honce, (hentered.map _).sum_eq]

end Same

variable [LinearOrder K]

/-- The order of the entries does not matter to an algorithm whose hooks read only the flag. -/
theorem Setup.calculateScoringForTick_perm (S : Setup K) (hhooks : FlagHooks S.algorithm)
    (roster : Roster) (input : TickInput K) {flags' : List StolenFlag}
    (hperm : flags'.Perm input.flags)
    (hsame : ∀ f ∈ input.flags, ∀ g ∈ input.flags, f.flag.key = g.flag.key → SameCounts f g)
    (r : PointsDict K) :
    S.calculateScoringForTick roster { input with flags := flags' } = .ok r ↔
      S.calculateScoringForTick roster input = .ok r := by
  have hdelta : tickDelta S roster { input with flags := flags' } = tickDelta S roster input :=
    flagsDelta_perm hhooks hperm hsame
  have hresults : tickResults S roster { input with flags := flags' } =
      tickResults S roster input := by
    funext key
    rw [tickResults, tickResults, hdelta]
  have hentered := hperm.filter (entered (input.context S roster))
  have hsame' : ∀ f ∈ input.flags.filter (entered (input.context S roster)),
      ∀ g ∈ input.flags.filter (entered (input.context S roster)),
      f.flag.key = g.flag.key → SameCounts f g := fun f hf g hg =>
    hsame f (List.mem_of_mem_filter hf) g (List.mem_of_mem_filter hg)
  have hscorable : Scorable S roster { input with flags := flags' } ↔ Scorable S roster input := by
    constructor
    · rintro ⟨hasserted, hlast⟩
      refine ⟨(forall_newFlags_asserted_iff hsame').2 fun flag hflag => ?_, hlast⟩
      refine (forall_newFlags_asserted_iff fun f hf g hg => ?_).1 hasserted flag
        (hentered.mem_iff.2 hflag)
      exact hsame' f (hentered.mem_iff.1 hf) g (hentered.mem_iff.1 hg)
    · rintro ⟨hasserted, hlast⟩
      refine ⟨fun flag hflag => ?_, hlast⟩
      exact (forall_newFlags_asserted_iff hsame').1 hasserted flag
        (hentered.mem_iff.1 (newFlags_subset hflag))
  rw [calculateScoringForTick_eq_ok_iff, calculateScoringForTick_eq_ok_iff, hscorable, hresults]

/-! ### The algorithms -/

/-- The classes of `algorithms/saarctf.py` and `algorithms/playground.py`. -/
inductive ScoreAlgorithm where
  | saarctf
  | saarctfWithHappyHour
  | playground
  deriving DecidableEq, Repr

/-- `_compute_attacking_teams_count`, by service id and payload. -/
def attackingTeamsCount (flags : List StolenFlag) (serviceId payload : ℕ) : ℕ :=
  ((flags.filter fun flag => flag.flag.serviceId = serviceId ∧ flag.flag.payload = payload).map
    fun flag => flag.flag.submittedBy).dedup.length

omit [LinearOrder K] in
/-- `PlaygroundScoreAlgorithm`: "attack points will never decrease". -/
def playgroundScoreAlgorithm (fn : Roots K) (attackingTeamsCount : ℕ → ℕ → ℕ) :
    ScoreTickAlgorithm K :=
  { saarctfScoreAlgorithm fn with
    offPoints := fun flag victimRank =>
      flagPoints fn (attackingTeamsCount flag.flag.serviceId flag.flag.payload) victimRank
    offPointsPrevious := fun _ _ => none }

namespace ScoreAlgorithm

variable (algorithm : ScoreAlgorithm) (config : ScoringConfig) (fn : Roots K)

/-- The hooks for the flags of a tick. -/
def hooks (flags : List StolenFlag) : ScoreTickAlgorithm K :=
  match algorithm with
  | saarctf => saarctfScoreAlgorithm fn
  | saarctfWithHappyHour => saarctfScoreAlgorithmWithHappyHour fn config
  | playground => playgroundScoreAlgorithm fn (attackingTeamsCount flags)

/-- `calculate_scoring_for_tick`. -/
def calculateScoringForTick (roster : Roster) (input : TickInput K) :
    Raising PyError (PointsDict K) :=
  Setup.calculateScoringForTick ⟨config, fn, algorithm.hooks config fn input.flags⟩ roster input

theorem attackingTeamsCount_perm {flags flags' : List StolenFlag} (h : flags'.Perm flags) :
    attackingTeamsCount flags' = attackingTeamsCount flags := by
  funext serviceId payload
  exact (((h.filter _).map _).dedup).length_eq

omit [LinearOrder K] in
/-- `FlagPointsSaarCtfDefault` and `DefensiveSaarCtfDefault` read the counts of a flag only. -/
theorem saarctf_flagHooks : FlagHooks (saarctfScoreAlgorithm fn) where
  offPoints f g rank _ hcounts := by
    simp only [saarctfScoreAlgorithm, hcounts.1, hcounts.2.1]
  offPointsPrevious f g rank _ hcounts := by
    simp only [saarctfScoreAlgorithm, hcounts.1]
  defPoints f g n sla _ hcounts := by
    simp only [saarctfScoreAlgorithm, hcounts.1, hcounts.2.1]
  defPointsPrevious f g n sla _ hcounts := by
    simp only [saarctfScoreAlgorithm, hcounts.1]

omit [LinearOrder K] in
/-- No algorithm of the repository reads who submitted a flag, except to count the teams. -/
theorem flagHooks (flags : List StolenFlag) : FlagHooks (algorithm.hooks config fn flags) := by
  have hbase := saarctf_flagHooks fn
  cases algorithm with
  | saarctf => exact hbase
  | saarctfWithHappyHour =>
    refine ⟨fun f g rank hkey hcounts => ?_, fun f g rank hkey hcounts => ?_, hbase.defPoints,
      hbase.defPointsPrevious⟩
    all_goals
      have hissued : f.flag.tickIssued = g.flag.tickIssued := congrArg (fun key => key.2.2.1) hkey
    · simp only [hooks, saarctfScoreAlgorithmWithHappyHour, hissued,
        hbase.offPoints f g rank hkey hcounts]
    · simp only [hooks, saarctfScoreAlgorithmWithHappyHour, hissued,
        hbase.offPointsPrevious f g rank hkey hcounts]
  | playground =>
    refine ⟨fun f g rank hkey _ => ?_, fun f g rank _ _ => rfl, hbase.defPoints,
      hbase.defPointsPrevious⟩
    have hservice : f.flag.serviceId = g.flag.serviceId := congrArg (fun key => key.1) hkey
    have hpayload : f.flag.payload = g.flag.payload := congrArg (fun key => key.2.2.2) hkey
    simp only [hooks, playgroundScoreAlgorithm, hservice, hpayload]

/-- **Scoring a tick does not depend on the order of its flags.** -/
theorem scoring_order_independent (roster : Roster) (input : TickInput K) {flags' : List StolenFlag}
    (hperm : flags'.Perm input.flags)
    (hsame : ∀ f ∈ input.flags, ∀ g ∈ input.flags, f.flag.key = g.flag.key → SameCounts f g)
    (r : PointsDict K) :
    algorithm.calculateScoringForTick config fn roster { input with flags := flags' } = .ok r ↔
      algorithm.calculateScoringForTick config fn roster input = .ok r := by
  have hhooks : algorithm.hooks config fn flags' = algorithm.hooks config fn input.flags := by
    simp only [hooks, attackingTeamsCount_perm hperm]
  rw [calculateScoringForTick, calculateScoringForTick, hhooks]
  exact Setup.calculateScoringForTick_perm ⟨config, fn, algorithm.hooks config fn input.flags⟩
    (flagHooks algorithm config fn input.flags) roster input hperm hsame r

/-! A flag of team 3 that team 4 submitted in an earlier tick, and teams 1 and 2 in this one. -/

def fourTeams : Roster := ⟨[1, 2, 3, 4], [.new 1 0]⟩

def twoEntries : TickInput ℚ where
  tick := 2
  checkerResults := fun _ => .success
  lastTickPoints := newResultsForTick fourTeams 1
  teamRankInTick := fun _ => some 1
  flags :=
    [⟨⟨2, 1, 3, 1, 1, 0, 2, 100⟩, 1, 2, [4]⟩, ⟨⟨3, 2, 3, 1, 1, 0, 2, 101⟩, 1, 2, [4]⟩]
  slaDeltaFor := fun _ _ => some 1

theorem scoring_order_independent_twoEntries :
    saarctf.calculateScoringForTick exampleConfig exampleRoots fourTeams
        { twoEntries with flags := twoEntries.flags.reverse } =
      .ok (tickResults ⟨exampleConfig, exampleRoots, saarctfScoreAlgorithm exampleRoots⟩ fourTeams
        twoEntries) := by
  refine (scoring_order_independent saarctf exampleConfig exampleRoots fourTeams twoEntries
    (List.reverse_perm _) ?_ _).2 ?_
  · decide
  · exact calculateScoringForTick_eq (by decide) (by decide)

end ScoreAlgorithm

end Gameserver.Scoring
