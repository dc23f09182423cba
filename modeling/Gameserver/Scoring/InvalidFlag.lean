import Gameserver.Scoring.FlagOrder

/-!
# Flags reported as invalid

The `KeyError` that the loop reports as "Flag submitted for invalid team/service" can come from four
places.  If the service or the submitter's pair is unknown, nothing has happened yet.  If the victim
or an earlier submitter is unknown, the submitter already has the points, and the flag is marked as
seen.

* `scoreFlags_seen` — which flags are marked as seen.
* `scoreFlag_raised_keyError` — what is known of an entry that ends in the handler.
* `scorable_of_removed` — if the tick can be scored without the entry, it can be scored with it.
* `invalid_flag_changes_nothing_iff` — the entry leaves the results alone exactly if its submitter
  is unknown.
-/

namespace Gameserver.Scoring

variable {K : Type*} [Field K]

/-! ## The flags seen so far -/

/-- The first entries among more lists, with more flags seen, are first entries. -/
theorem newFlags_anti {seen seen' : List FlagKey} (hseen : seen ⊆ seen') {flags : List StolenFlag}
    {f : StolenFlag} (h : f ∈ newFlags seen' flags) : f ∈ newFlags seen flags := by
  induction flags generalizing seen seen' with
  | nil => exact h
  | cons flag flags ih =>
    by_cases hold : flag.flag.key ∈ seen
    · rw [newFlags, if_pos (hseen hold)] at h
      rw [newFlags, if_pos hold]
      exact ih hseen h
    · rw [newFlags, if_neg hold]
      by_cases hold' : flag.flag.key ∈ seen'
      · rw [newFlags, if_pos hold'] at h
        exact List.mem_cons_of_mem _ (ih (List.cons_subset.2 ⟨hold', hseen⟩) h)
      · rw [newFlags, if_neg hold'] at h
        rcases List.mem_cons.1 h with rfl | h
        · exact List.mem_cons_self ..
        · exact List.mem_cons_of_mem _ (ih (List.cons_subset_cons _ hseen) h)

theorem mem_newFlags_append {seen seen' : List FlagKey} {flags rest : List StolenFlag}
    (hseen : ∀ key, key ∈ seen' ↔ key ∈ seen ∨ key ∈ flags.map (·.flag.key)) {f : StolenFlag} :
    f ∈ newFlags seen (flags ++ rest) ↔ f ∈ newFlags seen flags ∨ f ∈ newFlags seen' rest := by
  induction flags generalizing seen with
  | nil =>
    have hsame : ∀ key, key ∈ seen' ↔ key ∈ seen := by simpa using hseen
    have hrest : f ∈ newFlags seen rest ↔ f ∈ newFlags seen' rest :=
      ⟨newFlags_anti fun key => (hsame key).1, newFlags_anti fun key => (hsame key).2⟩
    simpa [newFlags] using hrest
  | cons flag flags ih =>
    rw [List.cons_append, newFlags, newFlags]
    split_ifs with hold
    · refine ih fun key => ?_
      rw [hseen, List.map_cons, List.mem_cons]
      constructor
      · rintro (h | rfl | h)
        exacts [.inl h, .inl hold, .inr h]
      · rintro (h | h)
        exacts [.inl h, .inr (.inr h)]
    · have hseen' : ∀ key, key ∈ seen' ↔
          key ∈ flag.flag.key :: seen ∨ key ∈ flags.map (·.flag.key) := by
        intro key
        rw [hseen, List.map_cons, List.mem_cons, List.mem_cons]
        tauto
      rw [List.mem_cons, List.mem_cons, ih hseen', or_assoc]

section Seen

variable {S : Setup K} {ctx : FlagContext K} {d : PointsDict K}

/-- The loop marks the flags whose submitter is known as seen. -/
theorem scoreFlags_seen (hd : d.Covers ctx.roster) {flags : List StolenFlag} {seen : List FlagKey}
    {st : LoopState K} (h : scoreFlags S ctx flags ⟨d, ⟨seen⟩⟩ = .ok st) :
    st.newTickPoints.Covers ctx.roster ∧ ∀ key, key ∈ st.stolenFlags.seen ↔
      key ∈ seen ∨ key ∈ (flags.filter (entered ctx)).map (·.flag.key) := by
  induction flags generalizing d seen with
  | nil =>
    obtain rfl : (⟨d, ⟨seen⟩⟩ : LoopState K) = st := by simpa [scoreFlags] using h
    exact ⟨hd, fun key => by simp⟩
  | cons flag flags ih =>
    have hasserted := (scoreFlags_isOk_iff hd).1 ⟨st, h⟩
    rw [newFlags_entered_cons] at hasserted
    obtain ⟨seen', hstep, hseen'⟩ := scoreFlag_eq (S := S) hd seen fun hentered hnew =>
      hasserted flag (by simp [hentered, hnew])
    rw [scoreFlags, Raising.forEach_cons, hstep] at h
    obtain ⟨hcovers, hseen⟩ := ih (hd.shift _) h
    refine ⟨hcovers, fun key => ?_⟩
    rw [hseen, hseen']
    by_cases hentered : entered ctx flag = true
    · by_cases hold : flag.flag.key ∈ seen
      · simp only [hold, not_true_eq_false, and_false, if_false, hentered, List.filter_cons_of_pos,
          List.map_cons, List.mem_cons]
        constructor
        · rintro (h | h)
          exacts [.inl h, .inr (.inr h)]
        · rintro (h | rfl | h)
          exacts [.inl h, .inl hold, .inr h]
      · simp only [hold, not_false_eq_true, and_true, hentered, if_true, List.filter_cons_of_pos,
          List.map_cons, List.mem_cons]
        tauto
    · simp [hentered]

/-- If the entry of a known submitter ends in the handler, its flag is new, and the assertion
holds. -/
theorem scoreFlag_raised_keyError (hd : d.Covers ctx.roster) {flag : StolenFlag}
    {seen : List FlagKey}
    (hentered : entered ctx flag = true) {st : LoopState K}
    (h : scoreFlag S ctx ⟨d, ⟨seen⟩⟩ flag = .raised .keyError st) :
    flag.flag.key ∉ seen ∧ Asserted ctx flag := by
  have hnew : flag.flag.key ∉ seen := by
    intro hold
    have hpair := of_decide_eq_true hentered
    obtain ⟨service, hservice⟩ := Roster.serviceById_of_mem_pairs hpair
    simp [scoreFlag, hservice, flagStolenAttacker_eq (S := S) hd hservice hpair, FlagSet.isNew,
      hold] at h
  refine ⟨hnew, ?_⟩
  by_contra hnot
  obtain ⟨st', hraised⟩ := scoreFlag_of_not_asserted (S := S) hd hentered hnew hnot
  rw [h] at hraised
  cases hraised

/-- What the handler leaves behind if the victim is unknown. -/
theorem scoreFlag_of_unknown_victim (hd : d.Covers ctx.roster) {flag : StolenFlag}
    {seen : List FlagKey} (hentered : entered ctx flag = true) (hnew : flag.flag.key ∉ seen)
    (hvictim : (flag.flag.teamId, flag.flag.serviceId) ∉ ctx.roster.pairs) :
    scoreFlag S ctx ⟨d, ⟨seen⟩⟩ flag =
      .raised .keyError ⟨d.shift (attackerGain S ctx flag), ⟨flag.flag.key :: seen⟩⟩ := by
  have hpair := of_decide_eq_true hentered
  obtain ⟨service, hservice⟩ := Roster.serviceById_of_mem_pairs hpair
  simp only [scoreFlag, hservice, flagStolenAttacker_eq (S := S) hd hservice hpair,
    Raising.andThen_ok, FlagSet.isNew, hnew, if_false, if_true, flagStolenVictim,
    PointsDict.modify_unknown (hd.shift _) hvictim, Raising.andThen_raised]

end Seen

/-! ## Removing an entry -/

variable [LinearOrder K] {S : Setup K} {roster : Roster} {input : TickInput K} {flag : StolenFlag}
  {before after : List StolenFlag}

/-- The results at the start of the loop. -/
def TickInput.initialResults (S : Setup K) (roster : Roster) (input : TickInput K) : PointsDict K :=
  calculateSla S roster input (newResultsForTick roster input.tick)

theorem TickInput.initialResults_covers :
    (input.initialResults S roster).Covers (input.context S roster).roster :=
  calculateSla_covers (newResultsForTick_covers roster input.tick) input

/-- The input without an entry. -/
def TickInput.withFlags (input : TickInput K) (flags : List StolenFlag) : TickInput K :=
  { input with flags := flags }

/-- The entries of unknown submitters can go. -/
theorem calculateScoringForTick_of_filter_eq {flags : List StolenFlag}
    (h : flags.filter (entered (input.context S roster)) =
      input.flags.filter (entered (input.context S roster))) (r : PointsDict K) :
    S.calculateScoringForTick roster input = .ok r ↔
      S.calculateScoringForTick roster (input.withFlags flags) = .ok r := by
  have hscorable : Scorable S roster (input.withFlags flags) ↔ Scorable S roster input := by
    constructor
    · exact fun hs => ⟨h ▸ hs.asserted, hs.last⟩
    · exact fun hs => ⟨h.symm ▸ hs.asserted, hs.last⟩
  have hdelta : tickDelta S roster (input.withFlags flags) = tickDelta S roster input := by
    have hcontext : (input.withFlags flags).context S roster = input.context S roster := rfl
    rw [tickDelta, tickDelta, flagsDelta, flagsDelta, hcontext]
    simp only [TickInput.withFlags, h]
  have hresults : tickResults S roster (input.withFlags flags) = tickResults S roster input := by
    funext key
    rw [tickResults, tickResults, hdelta]
    rfl
  rw [calculateScoringForTick_eq_ok_iff, calculateScoringForTick_eq_ok_iff, hscorable, hresults]

/-- **If the tick can be scored without an entry that ends in the handler, it can be scored with
it.** -/
theorem scorable_of_removed (hflags : input.flags = before ++ flag :: after) {st st' : LoopState K}
    (hbefore : scoreFlags S (input.context S roster) before
      ⟨input.initialResults S roster, .empty⟩ = .ok st)
    (hraised : scoreFlag S (input.context S roster) st flag = .raised .keyError st')
    (hentered : entered (input.context S roster) flag = true)
    (h : Scorable S roster (input.withFlags (before ++ after))) : Scorable S roster input := by
  obtain ⟨hcovers, hseen⟩ := scoreFlags_seen TickInput.initialResults_covers hbefore
  obtain ⟨hnew, hasserted⟩ := scoreFlag_raised_keyError hcovers hentered hraised
  refine ⟨fun f hf => ?_, h.last⟩
  have hold : ∀ f ∈ newFlags [] ((before ++ after).filter (entered (input.context S roster))),
      Asserted (input.context S roster) f := h.asserted
  rw [hflags, List.filter_append, mem_newFlags_append hseen,
    List.filter_cons_of_pos hentered, newFlags, if_neg hnew, List.mem_cons] at hf
  rw [List.filter_append] at hold
  rcases hf with hf | rfl | hf
  · exact hold f ((mem_newFlags_append hseen).2 (.inl hf))
  · exact hasserted
  · exact hold f ((mem_newFlags_append hseen).2
      (.inr (newFlags_anti (List.subset_cons_self _ _) hf)))

/-- An entry of a known submitter counts as a captured flag. -/
theorem results_ne_of_entered (hflags : input.flags = before ++ flag :: after)
    (hentered : entered (input.context S roster) flag = true)
    (hscorable : Scorable S roster input) :
    ¬ ∀ r, S.calculateScoringForTick roster input = .ok r ↔
      S.calculateScoringForTick roster (input.withFlags (before ++ after)) = .ok r := by
  intro h
  have hresults : tickResults S roster input =
      tickResults S roster (input.withFlags (before ++ after)) :=
    (calculateScoringForTick_eq_ok_iff.1
      ((h _).1 (calculateScoringForTick_eq_ok_iff.2 ⟨hscorable, rfl⟩))).2
  have hpair : (flag.flag.submittedBy, flag.flag.serviceId) ∈ roster.pairs :=
    of_decide_eq_true hentered
  obtain ⟨lr, hlr⟩ := Option.isSome_iff_exists.1 (hscorable.last _ hpair)
  have hlr' : (input.withFlags (before ++ after)).lastTickPoints
      (flag.flag.submittedBy, flag.flag.serviceId) = some lr := hlr
  have hcounts := congrFun hresults (flag.flag.submittedBy, flag.flag.serviceId)
  rw [tickResults, tickResults, if_pos hpair, if_pos hpair, hlr, hlr', Option.map_some,
    Option.map_some, Option.some.injEq, TeamPointsLite.mk.injEq] at hcounts
  have hcaptured := hcounts.2.2.2.1
  rw [tickDelta_captured hpair, tickDelta_captured hpair, hflags] at hcaptured
  simp [TickInput.withFlags] at hcaptured

/-- **A flag that is reported as invalid changes nothing exactly if its submitter or its service is
unknown**, or if the tick cannot be scored at all. -/
theorem invalid_flag_changes_nothing_iff (hflags : input.flags = before ++ flag :: after)
    {st st' : LoopState K}
    (hbefore : scoreFlags S (input.context S roster) before
      ⟨input.initialResults S roster, .empty⟩ = .ok st)
    (hraised : scoreFlag S (input.context S roster) st flag = .raised .keyError st') :
    (∀ r, S.calculateScoringForTick roster input = .ok r ↔
        S.calculateScoringForTick roster (input.withFlags (before ++ after)) = .ok r) ↔
      (Scorable S roster input → (flag.flag.submittedBy, flag.flag.serviceId) ∉ roster.pairs) := by
  by_cases hpair : (flag.flag.submittedBy, flag.flag.serviceId) ∈ roster.pairs
  · have hentered : entered (input.context S roster) flag = true := decide_eq_true hpair
    constructor
    · exact fun h hscorable => absurd h (results_ne_of_entered hflags hentered hscorable)
    · intro h r
      have hnot : ¬ Scorable S roster input := fun hscorable => h hscorable hpair
      rw [calculateScoringForTick_eq_ok_iff, calculateScoringForTick_eq_ok_iff]
      constructor
      · exact fun hs => absurd hs.1 hnot
      · exact fun hs => absurd (scorable_of_removed hflags hbefore hraised hentered hs.1) hnot
  · have hunknown : ¬ entered (input.context S roster) flag = true := fun h =>
      hpair (of_decide_eq_true h)
    refine iff_of_true (calculateScoringForTick_of_filter_eq ?_) fun _ => hpair
    rw [hflags, List.filter_append, List.filter_append, List.filter_cons_of_neg hunknown]

/-! Four teams and one service; a flag of an unknown team, and a flag of an unknown submitter. -/

open ScoreAlgorithm (fourTeams)

def plainSaarctf : Setup ℚ := ⟨exampleConfig, exampleRoots, saarctfScoreAlgorithm exampleRoots⟩

def oneEntry (submittedBy teamId : ℕ) : StolenFlag :=
  ⟨⟨2, submittedBy, teamId, 1, 1, 0, 2, 100⟩, 0, 1, []⟩

def oneEntryInput (submittedBy teamId : ℕ) : TickInput ℚ where
  tick := 2
  checkerResults := fun _ => .success
  lastTickPoints := newResultsForTick fourTeams 1
  teamRankInTick := fun _ => some 1
  flags := [] ++ oneEntry submittedBy teamId :: []
  slaDeltaFor := fun _ _ => some 1

/-- The flag of a team that is not there changes nothing. -/
theorem invalid_flag_of_unknown_submitter :
    ∃ r, plainSaarctf.calculateScoringForTick fourTeams (oneEntryInput 9 3) = .ok r ∧
      plainSaarctf.calculateScoringForTick fourTeams ((oneEntryInput 9 3).withFlags ([] ++ [])) =
        .ok r := by
  have hunknown : (9, 1) ∉ fourTeams.pairs := by decide
  have hflags : (oneEntryInput 9 3).flags = [] ++ oneEntry 9 3 :: [] := rfl
  have hscorable : Scorable plainSaarctf fourTeams (oneEntryInput 9 3) := by
    refine ⟨fun flag hflag => ?_, by decide⟩
    have hentered := List.mem_filter.1 (newFlags_subset hflag)
    obtain rfl : flag = oneEntry 9 3 := List.mem_singleton.1 hentered.1
    exact absurd (of_decide_eq_true hentered.2) hunknown
  have hresult := calculateScoringForTick_eq_ok_iff.2 ⟨hscorable, rfl⟩
  have hsame : ∀ r, plainSaarctf.calculateScoringForTick fourTeams (oneEntryInput 9 3) = .ok r ↔
      plainSaarctf.calculateScoringForTick fourTeams ((oneEntryInput 9 3).withFlags ([] ++ [])) =
        .ok r :=
    (invalid_flag_changes_nothing_iff hflags rfl (scoreFlag_of_unknown_submitter
      TickInput.initialResults_covers hunknown _)).2 fun _ => hunknown
  exact ⟨_, hresult, (hsame _).1 hresult⟩

/-- Team 1 keeps the points for a flag of the unknown team 9. -/
theorem invalid_flag_is_counted :
    (∃ st', scoreFlag plainSaarctf ((oneEntryInput 1 9).context plainSaarctf fourTeams)
      ⟨(oneEntryInput 1 9).initialResults plainSaarctf fourTeams, .empty⟩ (oneEntry 1 9) =
        .raised .keyError st') ∧
    ¬ ∀ r, plainSaarctf.calculateScoringForTick fourTeams (oneEntryInput 1 9) = .ok r ↔
      plainSaarctf.calculateScoringForTick fourTeams ((oneEntryInput 1 9).withFlags ([] ++ [])) =
        .ok r := by
  have hsubmitter : (1, 1) ∈ fourTeams.pairs := by decide
  have hvictim : (9, 1) ∉ fourTeams.pairs := by decide
  have hentered : entered ((oneEntryInput 1 9).context plainSaarctf fourTeams) (oneEntry 1 9) =
    true :=
    decide_eq_true hsubmitter
  have hflags : (oneEntryInput 1 9).flags = [] ++ oneEntry 1 9 :: [] := rfl
  constructor
  · exact ⟨_, scoreFlag_of_unknown_victim TickInput.initialResults_covers hentered
      List.not_mem_nil hvictim⟩
  · refine results_ne_of_entered hflags hentered ⟨fun flag hflag => ?_, by decide⟩
    obtain rfl : flag = oneEntry 1 9 :=
      List.mem_singleton.1 (List.mem_of_mem_filter (newFlags_subset hflag))
    exact fun h _ => absurd h hvictim

end Gameserver.Scoring
