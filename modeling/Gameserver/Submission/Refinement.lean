import Gameserver.Submission.Server

/-!
# Is the flag cache a pure optimisation?

A server with cache and one without it run under the same schedule, with the same outcomes
of the INSERTs.  "definitive not new", says the cache; but it remembers a flag when it is
looked up, before the database has it, its cells start with the key of round 0 and payload 0,
and while it is resized its sizes are not those of its table.

* `PureOptimisation` — the same answers, the same table, and "already submitted" for
  stored flags only.
* `Settled` — where a flag is looked up twice in a row, its INSERT was carried out in between.
* `Truthful.step` — then what the cache answers is true.
* `Agree.step` — and the servers stay in agreement.
* `pureOptimisation_of_settled` — **a cache that is asked only for settled flags, and not
  while it is resized, is a pure optimisation**, in every run; `not_pureOptimisation` shows four
  runs in which it is not.
-/

namespace Gameserver.Submission

open Server

/-- Two lookups in one cell of the cache. -/
def sameCell (a b : UInt16 × FlagFormat) : Bool :=
  a.1 = b.1 ∧ a.2.teamId = b.2.teamId ∧ a.2.serviceId = b.2.serviceId ∧
    a.2.round.toNat % roundBuckets = b.2.round.toNat % roundBuckets ∧
    a.2.payload.toNat % payloadBuckets = b.2.payload.toNat % payloadBuckets

/-- Round and payload of the last flag that was looked up in the cell of this one.  A cell
that is not used yet looks like round 0 and payload 0. -/
def lastLookup (lookups : List (UInt16 × FlagFormat)) (call : UInt16 × FlagFormat) :
    UInt16 × UInt16 :=
  match lookups.find? (sameCell call) with
  | some last => (last.2.round, last.2.payload)
  | none => (0, 0)

/-- If the last lookup in the cell since the last reset was for the same flag, then an INSERT of
the flag has been executed before, or has failed after it had stored the row. -/
def Settled (s : Server) (call : UInt16 × FlagFormat) : Prop :=
  lastLookup s.lookups call = (call.2.round, call.2.payload) → call.2.key call.1 ∈ s.carriedOut

instance (s : Server) (call : UInt16 × FlagFormat) : Decidable (Settled s call) :=
  inferInstanceAs (Decidable (_ → _))

/-- The flag that a worker is about to look up in the cache, and the resizes that had begun when
it found the cell. -/
def Phase.asking : Phase → Option ((UInt16 × FlagFormat) × ℕ)
  | .located team flag (some _) resets => some ((team, flag), resets)
  | _ => none

/-- The cache is not asked while it is resized, from finding the cell to its exchange; only
flags that are settled are looked up; and the sizes of the cache fit. -/
def AsksSettled (s : Server) : Event → Prop
  | .lookup _ => s.resizing = none
  | .exchange worker => ∀ call ∈ (s.workers worker).asking, call.2 = s.resets ∧ Settled s call.1
  | .initModelSizes maxTeamId maxServiceId => FlagCache.SizesFit maxTeamId maxServiceId
  | _ => True

instance (s : Server) (e : Event) : Decidable (AsksSettled s e) :=
  match e with
  | .lookup _ => inferInstanceAs (Decidable (s.resizing = none))
  | .exchange worker =>
    inferInstanceAs (Decidable (∀ call ∈ (s.workers worker).asking, _ ∧ Settled s call.1))
  | .initModelSizes maxTeamId maxServiceId =>
    inferInstanceAs (Decidable (FlagCache.SizesFit maxTeamId maxServiceId))
  | .submit .. | .readRound _ | .insert .. | .count _ | .answer _ | .resize .. | .setCurrentState _
  | .setCurrentRound _ => inferInstanceAs (Decidable True)

/-- The cache has answered the call, and there is no INSERT for it. -/
def Phase.hit : Phase → Bool
  | .submitting _ _ false _ => true
  | _ => false

/-- The outcomes are those of the server with cache: an INSERT that it does not make does
not fail. -/
def SameOutcomes (s : Server) : Event → Prop
  | .insert worker (.failed _) => (s.workers worker).hit = false
  | _ => True

instance (s : Server) (e : Event) : Decidable (SameOutcomes s e) :=
  match e with
  | .insert worker (.failed _) => inferInstanceAs (Decidable ((s.workers worker).hit = false))
  | .insert _ .executed | .submit .. | .lookup _ | .exchange _ | .readRound _ | .count _ | .answer _
  | .initModelSizes .. | .resize .. | .setCurrentState _ | .setCurrentRound _ =>
    inferInstanceAs (Decidable True)

/-- At every time of the run, the server with cache has given the same answers as the one
without, has the same table, and has said "already submitted" for stored flags only. -/
def PureOptimisation (config : Config) (es : List Event) : Prop :=
  ∀ es₁, es₁ <+: es →
    (∀ r ∈ (Machine.exec (step true config) .initial es₁).replies, r.answer = .alreadySubmitted →
      (Machine.exec (step true config) .initial es₁).table.Stored (r.flag.key r.team)) ∧
    (Machine.exec (step true config) .initial es₁).replies =
      (Machine.exec (step false config) .initial es₁).replies ∧
    (Machine.exec (step true config) .initial es₁).table =
      (Machine.exec (step false config) .initial es₁).table

/-! ## The table -/

section Table

variable {table : Table} {row : Row} {key : RowKey}

/-- Rows are never lost. -/
theorem Table.Stored.insert (h : table.Stored key) (row : Row) (outcome : Outcome) :
    (table.insert row outcome).Stored key := by
  obtain ⟨r, hr, hkey⟩ := h
  refine ⟨r, ?_, hkey⟩
  rw [Table.insert_rows]
  exact List.mem_append_left _ hr

/-- "Already submitted" is right if the database says so. -/
theorem stored_of_submitAnswer {outcome : Outcome}
    (h : submitAnswer (table.insertFlag row outcome) = .alreadySubmitted) :
    table.Stored row.key := by
  cases outcome with
  | executed =>
    by_contra hnot
    simp [Table.insertFlag, hnot, submitAnswer] at h
  | failed stored => simp [Table.insertFlag, submitAnswer] at h

/-- An INSERT that is carried out leaves its row in the table. -/
theorem stored_insert {outcome : Outcome} (h : outcome.stores = true) :
    (table.insert row outcome).Stored row.key := by
  by_cases hold : table.Stored row.key
  · exact hold.insert row outcome
  · have hnew : table.newRow row outcome = some row := by
      cases outcome with
      | executed => simp [Table.newRow, hold]
      | failed stored =>
        obtain rfl : stored = true := h
        simp [Table.newRow, hold]
    refine ⟨row, ?_, rfl⟩
    rw [Table.insert_rows, hnew]
    exact List.mem_append_right _ (List.mem_singleton_self row)

theorem insert_of_stored (h : table.Stored row.key) : table.insert row .executed = table := by
  have hnone : table.newRow row .executed = none := by simp [Table.newRow, h]
  unfold Table.insert
  split
  · rfl
  · rename_i row' hrow
    rw [hnone] at hrow
    cases hrow

end Table

/-- The checks never say "already submitted". -/
theorem checks_ne_alreadySubmitted {config : Config} {globals : Globals} {source : UInt16}
    {flag : FlagFormat} : checks config globals source flag ≠ .error .alreadySubmitted := by
  have hgame : ∀ thisTeam, gameChecks config globals thisTeam flag ≠ some .alreadySubmitted := by
    intro thisTeam
    unfold gameChecks
    repeat' split
    all_goals simp
  have htest : ∀ team, answerTestFlag config globals flag team ≠ .alreadySubmitted := by
    intro team
    unfold answerTestFlag
    repeat' split
    all_goals simp
  intro h
  unfold checks at h
  dsimp only at h
  split at h
  · cases h
  split at h
  · cases h
  split at h
  · rename_i answer hanswer
    obtain rfl : answer = .alreadySubmitted := by simpa using h
    split at hanswer
    · cases hanswer
    · exact hgame _ hanswer
  · split at h
    · cases h
    split at h
    · exact htest _ (by simpa using h)
    · cases h

/-! ## The cache -/

section Cells

variable {c : FlagCache} {lookups : List (UInt16 × FlagFormat)} {team : UInt16} {flag : FlagFormat}

/-- The cells hold what was looked up last. -/
def CellsOk (c : FlagCache) (lookups : List (UInt16 × FlagFormat)) : Prop :=
  ∀ team flag, c.InBounds team flag.teamId flag.serviceId →
    c.cells (c.index team flag.teamId flag.serviceId flag.round flag.payload) =
      FlagCache.cacheKey (lastLookup lookups (team, flag)).1 (lastLookup lookups (team, flag)).2

theorem cellsOk_nil {c : FlagCache} (h : ∀ i, c.cells i = 0) : CellsOk c [] :=
  fun _ _ _ => (h _).trans (show 0 = FlagCache.cacheKey 0 0 by decide)

theorem lastLookup_cons (call call' : UInt16 × FlagFormat) :
    lastLookup (call :: lookups) call' =
      if sameCell call' call then (call.2.round, call.2.payload) else lastLookup lookups call' := by
  unfold lastLookup
  rw [List.find?_cons]
  cases sameCell call' call <;> rfl

/-- A lookup keeps the cells right. -/
theorem CellsOk.update (h : CellsOk c lookups)
    (hfit : FlagCache.SizesFit c.teamCount c.serviceCount)
    (hin : c.InBounds team flag.teamId flag.serviceId) :
    CellsOk { c with
      cells := Function.update c.cells
        (c.index team flag.teamId flag.serviceId flag.round flag.payload)
        (FlagCache.cacheKey flag.round flag.payload) } ((team, flag) :: lookups) := by
  intro team' flag' hin'
  rw [lastLookup_cons]
  by_cases hindex : c.index team' flag'.teamId flag'.serviceId flag'.round flag'.payload =
      c.index team flag.teamId flag.serviceId flag.round flag.payload
  · obtain ⟨hteam, hvictim, hservice, hround, hpayload⟩ :=
      FlagCache.index_inj hfit hin' hin hindex
    have hsame : sameCell (team', flag') (team, flag) = true := by
      simp [sameCell, hteam, hvictim, hservice, hround, hpayload]
    rw [if_pos hsame]
    exact (congrArg _ hindex).trans (Function.update_self ..)
  · have hother : ¬ sameCell (team', flag') (team, flag) = true := by
      intro hsame
      simp only [sameCell, decide_eq_true_eq] at hsame
      obtain ⟨hteam, hvictim, hservice, hround, hpayload⟩ := hsame
      refine hindex ?_
      unfold FlagCache.index
      rw [hteam, hvictim, hservice, hround, hpayload]
    rw [if_neg hother]
    exact (Function.update_of_ne hindex _ _).trans (h team' flag' hin')

/-- A lookup hits only what was looked up last. -/
theorem CellsOk.lastLookup_of_hit (h : CellsOk c lookups)
    (hin : c.InBounds team flag.teamId flag.serviceId)
    (hhit : c.cells (c.index team flag.teamId flag.serviceId flag.round flag.payload) =
      FlagCache.cacheKey flag.round flag.payload) :
    lastLookup lookups (team, flag) = (flag.round, flag.payload) := by
  rw [h team flag hin] at hhit
  obtain ⟨hround, hpayload⟩ := FlagCache.cacheKey_inj hhit
  exact Prod.ext hround hpayload

end Cells

/-- The cache between two steps: only the cells that are not cleared yet hold anything else than
what was looked up. -/
def CacheOk (c : FlagCache) (lookups : List (UInt16 × FlagFormat)) :
    Option FlagCache.Resize → Prop
  | none => c.Allocated ∧ CellsOk c lookups
  | some (.begun teamCount serviceCount) => FlagCache.SizesFit teamCount serviceCount
  | some (.teamCountSet teamCount serviceCount) =>
    FlagCache.SizesFit teamCount serviceCount ∧ c.teamCount = teamCount
  | some (.sizesSet teamCount serviceCount) =>
    FlagCache.SizesFit teamCount serviceCount ∧ c.teamCount = teamCount ∧
      c.serviceCount = serviceCount
  | some (.clearing next) =>
    c.Allocated ∧ lookups = [] ∧ ∀ i, c.cells i ≠ 0 → next ≤ i ∧ i < c.size

theorem CacheOk.step {c : FlagCache} {lookups : List (UInt16 × FlagFormat)}
    {progress : FlagCache.Resize} (h : CacheOk c lookups (some progress)) (memory : List UInt32)
    (count : ℕ) :
    CacheOk (progress.step c memory count).1 (if progress.isAllocation then [] else lookups)
      (progress.step c memory count).2 := by
  cases progress with
  | begun teamCount serviceCount => exact ⟨h, rfl⟩
  | teamCountSet teamCount serviceCount => exact ⟨h.1, h.2, rfl⟩
  | sizesSet teamCount serviceCount =>
    obtain ⟨hfit, rfl, rfl⟩ := h
    refine ⟨⟨hfit, Nat.mod_eq_of_lt hfit⟩, rfl, fun i hi => ?_⟩
    have hlt : i < FlagCache.newSize c.teamCount c.serviceCount := by
      by_contra hout
      exact hi (if_neg hout)
    exact ⟨i.zero_le, hlt⟩
  | clearing next =>
    obtain ⟨halloc, rfl, hcells⟩ := h
    have hcleared : ∀ i, (c.clear next count).cells i ≠ 0 → next + count ≤ i ∧ i < c.size := by
      intro i hi
      have hkept : ¬ (next ≤ i ∧ i < next + count) := fun hin => hi (if_pos hin)
      have hold : (c.clear next count).cells i = c.cells i := if_neg hkept
      obtain ⟨hnext, hsize⟩ := hcells i (hold ▸ hi)
      omega
    by_cases hdone : c.size ≤ next + count
    · simp only [FlagCache.Resize.step, if_pos hdone]
      refine ⟨⟨halloc.fit, halloc.size⟩, cellsOk_nil fun i => ?_⟩
      by_contra hi
      have := hcleared i hi
      omega
    · simp only [FlagCache.Resize.step, if_neg hdone]
      exact ⟨⟨halloc.fit, halloc.size⟩, rfl, hcleared⟩

/-! ## The server with cache -/

/-- The flag of a call that is, or will be, answered "already submitted". -/
def Phase.answered : Phase → Option RowKey
  | .lookedUp team flag false => some (flag.key team)
  | .submitting team flag false _ => some (flag.key team)
  | .counting team _ flag .alreadySubmitted => some (flag.key team)
  | .answering team flag .alreadySubmitted => some (flag.key team)
  | _ => none

/-- A cell that was found after the last resize is the one of the flag. -/
def Phase.Located (s : Server) : Phase → Prop
  | .located team flag (some index) resets =>
    resets ≤ s.resets ∧ (resets = s.resets → s.resizing = none ∧
      s.cache.InBounds team flag.teamId flag.serviceId ∧
      index = s.cache.index team flag.teamId flag.serviceId flag.round flag.payload)
  | _ => True

/-- Cells that were found before the last resize do not count, and none is found during one. -/
theorem Phase.Located.of_stale {s t : Server} {phase : Phase} (h : phase.Located s)
    (hresets : s.resets ≤ t.resets) (hstale : t.resets = s.resets → s.resizing ≠ none) :
    phase.Located t := by
  unfold Phase.Located at h ⊢
  split at h
  · rename_i team flag index resets
    obtain ⟨hle, hlocated⟩ := h
    refine ⟨hle.trans hresets, fun heq => ?_⟩
    have hsame : t.resets = s.resets := by omega
    exact absurd (hlocated (heq.trans hsame)).1 (hstale hsame)
  · trivial

/-- "Already submitted" is said for stored flags only. -/
structure Truthful (s : Server) : Prop where
  cache : CacheOk s.cache s.lookups s.resizing
  located : ∀ w, (s.workers w).Located s
  answered : ∀ w key, (s.workers w).answered = some key → s.table.Stored key
  carriedOut : ∀ key ∈ s.carriedOut, s.table.Stored key
  replies : ∀ r ∈ s.replies, r.answer = .alreadySubmitted → s.table.Stored (r.flag.key r.team)

namespace Truthful

variable {config : Config} {s : Server} {worker : ℕ} {team : UInt16} {flag : FlagFormat}

theorem initial : Truthful .initial where
  cache := ⟨FlagCache.allocated_initial, cellsOk_nil fun _ => rfl⟩
  located _ := trivial
  answered _ _ h := by cases h
  carriedOut _ h := by cases h
  replies _ h := by cases h

theorem goto (h : Truthful s) (worker : ℕ) {phase : Phase} (hlocated : phase.Located s)
    (hphase : ∀ key, phase.answered = some key → s.table.Stored key) :
    Truthful (s.goto worker phase) where
  cache := h.cache
  located w := by
    by_cases hw : w = worker
    · subst hw
      rw [show (s.goto w phase).workers w = phase from Function.update_self ..]
      exact hlocated
    · rw [show (s.goto worker phase).workers w = s.workers w from Function.update_of_ne hw ..]
      exact h.located w
  answered w key hkey := by
    by_cases hw : w = worker
    · subst hw
      exact hphase key (by simpa [Server.goto] using hkey)
    · exact h.answered w key (by simpa [Server.goto, hw] using hkey)
  carriedOut := h.carriedOut
  replies := h.replies

theorem reply (h : Truthful s) {r : Reply}
    (hr : r.answer = .alreadySubmitted → s.table.Stored (r.flag.key r.team)) :
    Truthful (s.reply r) :=
  have hidle : Truthful (s.goto r.worker .idle) :=
    h.goto r.worker trivial fun _ hkey => by cases hkey
  { hidle with
    replies := fun r' hr' hanswer => by
      rcases List.mem_append.1 hr' with hr' | hr'
      · exact h.replies r' hr' hanswer
      · obtain rfl := List.mem_singleton.1 hr'
        exact hr hanswer }

/-- An answer that is not the cache's. -/
theorem count (h : Truthful s) (worker : ℕ) (thisTeam : UInt16) {answer : Answer}
    (hanswer : answer = .alreadySubmitted → s.table.Stored (flag.key team)) :
    Truthful (s.goto worker (.counting team thisTeam flag answer)) := by
  refine h.goto worker trivial fun key hkey => ?_
  cases answer with
  | alreadySubmitted =>
    obtain rfl : flag.key team = key := Option.some.inj hkey
    exact hanswer rfl
  | _ => cases hkey

theorem withTable (h : Truthful s) {table : Table} {carriedOut : List RowKey}
    (htable : ∀ key, s.table.Stored key → table.Stored key)
    (hcarriedOut : ∀ key ∈ carriedOut, table.Stored key) :
    Truthful { s with table := table, carriedOut := carriedOut } :=
  { h with
    answered := fun w key hkey => htable key (h.answered w key hkey)
    carriedOut := hcarriedOut
    replies := fun r hr hanswer => htable _ (h.replies r hr hanswer) }

/-- A lookup of a settled flag, in a cell that is still the right one. -/
theorem exchange (h : Truthful s) {index resets : ℕ}
    (hworker : s.workers worker = .located team flag (some index) resets)
    (hresets : resets = s.resets) (hsettled : Settled s (team, flag)) :
    ∃ isNew cells, s.exchange worker team flag (some index) =
        { s with
          cache := { s.cache with cells := cells }
          lookups := (team, flag) :: s.lookups }.goto worker (.lookedUp team flag isNew) ∧
      Truthful (s.exchange worker team flag (some index)) := by
  have hlocated := h.located worker
  rw [hworker] at hlocated
  obtain ⟨hresizing, hin, rfl⟩ := hlocated.2 hresets
  have hcache := h.cache
  rw [hresizing] at hcache
  obtain ⟨halloc, hcells⟩ := hcache
  set index := s.cache.index team flag.teamId flag.serviceId flag.round flag.payload
  set key := FlagCache.cacheKey flag.round flag.payload
  set next : Server :=
    { s with
      cache := { s.cache with cells := Function.update s.cache.cells index key }
      lookups := (team, flag) :: s.lookups }
  have hexchange : s.exchange worker team flag (some index) =
      next.goto worker (.lookedUp team flag (decide (s.cache.cells index ≠ key))) := by
    simp only [Server.exchange, index, key, halloc.exchange hin]
    rfl
  have hnext : Truthful next := by
    refine ⟨?_, h.located, h.answered, h.carriedOut, h.replies⟩
    rw [show next.resizing = none from hresizing]
    exact ⟨⟨halloc.fit, halloc.size⟩, hcells.update halloc.fit hin⟩
  refine ⟨_, _, hexchange, ?_⟩
  rw [hexchange]
  refine hnext.goto worker trivial fun rowKey hanswered => ?_
  by_cases hhit : s.cache.cells index = key
  · obtain rfl : flag.key team = rowKey := by simpa [hhit, Phase.answered] using hanswered
    exact h.carriedOut _ (hsettled (hcells.lastLookup_of_hit hin hhit))
  · simp [hhit, Phase.answered] at hanswered

/-- The answer of the database is true, and where the cache has answered, its answer is. -/
theorem insert (h : Truthful s) {isNew : Bool} {round : ℤ} {outcome : Outcome}
    (hstored : isNew = false → s.table.Stored (flag.key team)) :
    Truthful (s.insert worker team flag isNew round outcome) := by
  cases isNew with
  | true =>
    have htable : Truthful
        { s with
          table := s.table.insert
            ⟨team, flag.teamId, flag.serviceId, flag.round, flag.payload, round⟩ outcome
          carriedOut :=
            if outcome.stores then flag.key team :: s.carriedOut else s.carriedOut } := by
      refine h.withTable (fun key hkey => hkey.insert _ outcome) fun key hkey => ?_
      split at hkey
      · rename_i hstores
        rcases List.mem_cons.1 hkey with rfl | hold
        · exact stored_insert hstores
        · exact (h.carriedOut key hold).insert _ outcome
      · exact (h.carriedOut key hkey).insert _ outcome
    exact htable.count worker team fun hanswer => (stored_of_submitAnswer hanswer).insert _ outcome
  | false => exact h.count worker team fun _ => hstored rfl

/-- **One event**: what the cache says is true. -/
theorem step (h : Truthful s) (e : Event) (hsettled : AsksSettled s e) :
    Truthful (s.step true config e) := by
  cases e with
  | submit worker source flag =>
    simp only [Server.step]
    split
    · split
      · rename_i answer hchecks
        refine h.count worker _ fun hanswer => ?_
        rw [hanswer] at hchecks
        exact absurd hchecks checks_ne_alreadySubmitted
      · exact h.goto worker trivial fun _ hkey => by cases hkey
    · exact h
  | lookup worker =>
    simp only [Server.step]
    split
    · rename_i team flag _
      refine h.goto worker ?_ fun _ hkey => by cases hkey
      by_cases hin : s.cache.InBounds team flag.teamId flag.serviceId
      · simp only [cell, if_true, FlagCache.cell, not_true, hin, if_false]
        exact ⟨le_rfl, fun _ => ⟨hsettled, hin, rfl⟩⟩
      · simp only [cell, if_true, FlagCache.cell, hin, not_false_eq_true]
        trivial
    · exact h
  | exchange worker =>
    simp only [Server.step]
    split
    · rename_i team flag cell resets hworker
      cases cell with
      | none => exact h.goto worker trivial fun _ hkey => by cases hkey
      | some index =>
        obtain ⟨hresets, hlast⟩ := hsettled ((team, flag), resets) (by simp [hworker, Phase.asking])
        obtain ⟨_, _, -, htruthful⟩ := h.exchange hworker hresets hlast
        exact htruthful
    · exact h
  | readRound worker =>
    simp only [Server.step]
    split
    · rename_i team flag isNew hworker
      refine h.goto worker trivial fun key hkey => h.answered worker key ?_
      rw [hworker]
      cases isNew <;> exact hkey
    · exact h
  | insert worker outcome =>
    simp only [Server.step]
    split
    · rename_i team flag isNew round hworker
      refine h.insert fun hold => h.answered worker _ ?_
      rw [hworker, hold]
      rfl
    · exact h
  | count worker =>
    simp only [Server.step]
    split
    · rename_i source thisTeam flag answer hworker
      refine h.goto worker trivial fun key hkey => h.answered worker key ?_
      rw [hworker]
      cases answer <;> exact hkey
    · exact h
  | answer worker =>
    simp only [Server.step]
    split
    · rename_i source flag answer hworker
      refine h.reply fun hanswer => h.answered worker _ ?_
      obtain rfl : answer = .alreadySubmitted := hanswer
      rw [hworker]
      rfl
    · exact h
  | initModelSizes maxTeamId maxServiceId =>
    simp only [Server.step]
    split
    · refine ⟨hsettled, fun w => ?_, h.answered, h.carriedOut, h.replies⟩
      exact (h.located w).of_stale (Nat.le_succ _) fun heq => absurd heq (Nat.succ_ne_self _)
    · exact h
  | resize memory count =>
    simp only [Server.step]
    split
    · exact h
    · rename_i progress hresizing
      have hcache := h.cache
      rw [hresizing] at hcache
      refine ⟨hcache.step memory count, fun w => ?_, h.answered, h.carriedOut, h.replies⟩
      exact (h.located w).of_stale le_rfl fun _ hnone => by simp [hresizing] at hnone
  | setCurrentState state => exact { h with }
  | setCurrentRound round => exact { h with }

end Truthful

/-! ## The two servers -/

/-- The phase of the worker of a server without cache. -/
def Phase.forget : Phase → Phase
  | .located team flag _ resets => .located team flag none resets
  | .lookedUp team flag _ => .lookedUp team flag true
  | .submitting team flag _ round => .submitting team flag true round
  | phase => phase

/-- A server with cache and one without it are in agreement: they differ only in what the cache
is asked and has answered. -/
structure Agree (s t : Server) : Prop where
  globals : t.globals = s.globals
  size : t.cache.size = s.cache.size
  resizing : t.resizing = s.resizing
  resets : t.resets = s.resets
  workers : ∀ w, t.workers w = (s.workers w).forget
  table : t.table = s.table
  replies : t.replies = s.replies

namespace Agree

variable {config : Config} {s t : Server} {worker : ℕ}

theorem initial : Agree .initial .initial :=
  ⟨rfl, rfl, rfl, rfl, fun _ => rfl, rfl, rfl⟩

theorem goto (h : Agree s t) (worker : ℕ) (phase : Phase) :
    Agree (s.goto worker phase) (t.goto worker phase.forget) :=
  { h with
    workers := fun w => by
      by_cases hw : w = worker
      · subst hw
        simp [Server.goto]
      · simpa [Server.goto, hw] using h.workers w }

theorem reply (h : Agree s t) (r : Reply) : Agree (s.reply r) (t.reply r) :=
  { h.goto r.worker .idle with replies := congrArg (· ++ [r]) h.replies }

theorem withCells (h : Agree s t) (cells : ℕ → UInt32) (lookups : List (UInt16 × FlagFormat)) :
    Agree { s with cache := { s.cache with cells := cells }, lookups := lookups } t :=
  { h with size := h.size }

theorem withTable (h : Agree s t) (table : Table) (carriedOut carriedOut' : List RowKey) :
    Agree { s with table := table, carriedOut := carriedOut }
      { t with table := table, carriedOut := carriedOut' } :=
  { h with table := rfl }

/-- The INSERT: where the cache has answered, it is in conflict. -/
theorem insert (h : Agree s t) {team : UInt16} {flag : FlagFormat} {isNew : Bool} {round : ℤ}
    {outcome : Outcome} (hstored : isNew = false → s.table.Stored (flag.key team))
    (houtcome : isNew = false → outcome = .executed) :
    Agree (s.insert worker team flag isNew round outcome)
      (t.insert worker team flag true round outcome) := by
  cases isNew with
  | true =>
    simp only [Server.insert, if_true, h.table]
    exact (h.withTable _ _ _).goto worker _
  | false =>
    have hkey : s.table.Stored (Row.key ⟨team, flag.teamId, flag.serviceId, flag.round,
        flag.payload, round⟩) := hstored rfl
    have hconflict : submitAnswer (s.table.insertFlag ⟨team, flag.teamId, flag.serviceId,
        flag.round, flag.payload, round⟩ .executed) = .alreadySubmitted := by
      simp [Table.insertFlag, hkey, submitAnswer]
    simp only [Server.insert, if_true, h.table, houtcome rfl, insert_of_stored hkey, hconflict,
      Bool.false_eq_true, if_false]
    exact (h.withTable s.table s.carriedOut _).goto worker _

/-- **One event keeps the servers in agreement.** -/
theorem step (h : Agree s t) (htruthful : Truthful s) (e : Event) (hsettled : AsksSettled s e)
    (houtcomes : SameOutcomes s e) : Agree (s.step true config e) (t.step false config e) := by
  cases e with
  | submit worker source flag =>
    simp only [Server.step, h.workers worker, h.globals]
    cases s.workers worker with
    | idle =>
      cases checks config s.globals source flag with
      | error answer => exact h.goto worker (.counting source _ flag answer)
      | ok team => exact h.goto worker (.checked team flag)
    | _ => exact h
  | lookup worker =>
    simp only [Server.step, h.workers worker, h.resets]
    cases s.workers worker with
    | checked team flag => exact h.goto worker (.located team flag _ s.resets)
    | _ => exact h
  | exchange worker =>
    simp only [Server.step, h.workers worker]
    cases hworker : s.workers worker with
    | located team flag cell resets =>
      cases cell with
      | none => exact h.goto worker (.lookedUp team flag true)
      | some index =>
        obtain ⟨hresets, hlast⟩ := hsettled ((team, flag), resets) (by simp [hworker, Phase.asking])
        obtain ⟨isNew, cells, hexchange, -⟩ := htruthful.exchange hworker hresets hlast
        simp only [hexchange]
        exact (h.withCells cells _).goto worker (.lookedUp team flag isNew)
    | _ => exact h
  | readRound worker =>
    simp only [Server.step, h.workers worker, h.globals]
    cases s.workers worker with
    | lookedUp team flag isNew =>
      exact h.goto worker (.submitting team flag isNew s.globals.currentRound)
    | _ => exact h
  | insert worker outcome =>
    simp only [Server.step, h.workers worker]
    cases hworker : s.workers worker with
    | submitting team flag isNew round =>
      refine h.insert (fun hold => htruthful.answered worker _ ?_) fun hold => ?_
      · rw [hworker, hold]
        rfl
      · cases outcome with
        | executed => rfl
        | failed stored => simp [SameOutcomes, hworker, hold, Phase.hit] at houtcomes
    | _ => exact h
  | count worker =>
    simp only [Server.step, h.workers worker]
    cases s.workers worker with
    | counting source thisTeam flag answer => exact h.goto worker (.answering source flag answer)
    | _ => exact h
  | answer worker =>
    simp only [Server.step, h.workers worker]
    cases s.workers worker with
    | answering source flag answer => exact h.reply _
    | _ => exact h
  | initModelSizes maxTeamId maxServiceId =>
    simp only [Server.step, h.resizing]
    cases s.resizing with
    | none =>
      exact { h with
        globals := by simp only [h.globals]
        resizing := rfl
        resets := congrArg (· + 1) h.resets }
    | some _ => exact h
  | resize memory count =>
    simp only [Server.step, h.resizing]
    cases s.resizing with
    | none => exact h
    | some progress =>
      obtain ⟨hsize, hprogress⟩ := progress.step_congr h.size memory count
      exact { h with size := hsize, resizing := hprogress }
  | setCurrentState state => exact { h with globals := by simp only [Server.step, h.globals] }
  | setCurrentRound round => exact { h with globals := by simp only [Server.step, h.globals] }

end Agree

/-- **In every run in which only settled flags are looked up, and none while the cache is
resized, the flag cache is a pure optimisation.** -/
theorem pureOptimisation_of_settled (config : Config) {es : List Event}
    (houtcomes : Machine.Along (step true config) SameOutcomes .initial es)
    (hsettled : Machine.Along (step true config) AsksSettled .initial es) :
    PureOptimisation config es := by
  rintro es₁ ⟨es₂, rfl⟩
  have hboth := Machine.along_and.2 ⟨(Machine.along_append.1 hsettled).1,
    (Machine.along_append.1 houtcomes).1⟩
  have h : Truthful (Machine.exec (step true config) .initial es₁) ∧
      Agree (Machine.exec (step true config) .initial es₁)
        (Machine.exec (step false config) .initial es₁) :=
    hboth.simulation (R := fun s t => Truthful s ∧ Agree s t)
      (fun s t e h he => ⟨h.1.step e he.1, h.2.step h.1 e he.1 he.2⟩)
      ⟨Truthful.initial, Agree.initial⟩
  exact ⟨h.1.replies, h.2.replies.symm, h.2.table.symm⟩

/-- Flags are valid for ten rounds; all flags here have a valid MAC. -/
def exampleConfig : Config := ⟨0, 10, fun _ => true⟩

/-- A flag of team 2. -/
def exampleFlag (round payload : UInt16) : FlagFormat :=
  ⟨round, 2, 1, payload, Vector.replicate 16 0⟩

/-- The game is running in round 3, with three teams and one service. -/
def exampleStart : List Event :=
  wholeInitModelSizes [] 3 1 ++ [.setCurrentState .running, .setCurrentRound 3]

/-- A whole call of `progress_flag`, for a flag from team 1. -/
def exampleCall (worker : ℕ) (flag : FlagFormat) (outcome : Outcome) : List Event :=
  [.submit worker 1 flag, .lookup worker, .exchange worker, .readRound worker,
    .insert worker outcome, .count worker, .answer worker]

/-- A flag is submitted twice, and then another one of the same cell, before and after a
reset. -/
def exampleResubmit : List Event :=
  exampleStart ++ exampleCall 0 (exampleFlag 3 1) .executed ++
    exampleCall 1 (exampleFlag 3 1) .executed ++ exampleCall 0 (exampleFlag 3 6) (.failed true) ++
    wholeInitModelSizes [7] 4 1 ++ exampleCall 1 (exampleFlag 3 6) .executed

theorem pureOptimisation_resubmit : PureOptimisation exampleConfig exampleResubmit :=
  pureOptimisation_of_settled exampleConfig (by decide) (by decide)

/-- An INSERT fails, and the submitter tries again. -/
def exampleRetry : List Event :=
  exampleStart ++ exampleCall 0 (exampleFlag 3 1) (.failed false) ++
    exampleCall 0 (exampleFlag 3 1) .executed

/-- A flag of round 0 and payload 0. -/
def exampleRoundZero : List Event := exampleStart ++ exampleCall 0 (exampleFlag 0 0) .executed

/-- A second worker looks the flag up before the first one has stored it. -/
def exampleOvertaken : List Event :=
  exampleStart ++ [.submit 0 1 (exampleFlag 3 1), .lookup 0, .exchange 0] ++
    exampleCall 1 (exampleFlag 3 1) .executed

/-- Team 2 has submitted a flag of team 3.  A second service is added, and team 1 submits the
flag of team 3 for it while the cache has the new sizes and the old table. -/
def exampleResizing : List Event :=
  exampleStart ++ [.submit 0 2 ⟨3, 3, 1, 1, Vector.replicate 16 0⟩, .lookup 0, .exchange 0,
    .readRound 0, .insert 0 .executed, .initModelSizes 3 2, .resize [] 0, .resize [] 0] ++
    exampleCall 1 ⟨3, 3, 2, 1, Vector.replicate 16 0⟩ .executed

/-- **The flag cache is not a pure optimisation**: a flag is lost when its INSERT fails
and it is submitted again; the flag of round 0 and payload 0 is never accepted; a flag another
worker has looked up is "already submitted" before it is stored; and while the cache is resized
a flag is looked up in the cell of another one. -/
theorem not_pureOptimisation :
    (Machine.Along (step true exampleConfig) SameOutcomes .initial exampleRetry ∧
      ¬ PureOptimisation exampleConfig exampleRetry) ∧
    (Machine.Along (step true exampleConfig) SameOutcomes .initial exampleRoundZero ∧
      ¬ PureOptimisation exampleConfig exampleRoundZero) ∧
    (Machine.Along (step true exampleConfig) SameOutcomes .initial exampleOvertaken ∧
      ¬ PureOptimisation exampleConfig exampleOvertaken) ∧
    (Machine.Along (step true exampleConfig) SameOutcomes .initial exampleResizing ∧
      ¬ PureOptimisation exampleConfig exampleResizing) := by
  refine ⟨⟨by decide, fun h => ?_⟩, ⟨by decide, fun h => ?_⟩, ⟨by decide, fun h => ?_⟩,
    ⟨by decide, fun h => ?_⟩⟩
  · exact absurd (h exampleRetry (List.prefix_refl _)).1 (by decide)
  · exact absurd (h exampleRoundZero (List.prefix_refl _)).1 (by decide)
  · exact absurd (h exampleOvertaken (List.prefix_refl _)).1 (by decide)
  · exact absurd (h exampleResizing (List.prefix_refl _)).1 (by decide)

end Gameserver.Submission
