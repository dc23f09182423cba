import Gameserver.FirstBlood.Default
import Gameserver.FirstBlood.Recompute

/-!
# Recomputing default first blood

`recompute_first_blood_flags` with `DefaultFirstBloodAlgorithm`.  The candidates of a
service are found by a query, put into the cache, and only then tested with
`_is_first_blood`; but `_is_first_blood` says no to every flag the cache knows.

* `Default.candidates`, `Default.getFirstbloodsForRecomputation` — the queries and the test.
* `Default.recomputeFirstBloodFlags_eq` — **the recomputation marks nothing**.
* `default_recompute_iff` — it agrees with the batches of a run if and only if no flag
  belongs to a known service.
-/

namespace Gameserver.FirstBlood

open Gameserver.Scoring

section Loop

variable {Cache : Type*}
  {getForRecomputation : FlagView → Cache → Service →
    Except PyError (List (SubmittedFlag × ℕ) × Cache)}
  {rows : List SubmittedFlag} {marks : ℕ → ℕ}

/-- An algorithm that finds nothing for any service leaves the marks alone. -/
theorem recomputeWith_eq_of_nil
    (h : ∀ cache service, ∃ cache', getForRecomputation ⟨rows, marks⟩ cache service =
      .ok ([], cache'))
    (cache : Cache) (services : List Service) :
    ∃ cache', recomputeWith getForRecomputation rows marks cache services =
      .ok (marks, cache') := by
  induction services generalizing cache with
  | nil => exact ⟨cache, rfl⟩
  | cons service services ih =>
    obtain ⟨cache', hget⟩ := h cache service
    obtain ⟨cache'', hrest⟩ := ih cache'
    refine ⟨cache'', ?_⟩
    rw [recomputeWith, hget]
    exact hrest

end Loop

namespace Default

/-- `ROW_NUMBER() OVER (PARTITION BY payload, service_id ORDER BY ts, tick_submitted, id)`. -/
def rowNumber (rows : List SubmittedFlag) (row : SubmittedFlag) : ℕ :=
  (rows.filter fun r => r.payload = row.payload ∧ r.serviceId = row.serviceId ∧ r.Before row).length

/-- The first flag of the service, or the first one of each payload. -/
def candidates (rows : List SubmittedFlag) (service : Service) : List SubmittedFlag :=
  let own := rows.filter fun row => row.serviceId = service.id
  if service.numPayloads = 0 then (own.mergeSort tsIdLe).take 1
  else
    let ids := (own.filter fun row => rowNumber own row = 1).map SubmittedFlag.id
    (rows.filter fun row => row.id ∈ ids).mergeSort fun f g => f.ts ≤ g.ts

/-- `[(flag, 1) for flag in flags if self._is_first_blood(session, flag, service)]`. -/
def keepFirstBloods (db : FlagView) (service : Service) :
    ServiceCache → List SubmittedFlag → List (SubmittedFlag × ℕ) × ServiceCache
  | cache, [] => ([], cache)
  | cache, flag :: flags =>
    let (first, cache) := isFirstBlood db cache flag service
    let (results, cache) := keepFirstBloods db service cache flags
    (if first then (flag, 1) :: results else results, cache)

/-- `DefaultFirstBloodAlgorithm.get_firstbloods_for_recomputation`: all candidates are
recorded before the first one is tested. -/
def getFirstbloodsForRecomputation (db : FlagView) (cache : ServiceCache) (service : Service) :
    Except PyError (List (SubmittedFlag × ℕ) × ServiceCache) :=
  let flags := candidates db.rows service
  .ok (keepFirstBloods db service (flags.foldl ServiceCache.recordFirstBlood cache) flags)

/-- `recompute_first_blood_flags`: the marks and the caches afterwards. -/
def recomputeFirstBloodFlags (services : List Service) (db : FlagView) :
    Except PyError ((ℕ → ℕ) × ServiceCache) :=
  recomputeWith getFirstbloodsForRecomputation db.rows (dropMarks db.isFirstblood)
    (defaultFirstBlood services).empty services

/-! ## The cache knows every candidate -/

/-- The cache has the payload of a flag under its service. -/
def Recorded (cache : ServiceCache) (f : SubmittedFlag) : Prop :=
  ∃ payloads, cache f.serviceId = some payloads ∧ f.payload ∈ payloads

variable {cache : ServiceCache} {f g : SubmittedFlag} {service : Service} {db : FlagView}
  {flags : List SubmittedFlag}

theorem recorded_self (cache : ServiceCache) (f : SubmittedFlag) :
    Recorded (cache.recordFirstBlood f) f := by
  refine ⟨f.payload :: (cache f.serviceId).getD [], ?_, by simp⟩
  rw [recordFirstBlood_apply, if_pos rfl]

theorem Recorded.recordFirstBlood (h : Recorded cache f) (g : SubmittedFlag) :
    Recorded (cache.recordFirstBlood g) f := by
  obtain ⟨payloads, hcache, hmem⟩ := h
  by_cases hid : f.serviceId = g.serviceId
  · refine ⟨g.payload :: payloads, ?_, List.mem_cons_of_mem _ hmem⟩
    rw [recordFirstBlood_apply, if_pos hid, ← hid, hcache, Option.getD_some]
  · exact ⟨payloads, by rw [recordFirstBlood_apply, if_neg hid, hcache], hmem⟩

theorem Recorded.foldl (h : Recorded cache f) (flags : List SubmittedFlag) :
    Recorded (flags.foldl ServiceCache.recordFirstBlood cache) f := by
  induction flags generalizing cache with
  | nil => exact h
  | cons g flags ih => exact ih (h.recordFirstBlood g)

/-- After the loop over the candidates the cache has all of them. -/
theorem recorded_of_mem (h : f ∈ flags) :
    Recorded (flags.foldl ServiceCache.recordFirstBlood cache) f := by
  induction flags generalizing cache with
  | nil => cases h
  | cons g flags ih =>
    rcases List.mem_cons.1 h with rfl | h
    · exact (recorded_self cache f).foldl flags
    · exact ih h

/-- **`_is_first_blood` says no to what the cache knows**, for both kinds of service. -/
theorem isFirstBlood_of_recorded (hid : f.serviceId = service.id) (h : Recorded cache f) :
    isFirstBlood db cache f service = (false, cache) := by
  obtain ⟨payloads, hcache, hmem⟩ := h
  rw [hid] at hcache
  unfold isFirstBlood ServiceCache.read
  by_cases hpos : 0 < service.numPayloads
  · simp [hpos, hcache, hmem]
  · simp [hpos, hcache]

theorem keepFirstBloods_eq (h : ∀ f ∈ flags, f.serviceId = service.id ∧ Recorded cache f) :
    keepFirstBloods db service cache flags = ([], cache) := by
  induction flags with
  | nil => rfl
  | cons f flags ih =>
    obtain ⟨hid, hrecorded⟩ := h f List.mem_cons_self
    have hrest := ih fun g hg => h g (List.mem_cons_of_mem _ hg)
    simp [keepFirstBloods, isFirstBlood_of_recorded hid hrecorded, hrest]

/-- The queries return flags of the service. -/
theorem serviceId_of_mem_candidates {rows : List SubmittedFlag}
    (hids : (rows.map SubmittedFlag.id).Nodup) (h : f ∈ candidates rows service) :
    f.serviceId = service.id := by
  unfold candidates at h
  dsimp only at h
  split at h
  · have hmem := List.mem_mergeSort.1 (List.mem_of_mem_take h)
    exact of_decide_eq_true (List.mem_filter.1 hmem).2
  · obtain ⟨hrow, hid⟩ := List.mem_filter.1 (List.mem_mergeSort.1 h)
    -- the id is the one of a row of the service, hence the row is that one
    obtain ⟨g, hg, heq⟩ := List.mem_map.1 (of_decide_eq_true hid)
    have hown := List.mem_filter.1 (List.mem_filter.1 hg).1
    rw [← List.inj_on_of_nodup_map hids hown.1 hrow heq]
    exact of_decide_eq_true hown.2

theorem getFirstbloodsForRecomputation_eq (db : FlagView)
    (hids : (db.rows.map SubmittedFlag.id).Nodup) (cache : ServiceCache) (service : Service) :
    ∃ cache', getFirstbloodsForRecomputation db cache service = .ok ([], cache') := by
  refine ⟨_, congrArg Except.ok (keepFirstBloods_eq ?_)⟩
  intro f hf
  exact ⟨serviceId_of_mem_candidates hids hf, recorded_of_mem hf⟩

/-- **The recomputation marks nothing**, whatever the flags and the services are. -/
theorem recomputeFirstBloodFlags_eq (services : List Service) (db : FlagView)
    (hids : (db.rows.map SubmittedFlag.id).Nodup) :
    ∃ cache, recomputeFirstBloodFlags services db = .ok (fun _ => 0, cache) := by
  unfold recomputeFirstBloodFlags
  rw [dropMarks_eq]
  apply recomputeWith_eq_of_nil
  intro cache service
  exact getFirstbloodsForRecomputation_eq ⟨db.rows, fun _ => 0⟩ hids cache service

end Default

/-! ## Against the runs -/

/-- A run marks a flag as soon as one belongs to a known service. -/
theorem exists_marked_iff {services : List Service} {history : List SubmittedFlag} {marks : ℕ → ℕ}
    (hmarked : Marked (defaultLevel services) history marks) :
    (∃ f ∈ history, 0 < marks f.id) ↔
      ∃ f ∈ history, (serviceById services f.serviceId).isSome := by
  constructor
  · rintro ⟨f, hf, hpos⟩
    refine ⟨f, hf, ?_⟩
    by_contra hnone
    obtain ⟨before, after, hsplit⟩ := List.append_of_mem hf
    have hslot : slot services f = none := by simp_all [slot]
    have hlevel := hmarked.level_eq before f after hsplit
    rw [defaultLevel, if_neg (by simp [hslot])] at hlevel
    exact hpos.ne' hlevel
  · rintro ⟨f, hf, hsome⟩
    obtain ⟨service, hservice⟩ := Option.isSome_iff_exists.1 hsome
    obtain ⟨g, hg, -, hpos⟩ := exists_marked hmarked hf (slot_of_service hservice)
    exact ⟨g, hg, hpos⟩

/-- **The recomputation agrees with the batches if and only if there is nothing to mark.**
Over every history in time order and every run that has processed it, the flags that
`recompute_first_blood_flags` marks are those that the run has marked exactly if no flag
of the history belongs to a known service. -/
theorem default_recompute_iff (services : List Service) {history rows : List SubmittedFlag}
    (hsorted : history.Pairwise SubmittedFlag.Before)
    (hids : (history.map SubmittedFlag.id).Nodup) (hrows : rows.Perm history)
    {es : List Event}
    (hes : Machine.Along (step (defaultFirstBlood services)) (InOrder history)
      (State.initial (defaultFirstBlood services)) es)
    (hall : (Machine.exec (step (defaultFirstBlood services))
      (State.initial (defaultFirstBlood services)) es).processed = history) :
    let marks := (Machine.exec (step (defaultFirstBlood services))
      (State.initial (defaultFirstBlood services)) es).marks
    (∃ recomputed cache,
        Default.recomputeFirstBloodFlags services ⟨rows, marks⟩ = .ok (recomputed, cache) ∧
        ∀ f ∈ history, 0 < recomputed f.id ↔ 0 < marks f.id) ↔
      ∀ f ∈ history, serviceById services f.serviceId = none := by
  intro marks
  have hmarked := ((defaultFirstBlood_correct services hsorted hids).run hids hes).marked
  rw [hall] at hmarked
  have hrows' : (rows.map SubmittedFlag.id).Nodup := (hrows.map _).nodup_iff.2 hids
  obtain ⟨cache, hrecompute⟩ :=
    Default.recomputeFirstBloodFlags_eq services ⟨rows, marks⟩ hrows'
  have hnone : (∀ f ∈ history, ¬ 0 < marks f.id) ↔
      ∀ f ∈ history, serviceById services f.serviceId = none := by
    have h := not_congr (exists_marked_iff hmarked)
    push Not at h
    simpa using h
  rw [← hnone]
  constructor
  · rintro ⟨recomputed, cache', heq, hagree⟩ f hf hpos
    rw [hrecompute, Except.ok.injEq, Prod.mk.injEq] at heq
    obtain ⟨rfl, -⟩ := heq
    exact absurd ((hagree f hf).2 hpos) (lt_irrefl 0)
  · intro h
    refine ⟨_, cache, hrecompute, ?_⟩
    intro f hf
    simp [h f hf]

/-- A flag of a service that is not known: there is nothing to mark. -/
theorem default_recompute_unknown_service :
    ∃ recomputed cache, Default.recomputeFirstBloodFlags exampleServices
        ⟨exampleHistory.take 1, (Machine.exec (step (defaultFirstBlood exampleServices))
          (State.initial (defaultFirstBlood exampleServices))
          [.batch (exampleHistory.take 1) (exampleHistory.take 1)]).marks⟩ =
          .ok (recomputed, cache) ∧
      ∀ f ∈ exampleHistory.take 1, 0 < recomputed f.id ↔
        0 < (Machine.exec (step (defaultFirstBlood exampleServices))
          (State.initial (defaultFirstBlood exampleServices))
          [.batch (exampleHistory.take 1) (exampleHistory.take 1)]).marks f.id :=
  (default_recompute_iff exampleServices (by decide) (by decide) (List.Perm.refl _) (by decide)
    (by decide)).2 (by decide)

/-- The second flag of the history is the first of its service.  A run marks it, and the
recomputation leaves it without a mark. -/
theorem default_recompute_drops_firstblood :
    (Machine.exec (step (defaultFirstBlood exampleServices))
        (State.initial (defaultFirstBlood exampleServices)) exampleEvents).marks 2 = 1 ∧
      (Default.recomputeFirstBloodFlags exampleServices
        ⟨exampleHistory, (Machine.exec (step (defaultFirstBlood exampleServices))
          (State.initial (defaultFirstBlood exampleServices)) exampleEvents).marks⟩).map
        (fun r => r.1 2) = .ok 0 := by
  constructor
  · decide
  · obtain ⟨cache, hrecompute⟩ := Default.recomputeFirstBloodFlags_eq exampleServices
      ⟨exampleHistory, (Machine.exec (step (defaultFirstBlood exampleServices))
        (State.initial (defaultFirstBlood exampleServices)) exampleEvents).marks⟩ (by decide)
    rw [hrecompute]
    rfl

end Gameserver.FirstBlood
