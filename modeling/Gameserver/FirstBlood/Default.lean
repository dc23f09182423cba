import Gameserver.FirstBlood.Basic

/-!
# Default first blood

`class DefaultFirstBloodAlgorithm` of `algorithms/firstblood.py`: one mark for each
service, or for each payload of a service with payloads.

The cache is a `defaultdict(set)`: reading a missing key creates it.  For a service
without payloads the presence of the key means that it is done, for one with payloads
the elements of the set do.

* `slot` — what a flag competes for; `defaultLevel` — 1 for the first flag of its slot.
* `defaultFirstBlood_correct` — one batch.
* `default_firstblood` — **exactly one flag is marked for every slot that has a flag, and
  it is the earliest one**.
-/

namespace Gameserver.FirstBlood

open Gameserver.Scoring

/-- `first_blood_cache_services`. -/
abbrev ServiceCache := ℕ → Option (List ℕ)

namespace ServiceCache

/-- Read a `defaultdict(set)`. -/
def read (cache : ServiceCache) (serviceId : ℕ) : List ℕ × ServiceCache :=
  match cache serviceId with
  | some payloads => (payloads, cache)
  | none => ([], Function.update cache serviceId (some []))

/-- `_record_first_blood`. -/
def recordFirstBlood (cache : ServiceCache) (flag : SubmittedFlag) : ServiceCache :=
  let (payloads, cache) := cache.read flag.serviceId
  Function.update cache flag.serviceId (some (flag.payload :: payloads))

end ServiceCache

/-- Is there a marked flag of this service, and payload, up to the time of the flag? -/
def alreadyMarked (db : FlagView) (flag : SubmittedFlag) (service : Service) : Bool :=
  db.rows.any fun row => row.serviceId = flag.serviceId ∧ 0 < db.isFirstblood row.id ∧
    row.ts ≤ flag.ts ∧ (0 < service.numPayloads → row.payload = flag.payload)

/-- `_is_first_blood`. -/
def isFirstBlood (db : FlagView) (cache : ServiceCache) (flag : SubmittedFlag) (service : Service) :
    Bool × ServiceCache :=
  if 0 < service.numPayloads then
    let (payloads, cache) := cache.read service.id
    if flag.payload ∈ payloads then (false, cache) else (!alreadyMarked db flag service, cache)
  else if (cache service.id).isSome then (false, cache)
  else (!alreadyMarked db flag service, cache)

/-- The loop of `DefaultFirstBloodAlgorithm.get_firstbloods`. -/
def defaultLoop (services : List Service) (db : FlagView) :
    FlagSet → ServiceCache → List SubmittedFlag → List (SubmittedFlag × ℕ) × ServiceCache
  | _, cache, [] => ([], cache)
  | candidates, cache, flag :: flags =>
    match serviceById services flag.serviceId with
    | none => defaultLoop services db candidates cache flags
    | some service =>
      let (isNew, candidates) := candidates.isNew flag
      if isNew then
        let (first, cache) := isFirstBlood db cache flag service
        if first then
          let (results, cache) :=
            defaultLoop services db candidates (cache.recordFirstBlood flag) flags
          ((flag, 1) :: results, cache)
        else defaultLoop services db candidates cache flags
      else defaultLoop services db candidates cache flags

/-- `DefaultFirstBloodAlgorithm`. -/
def defaultFirstBlood (services : List Service) : Algorithm ServiceCache where
  empty := fun _ => none
  getFirstbloods db cache flags := .ok (defaultLoop services db .empty cache flags)

/-! ## The specification -/

/-- What a flag competes for: its service, and its payload if the service has payloads.
Flags of unknown services compete for nothing. -/
def slot (services : List Service) (f : SubmittedFlag) : Option (ℕ × Option ℕ) :=
  (serviceById services f.serviceId).map fun service =>
    (f.serviceId, if 0 < service.numPayloads then some f.payload else none)

/-- A flag is first blood if it is the first of its slot. -/
def defaultLevel (services : List Service) (before : List SubmittedFlag) (f : SubmittedFlag) : ℕ :=
  if (slot services f).isSome ∧ ∀ g ∈ before, slot services g ≠ slot services f then 1 else 0

/-- The cache knows a flag of this slot. -/
def Cached (cache : ServiceCache) : ℕ × Option ℕ → Prop
  | (serviceId, none) => (cache serviceId).isSome
  | (serviceId, some payload) => ∃ payloads, cache serviceId = some payloads ∧ payload ∈ payloads

/-- The cache knows only slots of processed flags. -/
def DefaultCacheOk (services : List Service) (processed : List SubmittedFlag)
    (cache : ServiceCache) :
    Prop :=
  ∀ f k, slot services f = some k → Cached cache k → ∃ g ∈ processed, slot services g = some k

variable {services : List Service} {f g : SubmittedFlag} {service : Service} {k : ℕ × Option ℕ}
  {db : FlagView} {cache : ServiceCache}

theorem slot_of_service (h : serviceById services f.serviceId = some service) :
    slot services f =
      some (f.serviceId, if 0 < service.numPayloads then some f.payload else none) := by
  simp [slot, h]

theorem serviceById_id {id : ℕ} (h : serviceById services id = some service) : service.id = id := by
  simpa using List.find?_some h

/-- Flags of the same kind compete for the same slot. -/
theorem slot_eq_of_key_eq (h : f.key = g.key) : slot services f = slot services g := by
  simp only [SubmittedFlag.key, Prod.mk.injEq] at h
  simp only [slot, h.1, h.2.2.2]

/-- The rows of the query are the marked flags of the slot. -/
theorem slot_eq_iff (h : serviceById services f.serviceId = some service) :
    slot services g = slot services f ↔
      g.serviceId = f.serviceId ∧ (0 < service.numPayloads → g.payload = f.payload) := by
  constructor
  · intro heq
    rw [slot_of_service h] at heq
    obtain ⟨service', hservice', hg⟩ := Option.map_eq_some_iff.1 heq
    rw [Prod.mk.injEq] at hg
    obtain ⟨hid, hpayload⟩ := hg
    rw [hid, h] at hservice'
    obtain rfl := Option.some.inj hservice'
    refine ⟨hid, fun hpos => ?_⟩
    simpa [hpos] using hpayload
  · rintro ⟨hid, hpayload⟩
    rw [slot_of_service h, slot_of_service (hid ▸ h), hid]
    split
    · rw [hpayload ‹_›]
    · rfl

/-! ## The cache -/

/-- Reading the cache for a service with payloads creates no slot of it. -/
theorem cached_read (cache : ServiceCache)
    (h : serviceById services f.serviceId = some service)
    (hpayloads : 0 < service.numPayloads) (hg : slot services g = some k) :
    Cached (cache.read f.serviceId).2 k ↔ Cached cache k := by
  unfold ServiceCache.read
  split
  · rfl
  · rename_i hnone
    obtain ⟨service', hservice', rfl⟩ := Option.map_eq_some_iff.1 hg
    by_cases hid : g.serviceId = f.serviceId
    · rw [hid, h] at hservice'
      obtain rfl := Option.some.inj hservice'
      simp [Cached, hpayloads, hid, hnone]
    · split <;> simp [Cached, Function.update_of_ne hid]

theorem recordFirstBlood_apply (cache : ServiceCache) (f : SubmittedFlag) (serviceId : ℕ) :
    cache.recordFirstBlood f serviceId =
      if serviceId = f.serviceId then some (f.payload :: (cache f.serviceId).getD [])
      else cache serviceId := by
  unfold ServiceCache.recordFirstBlood ServiceCache.read
  by_cases hid : serviceId = f.serviceId
  · subst hid
    cases h : cache f.serviceId <;> simp
  · cases h : cache f.serviceId <;> simp [hid]

theorem cached_recordFirstBlood (h : serviceById services f.serviceId = some service)
    (hg : slot services g = some k) :
    Cached (cache.recordFirstBlood f) k ↔ Cached cache k ∨ slot services f = some k := by
  obtain ⟨service', hservice', rfl⟩ := Option.map_eq_some_iff.1 hg
  rw [slot_of_service h]
  by_cases hid : g.serviceId = f.serviceId
  · rw [hid, h] at hservice'
    obtain rfl := Option.some.inj hservice'
    by_cases hpos : 0 < service.numPayloads
    · cases hcache : cache f.serviceId <;>
        simp [Cached, hpos, recordFirstBlood_apply, hid, hcache, or_comm, eq_comm]
    · simp [Cached, hpos, recordFirstBlood_apply, hid]
  · have hne : f.serviceId ≠ g.serviceId := fun heq => hid heq.symm
    split <;> simp [Cached, recordFirstBlood_apply, hid, hne]

/-- `_is_first_blood` says yes if neither the cache nor the database knows the slot. -/
theorem isFirstBlood_fst (db : FlagView) (cache : ServiceCache)
    (h : serviceById services f.serviceId = some service)
    (hf : slot services f = some k) :
    (isFirstBlood db cache f service).1 = true ↔
      ¬ Cached cache k ∧ alreadyMarked db f service = false := by
  have hid := serviceById_id h
  rw [slot_of_service h] at hf
  obtain rfl := Option.some.inj hf
  unfold isFirstBlood
  by_cases hpos : 0 < service.numPayloads
  · rw [if_pos hpos, if_pos hpos, hid]
    unfold ServiceCache.read
    cases hcache : cache f.serviceId with
    | none => simp [Cached, hcache]
    | some payloads =>
      by_cases hmem : f.payload ∈ payloads <;> simp [Cached, hcache, hmem]
  · rw [if_neg hpos, if_neg hpos, hid]
    by_cases hsome : (cache f.serviceId).isSome <;> simp [Cached, hsome]

/-- `_is_first_blood` leaves the slots in the cache as they are. -/
theorem cached_isFirstBlood (h : serviceById services f.serviceId = some service)
    (hg : slot services g = some k) :
    Cached (isFirstBlood db cache f service).2 k ↔ Cached cache k := by
  have hid := serviceById_id h
  unfold isFirstBlood
  by_cases hpos : 0 < service.numPayloads
  · have hread := cached_read cache h hpos hg
    rw [if_pos hpos, hid]
    dsimp only
    split <;> exact hread
  · rw [if_neg hpos]
    split <;> rfl

theorem alreadyMarked_iff (h : serviceById services f.serviceId = some service) :
    alreadyMarked db f service = true ↔ ∃ row ∈ db.rows, slot services row = slot services f ∧
      0 < db.isFirstblood row.id ∧ row.ts ≤ f.ts := by
  simp only [alreadyMarked, List.any_eq_true, decide_eq_true_eq, slot_eq_iff h]
  constructor
  · rintro ⟨row, hrow, hid, hmark, hts, hpayload⟩
    exact ⟨row, hrow, ⟨hid, hpayload⟩, hmark, hts⟩
  · rintro ⟨row, hrow, ⟨hid, hpayload⟩, hmark, hts⟩
    exact ⟨row, hrow, hid, hmark, hts, hpayload⟩

/-! ## One batch -/

section Batch

variable {processed : List SubmittedFlag} {marks : ℕ → ℕ}

/-- Every slot of a processed flag has a marked flag. -/
theorem exists_marked (hmarked : Marked (defaultLevel services) processed marks)
    (hg : g ∈ processed) (hk : slot services g = some k) :
    ∃ g₀ ∈ processed, slot services g₀ = some k ∧ 0 < marks g₀.id := by
  obtain ⟨g₀, hfind⟩ : ∃ g₀, processed.find? (fun g => slot services g = some k) = some g₀ :=
    Option.isSome_iff_exists.1 (List.find?_isSome.2 ⟨g, hg, by simpa using hk⟩)
  obtain ⟨hslot, before, after, rfl, hbefore⟩ := List.find?_eq_some_iff_append.1 hfind
  have hslot' : slot services g₀ = some k := by simpa using hslot
  refine ⟨g₀, by simp, hslot', ?_⟩
  have hfirst : (slot services g₀).isSome ∧ ∀ g ∈ before, slot services g ≠ slot services g₀ := by
    refine ⟨by simp [hslot'], fun g hg => ?_⟩
    rw [hslot']
    simpa using hbefore g hg
  rw [hmarked.level_eq before g₀ after rfl, defaultLevel, if_pos hfirst]
  exact Nat.one_pos

/-- The state of the loop after the flags `done` of a batch. -/
structure LoopOk (services : List Service) (processed done : List SubmittedFlag)
    (candidates : FlagSet) (cache : ServiceCache) : Prop where
  sound : DefaultCacheOk services (processed ++ done) cache
  /-- A slot that is new in this batch is in the cache. -/
  complete : ∀ g ∈ done, ∀ k, slot services g = some k →
    (∃ g' ∈ processed, slot services g' = some k) ∨ Cached cache k
  seen : ∀ key ∈ candidates.seen, ∃ g ∈ done, g.key = key

variable {done rows history : List SubmittedFlag} {candidates : FlagSet}

/-- **The cache and the database together know all slots of earlier flags.** -/
theorem LoopOk.known_iff (hloop : LoopOk services processed done candidates cache)
    (hmarked : Marked (defaultLevel services) processed marks)
    (hids : (history.map SubmittedFlag.id).Nodup) (hrows : processed ⊆ rows)
    (hhistory : rows ⊆ history) (hts : ∀ g ∈ processed, g.ts ≤ f.ts)
    (h : serviceById services f.serviceId = some service) (hf : slot services f = some k) :
    (Cached cache k ∨ alreadyMarked ⟨rows, marks⟩ f service = true) ↔
      ∃ g ∈ processed ++ done, slot services g = some k := by
  rw [alreadyMarked_iff h, hf]
  constructor
  · rintro (hcached | ⟨row, hrow, hslot, hmark, -⟩)
    · exact hloop.sound f k hf hcached
    · have hmem : row ∈ processed := by
        by_contra hnot
        refine hmark.ne' (hmarked.none row.id fun g hg heq => hnot ?_)
        rwa [← List.inj_on_of_nodup_map hids (hhistory (hrows hg)) (hhistory hrow) heq]
      exact ⟨row, List.mem_append_left _ hmem, hslot⟩
  · rintro ⟨g, hg, hslot⟩
    have hprocessed : ∀ g ∈ processed, slot services g = some k → ∃ row ∈ rows,
        slot services row = some k ∧ 0 < marks row.id ∧ row.ts ≤ f.ts := by
      intro g hg hslot
      obtain ⟨g₀, hg₀, hslot₀, hmark⟩ := exists_marked hmarked hg hslot
      exact ⟨g₀, hrows hg₀, hslot₀, hmark, hts g₀ hg₀⟩
    rcases List.mem_append.1 hg with hg | hg
    · exact .inr (hprocessed g hg hslot)
    · rcases hloop.complete g hg k hslot with ⟨g', hg', hslot'⟩ | hcached
      · exact .inr (hprocessed g' hg' hslot')
      · exact .inl hcached

/-- The slot of a flag, if it has one, has a flag already. -/
def Taken (services : List Service) (flags : List SubmittedFlag) (f : SubmittedFlag) : Prop :=
  ∀ k, slot services f = some k → ∃ g ∈ flags, slot services g = some k

/-- **`_is_first_blood` finds the flags whose slot is not taken.** -/
theorem LoopOk.isFirstBlood_iff (hloop : LoopOk services processed done candidates cache)
    (hmarked : Marked (defaultLevel services) processed marks)
    (hids : (history.map SubmittedFlag.id).Nodup) (hrows : processed ⊆ rows)
    (hhistory : rows ⊆ history) (hts : ∀ g ∈ processed, g.ts ≤ f.ts)
    (h : serviceById services f.serviceId = some service) :
    (isFirstBlood ⟨rows, marks⟩ cache f service).1 = true ↔
      ¬ Taken services (processed ++ done) f := by
  have hslot := slot_of_service h
  have hknown := hloop.known_iff hmarked hids hrows hhistory hts h hslot
  have htaken : Taken services (processed ++ done) f ↔ ∃ g ∈ processed ++ done,
      slot services g =
        some (f.serviceId, if 0 < service.numPayloads then some f.payload else none) := by
    simp [Taken, hslot]
  rw [isFirstBlood_fst _ _ h hslot, htaken, ← hknown, not_or, Bool.not_eq_true]

/-- A flag that `FlagSet` has seen in this batch is not the first one of its slot. -/
theorem LoopOk.taken_of_seen (hloop : LoopOk services processed done candidates cache)
    (h : f.key ∈ candidates.seen) : Taken services (processed ++ done) f := by
  intro k hk
  obtain ⟨g, hg, hkey⟩ := hloop.seen _ h
  exact ⟨g, List.mem_append_right _ hg, (slot_eq_of_key_eq hkey).trans hk⟩

/-- A flag whose slot is taken changes nothing. -/
theorem LoopOk.skip (hloop : LoopOk services processed done candidates cache)
    {cache' : ServiceCache} {candidates' : FlagSet}
    (hcache : ∀ g k, slot services g = some k → (Cached cache' k ↔ Cached cache k))
    (hseen : ∀ key ∈ candidates'.seen, key ∈ candidates.seen ∨ key = f.key)
    (htaken : Taken services (processed ++ done) f) :
    LoopOk services processed (done ++ [f]) candidates' cache' := by
  constructor
  · intro g k hg hcached
    obtain ⟨g', hg', hslot⟩ := hloop.sound g k hg ((hcache g k hg).1 hcached)
    exact ⟨g', by rw [← List.append_assoc]; exact List.mem_append_left _ hg', hslot⟩
  · intro g hg k hk
    have hdone : ∀ g ∈ done, slot services g = some k →
        (∃ g' ∈ processed, slot services g' = some k) ∨ Cached cache' k := fun g hg hk =>
      (hloop.complete g hg k hk).imp_right (hcache g k hk).2
    rcases List.mem_append.1 hg with hg | hg
    · exact hdone g hg hk
    · obtain rfl := List.mem_singleton.1 hg
      obtain ⟨g', hg', hk'⟩ := htaken k hk
      rcases List.mem_append.1 hg' with hg' | hg'
      · exact .inl ⟨g', hg', hk'⟩
      · exact hdone g' hg' hk'
  · intro key hkey
    rcases hseen key hkey with hkey | rfl
    · obtain ⟨g, hg, hgkey⟩ := hloop.seen key hkey
      exact ⟨g, List.mem_append_left _ hg, hgkey⟩
    · exact ⟨f, by simp, rfl⟩

/-- The first flag of a slot goes into the cache. -/
theorem LoopOk.recordFirstBlood (hloop : LoopOk services processed done candidates cache)
    {cache' : ServiceCache} {candidates' : FlagSet}
    (hcache : ∀ g k, slot services g = some k → (Cached cache' k ↔ Cached cache k))
    (hseen : ∀ key ∈ candidates'.seen, key ∈ candidates.seen ∨ key = f.key)
    (h : serviceById services f.serviceId = some service) :
    LoopOk services processed (done ++ [f]) candidates' (cache'.recordFirstBlood f) := by
  constructor
  · intro g k hg hcached
    rcases (cached_recordFirstBlood h hg).1 hcached with hcached | hf
    · obtain ⟨g', hg', hslot⟩ := hloop.sound g k hg ((hcache g k hg).1 hcached)
      exact ⟨g', by rw [← List.append_assoc]; exact List.mem_append_left _ hg', hslot⟩
    · exact ⟨f, by simp, hf⟩
  · intro g hg k hk
    rw [cached_recordFirstBlood h hk, hcache g k hk]
    rcases List.mem_append.1 hg with hg | hg
    · exact (hloop.complete g hg k hk).imp_right .inl
    · obtain rfl := List.mem_singleton.1 hg
      exact .inr (.inr hk)
  · intro key hkey
    rcases hseen key hkey with hkey | rfl
    · obtain ⟨g, hg, hgkey⟩ := hloop.seen key hkey
      exact ⟨g, List.mem_append_left _ hg, hgkey⟩
    · exact ⟨f, by simp, rfl⟩

theorem isNew_seen (candidates : FlagSet) (f : SubmittedFlag) :
    ∀ key ∈ (candidates.isNew f).2.seen, key ∈ candidates.seen ∨ key = f.key := by
  intro key hkey
  unfold FlagSet.isNew at hkey
  split at hkey
  · exact .inl hkey
  · exact (List.mem_cons.1 hkey).symm

theorem defaultLevel_of_taken (h : Taken services processed f) :
    defaultLevel services processed f = 0 := by
  refine if_neg ?_
  rintro ⟨hsome, hnew⟩
  obtain ⟨k, hk⟩ := Option.isSome_iff_exists.1 hsome
  obtain ⟨g, hg, hgk⟩ := h k hk
  exact hnew g hg (hgk.trans hk.symm)

theorem defaultLevel_of_not_taken (h : ¬ Taken services processed f) :
    defaultLevel services processed f = 1 := by
  unfold Taken at h
  push Not at h
  obtain ⟨k, hk, hnew⟩ := h
  refine if_pos ⟨by simp [hk], fun g hg heq => ?_⟩
  exact hnew g hg (heq.trans hk)

/-- Flags that are taken are not among the results. -/
theorem levels_cons_of_taken (h : Taken services processed f) (flags : List SubmittedFlag) :
    levels (defaultLevel services) processed (f :: flags) =
      levels (defaultLevel services) (processed ++ [f]) flags := by
  rw [levels, defaultLevel_of_taken h]
  rfl

/-- **The loop over a batch returns the first flags of their slots.** -/
theorem defaultLoop_eq (hmarked : Marked (defaultLevel services) processed marks)
    (hids : (history.map SubmittedFlag.id).Nodup) (hrows : processed ⊆ rows)
    (hhistory : rows ⊆ history) {flags : List SubmittedFlag}
    (hts : ∀ f ∈ flags, ∀ g ∈ processed, g.ts ≤ f.ts)
    (hloop : LoopOk services processed done candidates cache) :
    (defaultLoop services ⟨rows, marks⟩ candidates cache flags).1 =
        levels (defaultLevel services) (processed ++ done) flags ∧
      DefaultCacheOk services (processed ++ done ++ flags)
        (defaultLoop services ⟨rows, marks⟩ candidates cache flags).2 := by
  induction flags generalizing done candidates cache with
  | nil => simpa [defaultLoop, levels] using hloop.sound
  | cons f flags ih =>
    have hts' : ∀ g ∈ flags, ∀ p ∈ processed, p.ts ≤ g.ts := fun g hg =>
      hts g (List.mem_cons_of_mem _ hg)
    -- a flag whose slot is taken: the loop goes on without it
    have hskip : ∀ {candidates' : FlagSet} {cache' : ServiceCache},
        Taken services (processed ++ done) f →
        LoopOk services processed (done ++ [f]) candidates' cache' →
        (defaultLoop services ⟨rows, marks⟩ candidates' cache' flags).1 =
            levels (defaultLevel services) (processed ++ done) (f :: flags) ∧
          DefaultCacheOk services (processed ++ done ++ f :: flags)
            (defaultLoop services ⟨rows, marks⟩ candidates' cache' flags).2 := by
      intro candidates' cache' htaken hnext
      rw [levels_cons_of_taken htaken]
      simpa using ih hts' hnext
    cases hservice : serviceById services f.serviceId with
    | none =>
      have htaken : Taken services (processed ++ done) f := by simp [Taken, slot, hservice]
      simp only [defaultLoop, hservice]
      exact hskip htaken (hloop.skip (fun _ _ _ => Iff.rfl) (fun _ => .inl) htaken)
    | some service =>
      have hseen := isNew_seen candidates f
      simp only [defaultLoop, hservice]
      by_cases hmem : f.key ∈ candidates.seen
      · have htaken := hloop.taken_of_seen hmem
        have hnext := hloop.skip (fun _ _ _ => Iff.rfl) hseen htaken
        rw [FlagSet.isNew, if_pos hmem] at hnext ⊢
        exact hskip htaken hnext
      · have hcache : ∀ g k, slot services g = some k →
            (Cached (isFirstBlood ⟨rows, marks⟩ cache f service).2 k ↔ Cached cache k) :=
          fun g k hg => cached_isFirstBlood hservice hg
        have hfirst := hloop.isFirstBlood_iff hmarked hids hrows hhistory (hts f (by simp)) hservice
        rw [FlagSet.isNew, if_neg hmem] at hseen ⊢
        simp only [if_true]
        cases hyes : (isFirstBlood ⟨rows, marks⟩ cache f service).1 with
        | false =>
          have htaken : Taken services (processed ++ done) f := by simpa [hyes] using hfirst
          exact hskip htaken (hloop.skip hcache hseen htaken)
        | true =>
          have := ih hts' (hloop.recordFirstBlood hcache hseen hservice)
          rw [levels, defaultLevel_of_not_taken (hfirst.1 hyes)]
          simpa using this

end Batch

/-! ## Runs -/

instance : Std.Total SubmittedFlag.Before :=
  ⟨fun f g => by unfold SubmittedFlag.Before; omega⟩

instance : IsTrans SubmittedFlag SubmittedFlag.Before :=
  ⟨fun f g h => by unfold SubmittedFlag.Before; omega⟩

theorem before_ts_le (h : f.Before g) : f.ts ≤ g.ts := by
  rcases h with h | ⟨h, -⟩ <;> omega

theorem before_antisymm (h : f.Before g) (h' : g.Before f) : f.id = g.id := by
  unfold SubmittedFlag.Before at h h'
  omega

theorem before_refl (f : SubmittedFlag) : f.Before f :=
  .inr ⟨rfl, .inr ⟨rfl, le_rfl⟩⟩

/-- One batch of the default algorithm, on flags in the order `(ts, tick_submitted, id)`. -/
theorem defaultFirstBlood_correct (services : List Service) {history : List SubmittedFlag}
    (hsorted : history.Pairwise SubmittedFlag.Before)
    (hids : (history.map SubmittedFlag.id).Nodup) :
    (defaultFirstBlood services).Correct history (defaultLevel services)
    (DefaultCacheOk services) where
  initial f k _ hcached := by
    obtain ⟨serviceId, _ | payload⟩ := k <;> simp [Cached, defaultFirstBlood] at hcached
  reset _ _ _ f k _ hcached := by
    obtain ⟨serviceId, _ | payload⟩ := k <;> simp [Cached, defaultFirstBlood] at hcached
  batch processed flags rows marks cache results cache' hinit hrows hhistory hmarked hcache
      hget := by
    have hts : ∀ f ∈ flags, ∀ g ∈ processed, g.ts ≤ f.ts := fun f hf g hg =>
      before_ts_le ((List.pairwise_append.1 (hsorted.sublist hinit.sublist)).2.2 g hg f hf)
    have hloop : LoopOk services processed [] .empty cache :=
      ⟨by simpa using hcache, by simp, by simp [FlagSet.empty]⟩
    have hresult := defaultLoop_eq hmarked hids
      (fun g hg => hrows (List.mem_append_left _ hg)) hhistory hts hloop
    simp only [defaultFirstBlood, Except.ok.injEq] at hget
    rw [hget] at hresult
    simpa using hresult

/-- **Default first blood is unique and earliest.**  After every run that has processed
the whole history, in whatever batches and with whatever rollbacks and resets: every
service without payloads, and every payload of a service with payloads, that has a flag
has exactly one marked flag; a marked flag is the earliest of its slot, and of a known
service. -/
theorem default_firstblood (services : List Service) {history : List SubmittedFlag}
    (hsorted : history.Pairwise SubmittedFlag.Before)
    (hids : (history.map SubmittedFlag.id).Nodup) {es : List Event}
    (hes : Machine.Along (step (defaultFirstBlood services)) (InOrder history)
      (State.initial (defaultFirstBlood services)) es)
    (hall : (Machine.exec (step (defaultFirstBlood services))
      (State.initial (defaultFirstBlood services)) es).processed = history) :
    let marks := (Machine.exec (step (defaultFirstBlood services))
      (State.initial (defaultFirstBlood services)) es).marks
    (∀ k, (∃ f ∈ history, slot services f = some k) →
      ∃! f, f ∈ history ∧ slot services f = some k ∧ 0 < marks f.id) ∧
    ∀ f ∈ history, 0 < marks f.id → (slot services f).isSome ∧
      ∀ g ∈ history, slot services g = slot services f → f.Before g := by
  intro marks
  have hmarked := ((defaultFirstBlood_correct services hsorted hids).run hids hes).marked
  rw [hall] at hmarked
  -- a marked flag has no flag of its slot before it
  have hfirst : ∀ f ∈ history, 0 < marks f.id → (slot services f).isSome ∧
      ∃ before after, history = before ++ f :: after ∧
        ∀ g ∈ before, slot services g ≠ slot services f := by
    intro f hf hmark
    obtain ⟨before, after, hsplit⟩ := List.append_of_mem hf
    have hlevel := hmarked.level_eq before f after hsplit
    have hcond : (slot services f).isSome ∧ ∀ g ∈ before, slot services g ≠ slot services f := by
      by_contra hnot
      rw [defaultLevel, if_neg hnot] at hlevel
      exact hmark.ne' hlevel
    exact ⟨hcond.1, before, after, hsplit, hcond.2⟩
  have hearliest : ∀ f ∈ history, 0 < marks f.id → ∀ g ∈ history,
      slot services g = slot services f → f.Before g := by
    intro f hf hmark g hg heq
    obtain ⟨-, before, after, hsplit, hbefore⟩ := hfirst f hf hmark
    rw [hsplit] at hg hsorted
    rcases List.mem_append.1 hg with hg | hg
    · exact absurd heq (hbefore g hg)
    · rcases List.mem_cons.1 hg with rfl | hg
      · exact before_refl g
      · exact (List.pairwise_cons.1 (List.pairwise_append.1 hsorted).2.1).1 g hg
  refine ⟨?_, fun f hf hmark => ⟨(hfirst f hf hmark).1, hearliest f hf hmark⟩⟩
  rintro k ⟨f, hf, hk⟩
  obtain ⟨f₀, hf₀, hk₀, hmark₀⟩ := exists_marked hmarked hf hk
  refine ⟨f₀, ⟨hf₀, hk₀, hmark₀⟩, ?_⟩
  rintro f₁ ⟨hf₁, hk₁, hmark₁⟩
  refine List.inj_on_of_nodup_map hids hf₁ hf₀ (before_antisymm ?_ ?_)
  · exact hearliest f₁ hf₁ hmark₁ f₀ hf₀ (hk₀.trans hk₁.symm)
  · exact hearliest f₀ hf₀ hmark₀ f₁ hf₁ (hk₁.trans hk₀.symm)

/-- A service without payloads and one with two. -/
def exampleServices : List Service := [.new 1 0, .new 2 2]

/-- Two flags of the first service, two of the second, one of an unknown service. -/
def exampleHistory : List SubmittedFlag :=
  [⟨1, 1, 9, 7, 1, 0, 1, 100⟩, ⟨2, 1, 9, 1, 1, 5, 1, 100⟩, ⟨3, 2, 9, 1, 1, 6, 1, 101⟩,
    ⟨4, 2, 9, 2, 2, 1, 2, 102⟩, ⟨5, 1, 9, 2, 2, 1, 2, 102⟩]

/-- The history in two batches, the second of which has to be retried. -/
def exampleEvents : List Event :=
  [.batch (exampleHistory.take 3) (exampleHistory.take 3), .rollback,
    .batch (exampleHistory.drop 3) exampleHistory]

/-- The second flag is the first blood of the first service. -/
theorem default_firstblood_retried :
    ∃! f, f ∈ exampleHistory ∧ slot exampleServices f = some (1, none) ∧
      0 < (Machine.exec (step (defaultFirstBlood exampleServices))
        (State.initial (defaultFirstBlood exampleServices)) exampleEvents).marks f.id :=
  have hes : Machine.Along (step (defaultFirstBlood exampleServices)) (InOrder exampleHistory)
      (State.initial (defaultFirstBlood exampleServices)) exampleEvents := by decide
  (default_firstblood exampleServices (by decide) (by decide) hes (by decide)).1 (1, none)
    (by decide)

end Gameserver.FirstBlood
