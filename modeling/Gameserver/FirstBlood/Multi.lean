import Gameserver.FirstBlood.Basic

/-!
# Multi-level first blood

`class MultiFirstBloodAlgorithm` of `algorithms/firstblood.py`: for each service, or each
payload of a service with payloads, level `N` goes to the first flag with which some
attacker has flags of `N` different victims.

* `multiFlag` — the body of the loop, with its two caches and two queries.
* `victims`, `best`, `multiLevel` — the specification.
* `multiFlag_eq` — what one flag does, if cache and database together know the best
  level so far.
* `multiFirstBlood_correct` — one batch.
-/

namespace Gameserver.FirstBlood

open Gameserver.Scoring

/-- `cache_max` and `cache_victims`. -/
structure MultiCache where
  /-- `(service_id, payload) => max_attacked_teams` -/
  max : ℕ × ℕ → ℕ
  /-- `(service_id, payload), attacker => set of victims` -/
  victims : (ℕ × ℕ) × ℕ → Finset ℕ

/-- `_filter_before_flag`. -/
def filterBeforeFlag (flag : SubmittedFlag) (service : Service) (row : SubmittedFlag) : Bool :=
  row.serviceId = flag.serviceId ∧ row.ts < flag.ts ∧
    (0 < service.numPayloads → row.payload = flag.payload)

/-- `_get_max_firstblood_level`. -/
def getMaxFirstbloodLevel (db : FlagView) (flag : SubmittedFlag) (service : Service) : ℕ :=
  (((db.rows.filter fun row => 0 < db.isFirstblood row.id ∧ filterBeforeFlag flag service row).map
    fun row => db.isFirstblood row.id).max?).getD 0

/-- `_get_previous_victims`. -/
def getPreviousVictims (db : FlagView) (flag : SubmittedFlag) (service : Service) : Finset ℕ :=
  ((db.rows.filter fun row =>
    row.submittedBy = flag.submittedBy ∧ filterBeforeFlag flag service row).map
      SubmittedFlag.teamId).toFinset

/-- `key1`. -/
def payloadKey (service : Service) (flag : SubmittedFlag) : ℕ × ℕ :=
  if 0 < service.numPayloads then (flag.serviceId, flag.payload) else (flag.serviceId, 0)

/-- The body of the loop of `get_firstbloods`: the level of the flag, if it has one. -/
def multiFlag (services : List Service) (limit : ℕ) (db : FlagView) (cache : MultiCache)
    (flag : SubmittedFlag) : Except PyError (Option ℕ × MultiCache) :=
  match serviceById services flag.serviceId with
  | none => .error .keyError
  | some service =>
    let key1 := payloadKey service flag
    let key2 := (key1, flag.submittedBy)
    if limit ≤ cache.max key1 then .ok (none, cache)
    else if flag.teamId ∈ cache.victims key2 then .ok (none, cache)
    else
      let currentLevel := max (cache.max key1) (getMaxFirstbloodLevel db flag service)
      let cache := { cache with max := Function.update cache.max key1 currentLevel }
      if limit ≤ currentLevel then .ok (none, cache)
      else
        let victims := cache.victims key2 ∪ getPreviousVictims db flag service
        if flag.teamId ∈ victims then
          .ok (none, { cache with victims := Function.update cache.victims key2 victims })
        else
          let victims := insert flag.teamId victims
          let cache := { cache with victims := Function.update cache.victims key2 victims }
          if currentLevel < victims.card then
            .ok (some victims.card,
              { cache with max := Function.update cache.max key1 victims.card })
          else .ok (none, cache)

/-- `MultiFirstBloodAlgorithm.get_firstbloods`. -/
def multiLoop (services : List Service) (limit : ℕ) (db : FlagView) :
    MultiCache → List SubmittedFlag → Except PyError (List (SubmittedFlag × ℕ) × MultiCache)
  | cache, [] => .ok ([], cache)
  | cache, flag :: flags => do
    let (level, cache) ← multiFlag services limit db cache flag
    let (results, cache) ← multiLoop services limit db cache flags
    return ((level.map (flag, ·)).toList ++ results, cache)

/-- `MultiFirstBloodAlgorithm`. -/
def multiFirstBlood (services : List Service) (limit : ℕ) : Algorithm MultiCache where
  empty := { max := fun _ => 0, victims := fun _ => ∅ }
  getFirstbloods db cache flags := multiLoop services limit db cache flags

/-! ## The specification -/

section Spec

variable (services : List Service)

/-- What a flag competes for: its service, and its payload if the service has payloads. -/
def levelKey (f : SubmittedFlag) : ℕ × ℕ :=
  match serviceById services f.serviceId with
  | some service => payloadKey service f
  | none => (f.serviceId, 0)

/-- The different victims of an attacker among the flags of a key. -/
def victims (flags : List SubmittedFlag) (key : ℕ × ℕ) (attacker : ℕ) : Finset ℕ :=
  ((flags.filter fun f => levelKey services f = key ∧ f.submittedBy = attacker).map
    SubmittedFlag.teamId).toFinset

/-- The largest number of different victims of one attacker. -/
def best (flags : List SubmittedFlag) (key : ℕ × ℕ) : ℕ :=
  (flags.map SubmittedFlag.submittedBy).toFinset.sup fun attacker =>
    (victims services flags key attacker).card

/-- A flag has level `N` if its attacker reaches `N` different victims with it, and nobody
did before. -/
def multiLevel (limit : ℕ) (before : List SubmittedFlag) (f : SubmittedFlag) : ℕ :=
  let n := (victims services (before ++ [f]) (levelKey services f) f.submittedBy).card
  if best services before (levelKey services f) < n ∧ n ≤ limit then n else 0

variable {services} {flags before : List SubmittedFlag} {key : ℕ × ℕ} {attacker n : ℕ}
  {f g : SubmittedFlag}

theorem mem_victims {v : ℕ} :
    v ∈ victims services flags key attacker ↔
      ∃ g ∈ flags, levelKey services g = key ∧ g.submittedBy = attacker ∧ g.teamId = v := by
  simp [victims, and_assoc]

theorem victims_snoc :
    victims services (flags ++ [f]) key attacker =
      if levelKey services f = key ∧ f.submittedBy = attacker then
        insert f.teamId (victims services flags key attacker)
      else victims services flags key attacker := by
  ext v
  split
  · rename_i h
    simp only [Finset.mem_insert, mem_victims, List.mem_append, List.mem_singleton]
    constructor
    · rintro ⟨g, hg | rfl, hgk⟩
      · exact .inr ⟨g, hg, hgk⟩
      · exact .inl hgk.2.2.symm
    · rintro (rfl | ⟨g, hg, hgk⟩)
      · exact ⟨f, .inr rfl, h.1, h.2, rfl⟩
      · exact ⟨g, .inl hg, hgk⟩
  · rename_i h
    simp only [mem_victims, List.mem_append, List.mem_singleton]
    constructor
    · rintro ⟨g, hg | rfl, hgk⟩
      · exact ⟨g, hg, hgk⟩
      · exact absurd ⟨hgk.1, hgk.2.1⟩ h
    · rintro ⟨g, hg, hgk⟩
      exact ⟨g, .inl hg, hgk⟩

theorem best_le_iff :
    best services flags key ≤ n ↔ ∀ attacker, (victims services flags key attacker).card ≤ n := by
  rw [best, Finset.sup_le_iff]
  constructor
  · intro h attacker
    by_cases hmem : attacker ∈ (flags.map SubmittedFlag.submittedBy).toFinset
    · exact h attacker hmem
    · have hempty : victims services flags key attacker = ∅ := by
        refine Finset.eq_empty_of_forall_notMem fun v hv => hmem ?_
        obtain ⟨g, hg, -, hby, -⟩ := mem_victims.1 hv
        rw [List.mem_toFinset]
        exact List.mem_map.2 ⟨g, hg, hby⟩
      simp [hempty]
  · exact fun h attacker _ => h attacker

theorem card_victims_le_best (attacker : ℕ) :
    (victims services flags key attacker).card ≤ best services flags key :=
  best_le_iff.1 le_rfl attacker

theorem best_snoc_of_ne (h : levelKey services f ≠ key) :
    best services (flags ++ [f]) key = best services flags key :=
  eq_of_forall_ge_iff fun n => by simp [best_le_iff, victims_snoc, h]

/-- With one more flag, only its attacker can do better than the best so far. -/
theorem best_snoc (services : List Service) (flags : List SubmittedFlag) (f : SubmittedFlag) :
    best services (flags ++ [f]) (levelKey services f) =
      max (best services flags (levelKey services f))
        (victims services (flags ++ [f]) (levelKey services f) f.submittedBy).card := by
  apply eq_of_forall_ge_iff
  intro n
  rw [best_le_iff, max_le_iff, best_le_iff]
  constructor
  · intro h
    refine ⟨fun attacker => (Finset.card_le_card ?_).trans (h attacker), h f.submittedBy⟩
    rw [victims_snoc]
    split
    · exact Finset.subset_insert _ _
    · exact Finset.Subset.refl _
  · rintro ⟨hflags, hf⟩ attacker
    by_cases hby : f.submittedBy = attacker
    · subst hby
      exact hf
    · rw [victims_snoc, if_neg fun h => hby h.2]
      exact hflags attacker

theorem card_victims_snoc_le (services : List Service) (flags : List SubmittedFlag)
    (f : SubmittedFlag) :
    (victims services (flags ++ [f]) (levelKey services f) f.submittedBy).card ≤
      best services flags (levelKey services f) + 1 := by
  rw [victims_snoc, if_pos ⟨rfl, rfl⟩]
  exact (Finset.card_insert_le _ _).trans (Nat.add_le_add_right (card_victims_le_best _) 1)

theorem best_nil : best services [] key = 0 := rfl

end Spec

/-! ## One flag -/

section Flag

variable {services : List Service} {limit : ℕ} {before : List SubmittedFlag} {f : SubmittedFlag}

theorem victims_subset_snoc (key : ℕ × ℕ) (attacker : ℕ) :
    victims services before key attacker ⊆ victims services (before ++ [f]) key attacker := by
  rw [victims_snoc]
  split
  · exact Finset.subset_insert _ _
  · exact Finset.Subset.refl _

/-- Once the limit is reached, there are no more levels. -/
theorem multiLevel_of_limit_le (h : limit ≤ best services before (levelKey services f)) :
    multiLevel services limit before f = 0 ∧
      min (best services (before ++ [f]) (levelKey services f)) limit =
        min (best services before (levelKey services f)) limit := by
  constructor
  · exact if_neg fun hcond => by omega
  · rw [best_snoc]
    omega

/-- A victim the attacker had before is worth nothing. -/
theorem multiLevel_of_mem (limit : ℕ)
    (h : f.teamId ∈ victims services before (levelKey services f) f.submittedBy) :
    multiLevel services limit before f = 0 ∧
      best services (before ++ [f]) (levelKey services f) =
        best services before (levelKey services f) := by
  have hsame : victims services (before ++ [f]) (levelKey services f) f.submittedBy =
      victims services before (levelKey services f) f.submittedBy := by
    rw [victims_snoc, if_pos ⟨rfl, rfl⟩, Finset.insert_eq_of_mem h]
  have hle : (victims services before (levelKey services f) f.submittedBy).card ≤
      best services before (levelKey services f) := card_victims_le_best f.submittedBy
  constructor
  · rw [multiLevel, hsame]
    exact if_neg fun hcond => by omega
  · rw [best_snoc, hsame, max_eq_left hle]

/-- Cache and database together know the level of every key in scope; `saved` is what the
database knows of it. -/
structure Knows (services : List Service) (limit : ℕ) (scope : ℕ × ℕ → Prop)
    (before : List SubmittedFlag) (saved : ℕ × ℕ → ℕ) (cache : MultiCache) : Prop where
  level : ∀ key, scope key →
    max (cache.max key) (saved key) = min (best services before key) limit
  victims : ∀ key attacker, scope key →
    cache.victims (key, attacker) ⊆ victims services before key attacker

variable {scope : ℕ × ℕ → Prop} {saved : ℕ × ℕ → ℕ} {cache cache' : MultiCache}

/-- Two caches know the same of some keys. -/
def MultiCache.SameOn (cache cache' : MultiCache) (keys : ℕ × ℕ → Prop) : Prop :=
  ∀ key, keys key → cache'.max key = cache.max key ∧
    ∀ attacker, cache'.victims (key, attacker) = cache.victims (key, attacker)

theorem MultiCache.SameOn.refl (cache : MultiCache) (keys : ℕ × ℕ → Prop) :
    cache.SameOn cache keys :=
  fun _ _ => ⟨rfl, fun _ => rfl⟩

theorem MultiCache.SameOn.trans {keys keys₁ keys₂ : ℕ × ℕ → Prop} {cache₁ cache₂ : MultiCache}
    (h₁ : cache.SameOn cache₁ keys₁) (h₂ : cache₁.SameOn cache₂ keys₂)
    (hkeys : ∀ key, keys key → keys₁ key ∧ keys₂ key) : cache.SameOn cache₂ keys := by
  intro key hkey
  obtain ⟨hmax₁, hvictims₁⟩ := h₁ key (hkeys key hkey).1
  obtain ⟨hmax₂, hvictims₂⟩ := h₂ key (hkeys key hkey).2
  exact ⟨hmax₂.trans hmax₁, fun attacker => (hvictims₂ attacker).trans (hvictims₁ attacker)⟩

/-- A flag after which the level is known again. -/
theorem Knows.snoc (h : Knows services limit scope before saved cache)
    (hframe : cache.SameOn cache' fun key => key ≠ levelKey services f)
    (hlevel : max (cache'.max (levelKey services f)) (saved (levelKey services f)) =
      min (best services (before ++ [f]) (levelKey services f)) limit)
    (hvictims : ∀ attacker, cache'.victims (levelKey services f, attacker) ⊆
      FirstBlood.victims services (before ++ [f]) (levelKey services f) attacker) :
    Knows services limit scope (before ++ [f]) saved cache' := by
  constructor
  · intro key hkey
    by_cases heq : key = levelKey services f
    · rw [heq]
      exact hlevel
    · rw [(hframe key heq).1, best_snoc_of_ne (Ne.symm heq)]
      exact h.level key hkey
  · intro key attacker hkey
    by_cases heq : key = levelKey services f
    · rw [heq]
      exact hvictims attacker
    · rw [(hframe key heq).2]
      exact (h.victims key attacker hkey).trans (victims_subset_snoc key attacker)

/-- Set the cached level of a key and the cached victims of one attacker. -/
def MultiCache.set (cache : MultiCache) (key : ℕ × ℕ) (attacker level : ℕ) (vs : Finset ℕ) :
    MultiCache where
  max := Function.update cache.max key level
  victims := Function.update cache.victims (key, attacker) vs

@[simp] theorem MultiCache.set_max_self (cache : MultiCache) (key : ℕ × ℕ) (attacker level : ℕ)
    (vs : Finset ℕ) : (cache.set key attacker level vs).max key = level :=
  Function.update_self ..

@[simp] theorem MultiCache.set_victims_self (cache : MultiCache) (key : ℕ × ℕ) (attacker level : ℕ)
    (vs : Finset ℕ) : (cache.set key attacker level vs).victims (key, attacker) = vs :=
  Function.update_self ..

theorem MultiCache.set_victims_of_ne (cache : MultiCache) (key : ℕ × ℕ)
    {attacker attacker' : ℕ} (h : attacker' ≠ attacker) (level : ℕ) (vs : Finset ℕ) :
    (cache.set key attacker level vs).victims (key, attacker') = cache.victims (key, attacker') :=
  Function.update_of_ne (fun heq => h (congrArg Prod.snd heq)) _ _

theorem MultiCache.sameOn_set (cache : MultiCache) (key : ℕ × ℕ) (attacker level : ℕ)
    (vs : Finset ℕ) : cache.SameOn (cache.set key attacker level vs) fun key' => key' ≠ key := by
  intro key' hne
  refine ⟨Function.update_of_ne hne _ _, fun attacker' => ?_⟩
  exact Function.update_of_ne (fun heq => hne (congrArg Prod.fst heq)) _ _

/-- A flag after which level and victims are set. -/
theorem Knows.set (h : Knows services limit scope before saved cache)
    (hscope : scope (levelKey services f)) {level : ℕ} {vs : Finset ℕ}
    (hlevel : max level (saved (levelKey services f)) =
      min (best services (before ++ [f]) (levelKey services f)) limit)
    (hvs : vs ⊆ FirstBlood.victims services (before ++ [f]) (levelKey services f) f.submittedBy) :
    Knows services limit scope (before ++ [f]) saved
      (cache.set (levelKey services f) f.submittedBy level vs) := by
  refine h.snoc (cache.sameOn_set _ _ _ _) ?_ fun attacker => ?_
  · rw [MultiCache.set_max_self]
    exact hlevel
  · by_cases hby : attacker = f.submittedBy
    · rw [hby, MultiCache.set_victims_self]
      exact hvs
    · rw [MultiCache.set_victims_of_ne _ _ hby]
      exact (h.victims _ attacker hscope).trans (victims_subset_snoc _ attacker)

/-- **One flag gets its level**, if the queries answer for the flags before it. -/
theorem multiFlag_eq {db : FlagView} {service : Service}
    (hservice : serviceById services f.serviceId = some service)
    (hknows : Knows services limit scope before saved cache) (hscope : scope (levelKey services f))
    (hmax : getMaxFirstbloodLevel db f service = saved (levelKey services f))
    (hprevious : getPreviousVictims db f service =
      victims services before (levelKey services f) f.submittedBy) :
    ∃ cache', multiFlag services limit db cache f =
        .ok (if multiLevel services limit before f = 0 then none
          else some (multiLevel services limit before f), cache') ∧
      Knows services limit scope (before ++ [f]) saved cache' ∧
      cache.SameOn cache' fun key => key ≠ levelKey services f := by
  have hkey : payloadKey service f = levelKey services f := by simp [levelKey, hservice]
  have hlevel := hknows.level _ hscope
  have hsub := hknows.victims _ f.submittedBy hscope
  have hsub' : ∀ attacker, cache.victims (levelKey services f, attacker) ⊆
      victims services (before ++ [f]) (levelKey services f) attacker := fun attacker =>
    (hknows.victims _ attacker hscope).trans (victims_subset_snoc _ attacker)
  have hsaved :
      saved (levelKey services f) ≤ min (best services before (levelKey services f)) limit :=
    hlevel ▸ le_max_right _ _
  have hrefl : cache.SameOn cache fun key => key ≠ levelKey services f := .refl _ _
  simp only [multiFlag, hservice, hkey, hmax, hprevious, hlevel, Finset.union_eq_right.2 hsub]
  by_cases hdone : limit ≤ cache.max (levelKey services f)
  · have hreached : limit ≤ best services before (levelKey services f) := by omega
    obtain ⟨hzero, hbest⟩ := multiLevel_of_limit_le hreached
    exact ⟨cache, by simp [hdone, hzero], hknows.snoc hrefl (hlevel.trans hbest.symm) hsub', hrefl⟩
  by_cases hold : f.teamId ∈ cache.victims (levelKey services f, f.submittedBy)
  · obtain ⟨hzero, hbest⟩ := multiLevel_of_mem limit (hsub hold)
    exact ⟨cache, by simp [hdone, hold, hzero],
      hknows.snoc hrefl (by rw [hbest]; exact hlevel) hsub',
      hrefl⟩
  by_cases hlimit : limit ≤ min (best services before (levelKey services f)) limit
  · have hreached : limit ≤ best services before (levelKey services f) := by omega
    obtain ⟨hzero, hbest⟩ := multiLevel_of_limit_le hreached
    refine ⟨cache.set _ _ _ (cache.victims (levelKey services f, f.submittedBy)), ?_,
      hknows.set hscope (by rw [hbest, max_eq_left hsaved]) (hsub' _), cache.sameOn_set _ _ _ _⟩
    simp [hdone, hold, hlimit, hzero, MultiCache.set]
  by_cases hmem : f.teamId ∈ victims services before (levelKey services f) f.submittedBy
  · obtain ⟨hzero, hbest⟩ := multiLevel_of_mem limit hmem
    refine ⟨cache.set _ _ _ (victims services before (levelKey services f) f.submittedBy), ?_,
      hknows.set hscope (by rw [hbest, max_eq_left hsaved]) (victims_subset_snoc _ _),
      cache.sameOn_set _ _ _ _⟩
    simp [hdone, hold, hlimit, hmem, hzero, MultiCache.set]
  -- a new victim, and the limit is not reached
  have hvictims : insert f.teamId (victims services before (levelKey services f) f.submittedBy) =
      victims services (before ++ [f]) (levelKey services f) f.submittedBy := by
    rw [victims_snoc, if_pos ⟨rfl, rfl⟩]
  have hle := card_victims_snoc_le services before f
  have hbest := best_snoc services before f
  rw [hvictims]
  by_cases hnew : min (best services before (levelKey services f)) limit <
      (victims services (before ++ [f]) (levelKey services f) f.submittedBy).card
  · have hlevel' : multiLevel services limit before f =
        (victims services (before ++ [f]) (levelKey services f) f.submittedBy).card :=
      if_pos ⟨by omega, by omega⟩
    have hpos :
        (victims services (before ++ [f]) (levelKey services f) f.submittedBy).card ≠ 0 := by
      omega
    refine ⟨cache.set _ _ (victims services (before ++ [f])
      (levelKey services f) f.submittedBy).card
      _, ?_, hknows.set hscope (by omega) (Finset.Subset.refl _), cache.sameOn_set _ _ _ _⟩
    rw [if_neg hdone, if_neg hold, if_neg hlimit, if_neg hmem, if_pos hnew, hlevel', if_neg hpos,
      Function.update_idem]
    rfl
  · have hzero : multiLevel services limit before f = 0 := if_neg fun hcond => by omega
    refine ⟨cache.set _ _ (min (best services before (levelKey services f)) limit) _, ?_,
      hknows.set hscope (by omega) (Finset.Subset.refl _), cache.sameOn_set _ _ _ _⟩
    rw [if_neg hdone, if_neg hold, if_neg hlimit, if_neg hmem, if_neg hnew, hzero, if_pos rfl]
    rfl

end Flag

/-! ## The levels of a history -/

section Levels

variable {services : List Service} {limit : ℕ} {before after flags : List SubmittedFlag}
  {f g : SubmittedFlag} {key : ℕ × ℕ} {n : ℕ}

theorem best_mono_append (services : List Service) (key : ℕ × ℕ) (flags more : List SubmittedFlag) :
    best services flags key ≤ best services (flags ++ more) key := by
  rw [best_le_iff]
  intro attacker
  refine (Finset.card_le_card fun v hv => ?_).trans (card_victims_le_best attacker)
  obtain ⟨g, hg, hgk⟩ := mem_victims.1 hv
  exact mem_victims.2 ⟨g, List.mem_append_left _ hg, hgk⟩

theorem multiLevel_le_best :
    multiLevel services limit before f ≤ best services (before ++ [f]) (levelKey services f) := by
  unfold multiLevel
  dsimp only
  split
  · exact card_victims_le_best _
  · exact Nat.zero_le _

theorem multiLevel_le_limit : multiLevel services limit before f ≤ limit := by
  unfold multiLevel
  dsimp only
  split
  · rename_i h
    exact h.2
  · exact Nat.zero_le _

/-- **Level `N` goes to the first flag with which some attacker reaches `N` victims.** -/
theorem multiLevel_eq_iff (hn : 1 ≤ n) :
    multiLevel services limit before f = n ↔ n ≤ limit ∧
      (∃ attacker, n ≤ (victims services (before ++ [f]) (levelKey services f) attacker).card) ∧
      ∀ attacker, (victims services before (levelKey services f) attacker).card < n := by
  constructor
  · intro h
    unfold multiLevel at h
    dsimp only at h
    split at h
    · rename_i hcond
      refine ⟨h ▸ hcond.2, ⟨f.submittedBy, h.ge⟩, fun attacker => ?_⟩
      exact (card_victims_le_best attacker).trans_lt (h ▸ hcond.1)
    · omega
  · rintro ⟨hlimit, ⟨attacker, hreach⟩, hbefore⟩
    have hbest : best services before (levelKey services f) < n :=
      Nat.lt_of_le_sub_one hn (best_le_iff.2 fun a => Nat.le_sub_one_of_lt (hbefore a))
    have hby : f.submittedBy = attacker := by
      by_contra hne
      rw [victims_snoc, if_neg fun h => hne h.2] at hreach
      exact absurd (hbefore attacker) (not_lt.2 hreach)
    subst hby
    have hle := card_victims_snoc_le services before f
    have heq : (victims services (before ++ [f]) (levelKey services f) f.submittedBy).card = n := by
      omega
    rw [multiLevel, heq]
    exact if_pos ⟨hbest, hlimit⟩

/-- All levels up to the best one are there. -/
theorem exists_multiLevel (hn : 1 ≤ n) (hbest : n ≤ best services flags key) (hlimit : n ≤ limit) :
    ∃ before g after, flags = before ++ g :: after ∧ levelKey services g = key ∧
      multiLevel services limit before g = n := by
  induction flags using List.reverseRecOn with
  | nil => simp [best_nil] at hbest; omega
  | append_singleton flags f ih =>
    by_cases hold : n ≤ best services flags key
    · obtain ⟨before, g, after, rfl, hg⟩ := ih hold
      exact ⟨before, g, after ++ [f], by simp, hg⟩
    · have hkey : levelKey services f = key := by
        by_contra hne
        rw [best_snoc_of_ne hne] at hbest
        exact hold hbest
      subst hkey
      refine ⟨flags, f, [], rfl, rfl, (multiLevel_eq_iff hn).2 ⟨hlimit, ?_, fun attacker => ?_⟩⟩
      · by_contra hnone
        rw [not_exists] at hnone
        have := best_le_iff.2 fun a => Nat.le_sub_one_of_lt (not_le.1 (hnone a))
        omega
      · exact (card_victims_le_best attacker).trans_lt (not_le.1 hold)

/-- Later flags of a key have higher levels. -/
theorem multiLevel_lt {middle : List SubmittedFlag}
    (hkey : levelKey services g = levelKey services f)
    (hg : 1 ≤ multiLevel services limit (before ++ f :: middle) g) :
    multiLevel services limit before f < multiLevel services limit (before ++ f :: middle) g := by
  obtain ⟨-, -, hreach⟩ := (multiLevel_eq_iff hg).1 rfl
  have hbest : best services (before ++ f :: middle) (levelKey services g) <
      multiLevel services limit (before ++ f :: middle) g :=
    Nat.lt_of_le_sub_one hg (best_le_iff.2 fun a => Nat.le_sub_one_of_lt (hreach a))
  calc multiLevel services limit before f
      ≤ best services (before ++ [f]) (levelKey services f) := multiLevel_le_best
    _ ≤ best services (before ++ [f] ++ middle) (levelKey services f) := best_mono_append _ _ _ _
    _ = best services (before ++ f :: middle) (levelKey services g) := by simp [hkey]
    _ < _ := hbest

end Levels

/-! ## The queries -/

section Queries

variable {services : List Service} {limit : ℕ} {processed before rows : List SubmittedFlag}
  {f g : SubmittedFlag} {service : Service} {marks : ℕ → ℕ}

@[simp] theorem levelKey_fst (f : SubmittedFlag) : (levelKey services f).1 = f.serviceId := by
  unfold levelKey payloadKey
  split
  · split <;> rfl
  · rfl

theorem levelKey_eq_iff (h : serviceById services f.serviceId = some service) :
    levelKey services g = levelKey services f ↔
      g.serviceId = f.serviceId ∧ (0 < service.numPayloads → g.payload = f.payload) := by
  have hf : levelKey services f = payloadKey service f := by simp [levelKey, h]
  constructor
  · intro heq
    have hid : g.serviceId = f.serviceId := by simpa using congrArg Prod.fst heq
    have hg : levelKey services g = payloadKey service g := by simp [levelKey, hid, h]
    refine ⟨hid, fun hpos => ?_⟩
    rw [hf, hg, payloadKey, payloadKey, if_pos hpos, if_pos hpos] at heq
    exact congrArg Prod.snd heq
  · rintro ⟨hid, hpayload⟩
    have hg : levelKey services g = payloadKey service g := by simp [levelKey, hid, h]
    rw [hf, hg, payloadKey, payloadKey]
    split
    · rw [hid, hpayload ‹_›]
    · rw [hid]

theorem filterBeforeFlag_iff (h : serviceById services f.serviceId = some service) :
    filterBeforeFlag f service g = true ↔ levelKey services g = levelKey services f ∧
      g.ts < f.ts := by
  simp only [filterBeforeFlag, levelKey_eq_iff h, decide_eq_true_eq]
  constructor
  · rintro ⟨hid, hts, hpayload⟩
    exact ⟨⟨hid, hpayload⟩, hts⟩
  · rintro ⟨⟨hid, hpayload⟩, hts⟩
    exact ⟨hid, hts, hpayload⟩

/-- The query for the victims, if the earlier rows of the key are the flags `before`. -/
theorem getPreviousVictims_eq (h : serviceById services f.serviceId = some service)
    (hrows : ∀ row, levelKey services row = levelKey services f →
      (row ∈ rows ∧ row.ts < f.ts ↔ row ∈ before)) :
    getPreviousVictims ⟨rows, marks⟩ f service =
      victims services before (levelKey services f) f.submittedBy := by
  ext v
  simp only [getPreviousVictims, List.mem_toFinset, List.mem_map, List.mem_filter,
    decide_eq_true_eq,
    Bool.decide_and, Bool.and_eq_true, filterBeforeFlag_iff h, mem_victims]
  constructor
  · rintro ⟨row, ⟨hrow, hby, hkey, hts⟩, rfl⟩
    exact ⟨row, (hrows row hkey).1 ⟨hrow, hts⟩, hkey, hby, rfl⟩
  · rintro ⟨row, hrow, hkey, hby, rfl⟩
    obtain ⟨hmem, hts⟩ := (hrows row hkey).2 hrow
    exact ⟨row, ⟨hmem, hby, hkey, hts⟩, rfl⟩

theorem getMaxFirstbloodLevel_le {n : ℕ} (h : serviceById services f.serviceId = some service)
    (hle : ∀ row ∈ rows, levelKey services row = levelKey services f → row.ts < f.ts →
      marks row.id ≤ n) :
    getMaxFirstbloodLevel ⟨rows, marks⟩ f service ≤ n := by
  unfold getMaxFirstbloodLevel
  generalize hmax : List.max? (α := ℕ) (List.map _ _) = level
  cases level with
  | none => exact Nat.zero_le n
  | some m =>
    obtain ⟨row, hrow, rfl⟩ := List.mem_map.1 (List.max?_mem hmax)
    obtain ⟨hmem, hcond⟩ := List.mem_filter.1 hrow
    simp only [Bool.decide_and, decide_eq_true_eq, Bool.and_eq_true,
      filterBeforeFlag_iff h] at hcond
    exact hle row hmem hcond.2.1 hcond.2.2

theorem le_getMaxFirstbloodLevel (h : serviceById services f.serviceId = some service)
    (hg : g ∈ rows)
    (hkey : levelKey services g = levelKey services f) (hts : g.ts < f.ts) :
    marks g.id ≤ getMaxFirstbloodLevel ⟨rows, marks⟩ f service := by
  rcases Nat.eq_zero_or_pos (marks g.id) with hzero | hpos
  · rw [hzero]
    exact Nat.zero_le _
  · unfold getMaxFirstbloodLevel
    have hmem : marks g.id ∈ (rows.filter fun row => 0 < marks row.id ∧
      filterBeforeFlag f service row).map
        fun row => marks row.id := by
      refine List.mem_map.2 ⟨g, List.mem_filter.2 ⟨hg, ?_⟩, rfl⟩
      simp only [Bool.decide_and, decide_eq_true_eq, Bool.and_eq_true, filterBeforeFlag_iff h]
      exact ⟨hpos, hkey, hts⟩
    dsimp only
    generalize hmax : List.max? (α := ℕ) (List.map _ _) = level
    cases level with
    | none =>
      rw [List.max?_eq_none_iff.1 hmax] at hmem
      exact absurd hmem List.not_mem_nil
    | some m => exact (List.max?_eq_some_iff.1 hmax).2 _ hmem

/-- **The query for the level, after a number of processed flags**: the best level so far. -/
theorem getMaxFirstbloodLevel_eq (hmarked : Marked (multiLevel services limit) processed marks)
    (h : serviceById services f.serviceId = some service)
    (honly : ∀ row ∈ rows, 0 < marks row.id → row ∈ processed)
    (hrows : ∀ g ∈ processed, g ∈ rows ∧ g.ts < f.ts) :
    getMaxFirstbloodLevel ⟨rows, marks⟩ f service =
      min (best services processed (levelKey services f)) limit := by
  refine le_antisymm (getMaxFirstbloodLevel_le h fun row hrow hkey _ => ?_) ?_
  · rcases Nat.eq_zero_or_pos (marks row.id) with hzero | hpos
    · omega
    · obtain ⟨before, after, rfl⟩ := List.append_of_mem (honly row hrow hpos)
      rw [hmarked.level_eq before row after rfl, ← hkey]
      refine le_min (multiLevel_le_best.trans ?_) multiLevel_le_limit
      have hmono := best_mono_append services (levelKey services row) (before ++ [row]) after
      simpa using hmono
  · rcases Nat.eq_zero_or_pos (min (best services processed (levelKey services f)) limit) with
      hzero | hpos
    · omega
    · obtain ⟨before, g, after, rfl, hkey, hlevel⟩ := exists_multiLevel hpos
        (min_le_left (best services processed (levelKey services f)) limit) (min_le_right _ limit)
      rw [← hlevel, ← hmarked.level_eq before g after rfl]
      obtain ⟨hmem, hts⟩ := hrows g (by simp)
      exact le_getMaxFirstbloodLevel h hmem hkey hts

/-- In a history, the rows with a smaller time stamp are those before. -/
theorem mem_before_iff {after : List SubmittedFlag}
    (hts : (before ++ f :: after).Pairwise fun a b => a.ts < b.ts) (hg : g ∈ before ++ f :: after) :
    g.ts < f.ts ↔ g ∈ before := by
  obtain ⟨-, hrest, hbefore⟩ := List.pairwise_append.1 hts
  constructor
  · intro hlt
    rcases List.mem_append.1 hg with hg | hg
    · exact hg
    · rcases List.mem_cons.1 hg with rfl | hg
      · exact absurd hlt (lt_irrefl _)
      · exact absurd hlt ((List.pairwise_cons.1 hrest).1 g hg).asymm
  · exact fun hmem => hbefore g hmem f (by simp)

end Queries

/-! ## Batches -/

section Batch

variable {services : List Service} {limit : ℕ} {before flags : List SubmittedFlag} {db : FlagView}
  {scope : ℕ × ℕ → Prop} {saved : ℕ × ℕ → ℕ} {cache : MultiCache}

/-- A batch that does not raise: its first flag, and the rest. -/
theorem exists_of_multiLoop_cons {f : SubmittedFlag} {r : List (SubmittedFlag × ℕ) × MultiCache}
    (h : multiLoop services limit db cache (f :: flags) = .ok r) :
    ∃ level cache₁ r₁, multiFlag services limit db cache f = .ok (level, cache₁) ∧
      multiLoop services limit db cache₁ flags = .ok r₁ ∧
      r = ((level.map (f, ·)).toList ++ r₁.1, r₁.2) := by
  rw [multiLoop] at h
  cases hflag : multiFlag services limit db cache f with
  | error e => simp [hflag, bind, Except.bind] at h
  | ok a =>
    obtain ⟨level, cache₁⟩ := a
    simp only [hflag, bind, Except.bind] at h
    cases hrest : multiLoop services limit db cache₁ flags with
    | error e => simp [hrest] at h
    | ok r₁ =>
      simp only [hrest, pure, Except.pure, Except.ok.injEq] at h
      exact ⟨level, cache₁, r₁, rfl, hrest, h.symm⟩

/-- A batch that does not raise has flags of known services only. -/
theorem known_of_multiLoop {r : List (SubmittedFlag × ℕ) × MultiCache}
    (h : multiLoop services limit db cache flags = .ok r) :
    ∀ f ∈ flags, ∃ service, serviceById services f.serviceId = some service := by
  induction flags generalizing cache r with
  | nil => simp
  | cons f flags ih =>
    obtain ⟨level, cache₁, r₁, hflag, hrest, -⟩ := exists_of_multiLoop_cons h
    intro g hg
    rcases List.mem_cons.1 hg with rfl | hg
    · cases hservice : serviceById services g.serviceId with
      | none => simp [multiFlag, hservice] at hflag
      | some service => exact ⟨service, rfl⟩
    · exact ih hrest g hg

/-- **A batch returns the levels of its flags**, if the queries answer for the flags before
the batch and, as to victims, before the flag. -/
theorem multiLoop_eq (db : FlagView) (flags : List SubmittedFlag)
    (hknows : Knows services limit scope before saved cache)
    (hflags : ∀ done f rest, flags = done ++ f :: rest → scope (levelKey services f) ∧
      ∃ service, serviceById services f.serviceId = some service ∧
        getMaxFirstbloodLevel db f service = saved (levelKey services f) ∧
        getPreviousVictims db f service =
          victims services (before ++ done) (levelKey services f) f.submittedBy) :
    ∃ cache', multiLoop services limit db cache flags =
        .ok (levels (multiLevel services limit) before flags, cache') ∧
      Knows services limit scope (before ++ flags) saved cache' ∧
      cache.SameOn cache' fun key => ∀ f ∈ flags, levelKey services f ≠ key := by
  induction flags generalizing before cache with
  | nil => exact ⟨cache, rfl, by simpa using hknows, .refl _ _⟩
  | cons f flags ih =>
    obtain ⟨hscope, service, hservice, hmax, hprevious⟩ := hflags [] f flags rfl
    obtain ⟨cache₁, hflag, hknows₁, hframe₁⟩ := multiFlag_eq hservice hknows hscope hmax
      (by simpa using hprevious)
    obtain ⟨cache₂, hloop, hknows₂, hframe₂⟩ := ih hknows₁ fun done g rest hsplit => by
      simpa using hflags (f :: done) g rest (by simp [hsplit])
    refine ⟨cache₂, ?_, by simpa using hknows₂, hframe₁.trans hframe₂ fun key hkey => ⟨?_, ?_⟩⟩
    · rw [multiLoop, hflag, levels]
      simp only [bind, Except.bind, hloop, pure, Except.pure]
      split <;> simp
    · exact (hkey f List.mem_cons_self).symm
    · exact fun g hg => hkey g (List.mem_cons_of_mem _ hg)

/-- What is right about the caches between two batches: they may know less than the
database, but nothing wrong. -/
structure MultiCacheOk (services : List Service) (limit : ℕ) (processed : List SubmittedFlag)
    (cache : MultiCache) : Prop where
  known : ∀ f ∈ processed, ∃ service, serviceById services f.serviceId = some service
  max_le : ∀ key, cache.max key ≤ min (best services processed key) limit
  victims : ∀ key attacker,
    cache.victims (key, attacker) ⊆ victims services processed key attacker

/-- One batch of the multi-level algorithm, on flags with increasing time stamps. -/
theorem multiFirstBlood_correct (services : List Service) (limit : ℕ) {history : List SubmittedFlag}
    (hts : history.Pairwise fun a b => a.ts < b.ts) (hids : (history.map SubmittedFlag.id).Nodup) :
    (multiFirstBlood services limit).Correct history (multiLevel services limit)
      (MultiCacheOk services limit) where
  initial := ⟨by simp, fun _ => Nat.zero_le _, fun _ _ => Finset.empty_subset _⟩
  reset _ _ hcache := ⟨hcache.known, fun _ => Nat.zero_le _, fun _ _ => Finset.empty_subset _⟩
  batch processed flags rows marks cache results cache' hinit hrows hhistory hmarked hcache
      hget := by
    have hknown := known_of_multiLoop hget
    have hknows : Knows services limit (fun _ => True) processed
        (fun key => min (best services processed key) limit) cache :=
      ⟨fun key _ => max_eq_right (hcache.max_le key), fun key attacker _ =>
        hcache.victims key attacker⟩
    obtain ⟨cache₁, hloop, hknows₁, -⟩ := multiLoop_eq ⟨rows, marks⟩ flags hknows
      fun done f rest hsplit => by
        obtain ⟨service, hservice⟩ := hknown f (by simp [hsplit])
        obtain ⟨after, hhist⟩ := hinit
        have hhist' : history = (processed ++ done) ++ f :: (rest ++ after) := by
          rw [← hhist, hsplit]
          simp
        have hmem := fun g hg => mem_before_iff (g := g) (hhist' ▸ hts) (hhist' ▸ hg)
        refine ⟨trivial, service, hservice, getMaxFirstbloodLevel_eq hmarked hservice ?_ ?_,
          getPreviousVictims_eq hservice fun row _ => ⟨fun h => ?_, fun h => ?_⟩⟩
        · intro row hrow hpos
          by_contra hnot
          have hzero := hmarked.none row.id fun g hg heq => hnot
            (List.inj_on_of_nodup_map hids (hhist ▸ by simp [hg]) (hhistory hrow) heq ▸ hg)
          omega
        · intro g hg
          exact ⟨hrows (by simp [hg]), (hmem g (by simp [hhist', hg])).2 (by simp [hg])⟩
        · exact (hmem row (hhistory h.1)).1 h.2
        · refine ⟨hrows ?_, (hmem row (by rw [hhist']; exact List.mem_append_left _ h)).2 h⟩
          rw [hsplit]
          rcases List.mem_append.1 h with h | h <;> simp [h]
    obtain ⟨rfl, rfl⟩ : _ = results ∧ _ = cache' := by
      simpa using hloop.symm.trans hget
    refine ⟨rfl, fun f hf => ?_, fun key => ?_, fun key attacker =>
      hknows₁.victims key attacker trivial⟩
    · rcases List.mem_append.1 hf with hf | hf
      · exact hcache.known f hf
      · exact hknown f hf
    · rw [← hknows₁.level key trivial]
      exact le_max_left _ _

end Batch

end Gameserver.FirstBlood
