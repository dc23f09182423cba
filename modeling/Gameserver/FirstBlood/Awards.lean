import Gameserver.FirstBlood.Default
import Gameserver.FirstBlood.Multi

/-!
# Which flags get a level, whatever the marks and caches are

The specifications `defaultLevel` and `multiLevel` assume that marks and caches are those of
the flags before.  Here nothing is assumed of them: what `get_firstbloods` gives a flag is
read off the rows, their marks and the caches before the first of some batches.

* `Free`, `DefaultAwarded` — the slot of a flag is free, and it is the first such flag.
* `knownVictims`, `LevelsBelow`, `MultiAwarded` — the victim is new to the attacker, and with
  it the attacker has more victims than every level so far.
* `defaultLoop_eq_levels`, `multiLoop_eq_levels` — **a batch returns the flags awarded so**,
  in a number of batches that are all saved.
-/

namespace Gameserver.FirstBlood

open Gameserver.Scoring

/-! ## What a number of saved batches leave -/

/-- What a session sees once the results of some batches are saved. -/
def FlagView.save (db : FlagView) (results : List (SubmittedFlag × ℕ)) : FlagView :=
  ⟨db.rows, record db.isFirstblood results⟩

section Saved

variable {level : List SubmittedFlag → SubmittedFlag → ℕ} {flags : List SubmittedFlag}
  {marks : ℕ → ℕ}

/-- The mark of a row is the one before the batches, or the level of a flag with its id. -/
theorem record_levels_eq_or (level : List SubmittedFlag → SubmittedFlag → ℕ) (marks : ℕ → ℕ)
    (flags : List SubmittedFlag) (id : ℕ) :
    record marks (levels level [] flags) id = marks id ∨
      ∃ e f l, flags = e ++ f :: l ∧ f.id = id ∧ level e f ≠ 0 ∧
        record marks (levels level [] flags) id = level e f := by
  induction flags using List.reverseRecOn with
  | nil => exact .inl rfl
  | append_singleton flags f ih =>
    have hrecord : record marks (levels level [] (flags ++ [f])) =
        record (record marks (levels level [] flags))
          (if level flags f = 0 then [] else [(f, level flags f)]) := by
      rw [levels_append, record_append]
      simp [levels]
    rw [hrecord]
    by_cases hnew : f.id = id ∧ level flags f ≠ 0
    · refine .inr ⟨flags, f, [], rfl, hnew.1, hnew.2, ?_⟩
      rw [if_neg hnew.2, ← hnew.1]
      exact Function.update_self ..
    · have hsame : record (record marks (levels level [] flags))
          (if level flags f = 0 then [] else [(f, level flags f)]) id =
            record marks (levels level [] flags) id := by
        by_cases hzero : level flags f = 0
        · rw [if_pos hzero]
          rfl
        · rw [if_neg hzero]
          exact Function.update_of_ne (fun heq => hnew ⟨heq.symm, hzero⟩) _ _
      rw [hsame]
      rcases ih with hold | ⟨e, g, l, rfl, hg⟩
      · exact .inl hold
      · exact .inr ⟨e, g, l ++ [f], by simp, hg⟩

/-- No mark is taken away. -/
theorem record_levels_pos (id : ℕ) (h : 0 < marks id) :
    0 < record marks (levels level [] flags) id := by
  rcases record_levels_eq_or level marks flags id with heq | ⟨e, f, l, -, -, hne, heq⟩
  · rwa [heq]
  · rw [heq]
    exact Nat.pos_of_ne_zero hne

end Saved

/-! ## The default algorithm -/

section Default

variable (services : List Service) (db : FlagView) (cache₀ : ServiceCache)

/-- Neither the cache nor a marked row up to the time of the flag knows its slot. -/
def Free (f : SubmittedFlag) : Prop :=
  ∃ k, slot services f = some k ∧ ¬ Cached cache₀ k ∧
    ∀ row ∈ db.rows, slot services row = some k → 0 < db.isFirstblood row.id → f.ts < row.ts

/-- The first free flag of its slot, after the flags `before`. -/
def DefaultAwarded (before : List SubmittedFlag) (f : SubmittedFlag) : Prop :=
  Free services db cache₀ f ∧
    ∀ g ∈ before, slot services g = slot services f → ¬ Free services db cache₀ g

open Classical in
/-- The level that comes with it. -/
noncomputable def defaultAward (before : List SubmittedFlag) (f : SubmittedFlag) : ℕ :=
  if DefaultAwarded services db cache₀ before f then 1 else 0

/-- The cache after some flags knows the slots of the free ones, too. -/
def DefaultCacheAfter (before : List SubmittedFlag) (cache : ServiceCache) : Prop :=
  ∀ g k, slot services g = some k → (Cached cache k ↔ Cached cache₀ k ∨
    ∃ f ∈ before, slot services f = some k ∧ Free services db cache₀ f)

variable {services db cache₀} {saved before flags : List SubmittedFlag}
  {cache cache' : ServiceCache} {f g : SubmittedFlag} {service : Service} {k : ℕ × Option ℕ}

theorem defaultAward_ne_zero :
    defaultAward services db cache₀ before f ≠ 0 ↔ DefaultAwarded services db cache₀ before f := by
  simp [defaultAward]

/-- An earlier flag of a free slot is free. -/
theorem Free.of_earlier (h : Free services db cache₀ f) (hslot : slot services g = slot services f)
    (hts : g.ts ≤ f.ts) : Free services db cache₀ g := by
  obtain ⟨k, hk, hcached, hrows⟩ := h
  refine ⟨k, hslot.trans hk, hcached, fun row hrow hrowk hmark => ?_⟩
  exact hts.trans_lt (hrows row hrow hrowk hmark)

theorem DefaultCacheAfter.nil : DefaultCacheAfter services db cache₀ [] cache₀ := by
  intro g k _
  simp

/-- A flag that changes no slot in the cache, and is not the first free one of its slot. -/
theorem DefaultCacheAfter.skip (h : DefaultCacheAfter services db cache₀ before cache)
    (hcache : ∀ g k, slot services g = some k → (Cached cache' k ↔ Cached cache k))
    (hf : ¬ DefaultAwarded services db cache₀ before f) :
    DefaultCacheAfter services db cache₀ (before ++ [f]) cache' := by
  intro g k hg
  rw [hcache g k hg, h g k hg]
  refine or_congr_right ⟨?_, ?_⟩
  · rintro ⟨f', hf', hfree⟩
    exact ⟨f', List.mem_append_left _ hf', hfree⟩
  · rintro ⟨f', hf', hslot, hfree⟩
    rcases List.mem_append.1 hf' with hf' | hf'
    · exact ⟨f', hf', hslot, hfree⟩
    · obtain rfl := List.mem_singleton.1 hf'
      -- a flag before it has the slot
      by_contra hnone
      refine hf ⟨hfree, fun g hg hsame hfreeg => hnone ⟨g, hg, hsame.trans hslot, hfreeg⟩⟩

/-- A flag that is recorded in the cache. -/
theorem DefaultCacheAfter.record (h : DefaultCacheAfter services db cache₀ before cache)
    (hcache : ∀ g k, slot services g = some k →
      (Cached cache' k ↔ Cached cache k ∨ slot services f = some k))
    (hf : Free services db cache₀ f) :
    DefaultCacheAfter services db cache₀ (before ++ [f]) cache' := by
  intro g k hg
  rw [hcache g k hg, h g k hg, or_assoc]
  refine or_congr_right ⟨?_, ?_⟩
  · rintro (⟨f', hf', hfree⟩ | hslot)
    · exact ⟨f', List.mem_append_left _ hf', hfree⟩
    · exact ⟨f, by simp, hslot, hf⟩
  · rintro ⟨f', hf', hslot, hfree⟩
    rcases List.mem_append.1 hf' with hf' | hf'
    · exact .inl ⟨f', hf', hslot, hfree⟩
    · obtain rfl := List.mem_singleton.1 hf'
      exact .inr hslot

variable (hids : (db.rows.map SubmittedFlag.id).Nodup) (hsaved : saved ⊆ db.rows)

include hids hsaved

/-- **`_is_first_blood` finds the first free flag of a slot**, when the batches with the flags
`saved` are saved and the flags `before` are processed. -/
theorem isFirstBlood_iff_awarded (h : DefaultCacheAfter services db cache₀ before cache)
    (hsub : saved ⊆ before) (hservice : serviceById services f.serviceId = some service) :
    (isFirstBlood (db.save (levels (defaultAward services db cache₀) [] saved)) cache f
        service).1 = true ↔
      DefaultAwarded services db cache₀ before f := by
  obtain ⟨k, hk⟩ : ∃ k, slot services f = some k := ⟨_, slot_of_service hservice⟩
  rw [isFirstBlood_fst _ _ hservice hk, h f k hk, ← Bool.not_eq_true,
    alreadyMarked_iff hservice, hk]
  constructor
  · rintro ⟨hcached, hmarked⟩
    rw [not_or] at hcached
    refine ⟨⟨k, hk, hcached.1, fun row hrow hslot hmark => ?_⟩, fun g hg hslot hfree => ?_⟩
    · by_contra hts
      exact hmarked ⟨row, hrow, hslot, record_levels_pos _ hmark, not_lt.1 hts⟩
    · exact hcached.2 ⟨g, hg, hslot.trans hk, hfree⟩
  · rintro ⟨⟨k', hk', hcached, hrows⟩, hfirst⟩
    obtain rfl := Option.some.inj (hk.symm.trans hk')
    have hnone : ¬ ∃ g ∈ before, slot services g = some k ∧ Free services db cache₀ g :=
      fun ⟨g, hg, hslot, hfree⟩ => hfirst g hg (hslot.trans hk.symm) hfree
    refine ⟨by simp [hcached, hnone], ?_⟩
    rintro ⟨row, hrow, hslot, hmark, hts⟩
    rcases record_levels_eq_or (defaultAward services db cache₀) db.isFirstblood saved row.id
      with hold | ⟨e, g, l, hsplit, hid, hne, -⟩
    · have hmark' : 0 < record db.isFirstblood
          (levels (defaultAward services db cache₀) [] saved) row.id := hmark
      exact absurd (hrows row hrow hslot (hold ▸ hmark')) (not_lt.2 hts)
    · -- the row is a flag of an earlier batch
      have hg : g ∈ saved := by simp [hsplit]
      have heq : g = row := List.inj_on_of_nodup_map hids (hsaved hg) hrow hid
      exact hnone ⟨g, hsub hg, heq ▸ hslot, (defaultAward_ne_zero.1 hne).1⟩

/-- **A batch of the default algorithm returns the awarded flags.** -/
theorem defaultLoop_eq_levels {candidates : FlagSet} {view : FlagView}
    (hview : view = db.save (levels (defaultAward services db cache₀) [] saved))
    (h : DefaultCacheAfter services db cache₀ before cache) (hsub : saved ⊆ before)
    (hts : flags.Pairwise fun f g => f.ts ≤ g.ts)
    (hseen : ∀ key ∈ candidates.seen, ∃ g ∈ before, g.key = key ∧ ∀ f ∈ flags, g.ts ≤ f.ts) :
    (defaultLoop services view candidates cache flags).1 =
        levels (defaultAward services db cache₀) before flags ∧
      DefaultCacheAfter services db cache₀ (before ++ flags)
        (defaultLoop services view candidates cache flags).2 := by
  induction flags generalizing before candidates cache with
  | nil => exact ⟨rfl, by simpa [defaultLoop] using h⟩
  | cons f flags ih =>
    obtain ⟨hfirst, hrest⟩ := List.pairwise_cons.1 hts
    -- the rest of the batch, once it is known what this flag does to the cache
    have hnext : ∀ {candidates' : FlagSet} {cache' : ServiceCache},
        DefaultCacheAfter services db cache₀ (before ++ [f]) cache' →
        (∀ key ∈ candidates'.seen, key ∈ candidates.seen ∨ key = f.key) →
        (defaultLoop services view candidates' cache' flags).1 =
            levels (defaultAward services db cache₀) (before ++ [f]) flags ∧
          DefaultCacheAfter services db cache₀ (before ++ f :: flags)
            (defaultLoop services view candidates' cache' flags).2 := by
      intro candidates' cache' hcache' hcandidates
      have hsub' : saved ⊆ before ++ [f] := fun g hg => List.mem_append_left _ (hsub hg)
      have hloop := ih hcache' hsub' hrest fun key hkey => by
        rcases hcandidates key hkey with hold | rfl
        · obtain ⟨g, hg, hgkey, hgts⟩ := hseen key hold
          exact ⟨g, List.mem_append_left _ hg, hgkey, fun f' hf' =>
            hgts f' (List.mem_cons_of_mem _ hf')⟩
        · exact ⟨f, by simp, rfl, hfirst⟩
      simpa using hloop
    have hskip : ¬ DefaultAwarded services db cache₀ before f →
        levels (defaultAward services db cache₀) before (f :: flags) =
          levels (defaultAward services db cache₀) (before ++ [f]) flags := by
      intro hnot
      rw [levels, if_pos (not_ne_iff.1 (mt defaultAward_ne_zero.1 hnot)), List.nil_append]
    cases hservice : serviceById services f.serviceId with
    | none =>
      have hnot : ¬ DefaultAwarded services db cache₀ before f := by
        rintro ⟨⟨k, hk, -⟩, -⟩
        simp [slot, hservice] at hk
      simp only [defaultLoop, hservice, hskip hnot]
      exact hnext (h.skip (fun _ _ _ => Iff.rfl) hnot) fun _ => .inl
    | some service =>
      have hcandidates := isNew_seen candidates f
      simp only [defaultLoop, hservice]
      by_cases hmem : f.key ∈ candidates.seen
      · -- the flag before it with the same key is free if this one is
        have hnot : ¬ DefaultAwarded services db cache₀ before f := by
          rintro ⟨hfree, hall⟩
          obtain ⟨g, hg, hgkey, hgts⟩ := hseen _ hmem
          have hslot : slot services g = slot services f := slot_eq_of_key_eq hgkey
          exact hall g hg hslot (hfree.of_earlier hslot (hgts f List.mem_cons_self))
        rw [FlagSet.isNew, if_pos hmem] at hcandidates ⊢
        rw [hskip hnot]
        exact hnext (h.skip (fun _ _ _ => Iff.rfl) hnot) hcandidates
      · have hcache : ∀ g k, slot services g = some k →
            (Cached (isFirstBlood view cache f service).2 k ↔ Cached cache k) :=
          fun g k hg => cached_isFirstBlood hservice hg
        have hyes := isFirstBlood_iff_awarded hids hsaved h hsub hservice
        rw [← hview] at hyes
        rw [FlagSet.isNew, if_neg hmem] at hcandidates ⊢
        simp only [if_true]
        by_cases haward : DefaultAwarded services db cache₀ before f
        · have hone : defaultAward services db cache₀ before f = 1 := if_pos haward
          rw [if_pos (hyes.2 haward), levels, hone]
          obtain ⟨hresults, hlast⟩ := hnext (h.record (fun g k hg => by
            rw [cached_recordFirstBlood hservice hg, hcache g k hg]) haward.1) hcandidates
          exact ⟨by simp [hresults], hlast⟩
        · rw [if_neg (mt hyes.1 haward), hskip haward]
          exact hnext (h.skip hcache haward) hcandidates

end Default

/-! ## The multi-level algorithm -/

section Multi

section Spec

variable (services : List Service) (limit : ℕ) (db : FlagView) (cache₀ : MultiCache)

/-- The victims of the attacker of `f` that are known before it: those in the cache, those in
rows with a smaller time stamp, and those of the flags `before`. -/
def knownVictims (before : List SubmittedFlag) (f : SubmittedFlag) : Finset ℕ :=
  cache₀.victims (levelKey services f, f.submittedBy) ∪
    victims services (db.rows.filter (fun row => row.ts < f.ts) ++ before) (levelKey services f)
      f.submittedBy

/-- The number of victims of the attacker of `f`, with this one. -/
def victimCount (before : List SubmittedFlag) (f : SubmittedFlag) : ℕ :=
  (insert f.teamId (knownVictims services db cache₀ before f)).card

/-- Cache, marks up to the time `ts` and flags with a new victim all stay below `n`. -/
structure LevelsBelow (before : List SubmittedFlag) (key : ℕ × ℕ) (ts : ℤ) (n : ℕ) :
    Prop where
  cached : cache₀.max key < n
  marked : ∀ row ∈ db.rows, levelKey services row = key → row.ts < ts → db.isFirstblood row.id < n
  pending : ∀ e g l, before = e ++ g :: l → levelKey services g = key →
    g.teamId ∉ knownVictims services db cache₀ e g → victimCount services db cache₀ e g < n

/-- The victim is new, and its number is above all levels so far, which are below the limit. -/
structure MultiAwarded (before : List SubmittedFlag) (f : SubmittedFlag) : Prop where
  newVictim : f.teamId ∉ knownVictims services db cache₀ before f
  below_limit : LevelsBelow services db cache₀ before (levelKey services f) f.ts limit
  above : LevelsBelow services db cache₀ before (levelKey services f) f.ts
    (victimCount services db cache₀ before f)

open Classical in
/-- The level that comes with it. -/
noncomputable def multiAward (before : List SubmittedFlag) (f : SubmittedFlag) : ℕ :=
  if MultiAwarded services limit db cache₀ before f then victimCount services db cache₀ before f
  else 0

/-- The cache after some flags: of a key that has not reached the limit it knows the levels and
the victims so far, and it knows nothing else. -/
structure MultiCacheAfter (before : List SubmittedFlag) (cache : MultiCache) : Prop where
  max_lt : ∀ key ts n, (∀ g ∈ before, g.ts ≤ ts) → LevelsBelow services db cache₀ before key ts n →
    cache.max key < n
  le_max : ∀ key, limit ≤ cache.max key ∨ (cache₀.max key ≤ cache.max key ∧
    ∀ e g l, before = e ++ g :: l → levelKey services g = key →
      g.teamId ∉ knownVictims services db cache₀ e g →
        victimCount services db cache₀ e g ≤ cache.max key)
  victims_subset : ∀ f, (∀ g ∈ before, g.ts ≤ f.ts) →
    cache.victims (levelKey services f, f.submittedBy) ⊆ knownVictims services db cache₀ before f
  subset_victims : ∀ key attacker, limit ≤ cache.max key ∨
    cache₀.victims (key, attacker) ∪ victims services before key attacker ⊆
      cache.victims (key, attacker)

end Spec

variable {services : List Service} {limit : ℕ} {db : FlagView} {cache₀ cache : MultiCache}
  {saved done before flags : List SubmittedFlag} {f g : SubmittedFlag} {service : Service}
  {key : ℕ × ℕ} {ts : ℤ} {n : ℕ}

theorem multiAward_ne_zero : multiAward services limit db cache₀ before f ≠ 0 ↔
    MultiAwarded services limit db cache₀ before f := by
  have hpos : victimCount services db cache₀ before f ≠ 0 :=
    (Finset.card_pos.2 (Finset.insert_nonempty _ _)).ne'
  simp [multiAward, hpos]

theorem MultiAwarded.award_eq (h : MultiAwarded services limit db cache₀ before f) :
    multiAward services limit db cache₀ before f = victimCount services db cache₀ before f :=
  if_pos h

/-- Earlier, there are fewer levels. -/
theorem LevelsBelow.of_snoc (h : LevelsBelow services db cache₀ (before ++ [f]) key ts n)
    {ts' : ℤ} (hts : ts' ≤ ts) : LevelsBelow services db cache₀ before key ts' n where
  cached := h.cached
  marked row hrow hkey hrowts := h.marked row hrow hkey (hrowts.trans_le hts)
  pending e g l hsplit := h.pending e g (l ++ [f]) (by simp [hsplit])

/-- Later, there are more victims. -/
theorem knownVictims_subset_snoc (hkey : levelKey services g = levelKey services f)
    (hby : g.submittedBy = f.submittedBy) (hts : g.ts ≤ f.ts) (h : SubmittedFlag) :
    knownVictims services db cache₀ before g ⊆
      knownVictims services db cache₀ (before ++ [h]) f := by
  rw [knownVictims, knownVictims, hkey, hby]
  refine Finset.union_subset_union_right fun v hv => ?_
  obtain ⟨row, hrow, hrest⟩ := mem_victims.1 hv
  refine mem_victims.2 ⟨row, ?_, hrest⟩
  rcases List.mem_append.1 hrow with hrow | hrow
  · obtain ⟨hmem, hrowts⟩ := List.mem_filter.1 hrow
    have hlt : row.ts < f.ts := (of_decide_eq_true hrowts).trans_le hts
    exact List.mem_append_left _ (List.mem_filter.2 ⟨hmem, decide_eq_true hlt⟩)
  · exact List.mem_append_right _ (List.mem_append_left _ hrow)

theorem MultiCacheAfter.nil : MultiCacheAfter services limit db cache₀ [] cache₀ where
  max_lt _ _ _ _ h := h.cached
  le_max _ := .inr ⟨le_rfl, fun e g l h => by simp at h⟩
  victims_subset _ _ := Finset.subset_union_left
  subset_victims key attacker := .inr (by simp [victims])

theorem MultiCache.set_self (cache : MultiCache) (key : ℕ × ℕ) (attacker : ℕ) :
    cache.set key attacker (cache.max key) (cache.victims (key, attacker)) = cache := by
  simp [MultiCache.set]

theorem eq_or_of_snoc_eq {e l : List SubmittedFlag} (h : before ++ [f] = e ++ g :: l) :
    (e = before ∧ g = f) ∨ ∃ l', before = e ++ g :: l' := by
  rcases List.eq_nil_or_concat l with rfl | ⟨l', g', rfl⟩
  · obtain ⟨rfl, hg⟩ := List.append_inj' h rfl
    exact .inl ⟨rfl, (List.singleton_inj.1 hg).symm⟩
  · have h' : before ++ [f] = (e ++ g :: l') ++ [g'] := by simpa using h
    exact .inr ⟨l', (List.append_inj' h' rfl).1⟩

/-- A flag after which level and victims of its key and attacker are set. -/
theorem MultiCacheAfter.set (h : MultiCacheAfter services limit db cache₀ before cache)
    (hts : ∀ g ∈ before, g.ts ≤ f.ts) {level : ℕ} {vs : Finset ℕ}
    (hmono : cache.max (levelKey services f) ≤ level)
    (hlt : ∀ n, LevelsBelow services db cache₀ before (levelKey services f) f.ts n →
      (f.teamId ∉ knownVictims services db cache₀ before f →
        victimCount services db cache₀ before f < n) → level < n)
    (hle : limit ≤ level ∨ (f.teamId ∉ knownVictims services db cache₀ before f →
      victimCount services db cache₀ before f ≤ level))
    (hold : cache.victims (levelKey services f, f.submittedBy) ⊆ vs)
    (hvs : vs ⊆ insert f.teamId (knownVictims services db cache₀ before f))
    (hteam : limit ≤ level ∨ f.teamId ∈ vs) :
    MultiCacheAfter services limit db cache₀ (before ++ [f])
      (cache.set (levelKey services f) f.submittedBy level vs) := by
  have hframe := cache.sameOn_set (levelKey services f) f.submittedBy level vs
  constructor
  · intro key ts n htimes hbelow
    have hbelow' := hbelow.of_snoc (htimes f (by simp))
    by_cases hkey : key = levelKey services f
    · subst hkey
      rw [MultiCache.set_max_self]
      exact hlt n hbelow' (hbelow.pending before f [] rfl rfl)
    · rw [(hframe key hkey).1]
      exact h.max_lt key f.ts n hts hbelow'
  · intro key
    by_cases hkey : key = levelKey services f
    · subst hkey
      rw [MultiCache.set_max_self]
      refine (h.le_max _).elim (fun hdone => .inl (hdone.trans hmono)) fun ⟨hcached, hpending⟩ => ?_
      refine hle.imp_right fun hnew => ⟨hcached.trans hmono, fun e g l hsplit hkey hg => ?_⟩
      rcases eq_or_of_snoc_eq hsplit with ⟨rfl, rfl⟩ | ⟨l', hbefore⟩
      · exact hnew hg
      · exact (hpending e g l' hbefore hkey hg).trans hmono
    · rw [(hframe key hkey).1]
      refine (h.le_max key).imp_right fun ⟨hcached, hpending⟩ =>
        ⟨hcached, fun e g l hsplit hgkey => ?_⟩
      rcases eq_or_of_snoc_eq hsplit with ⟨rfl, rfl⟩ | ⟨l', hbefore⟩
      · exact absurd hgkey.symm hkey
      · exact hpending e g l' hbefore hgkey
  · intro g htimes
    have hsub := (h.victims_subset g fun g' hg' => htimes g' (List.mem_append_left _ hg')).trans
      (knownVictims_subset_snoc rfl rfl le_rfl f)
    by_cases hkey : levelKey services g = levelKey services f
    · by_cases hby : g.submittedBy = f.submittedBy
      · rw [hkey, hby, MultiCache.set_victims_self]
        refine hvs.trans (Finset.insert_subset ?_ ?_)
        · exact Finset.mem_union_right _ (mem_victims.2 ⟨f, by simp, hkey.symm, hby.symm, rfl⟩)
        · exact knownVictims_subset_snoc hkey.symm hby.symm (htimes f (by simp)) f
      · rw [hkey, MultiCache.set_victims_of_ne _ _ hby, ← hkey]
        exact hsub
    · rw [(hframe _ hkey).2]
      exact hsub
  · intro key attacker
    by_cases hkey : key = levelKey services f
    · subst hkey
      rw [MultiCache.set_max_self]
      refine (h.subset_victims _ attacker).elim (fun hdone => .inl (hdone.trans hmono))
        fun hsub => ?_
      by_cases hby : attacker = f.submittedBy
      · subst hby
        rw [MultiCache.set_victims_self]
        refine hteam.imp_right fun hmem => ?_
        rw [victims_snoc, if_pos ⟨rfl, rfl⟩, Finset.union_insert]
        exact Finset.insert_subset hmem (hsub.trans hold)
      · rw [MultiCache.set_victims_of_ne _ _ hby, victims_snoc, if_neg fun heq => hby heq.2.symm]
        exact .inr hsub
    · rw [(hframe key hkey).1, (hframe key hkey).2, victims_snoc, if_neg fun heq => hkey heq.1.symm]
      exact h.subset_victims key attacker

/-- A flag that the cache turns down: the limit is reached, or its victim is in the cache. -/
theorem MultiCacheAfter.same (h : MultiCacheAfter services limit db cache₀ before cache)
    (hts : ∀ g ∈ before, g.ts ≤ f.ts)
    (hdown : limit ≤ cache.max (levelKey services f) ∨
      f.teamId ∈ cache.victims (levelKey services f, f.submittedBy)) :
    MultiCacheAfter services limit db cache₀ (before ++ [f]) cache := by
  have hsub := h.victims_subset f hts
  have hset := h.set hts le_rfl (fun n hbelow _ => h.max_lt _ f.ts n hts hbelow)
    (hdown.imp_right fun hmem hnew => absurd (hsub hmem) hnew) subset_rfl
    (hsub.trans (Finset.subset_insert _ _)) hdown
  rwa [cache.set_self] at hset

/-- The victims in the cache and those of the query are the known ones. -/
theorem union_getPreviousVictims {view : FlagView} (hrows : view.rows = db.rows)
    (h : MultiCacheAfter services limit db cache₀ before cache) (hts : ∀ g ∈ before, g.ts ≤ f.ts)
    (hservice : serviceById services f.serviceId = some service)
    (hopen : ¬ limit ≤ cache.max (levelKey services f)) :
    cache.victims (levelKey services f, f.submittedBy) ∪
        getPreviousVictims view f service =
      knownVictims services db cache₀ before f := by
  have hquery : getPreviousVictims view f service =
      victims services (db.rows.filter fun row => row.ts < f.ts) (levelKey services f)
        f.submittedBy :=
    getPreviousVictims_eq hservice fun row _ => by simp [hrows]
  have hsup := (h.subset_victims (levelKey services f) f.submittedBy).resolve_left hopen
  have hsplit : knownVictims services db cache₀ before f =
      (cache₀.victims (levelKey services f, f.submittedBy) ∪
        victims services before (levelKey services f) f.submittedBy) ∪
      victims services (db.rows.filter fun row => row.ts < f.ts) (levelKey services f)
        f.submittedBy := by
    rw [knownVictims, Finset.union_assoc]
    congr 1
    ext v
    simp only [Finset.mem_union, mem_victims, List.mem_append, or_and_right, exists_or]
    exact or_comm
  rw [hquery]
  refine subset_antisymm (Finset.union_subset (h.victims_subset f hts) ?_) ?_
  · rw [hsplit]
    exact Finset.subset_union_right
  · rw [hsplit]
    exact Finset.union_subset_union_left hsup

variable (hids : (db.rows.map SubmittedFlag.id).Nodup) (hsaved : saved ⊆ db.rows)
  (hunmarked : ∀ g ∈ saved, db.isFirstblood g.id = 0)

include hids hsaved hunmarked

/-- **Cache and query together know the levels so far**, when the flags `saved` are saved and
the flags `done` of this batch are processed. -/
theorem currentLevel_lt_iff (h : MultiCacheAfter services limit db cache₀ (saved ++ done) cache)
    (hts : ∀ g ∈ saved ++ done, g.ts ≤ f.ts)
    (hservice : serviceById services f.serviceId = some service)
    (hopen : ¬ limit ≤ cache.max (levelKey services f)) :
    max (cache.max (levelKey services f)) (getMaxFirstbloodLevel
        (db.save (levels (multiAward services limit db cache₀) [] saved)) f service) < n ↔
      LevelsBelow services db cache₀ (saved ++ done) (levelKey services f) f.ts n := by
  rw [max_lt_iff]
  constructor
  · rintro ⟨hmax, hquery⟩
    obtain ⟨hcached, hpending⟩ := (h.le_max _).resolve_left hopen
    refine ⟨hcached.trans_lt hmax, fun row hrow hkey hrowts => ?_, fun e g l hsplit hkey hg =>
      (hpending e g l hsplit hkey hg).trans_lt hmax⟩
    rcases record_levels_eq_or (multiAward services limit db cache₀) db.isFirstblood saved row.id
      with hold | ⟨e, g, l, hsplit, hid, -, -⟩
    · rw [← hold]
      exact (le_getMaxFirstbloodLevel hservice hrow hkey hrowts).trans_lt hquery
    · rw [← hid, hunmarked g (by simp [hsplit])]
      exact (Nat.zero_le _).trans_lt hmax
  · intro hbelow
    refine ⟨h.max_lt _ f.ts n hts hbelow, ?_⟩
    have hpos : 0 < n := (Nat.zero_le _).trans_lt hbelow.cached
    refine (Nat.lt_iff_le_pred hpos).2 (getMaxFirstbloodLevel_le hservice ?_)
    intro row hrow hkey hrowts
    refine Nat.le_sub_one_of_lt ?_
    rcases record_levels_eq_or (multiAward services limit db cache₀) db.isFirstblood saved row.id
      with hold | ⟨e, g, l, hsplit, hid, hne, hmark⟩
    · rw [hold]
      exact hbelow.marked row hrow hkey hrowts
    · -- the row is a flag of an earlier batch
      have heq : g = row := List.inj_on_of_nodup_map hids (hsaved (by simp [hsplit])) hrow hid
      have haward := multiAward_ne_zero.1 hne
      rw [hmark, haward.award_eq]
      exact hbelow.pending e g (l ++ done) (by simp [hsplit]) (heq ▸ hkey) haward.newVictim

/-- **One flag of a batch gets the level it is awarded.** -/
theorem multiFlag_eq_award {view : FlagView}
    (hview : view = db.save (levels (multiAward services limit db cache₀) [] saved))
    (h : MultiCacheAfter services limit db cache₀ (saved ++ done) cache)
    (hts : ∀ g ∈ saved ++ done, g.ts ≤ f.ts)
    (hservice : serviceById services f.serviceId = some service) :
    ∃ cache', multiFlag services limit view cache f =
        .ok (if multiAward services limit db cache₀ (saved ++ done) f = 0 then none
          else some (multiAward services limit db cache₀ (saved ++ done) f), cache') ∧
      MultiCacheAfter services limit db cache₀ (saved ++ done ++ [f]) cache' := by
  have hkey : payloadKey service f = levelKey services f := by simp [levelKey, hservice]
  have hsub := h.victims_subset f hts
  -- a flag without a level
  have hzero : ¬ MultiAwarded services limit db cache₀ (saved ++ done) f →
      multiAward services limit db cache₀ (saved ++ done) f = 0 := fun hnot =>
    not_ne_iff.1 (mt multiAward_ne_zero.1 hnot)
  simp only [multiFlag, hservice, hkey]
  by_cases hdone : limit ≤ cache.max (levelKey services f)
  · have hnot : ¬ MultiAwarded services limit db cache₀ (saved ++ done) f := fun haward =>
      absurd (h.max_lt _ f.ts limit hts haward.below_limit) (not_lt.2 hdone)
    exact ⟨cache, by simp [hdone, hzero hnot], h.same hts (.inl hdone)⟩
  by_cases hold : f.teamId ∈ cache.victims (levelKey services f, f.submittedBy)
  · have hnot : ¬ MultiAwarded services limit db cache₀ (saved ++ done) f := fun haward =>
      haward.newVictim (hsub hold)
    exact ⟨cache, by simp [hdone, hold, hzero hnot], h.same hts (.inr hold)⟩
  rw [if_neg hdone, if_neg hold]
  have hcurrent := fun n => currentLevel_lt_iff (n := n) hids hsaved hunmarked h hts hservice hdone
  rw [← hview] at hcurrent
  set current := max (cache.max (levelKey services f)) (getMaxFirstbloodLevel view f service)
  have hmono : cache.max (levelKey services f) ≤ current := le_max_left _ _
  by_cases hlimit : limit ≤ current
  · have hnot : ¬ MultiAwarded services limit db cache₀ (saved ++ done) f := fun haward =>
      absurd ((hcurrent limit).2 haward.below_limit) (not_lt.2 hlimit)
    refine ⟨cache.set _ _ current _, ?_, h.set hts hmono (fun n hbelow _ => (hcurrent n).2 hbelow)
      (.inl hlimit) subset_rfl (hsub.trans (Finset.subset_insert _ _)) (.inl hlimit)⟩
    simp [hlimit, hzero hnot, MultiCache.set]
  have hrows : view.rows = db.rows := by
    rw [hview]
    rfl
  rw [if_neg hlimit, union_getPreviousVictims hrows h hts hservice hdone]
  by_cases hmem : f.teamId ∈ knownVictims services db cache₀ (saved ++ done) f
  · have hnot : ¬ MultiAwarded services limit db cache₀ (saved ++ done) f := fun haward =>
      haward.newVictim hmem
    refine ⟨cache.set _ _ current _, ?_, h.set hts hmono (fun n hbelow _ => (hcurrent n).2 hbelow)
      (.inr fun hnew => absurd hmem hnew) hsub (Finset.subset_insert _ _) (.inr hmem)⟩
    simp [hmem, hzero hnot, MultiCache.set]
  -- a new victim, and the limit is not reached
  rw [if_neg hmem]
  have hinsert : (insert f.teamId (knownVictims services db cache₀ (saved ++ done) f)).card =
      victimCount services db cache₀ (saved ++ done) f := rfl
  rw [hinsert]
  by_cases hnew : current < victimCount services db cache₀ (saved ++ done) f
  · have haward : MultiAwarded services limit db cache₀ (saved ++ done) f :=
      ⟨hmem, (hcurrent limit).1 (not_le.1 hlimit), (hcurrent _).1 hnew⟩
    refine ⟨cache.set _ _ (victimCount services db cache₀ (saved ++ done) f) _, ?_,
      h.set hts (hmono.trans hnew.le) (fun n _ hcount => hcount hmem) (.inr fun _ => le_rfl)
        (hsub.trans (Finset.subset_insert _ _)) subset_rfl
        (.inr (Finset.mem_insert_self _ _))⟩
    rw [if_pos hnew, if_neg (multiAward_ne_zero.2 haward), haward.award_eq, Function.update_idem]
    rfl
  · have hnot : ¬ MultiAwarded services limit db cache₀ (saved ++ done) f := fun haward =>
      hnew ((hcurrent _).2 haward.above)
    refine ⟨cache.set _ _ current _, ?_, h.set hts hmono (fun n hbelow _ => (hcurrent n).2 hbelow)
      (.inr fun _ => not_lt.1 hnew) (hsub.trans (Finset.subset_insert _ _)) subset_rfl
      (.inr (Finset.mem_insert_self _ _))⟩
    rw [if_neg hnew, hzero hnot, if_pos rfl]
    rfl

/-- **A batch of the multi-level algorithm returns the awarded flags.** -/
theorem multiLoop_eq_levels {view : FlagView}
    (hview : view = db.save (levels (multiAward services limit db cache₀) [] saved))
    (h : MultiCacheAfter services limit db cache₀ (saved ++ done) cache)
    (hts : (saved ++ done ++ flags).Pairwise fun f g => f.ts ≤ g.ts)
    (hknown : ∀ f ∈ flags, (serviceById services f.serviceId).isSome) :
    ∃ cache', multiLoop services limit view cache flags =
        .ok (levels (multiAward services limit db cache₀) (saved ++ done) flags, cache') ∧
      MultiCacheAfter services limit db cache₀ (saved ++ done ++ flags) cache' := by
  induction flags generalizing done cache with
  | nil => exact ⟨cache, rfl, by simpa using h⟩
  | cons f flags ih =>
    obtain ⟨service, hservice⟩ := Option.isSome_iff_exists.1 (hknown f List.mem_cons_self)
    have htimes : ∀ g ∈ saved ++ done, g.ts ≤ f.ts := fun g hg =>
      (List.pairwise_append.1 hts).2.2 g hg f List.mem_cons_self
    obtain ⟨cache₁, hflag, h₁⟩ :=
      multiFlag_eq_award hids hsaved hunmarked hview h htimes hservice
    rw [List.append_assoc] at h₁
    obtain ⟨cache₂, hloop, h₂⟩ := ih h₁ (by simpa using hts) fun g hg =>
      hknown g (List.mem_cons_of_mem _ hg)
    refine ⟨cache₂, ?_, by simpa using h₂⟩
    rw [multiLoop, hflag, levels]
    simp only [bind, Except.bind, hloop, pure, Except.pure]
    split <;> simp

end Multi

end Gameserver.FirstBlood
