import Gameserver.FirstBlood.Default
import Gameserver.FirstBlood.Multi

/-!
# Flags that are processed again

When an old tick is scored again, the first blood algorithm gets flags it has seen, on a
table with the marks of all flags since, and with caches from anywhere in the history.

* `Algorithm.Replays` — what an algorithm has to do then: it returns marks that are there
  already.
* `record_of_marked` — saving them changes nothing.
* `defaultFirstBlood_replays` — the default algorithm returns nothing: the slot of a flag
  has a marked flag that is not later.
* `multiFirstBlood_replays` — the multi-level algorithm may return a flag again, but only
  with its old level.  Its cached victims are those of some time in the history; a victim
  that is new to the cache is then later than that time.
-/

namespace Gameserver.FirstBlood

open Gameserver.Scoring

/-- What an algorithm has to do with flags that it has processed before. -/
structure Algorithm.Replays {Cache : Type*} (alg : Algorithm Cache) (history : List SubmittedFlag)
    (level : List SubmittedFlag → SubmittedFlag → ℕ) (ReplayOk : Cache → Prop) : Prop where
  empty : ReplayOk alg.empty
  /-- Every batch keeps the caches right, a new one or an old one. -/
  batch : ∀ rows marks cache flags results cache', flags ⊆ history → rows ⊆ history →
    (∀ f ∈ flags, ∀ g ∈ history, g.ts < f.ts → g ∈ rows) → ReplayOk cache →
    alg.getFirstbloods ⟨rows, marks⟩ cache flags = .ok (results, cache') → ReplayOk cache'
  /-- What is returned for an old batch is marked. -/
  marked : ∀ processed flags rows marks cache results cache', processed <+: history →
    processed ⊆ rows → rows ⊆ history → flags ⊆ processed → Marked level processed marks →
    ReplayOk cache → alg.getFirstbloods ⟨rows, marks⟩ cache flags = .ok (results, cache') →
    ∀ r ∈ results, r.1 ∈ flags ∧ 0 < r.2 ∧ marks r.1.id = r.2

/-- Saving marks that are there changes nothing. -/
theorem record_of_marked {marks : ℕ → ℕ} {results : List (SubmittedFlag × ℕ)}
    (h : ∀ r ∈ results, marks r.1.id = r.2) : record marks results = marks := by
  induction results with
  | nil => rfl
  | cons r results ih =>
    have hr : Function.update marks r.1.id r.2 = marks := by
      rw [← h r List.mem_cons_self, Function.update_eq_self]
    show record (Function.update marks r.1.id r.2) results = marks
    rw [hr]
    exact ih fun r' hr' => h r' (List.mem_cons_of_mem _ hr')

/-! ## Default -/

section Default

variable {services : List Service} {processed rows flags : List SubmittedFlag} {marks : ℕ → ℕ}
  {f : SubmittedFlag} {service : Service}

/-- The slot of a processed flag has a marked flag that is not later. -/
theorem alreadyMarked_of_processed (hts : processed.Pairwise fun a b => a.ts < b.ts)
    (hmarked : Marked (defaultLevel services) processed marks) (hrows : processed ⊆ rows)
    (hf : f ∈ processed) (hservice : serviceById services f.serviceId = some service) :
    alreadyMarked ⟨rows, marks⟩ f service = true := by
  have hslot := slot_of_service hservice
  obtain ⟨g, hg, hgslot, hmark⟩ := exists_marked hmarked hf hslot
  obtain ⟨before, after, hsplit⟩ := List.append_of_mem hg
  have hfirst : ∀ g' ∈ before, slot services g' ≠ slot services g := by
    by_contra hnot
    have hzero : defaultLevel services before g = 0 := if_neg fun hcond => hnot hcond.2
    rw [hmarked.level_eq before g after hsplit, hzero] at hmark
    exact lt_irrefl 0 hmark
  have hle : g.ts ≤ f.ts := by
    rw [hsplit] at hf hts
    rcases List.mem_append.1 hf with hf | hf
    · exact absurd (hslot.trans hgslot.symm) (hfirst f hf)
    · rcases List.mem_cons.1 hf with rfl | hf
      · exact le_rfl
      · exact ((List.pairwise_cons.1 (List.pairwise_append.1 hts).2.1).1 f hf).le
  have hsame := (slot_eq_iff hservice).1 (hgslot.trans hslot.symm)
  exact List.any_eq_true.2 ⟨g, hrows hg, decide_eq_true ⟨hsame.1, hmark, hle, hsame.2⟩⟩

theorem isFirstBlood_of_alreadyMarked {db : FlagView} (cache : ServiceCache)
    (h : alreadyMarked db f service = true) : (isFirstBlood db cache f service).1 = false := by
  unfold isFirstBlood
  simp only [h, Bool.not_true]
  repeat' split
  all_goals rfl

/-- Nothing is first blood if all slots have a marked flag. -/
theorem defaultLoop_of_alreadyMarked {db : FlagView} {candidates : FlagSet} {cache : ServiceCache}
    (h : ∀ f ∈ flags, ∀ service, serviceById services f.serviceId = some service →
      alreadyMarked db f service = true) :
    (defaultLoop services db candidates cache flags).1 = [] := by
  induction flags generalizing candidates cache with
  | nil => rfl
  | cons f flags ih =>
    have hrest : ∀ g ∈ flags, ∀ service, serviceById services g.serviceId = some service →
        alreadyMarked db g service = true := fun g hg => h g (List.mem_cons_of_mem _ hg)
    cases hservice : serviceById services f.serviceId with
    | none =>
      simp only [defaultLoop, hservice]
      exact ih hrest
    | some service =>
      have hno := isFirstBlood_of_alreadyMarked cache (h f List.mem_cons_self service hservice)
      simp only [defaultLoop, hservice, hno, Bool.false_eq_true, if_false]
      split
      · exact ih hrest
      · exact ih hrest

/-- **The default algorithm returns nothing for old flags**, whatever is in its cache. -/
theorem defaultFirstBlood_replays (services : List Service) {history : List SubmittedFlag}
    (hts : history.Pairwise fun a b => a.ts < b.ts) :
    (defaultFirstBlood services).Replays history (defaultLevel services) fun _ => True where
  empty := trivial
  batch _ _ _ _ _ _ _ _ _ _ _ := trivial
  marked processed flags rows marks cache results cache' hinit hrows _ hflags hmarked _ hget := by
    have hnone : (defaultLoop services ⟨rows, marks⟩ .empty cache flags).1 = [] :=
      defaultLoop_of_alreadyMarked fun f hf service hservice =>
        alreadyMarked_of_processed (hts.sublist hinit.sublist) hmarked hrows (hflags hf) hservice
    rw [Except.ok.inj hget] at hnone
    obtain rfl : results = [] := hnone
    simp

end Default

/-! ## Multi-level -/

section Multi

variable {services : List Service} {limit : ℕ} {history before : List SubmittedFlag}
  {f : SubmittedFlag} {service : Service} {db : FlagView} {cache cache' : MultiCache}

/-- The cached victims of an attacker are those of some time in the history. -/
def MultiReplayOk (services : List Service) (history : List SubmittedFlag) (cache : MultiCache) :
    Prop :=
  ∀ key attacker, ∃ past, past <+: history ∧
    cache.victims (key, attacker) = victims services past key attacker

theorem victims_mono {flags flags' : List SubmittedFlag} (h : flags ⊆ flags') (key : ℕ × ℕ)
    (attacker : ℕ) :
    victims services flags key attacker ⊆ victims services flags' key attacker := by
  intro v hv
  obtain ⟨g, hg, hgk⟩ := mem_victims.1 hv
  exact mem_victims.2 ⟨g, h hg, hgk⟩

/-- A time that does not know the victim of a flag is before the flag. -/
theorem prefix_of_notMem_victims {past : List SubmittedFlag} (h : past <+: history)
    (hf : before ++ [f] <+: history)
    (hnew : f.teamId ∉ victims services past (levelKey services f) f.submittedBy) :
    past <+: before := by
  have hnot : ¬ before ++ [f] <+: past := fun hle =>
    hnew (mem_victims.2 ⟨f, hle.subset (by simp), rfl, rfl, rfl⟩)
  rcases List.prefix_or_prefix_of_prefix h hf with hle | hle
  · rcases List.prefix_concat_iff.1 hle with heq | hle
    · exact absurd (heq ▸ List.prefix_refl past) hnot
    · exact hle
  · exact absurd hle hnot

theorem MultiReplayOk.set (h : MultiReplayOk services history cache) {past : List SubmittedFlag}
    (hpast : past <+: history) (key : ℕ × ℕ) (attacker : ℕ) (max : ℕ × ℕ → ℕ) :
    MultiReplayOk services history
      ⟨max, Function.update cache.victims (key, attacker)
        (victims services past key attacker)⟩ := by
  intro key' attacker'
  by_cases heq : (key', attacker') = (key, attacker)
  · obtain ⟨rfl, rfl⟩ := Prod.mk.inj heq
    exact ⟨past, hpast, Function.update_self _ _ _⟩
  · obtain ⟨past', hpast', hvictims⟩ := h key' attacker'
    exact ⟨past', hpast', (Function.update_of_ne heq _ _).trans hvictims⟩

/-- **One flag**: a level is the number of victims up to the flag, and above the levels
that are saved for flags before it. -/
theorem multiFlag_of_replayOk (hservice : serviceById services f.serviceId = some service)
    (hf : before ++ [f] <+: history)
    (hprevious : getPreviousVictims db f service =
      victims services before (levelKey services f) f.submittedBy)
    (hok : MultiReplayOk services history cache) {level : Option ℕ}
    (h : multiFlag services limit db cache f = .ok (level, cache')) :
    MultiReplayOk services history cache' ∧
      ∀ n ∈ level, n = (victims services (before ++ [f]) (levelKey services f) f.submittedBy).card ∧
        getMaxFirstbloodLevel db f service < n ∧ getMaxFirstbloodLevel db f service < limit := by
  have hkey : payloadKey service f = levelKey services f := by simp [levelKey, hservice]
  obtain ⟨past, hpast, hvictims⟩ := hok (levelKey services f) f.submittedBy
  have hbefore : before <+: history := (List.prefix_append before [f]).trans hf
  simp only [multiFlag, hservice, hkey, hprevious, hvictims] at h
  by_cases hdone : limit ≤ cache.max (levelKey services f)
  · rw [if_pos hdone] at h
    obtain ⟨rfl, rfl⟩ := Prod.mk.inj (Except.ok.inj h)
    exact ⟨hok, by simp⟩
  rw [if_neg hdone] at h
  by_cases hold : f.teamId ∈ victims services past (levelKey services f) f.submittedBy
  · rw [if_pos hold] at h
    obtain ⟨rfl, rfl⟩ := Prod.mk.inj (Except.ok.inj h)
    exact ⟨hok, by simp⟩
  rw [if_neg hold] at h
  by_cases hlimit : limit ≤ max (cache.max (levelKey services f))
    (getMaxFirstbloodLevel db f service)
  · rw [if_pos hlimit] at h
    obtain ⟨rfl, rfl⟩ := Prod.mk.inj (Except.ok.inj h)
    exact ⟨fun key attacker => hok key attacker, by simp⟩
  rw [if_neg hlimit] at h
  -- the cached victims are older than the flag
  have hunion : victims services past (levelKey services f) f.submittedBy ∪
      victims services before (levelKey services f) f.submittedBy =
        victims services before (levelKey services f) f.submittedBy :=
    Finset.union_eq_right.2
      (victims_mono (prefix_of_notMem_victims hpast hf hold).subset _ _)
  have hinsert : insert f.teamId (victims services before (levelKey services f) f.submittedBy) =
      victims services (before ++ [f]) (levelKey services f) f.submittedBy := by
    rw [victims_snoc, if_pos ⟨rfl, rfl⟩]
  rw [hunion] at h
  by_cases hmem : f.teamId ∈ victims services before (levelKey services f) f.submittedBy
  · rw [if_pos hmem] at h
    obtain ⟨rfl, rfl⟩ := Prod.mk.inj (Except.ok.inj h)
    exact ⟨hok.set hbefore _ _ _, by simp⟩
  rw [if_neg hmem, hinsert] at h
  by_cases hnew : max (cache.max (levelKey services f)) (getMaxFirstbloodLevel db f service) <
      (victims services (before ++ [f]) (levelKey services f) f.submittedBy).card
  · rw [if_pos hnew] at h
    obtain ⟨rfl, rfl⟩ := Prod.mk.inj (Except.ok.inj h)
    refine ⟨hok.set hf _ _ _, ?_⟩
    rintro n ⟨⟩
    exact ⟨rfl, by omega, by omega⟩
  · rw [if_neg hnew] at h
    obtain ⟨rfl, rfl⟩ := Prod.mk.inj (Except.ok.inj h)
    exact ⟨hok.set hf _ _ _, by simp⟩

/-- The flags of a history that come before one of them. -/
theorem getPreviousVictims_of_history {rows after : List SubmittedFlag} {marks : ℕ → ℕ}
    (hts : (before ++ f :: after).Pairwise fun a b => a.ts < b.ts)
    (hservice : serviceById services f.serviceId = some service)
    (hrows : rows ⊆ before ++ f :: after)
    (hall : ∀ g ∈ before ++ f :: after, g.ts < f.ts → g ∈ rows) :
    getPreviousVictims ⟨rows, marks⟩ f service =
      victims services before (levelKey services f) f.submittedBy := by
  refine getPreviousVictims_eq hservice fun row _ => ⟨fun h => ?_, fun h => ?_⟩
  · exact (mem_before_iff hts (hrows h.1)).1 h.2
  · have hrow : row ∈ before ++ f :: after := List.mem_append_left _ h
    have hlt := (mem_before_iff hts hrow).2 h
    exact ⟨hall row hrow hlt, hlt⟩

/-- A loop over flags of the history, new or old. -/
theorem multiLoop_of_replayOk (hts : history.Pairwise fun a b => a.ts < b.ts)
    {rows flags : List SubmittedFlag} {marks : ℕ → ℕ} (hflags : flags ⊆ history)
    (hrows : rows ⊆ history) (hall : ∀ f ∈ flags, ∀ g ∈ history, g.ts < f.ts → g ∈ rows)
    (hok : MultiReplayOk services history cache) {results : List (SubmittedFlag × ℕ)}
    (h : multiLoop services limit ⟨rows, marks⟩ cache flags = .ok (results, cache')) :
    MultiReplayOk services history cache' ∧
      ∀ r ∈ results, r.1 ∈ flags ∧ ∀ before after, history = before ++ r.1 :: after →
        ∃ service, serviceById services r.1.serviceId = some service ∧
          r.2 = (victims services (before ++ [r.1]) (levelKey services r.1) r.1.submittedBy).card ∧
          getMaxFirstbloodLevel ⟨rows, marks⟩ r.1 service < r.2 ∧
          getMaxFirstbloodLevel ⟨rows, marks⟩ r.1 service < limit := by
  induction flags generalizing cache results with
  | nil =>
    obtain ⟨rfl, rfl⟩ := Prod.mk.inj (Except.ok.inj h)
    exact ⟨hok, by simp⟩
  | cons f flags ih =>
    obtain ⟨service, hservice⟩ := known_of_multiLoop h f List.mem_cons_self
    obtain ⟨level, cache₁, ⟨results₂, cache₂⟩, hflag, hrest, heq⟩ := exists_of_multiLoop_cons h
    obtain ⟨rfl, rfl⟩ := Prod.mk.inj heq
    have hone : ∀ before after, history = before ++ f :: after →
        MultiReplayOk services history cache₁ ∧ ∀ n ∈ level,
          n = (victims services (before ++ [f]) (levelKey services f) f.submittedBy).card ∧
          getMaxFirstbloodLevel ⟨rows, marks⟩ f service < n ∧
          getMaxFirstbloodLevel ⟨rows, marks⟩ f service < limit := by
      intro before after hsplit
      have hprevious : getPreviousVictims ⟨rows, marks⟩ f service =
          victims services before (levelKey services f) f.submittedBy :=
        getPreviousVictims_of_history (hsplit ▸ hts) hservice (hsplit ▸ hrows)
          (hsplit ▸ hall f List.mem_cons_self)
      exact multiFlag_of_replayOk hservice ⟨after, by simp [hsplit]⟩ hprevious hok hflag
    obtain ⟨before, after, hsplit⟩ := List.append_of_mem (hflags List.mem_cons_self)
    obtain ⟨hok₂, hresults⟩ := ih (fun g hg => hflags (List.mem_cons_of_mem _ hg))
      (fun g hg => hall g (List.mem_cons_of_mem _ hg)) (hone before after hsplit).1 hrest
    refine ⟨hok₂, fun r hr => ?_⟩
    rcases List.mem_append.1 hr with hr | hr
    · obtain ⟨n, hn, rfl⟩ := Option.map_eq_some_iff.1 (Option.mem_toList.1 hr)
      exact ⟨List.mem_cons_self, fun before after hsplit =>
        ⟨service, hservice, (hone before after hsplit).2 n hn⟩⟩
    · obtain ⟨hmem, hlevel⟩ := hresults r hr
      exact ⟨List.mem_cons_of_mem _ hmem, hlevel⟩

/-- The saved levels of the flags before a processed flag reach the best level so far. -/
theorem best_le_getMaxFirstbloodLevel {processed after rows : List SubmittedFlag} {marks : ℕ → ℕ}
    (hmarked : Marked (multiLevel services limit) processed marks)
    (hts : processed.Pairwise fun a b => a.ts < b.ts) (hsplit : processed = before ++ f :: after)
    (hrows : processed ⊆ rows) (hservice : serviceById services f.serviceId = some service) :
    min (best services before (levelKey services f)) limit ≤
      getMaxFirstbloodLevel ⟨rows, marks⟩ f service := by
  rcases Nat.eq_zero_or_pos (min (best services before (levelKey services f)) limit)
    with hzero | hpos
  · omega
  · obtain ⟨before', g, after', rfl, hkey, hlevel⟩ := exists_multiLevel hpos
      (min_le_left (best services before (levelKey services f)) limit) (min_le_right _ limit)
    have hg : g ∈ before' ++ g :: after' := by simp
    have hmark : marks g.id = _ :=
      hmarked.level_eq before' g (after' ++ f :: after) (by simp [hsplit])
    rw [← hlevel, ← hmark]
    have hmem : g ∈ processed := by rw [hsplit]; exact List.mem_append_left _ hg
    exact le_getMaxFirstbloodLevel hservice (hrows hmem) hkey
      ((mem_before_iff (hsplit ▸ hts) (List.mem_append_left _ hg)).2 hg)

/-- **The multi-level algorithm gives an old flag no other level than before**, whatever
part of the history its caches know. -/
theorem multiFirstBlood_replays (services : List Service) (limit : ℕ) {history : List SubmittedFlag}
    (hts : history.Pairwise fun a b => a.ts < b.ts) :
    (multiFirstBlood services limit).Replays history (multiLevel services limit)
      (MultiReplayOk services history) where
  empty := fun key attacker => ⟨[], List.nil_prefix, rfl⟩
  batch rows marks cache flags results cache' hflags hrows hall hok hget :=
    (multiLoop_of_replayOk hts hflags hrows hall hok hget).1
  marked processed flags rows marks cache results cache' hinit hrows hhistory hflags hmarked hok
      hget := by
    have hts' := hts.sublist hinit.sublist
    obtain ⟨rest, hrest⟩ := hinit
    have hall : ∀ f ∈ flags, ∀ g ∈ history, g.ts < f.ts → g ∈ rows := by
      intro f hf g hg hlt
      rw [← hrest] at hg hts
      rcases List.mem_append.1 hg with hg | hg
      · exact hrows hg
      · exact absurd hlt ((List.pairwise_append.1 hts).2.2 f (hflags hf) g hg).asymm
    have hflags' : flags ⊆ history := fun f hf => by
      rw [← hrest]
      exact List.mem_append_left _ (hflags hf)
    intro r hr
    obtain ⟨hmem, hlevel⟩ := (multiLoop_of_replayOk hts hflags' hhistory hall hok hget).2 r hr
    obtain ⟨before, after, hsplit⟩ := List.append_of_mem (hflags hmem)
    obtain ⟨service, hservice, hcard, hnew, hlimit⟩ :=
      hlevel before (after ++ rest) (by simp [← hrest, hsplit])
    have hbest := best_le_getMaxFirstbloodLevel hmarked hts' hsplit hrows hservice
    have hle := card_victims_snoc_le services before r.1
    have heq : multiLevel services limit before r.1 = r.2 := by
      rw [multiLevel, ← hcard]
      exact if_pos ⟨by omega, by omega⟩
    exact ⟨hmem, by omega, (hmarked.level_eq before r.1 after hsplit).trans heq⟩

end Multi

end Gameserver.FirstBlood
