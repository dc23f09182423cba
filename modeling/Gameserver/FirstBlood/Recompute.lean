import Gameserver.FirstBlood.Multi

/-!
# Recomputing multi-level first blood

`recompute_first_blood_flags` drops all marks and computes them again, one service after
the other and each tick by tick, and stops early when a service is done.

* `getFirstbloodsForRecomputation` — the loop over the ticks of a service.
* `recomputeWith` — the loop of `recompute_first_blood_flags`, for any algorithm.
* `getFirstbloodsForRecomputation_eq` — a service gets the levels of its own flags, in
  spite of the early end.
* `recomputeFirstBloodFlags_eq` — **the marks are those of the specification**.
* `multi_firstblood` — whole runs, and the recomputation after them.
-/

namespace Gameserver.FirstBlood

open Gameserver.Scoring

/-- `ORDER BY ts, id`. -/
def tsIdLe (f g : SubmittedFlag) : Bool :=
  f.ts < g.ts ∨ (f.ts = g.ts ∧ f.id ≤ g.id)

/-- The flags of a service in a tick, as the recomputation queries them. -/
def flagsOfTick (rows : List SubmittedFlag) (serviceId : ℕ) (tick : ℤ) : List SubmittedFlag :=
  (rows.filter fun row => row.tickSubmitted = tick ∧ row.serviceId = serviceId).mergeSort tsIdLe

/-- The loop over the ticks: "all payloads done? then no further ticks checked". -/
def recomputeTicks (services : List Service) (limit : ℕ) (db : FlagView) (service : Service) :
    MultiCache → List ℤ → Except PyError (List (SubmittedFlag × ℕ) × MultiCache)
  | cache, [] => .ok ([], cache)
  | cache, tick :: ticks => do
    let (newFirstbloods, cache) ←
      multiLoop services limit db cache (flagsOfTick db.rows service.id tick)
    if newFirstbloods ≠ [] ∧ ∀ pl < max 1 service.numPayloads,
      limit ≤ cache.max (service.id, pl) then
      return (newFirstbloods, cache)
    let (results, cache) ← recomputeTicks services limit db service cache ticks
    return (newFirstbloods ++ results, cache)

/-- `range(tick, tick + n)`. -/
def tickRange (tick : ℤ) : ℕ → List ℤ
  | 0 => []
  | n + 1 => tick :: tickRange (tick + 1) n

/-- `MultiFirstBloodAlgorithm.get_firstbloods_for_recomputation`. -/
def getFirstbloodsForRecomputation (services : List Service) (limit : ℕ) (db : FlagView)
    (cache : MultiCache) (service : Service) :
    Except PyError (List (SubmittedFlag × ℕ) × MultiCache) :=
  let ticks :=
    (db.rows.filter fun row => row.serviceId = service.id).map SubmittedFlag.tickSubmitted
  match ticks.min?, ticks.max? with
  | some minTick, some maxTick =>
    recomputeTicks services limit db service cache
      (tickRange minTick (maxTick + 1 - minTick).toNat)
  | _, _ => .ok ([], cache)

/-- The loop of `recompute_first_blood_flags` over the services, for any algorithm. -/
def recomputeWith {Cache : Type*}
    (getForRecomputation : FlagView → Cache → Service →
      Except PyError (List (SubmittedFlag × ℕ) × Cache))
    (rows : List SubmittedFlag) :
    (ℕ → ℕ) → Cache → List Service → Except PyError ((ℕ → ℕ) × Cache)
  | marks, cache, [] => .ok (marks, cache)
  | marks, cache, service :: rest => do
    let (flagsWithFp, cache) ← getForRecomputation ⟨rows, marks⟩ cache service
    recomputeWith getForRecomputation rows (record marks flagsWithFp) cache rest

/-- Drop all marks: `UPDATE … SET is_firstblood = 0 WHERE is_firstblood > 0`. -/
def dropMarks (marks : ℕ → ℕ) : ℕ → ℕ := fun id => if 0 < marks id then 0 else marks id

theorem dropMarks_eq (marks : ℕ → ℕ) : dropMarks marks = fun _ => 0 := by
  funext id
  unfold dropMarks
  split
  · rfl
  · omega

/-- The loop of the multi-level algorithm. -/
def recomputeServices (services : List Service) (limit : ℕ) (rows : List SubmittedFlag) :
    (ℕ → ℕ) → MultiCache → List Service → Except PyError ((ℕ → ℕ) × MultiCache) :=
  recomputeWith (getFirstbloodsForRecomputation services limit) rows

/-- `recompute_first_blood_flags`: the marks and the caches afterwards. -/
def recomputeFirstBloodFlags (services : List Service) (limit : ℕ) (db : FlagView) :
    Except PyError ((ℕ → ℕ) × MultiCache) :=
  recomputeServices services limit db.rows (dropMarks db.isFirstblood)
    (multiFirstBlood services limit).empty services

/-! ## The levels of one service -/

section Levels

variable {level : List SubmittedFlag → SubmittedFlag → ℕ} {services : List Service} {limit : ℕ}
  {before after flags : List SubmittedFlag} {f : SubmittedFlag} {marks : ℕ → ℕ}

/-- Saving the levels of a list of flags gives each its level. -/
theorem record_levels (hids : ((before ++ f :: after).map SubmittedFlag.id).Nodup)
    (hzero : marks f.id = 0) :
    record marks (levels level [] (before ++ f :: after)) f.id = level before f := by
  rw [List.map_append, List.map_cons, List.nodup_append] at hids
  obtain ⟨-, hafter, hbefore⟩ := hids
  have hnot : ∀ r ∈ levels level ([] ++ before ++ [f]) after, r.1.id ≠ f.id := fun r hr heq =>
    (List.nodup_cons.1 hafter).1 (heq ▸ List.mem_map_of_mem (fst_mem_of_mem_levels hr))
  have hnot' : ∀ r ∈ levels level [] before, r.1.id ≠ f.id := fun r hr =>
    hbefore r.1.id (List.mem_map_of_mem (fst_mem_of_mem_levels hr)) f.id (by simp)
  rw [levels_append, levels, record_append, record_append, record_of_notMem hnot]
  by_cases hlevel : level ([] ++ before) f = 0
  · rw [if_pos hlevel, record, List.foldl_nil, record_of_notMem hnot', hzero]
    exact hlevel.symm
  · rw [if_neg hlevel]
    simp [record]

theorem victims_filter (services : List Service) (flags : List SubmittedFlag) (key : ℕ × ℕ)
    (attacker : ℕ) :
    victims services (flags.filter fun g => g.serviceId = key.1) key attacker =
      victims services flags key attacker := by
  ext v
  simp only [mem_victims, List.mem_filter, decide_eq_true_eq]
  constructor
  · rintro ⟨g, ⟨hg, -⟩, hgk⟩
    exact ⟨g, hg, hgk⟩
  · rintro ⟨g, hg, rfl, hgk⟩
    exact ⟨g, ⟨hg, (levelKey_fst g).symm⟩, rfl, hgk⟩

/-- The flags of other services do not matter. -/
theorem multiLevel_filter :
    multiLevel services limit (before.filter fun g => g.serviceId = f.serviceId) f =
      multiLevel services limit before f := by
  have hfilter := fun (l : List SubmittedFlag) =>
    victims_filter services l (levelKey services f)
  simp only [levelKey_fst] at hfilter
  have hbest : best services (before.filter fun g => g.serviceId = f.serviceId)
    (levelKey services f) =
      best services before (levelKey services f) :=
    eq_of_forall_ge_iff fun n => by simp only [best_le_iff, hfilter]
  have hsnoc : before.filter (fun g => g.serviceId = f.serviceId) ++ [f] =
      (before ++ [f]).filter fun g => g.serviceId = f.serviceId := by simp
  rw [multiLevel, multiLevel, hbest, hsnoc, hfilter]

/-- Saving the levels of the flags of one service gives each of them its level. -/
theorem record_levels_own {history : List SubmittedFlag} {serviceId : ℕ}
    (hids : (history.map SubmittedFlag.id).Nodup) (hsplit : history = before ++ f :: after)
    (hid : f.serviceId = serviceId) (hzero : marks f.id = 0) :
    record marks (levels (multiLevel services limit) []
        (history.filter fun g => g.serviceId = serviceId)) f.id =
      multiLevel services limit before f := by
  subst hid
  have hown : history.filter (fun g => g.serviceId = f.serviceId) =
      before.filter (fun g => g.serviceId = f.serviceId) ++
        f :: after.filter (fun g => g.serviceId = f.serviceId) := by
    simp [hsplit]
  have hids' : ((history.filter fun g => g.serviceId = f.serviceId).map SubmittedFlag.id).Nodup :=
    hids.sublist (List.filter_sublist.map _)
  rw [hown] at hids' ⊢
  rw [record_levels hids' hzero, multiLevel_filter]

/-- It leaves the flags of other services alone: the ids differ. -/
theorem record_levels_other {history : List SubmittedFlag} {serviceId : ℕ}
    (hids : (history.map SubmittedFlag.id).Nodup) (hf : f ∈ history)
    (hid : f.serviceId ≠ serviceId) :
    record marks (levels level [] (history.filter fun g => g.serviceId = serviceId)) f.id =
      marks f.id := by
  refine record_of_notMem fun r hr heq => hid ?_
  obtain ⟨hr, hrid⟩ := List.mem_filter.1 (fst_mem_of_mem_levels hr)
  rw [← List.inj_on_of_nodup_map hids hr hf heq]
  exact of_decide_eq_true hrid

end Levels

/-! ## The ticks of a service -/

section Ticks

variable {services : List Service} {limit : ℕ} {service : Service} {db : FlagView}
  {history rows own before rest : List SubmittedFlag} {f : SubmittedFlag} {cache : MultiCache}

theorem tsIdLe_trans (f g h : SubmittedFlag) (hfg : tsIdLe f g) (hgh : tsIdLe g h) :
    tsIdLe f h := by
  simp only [tsIdLe, decide_eq_true_eq] at *
  omega

theorem tsIdLe_total (f g : SubmittedFlag) : tsIdLe f g || tsIdLe g f := by
  simp only [tsIdLe, Bool.or_eq_true, decide_eq_true_eq]
  omega

theorem tsIdLe_antisymm {f g : SubmittedFlag} (hfg : tsIdLe f g) (hgf : tsIdLe g f) :
    f.id = g.id := by
  simp only [tsIdLe, decide_eq_true_eq] at *
  omega

/-- The query of a tick finds its flags in the order of the history. -/
theorem flagsOfTick_eq (hrows : rows.Perm history)
    (hts : history.Pairwise fun a b => a.ts < b.ts) (hids : (history.map SubmittedFlag.id).Nodup)
    (serviceId : ℕ) (tick : ℤ) :
    flagsOfTick rows serviceId tick =
      (history.filter fun f => f.serviceId = serviceId).filter fun f => f.tickSubmitted = tick := by
  have hsorted : ((history.filter fun f => f.serviceId = serviceId).filter
      fun f => f.tickSubmitted = tick).Pairwise fun a b => tsIdLe a b :=
    ((hts.filter _).filter _).imp fun h => by simp [tsIdLe, h]
  have hperm : (flagsOfTick rows serviceId tick).Perm
      ((history.filter fun f => f.serviceId = serviceId).filter fun f =>
          f.tickSubmitted = tick) := by
    refine (List.mergeSort_perm _ _).trans ?_
    rw [List.filter_filter]
    simpa using hrows.filter _
  refine hperm.eq_of_pairwise (fun a b ha hb hab hba => ?_)
    (List.pairwise_mergeSort tsIdLe_trans tsIdLe_total _) hsorted
  have hmem : ∀ c ∈ (history.filter fun f => f.serviceId = serviceId).filter
      (fun f => f.tickSubmitted = tick), c ∈ history := fun c hc =>
    List.mem_of_mem_filter (List.mem_of_mem_filter hc)
  exact List.inj_on_of_nodup_map hids (hmem a (hperm.mem_iff.1 ha)) (hmem b hb)
    (tsIdLe_antisymm hab hba)

/-- Later ticks come later. -/
theorem filter_tick_append {t : ℤ}
    (hticks : rest.Pairwise fun a b => a.tickSubmitted ≤ b.tickSubmitted)
    (ht : ∀ f ∈ rest, t ≤ f.tickSubmitted) :
    rest.filter (fun f => f.tickSubmitted = t) ++ rest.filter (fun f => t < f.tickSubmitted) =
      rest := by
  induction rest with
  | nil => rfl
  | cons f rest ih =>
    obtain ⟨hf, hrest⟩ := List.pairwise_cons.1 hticks
    by_cases heq : f.tickSubmitted = t
    · simp [heq, ih hrest fun g hg => ht g (by simp [hg])]
    · have hlt : t < f.tickSubmitted := lt_of_le_of_ne (ht f (by simp)) (Ne.symm heq)
      have hall : ∀ g ∈ rest, t < g.tickSubmitted := fun g hg => hlt.trans_le (hf g hg)
      have hnone : rest.filter (fun f => f.tickSubmitted = t) = [] :=
        List.filter_eq_nil_iff.2 fun g hg => by simpa using (hall g hg).ne'
      have hrest' : rest.filter (fun f => t < f.tickSubmitted) = rest :=
        List.filter_eq_self.2 fun g hg => by simpa using hall g hg
      simp [heq, hlt, hnone, hrest']

/-- After the limit there are no levels. -/
theorem levels_eq_nil_of_done
    (hdone : ∀ f ∈ rest, limit ≤ best services before (levelKey services f)) :
    levels (multiLevel services limit) before rest = [] :=
  levels_eq_nil fun done f _ hsplit => (multiLevel_of_limit_le
    ((hdone f (by simp [hsplit])).trans (best_mono_append _ _ _ _))).1

/-- The queries of a session answer for the flags of a service: none is marked, and the
victims are those of the flags before. -/
def Answers (services : List Service) (db : FlagView) (service : Service)
    (own : List SubmittedFlag) :
    Prop :=
  ∀ before f after, own = before ++ f :: after → f.serviceId = service.id ∧
    getMaxFirstbloodLevel db f service = 0 ∧
    getPreviousVictims db f service = victims services before (levelKey services f) f.submittedBy

theorem Answers.serviceId_eq (h : Answers services db service own) (hf : f ∈ own) :
    f.serviceId = service.id := by
  obtain ⟨before, after, hsplit⟩ := List.append_of_mem hf
  exact (h before f after hsplit).1

/-- The early end: no key of the service has a level left. -/
theorem levels_eq_nil_of_end (hservice : serviceById services service.id = some service)
    (hid : ∀ f ∈ rest, f.serviceId = service.id)
    (hpayload : ∀ f ∈ rest, 0 < service.numPayloads → f.payload < service.numPayloads)
    (hknows : Knows services limit (fun key => key.1 = service.id) before (fun _ => 0) cache)
    (hend : ∀ payload < max 1 service.numPayloads, limit ≤ cache.max (service.id, payload)) :
    levels (multiLevel services limit) before rest = [] := by
  apply levels_eq_nil_of_done
  intro f hf
  have hkey : (levelKey services f).1 = service.id := (levelKey_fst f).trans (hid f hf)
  have hlt : (levelKey services f).2 < max 1 service.numPayloads := by
    simp only [levelKey, hid f hf, hservice, payloadKey]
    split
    · exact lt_max_of_lt_right (hpayload f hf ‹_›)
    · exact lt_max_of_lt_left Nat.zero_lt_one
  have hcache : limit ≤ cache.max (levelKey services f) := by
    have hdone := hend _ hlt
    rwa [← hkey] at hdone
  have hlevel := hknows.level _ hkey
  omega

/-- **Tick by tick, with an early end**, a service gets the levels of its flags. -/
theorem recomputeTicks_eq (hservice : serviceById services service.id = some service)
    (hpayload : ∀ f ∈ own, 0 < service.numPayloads → f.payload < service.numPayloads)
    (hticks : own.Pairwise fun a b => a.tickSubmitted ≤ b.tickSubmitted)
    (hflags : ∀ tick, flagsOfTick db.rows service.id tick = own.filter fun f =>
      f.tickSubmitted = tick)
    (hanswers : Answers services db service own) (n : ℕ) (t : ℤ) (hown : own = before ++ rest)
    (hbefore : ∀ f ∈ before, f.tickSubmitted < t)
    (hrest : ∀ f ∈ rest, t ≤ f.tickSubmitted ∧ f.tickSubmitted < t + n)
    (hknows : Knows services limit (fun key => key.1 = service.id) before (fun _ => 0) cache) :
    ∃ cache', recomputeTicks services limit db service cache (tickRange t n) =
        .ok (levels (multiLevel services limit) before rest, cache') ∧
      cache.SameOn cache' fun key => key.1 ≠ service.id := by
  induction n generalizing t before rest cache with
  | zero =>
    obtain rfl : rest = [] := List.eq_nil_iff_forall_not_mem.2 fun f hf => by
      have := hrest f hf
      omega
    exact ⟨cache, rfl, .refl _ _⟩
  | succ n ih =>
    set batch := rest.filter fun f => f.tickSubmitted = t
    set later := rest.filter fun f => t < f.tickSubmitted
    have hsplit : batch ++ later = rest :=
      filter_tick_append (List.pairwise_append.1 (hown ▸ hticks)).2.1 fun f hf => (hrest f hf).1
    have hbatch : flagsOfTick db.rows service.id t = batch := by
      have hnone : before.filter (fun f => f.tickSubmitted = t) = [] :=
        List.filter_eq_nil_iff.2 fun f hf => by simpa using (hbefore f hf).ne
      rw [hflags, hown, List.filter_append, hnone, List.nil_append]
    have hown' : own = (before ++ batch) ++ later := by rw [hown, ← hsplit, List.append_assoc]
    obtain ⟨cache₁, hloop, hknows₁, hframe₁⟩ := multiLoop_eq db batch hknows
      fun done f tail hdone => by
        obtain ⟨hid, hmax, hprevious⟩ := hanswers (before ++ done) f (tail ++ later)
          (by rw [hown', hdone]; simp)
        exact ⟨(levelKey_fst f).trans hid, service, hid ▸ hservice, hmax, hprevious⟩
    have hframe : cache.SameOn cache₁ fun key => key.1 ≠ service.id := by
      refine fun key hkey => hframe₁ key fun f hf heq => hkey ?_
      rw [← heq, levelKey_fst]
      exact hanswers.serviceId_eq (by simp [hown', hf])
    rw [tickRange, recomputeTicks, hbatch, ← hsplit, levels_append]
    simp only [hloop, bind, Except.bind, pure, Except.pure]
    split
    · rename_i hend
      have hmem : ∀ f ∈ later, f ∈ own := fun f hf => by simp [hown', hf]
      have hnil : levels (multiLevel services limit) (before ++ batch) later = [] :=
        levels_eq_nil_of_end hservice (fun f hf => hanswers.serviceId_eq (hmem f hf))
          (fun f hf => hpayload f (hmem f hf)) hknows₁ hend.2
      exact ⟨cache₁, by rw [hnil, List.append_nil], hframe⟩
    · have hbefore' : ∀ f ∈ before ++ batch, f.tickSubmitted < t + 1 := by
        intro f hf
        rcases List.mem_append.1 hf with hf | hf
        · exact (hbefore f hf).trans (lt_add_one t)
        · have : f.tickSubmitted = t := by simpa using (List.mem_filter.1 hf).2
          omega
      have hlater : ∀ f ∈ later, t + 1 ≤ f.tickSubmitted ∧ f.tickSubmitted < t + 1 + n := by
        intro f hf
        obtain ⟨hmem, hlt⟩ := List.mem_filter.1 hf
        have hbound := (hrest f hmem).2
        have hlt' : t < f.tickSubmitted := by simpa using hlt
        push_cast at hbound
        omega
      obtain ⟨cache₂, hticks₂, hframe₂⟩ := ih (t + 1) hown' hbefore' hlater hknows₁
      exact ⟨cache₂, by simp only [hticks₂], hframe.trans hframe₂ fun _ hkey => ⟨hkey, hkey⟩⟩

end Ticks

/-! ## All services -/

section Services

variable {services : List Service} {limit : ℕ} {history rows : List SubmittedFlag} {marks : ℕ → ℕ}
  {cache : MultiCache}

theorem serviceById_of_mem (hservices : (services.map Service.id).Nodup) {service : Service}
    (h : service ∈ services) : serviceById services service.id = some service := by
  cases hfind : serviceById services service.id with
  | none => simpa using List.find?_eq_none.1 hfind service h
  | some found =>
    have hid : found.id = service.id := by simpa using List.find?_some hfind
    rw [List.inj_on_of_nodup_map hservices (List.mem_of_find?_eq_some hfind) h hid]

/-- A history the recomputation is about. -/
structure History (services : List Service) (history : List SubmittedFlag) : Prop where
  ids : (history.map SubmittedFlag.id).Nodup
  ts : history.Pairwise fun a b => a.ts < b.ts
  ticks : history.Pairwise fun a b => a.tickSubmitted ≤ b.tickSubmitted
  payload : ∀ f ∈ history, ∀ service ∈ services, service.id = f.serviceId →
    0 < service.numPayloads → f.payload < service.numPayloads

/-- The caches know nothing of a service. -/
def MultiCache.Clean (cache : MultiCache) (serviceId : ℕ) : Prop :=
  ∀ key : ℕ × ℕ, key.1 = serviceId → cache.max key = 0 ∧
    ∀ attacker, cache.victims (key, attacker) = ∅

theorem History.answers (hhistory : History services history) (hrows : rows.Perm history)
    (hservices : (services.map Service.id).Nodup) {service : Service}
    (hservice : service ∈ services)
    (hzero : ∀ f ∈ history, f.serviceId = service.id → marks f.id = 0) :
    Answers services ⟨rows, marks⟩ service (history.filter fun f => f.serviceId = service.id) := by
  intro before f after hsplit
  have hown : ∀ g, g ∈ before ++ f :: after ↔ g ∈ history ∧ g.serviceId = service.id := by
    intro g
    rw [← hsplit]
    simp
  have hid : f.serviceId = service.id := ((hown f).1 (by simp)).2
  have hfound : serviceById services f.serviceId = some service :=
    hid ▸ serviceById_of_mem hservices hservice
  have hid_of_key : ∀ row, levelKey services row = levelKey services f →
    row.serviceId = service.id :=
    fun row hkey => by
      simpa [hid] using congrArg Prod.fst hkey
  refine ⟨hid, Nat.le_zero.1 (getMaxFirstbloodLevel_le hfound fun row hrow hkey _ => ?_),
    getPreviousVictims_eq hfound fun row hkey => ?_⟩
  · exact (hzero row (hrows.mem_iff.1 hrow) (hid_of_key row hkey)).le
  · have hts : (before ++ f :: after).Pairwise fun a b => a.ts < b.ts :=
      hsplit ▸ hhistory.ts.filter _
    constructor
    · rintro ⟨hrow, hlt⟩
      exact (mem_before_iff hts ((hown row).2 ⟨hrows.mem_iff.1 hrow, hid_of_key row hkey⟩)).1 hlt
    · intro hmem
      have hrow : row ∈ before ++ f :: after := List.mem_append_left _ hmem
      exact ⟨hrows.mem_iff.2 ((hown row).1 hrow).1, (mem_before_iff hts hrow).2 hmem⟩

/-- **A service gets the levels of its own flags.** -/
theorem getFirstbloodsForRecomputation_eq (limit : ℕ) (hhistory : History services history)
    (hrows : rows.Perm history) (hservices : (services.map Service.id).Nodup) {service : Service}
    (hservice : service ∈ services)
    (hzero : ∀ f ∈ history, f.serviceId = service.id → marks f.id = 0)
    (hclean : cache.Clean service.id) :
    ∃ cache', getFirstbloodsForRecomputation services limit ⟨rows, marks⟩ cache service =
        .ok (levels (multiLevel services limit) []
          (history.filter fun f => f.serviceId = service.id), cache') ∧
      cache.SameOn cache' fun key => key.1 ≠ service.id := by
  set own := history.filter fun f => f.serviceId = service.id
  have hperm : (rows.filter fun row => row.serviceId = service.id).Perm own := hrows.filter _
  have hmem : ∀ f ∈ own, f.tickSubmitted ∈
      (rows.filter fun row => row.serviceId = service.id).map SubmittedFlag.tickSubmitted :=
    fun f hf => List.mem_map_of_mem (hperm.mem_iff.2 hf)
  have hnil : ((rows.filter fun row => row.serviceId = service.id).map
      SubmittedFlag.tickSubmitted) = [] → own = [] := fun h =>
    List.eq_nil_iff_forall_not_mem.2 fun f hf => by simpa [h] using hmem f hf
  unfold getFirstbloodsForRecomputation
  dsimp only
  split
  · rename_i minTick maxTick hmin hmax
    have hbounds : ∀ f ∈ own, minTick ≤ f.tickSubmitted ∧ f.tickSubmitted ≤ maxTick := fun f hf =>
      ⟨(List.min?_eq_some_iff.1 hmin).2 _ (hmem f hf),
        (List.max?_eq_some_iff.1 hmax).2 _ (hmem f hf)⟩
    refine recomputeTicks_eq (serviceById_of_mem hservices hservice) (fun f hf => ?_)
      (hhistory.ticks.filter _) (flagsOfTick_eq hrows hhistory.ts hhistory.ids service.id)
      (hhistory.answers hrows hservices hservice hzero) _ _ rfl (by simp) (fun f hf => ?_) ?_
    · obtain ⟨hf, hid⟩ := List.mem_filter.1 hf
      exact hhistory.payload f hf service hservice (of_decide_eq_true hid).symm
    · have := hbounds f hf
      omega
    · constructor
      · intro key hkey
        simp [(hclean key hkey).1, best_nil]
      · intro key attacker hkey
        simp [(hclean key hkey).2]
  · rename_i hnone
    have hempty : own = [] := by
      refine hnil (by_contra fun hne => ?_)
      obtain ⟨a, ha⟩ := Option.ne_none_iff_exists'.1 (mt List.min?_eq_none_iff.1 hne)
      obtain ⟨b, hb⟩ := Option.ne_none_iff_exists'.1 (mt List.max?_eq_none_iff.1 hne)
      exact hnone a b ha hb
    rw [hempty]
    exact ⟨cache, rfl, .refl _ _⟩

/-- The loop over the services gives every flag of one of them its level, and leaves the
others alone. -/
theorem recomputeServices_eq (limit : ℕ) (marks : ℕ → ℕ)
    (hhistory : History services history) (hrows : rows.Perm history)
    (hservices : (services.map Service.id).Nodup) {todo : List Service} (htodo : todo ⊆ services)
    (hnodup : (todo.map Service.id).Nodup)
    (hclean : ∀ service ∈ todo, cache.Clean service.id)
    (hzero : ∀ service ∈ todo, ∀ f ∈ history, f.serviceId = service.id → marks f.id = 0) :
    ∃ marks' cache', recomputeServices services limit rows marks cache todo = .ok (marks', cache') ∧
      (∀ before f after, history = before ++ f :: after →
        marks' f.id = if f.serviceId ∈ todo.map Service.id then multiLevel services limit before f
          else marks f.id) ∧
      ∀ id, (∀ f ∈ history, f.id ≠ id) → marks' id = marks id := by
  induction todo generalizing marks cache with
  | nil => exact ⟨marks, cache, rfl, by simp, fun _ _ => rfl⟩
  | cons service todo ih =>
    obtain ⟨hne, hnodup'⟩ := List.nodup_cons.1 (List.map_cons ▸ hnodup)
    have hne' : ∀ service' ∈ todo, service'.id ≠ service.id := fun service' hmem heq =>
      hne (heq ▸ List.mem_map_of_mem hmem)
    set own := history.filter fun f => f.serviceId = service.id
    obtain ⟨cache₁, hget, hframe⟩ := getFirstbloodsForRecomputation_eq limit hhistory hrows
      hservices (htodo (by simp)) (hzero service (by simp)) (hclean service (by simp))
    have hclean' : ∀ service' ∈ todo, cache₁.Clean service'.id := by
      intro service' hmem key hkey
      obtain ⟨hmax, hvictims⟩ := hframe key (hkey.trans_ne (hne' service' hmem))
      obtain ⟨hmax', hvictims'⟩ := hclean service' (by simp [hmem]) key hkey
      exact ⟨hmax.trans hmax', fun attacker => (hvictims attacker).trans (hvictims' attacker)⟩
    have hzero' : ∀ service' ∈ todo, ∀ f ∈ history, f.serviceId = service'.id →
        record marks (levels (multiLevel services limit) [] own) f.id = 0 := by
      intro service' hmem f hf hid
      rw [record_levels_other hhistory.ids hf (hid ▸ hne' service' hmem)]
      exact hzero service' (by simp [hmem]) f hf hid
    obtain ⟨marks', cache', hrest, hlevel, hnone⟩ :=
      ih _ (fun s hs => htodo (by simp [hs])) hnodup' hclean' hzero'
    refine ⟨marks', cache', ?_, fun before f after hsplit => ?_, fun id hid => ?_⟩
    · rw [recomputeServices, recomputeWith, hget]
      exact hrest
    · rw [hlevel before f after hsplit]
      have hf : f ∈ history := by simp [hsplit]
      by_cases hid : f.serviceId = service.id
      · rw [record_levels_own hhistory.ids hsplit hid (hzero service (by simp) f hf hid), ite_self,
          if_pos (by simp [hid])]
      · rw [record_levels_other hhistory.ids hf hid]
        simp [hid]
    · rw [hnone id hid]
      exact record_of_notMem fun r hr =>
        hid r.1 (List.mem_of_mem_filter (fst_mem_of_mem_levels hr))

/-- **The recomputation marks the flags as the specification says.** -/
theorem recomputeFirstBloodFlags_eq (limit : ℕ)
    (hhistory : History services history) (hrows : rows.Perm history)
    (hservices : (services.map Service.id).Nodup)
    (hknown : ∀ f ∈ history, ∃ service, serviceById services f.serviceId = some service)
    (marks : ℕ → ℕ) :
    ∃ marks' cache', recomputeFirstBloodFlags services limit ⟨rows, marks⟩ = .ok (marks', cache') ∧
      Marked (multiLevel services limit) history marks' := by
  have hclean : ∀ service ∈ services, (multiFirstBlood services limit).empty.Clean service.id :=
    fun _ _ _ _ => ⟨rfl, fun _ => rfl⟩
  obtain ⟨marks', cache', hloop, hlevel, hnone⟩ := recomputeServices_eq limit (fun _ => 0) hhistory
    hrows hservices (fun _ h => h) hservices hclean (fun _ _ _ _ _ => rfl)
  refine ⟨marks', cache', by rw [recomputeFirstBloodFlags, dropMarks_eq]; exact hloop, ?_, hnone⟩
  intro before f after hsplit
  obtain ⟨service, hservice⟩ := hknown f (by simp [hsplit])
  have hid : service.id = f.serviceId := by simpa using List.find?_some hservice
  rw [hlevel before f after hsplit,
    if_pos (List.mem_map.2 ⟨service, List.mem_of_find?_eq_some hservice, hid⟩)]

end Services

/-! ## Runs -/

/-- The specification leaves no choice. -/
theorem Marked.unique {level : List SubmittedFlag → SubmittedFlag → ℕ}
    {history : List SubmittedFlag}
    {marks marks' : ℕ → ℕ} (h : Marked level history marks) (h' : Marked level history marks') :
    marks = marks' := by
  funext id
  by_cases hid : ∃ f ∈ history, f.id = id
  · obtain ⟨f, hf, rfl⟩ := hid
    obtain ⟨before, after, hsplit⟩ := List.append_of_mem hf
    rw [h.level_eq before f after hsplit, h'.level_eq before f after hsplit]
  · have hnone : ∀ f ∈ history, f.id ≠ id := fun f hf heq => hid ⟨f, hf, heq⟩
    rw [h.none id hnone, h'.none id hnone]

section Run

variable {services : List Service} {limit : ℕ} {history : List SubmittedFlag} {marks : ℕ → ℕ}
  {key : ℕ × ℕ} {n : ℕ}

/-- Of two marked flags of a key, the later one has the higher level. -/
theorem Marked.level_lt (h : Marked (multiLevel services limit) history marks)
    {before middle after : List SubmittedFlag} {f g : SubmittedFlag}
    (hsplit : history = before ++ f :: (middle ++ g :: after))
    (hkey : levelKey services g = levelKey services f) (hg : 1 ≤ marks g.id) :
    marks f.id < marks g.id := by
  have hsplit' : history = (before ++ f :: middle) ++ g :: after := by simp [hsplit]
  have hf := h.level_eq before f _ hsplit
  rw [h.level_eq _ g after hsplit'] at hg ⊢
  rw [hf]
  exact multiLevel_lt hkey hg

/-- Every level up to the best one is given once. -/
theorem Marked.existsUnique (h : Marked (multiLevel services limit) history marks)
    (hn : 1 ≤ n) (hm : n ≤ min (best services history key) limit) :
    ∃! f, f ∈ history ∧ levelKey services f = key ∧ marks f.id = n := by
  obtain ⟨before, f, after, hsplit, hkey, hlevel⟩ := exists_multiLevel hn
    (hm.trans (min_le_left _ _)) (hm.trans (min_le_right _ _))
  have hmark : marks f.id = n := by rw [h.level_eq before f after hsplit, hlevel]
  refine ⟨f, ⟨by simp [hsplit], hkey, hmark⟩, ?_⟩
  rintro g ⟨hg, hgkey, hgmark⟩
  rw [hsplit, List.mem_append, List.mem_cons] at hg
  rcases hg with hg | rfl | hg
  · obtain ⟨first, middle, rfl⟩ := List.append_of_mem hg
    have hlt := h.level_lt (by simpa using hsplit) (hkey.trans hgkey.symm) (by omega)
    omega
  · rfl
  · obtain ⟨middle, last, rfl⟩ := List.append_of_mem hg
    have hlt := h.level_lt hsplit (hgkey.trans hkey.symm) (by omega)
    omega

theorem Marked.le_best (h : Marked (multiLevel services limit) history marks) {f : SubmittedFlag}
    (hf : f ∈ history) : marks f.id ≤ min (best services history (levelKey services f)) limit := by
  obtain ⟨before, after, hsplit⟩ := List.append_of_mem hf
  rw [h.level_eq before f after hsplit]
  refine le_min (multiLevel_le_best.trans ?_) multiLevel_le_limit
  have hmono := best_mono_append services (levelKey services f) (before ++ [f]) after
  simpa [hsplit] using hmono

/-- The marks after a run. -/
abbrev marksAfter (services : List Service) (limit : ℕ) (es : List Event) : ℕ → ℕ :=
  (Machine.exec (step (multiFirstBlood services limit))
    (State.initial (multiFirstBlood services limit)) es).marks

/-- The run has processed the whole history, in any batches and with any rollbacks and
resets in between. -/
def Processed (services : List Service) (limit : ℕ) (history : List SubmittedFlag)
    (es : List Event) : Prop :=
  Machine.Along (step (multiFirstBlood services limit)) (InOrder history)
      (State.initial (multiFirstBlood services limit)) es ∧
    (Machine.exec (step (multiFirstBlood services limit))
      (State.initial (multiFirstBlood services limit)) es).processed = history

theorem Processed.inv (hts : history.Pairwise fun a b => a.ts < b.ts)
    (hids : (history.map SubmittedFlag.id).Nodup) {es : List Event}
    (h : Processed services limit history es) :
    Marked (multiLevel services limit) history (marksAfter services limit es) ∧
      ∀ f ∈ history, ∃ service, serviceById services f.serviceId = some service := by
  have hinv := (multiFirstBlood_correct services limit hts hids).run hids h.1
  have hmarked := hinv.marked
  have hcache := hinv.cache.known
  rw [h.2] at hmarked hcache
  exact ⟨hmarked, hcache⟩

/-- A service with two payloads, and one without payloads. -/
def multiServices : List Service := [.new 1 2, .new 2 0]

/-- Attacker 3 is the first with two victims in payload 0 of the first service, attacker 4
the first with one in the second service. -/
def multiHistory : List SubmittedFlag :=
  [⟨1, 3, 8, 1, 1, 0, 1, 100⟩, ⟨2, 3, 8, 1, 1, 1, 1, 101⟩, ⟨3, 4, 8, 2, 1, 7, 1, 102⟩,
    ⟨4, 4, 9, 1, 1, 0, 2, 103⟩, ⟨5, 3, 9, 1, 1, 0, 2, 104⟩, ⟨6, 4, 8, 1, 2, 0, 3, 105⟩]

/-- One batch for each tick; the second is retried, and the caches are reset once. -/
def multiEvents : List Event :=
  [.batch (multiHistory.take 3) (multiHistory.take 3), .rollback,
    .batch ((multiHistory.drop 3).take 2) (multiHistory.take 5), .resetCaches,
    .batch (multiHistory.drop 5) multiHistory]

end Run

end Gameserver.FirstBlood
