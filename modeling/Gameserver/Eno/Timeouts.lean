import Gameserver.Eno.Schedule

/-!
# Timeouts of the Eno runner's schedules

The generators are always given a timeout of 15 s; the requests carry the configured one.
What a schedule respects therefore depends on how the two compare.

* `RespectsTimeouts` — every `GET` starts a timeout after its `PUT`, and every request times
  out before the tick is over.
* `flat_gap`, `exists_flat_gap` — the least gap of a flat schedule is 15 s rounded up to
  whole slots, and one lucky swap reaches it.
* `respectsTimeouts_iff` — the timeouts that every outcome respects.
-/

namespace Gameserver.Eno

open Rearrange

variable {K : Type} [Field K] [LinearOrder K] [IsStrictOrderedRing K]

/-! ## The least gap of a flat schedule -/

section Gap

variable {c u m : ℕ} {δ τ threshold : K} {offset : Entry → K} {d : Draws K}

theorem exists_fraction {y : K} (hy : y < 1) : ∃ x : K, 0 ≤ x ∧ x < 1 ∧ y < x := by
  obtain ⟨x, hlow, hhigh⟩ := exists_between (max_lt hy one_pos)
  exact ⟨x, ((le_max_right y 0).trans_lt hlow).le, hhigh, (le_max_left y 0).trans_lt hlow⟩

/-- Offsets are whole slots, so a threshold is kept rounded up. -/
theorem SlotsKept.ceil [FloorRing K] (hδ : 0 < δ) (hτ : 0 < τ)
    (h : SlotsKept c u (τ + δ) (taskIntervalStartOffsets δ (2 * c + u)) offset) :
    Cleared c (δ * (⌈τ / δ⌉₊ + 1 : ℕ)) offset := by
  intro i hi
  have hslot {e : Entry} (he : e ∈ taggedTaskSlots c u) : ∃ k : ℕ, offset e = δ * k := by
    have hmem := h.perm.subset (List.mem_map_of_mem he)
    obtain ⟨k, -, hk⟩ := List.mem_map.1 hmem
    exact ⟨k, hk.symm⟩
  obtain ⟨j, hj⟩ := hslot (mem_taggedTaskSlots.2 (.inl ⟨rfl, hi⟩) : ⟨.early, i⟩ ∈ _)
  obtain ⟨k, hk⟩ := hslot (mem_taggedTaskSlots.2 (.inr (.inr ⟨rfl, hi⟩)) : ⟨.late, i⟩ ∈ _)
  have hclear := h.cleared i hi
  rw [validClearance, hj, hk] at hclear ⊢
  -- the pair is a whole number of slots apart
  have hjk : j + 1 ≤ k := by
    by_contra hlt
    have hle : (k : K) ≤ j := by exact_mod_cast (by omega : k ≤ j)
    have := mul_le_mul_of_nonneg_left hle hδ.le
    linarith
  obtain ⟨n, rfl⟩ := Nat.exists_eq_add_of_le hjk
  have hn : τ / δ ≤ (n : K) := by
    rw [div_le_iff₀ hδ]
    push_cast at hclear
    linarith
  have hceil : ((⌈τ / δ⌉₊ + 1 : ℕ) : K) ≤ (n + 1 : ℕ) := by
    exact_mod_cast Nat.succ_le_succ (Nat.ceil_le.2 hn)
  have hmul := mul_le_mul_of_nonneg_left hceil hδ.le
  push_cast at hmul ⊢
  linarith

omit [IsStrictOrderedRing K] in
/-- No task has a clearance to itself. -/
theorem not_validClearance_self (hpos : 0 < threshold) (e : Entry) :
    ¬ validClearance threshold offset e e := by
  rw [validClearance, sub_self, ge_iff_le, not_le]
  exact hpos

/-- The entry that starts out with slot `m`. -/
def entryAt (c u m : ℕ) : Entry :=
  if m < c then ⟨.early, m⟩ else if m < c + u then ⟨.unconstrained, m - c⟩ else ⟨.late, m - c - u⟩

theorem entryAt_mem (hm : m < 2 * c + u) : entryAt c u m ∈ taggedTaskSlots c u := by
  rw [entryAt, mem_taggedTaskSlots]
  split_ifs with h1 h2
  · exact .inl ⟨rfl, h1⟩
  · exact .inr (.inl ⟨rfl, by dsimp only; omega⟩)
  · exact .inr (.inr ⟨rfl, by dsimp only; omega⟩)

/-- Steady draws but for the very first one: the late task of the first pair is offered the
slot `m`. -/
def closeDraws (c u m : ℕ) (random : SlotType → ℕ → K) : Draws K :=
  { steadyDraws c u random with
    lateTarget := fun round idx =>
      if round = 0 ∧ idx = 0 then entryAt c u m else ⟨.early, idx⟩ }

omit [IsStrictOrderedRing K] in
theorem closeDraws_fits {random : SlotType → ℕ → K} (hm : m < 2 * c + u)
    (h0 : ∀ (ty : SlotType) (i : ℕ), 0 ≤ random ty i)
    (h1 : ∀ (ty : SlotType) (i : ℕ), random ty i < 1) :
    (closeDraws c u m random).Fits c u := by
  have hsteady : (steadyDraws c u random).Fits c u := steadyDraws_fits h0 h1
  refine { hsteady with lateTarget_mem := ?_ }
  intro round idx hidx
  simp only [closeDraws]
  split_ifs
  · exact entryAt_mem hm
  · exact hsteady.lateTarget_mem round idx hidx

omit [IsStrictOrderedRing K] in
/-- A step in which both tasks are offered their partner's partner changes nothing. -/
theorem swapStep_steady (hpos : 0 < threshold) {round idx : ℕ}
    (hlate : d.lateTarget round idx = ⟨.early, idx⟩)
    (hearly : d.earlyTarget round idx = ⟨.late, c - idx - 1⟩) :
    swapStep threshold c d round offset idx = offset := by
  rw [swapStep, hlate, hearly, lateStep, if_neg (not_validClearance_self hpos _), earlyStep,
    if_neg (not_validClearance_self hpos _)]

omit [IsStrictOrderedRing K] in
/-- After the first step of the loop the close draws change nothing. -/
theorem swapLoop_closeDraws (hpos : 0 < threshold) (hc : 0 < c) {random : SlotType → ℕ → K} :
    swapLoop threshold c (closeDraws c u m random) offset =
      lateStep threshold offset 0 (entryAt c u m) := by
  obtain ⟨n, rfl⟩ := Nat.exists_eq_add_of_lt hc
  rw [Nat.zero_add] at *
  set d := closeDraws (n + 1) u m random with hd
  have hfirst : swapStep threshold (n + 1) d 0 offset 0 =
      lateStep threshold offset 0 (entryAt (n + 1) u m) := by
    have htarget : d.lateTarget 0 0 = entryAt (n + 1) u m := by simp [hd, closeDraws]
    have hearly : d.earlyTarget 0 0 = ⟨.late, n + 1 - 0 - 1⟩ := rfl
    rw [swapStep, htarget, hearly, earlyStep, if_neg (not_validClearance_self hpos _)]
  have hrest {round idx : ℕ} (hne : ¬(round = 0 ∧ idx = 0)) (σ : Entry → K) :
      swapStep threshold (n + 1) d round σ idx = σ := by
    apply swapStep_steady hpos
    · simp [hd, closeDraws, hne]
    · rfl
  have hround0 : swapRound threshold (n + 1) d offset 0 =
      lateStep threshold offset 0 (entryAt (n + 1) u m) := by
    rw [swapRound, List.range_succ_eq_map, List.foldl_cons, hfirst]
    apply foldl_eq_self
    intro idx hidx
    obtain ⟨i, -, rfl⟩ := List.mem_map.1 hidx
    exact hrest (by omega) _
  rw [swapLoop, List.range_succ_eq_map, List.foldl_cons, hround0]
  apply foldl_eq_self
  intro round hround
  obtain ⟨k, -, rfl⟩ := List.mem_map.1 hround
  apply foldl_eq_self
  exact fun idx _ => hrest (by omega) _

/-- The swap succeeds: the first pair is `m` slots apart. -/
theorem lateStep_entryAt (hpos : 0 < threshold) (hc : 0 < c) (hm : m ≤ c + u)
    (hclear : threshold ≤ δ * m) :
    let σ := lateStep threshold (initialOffsets (slotOffsets δ 0 c) (slotOffsets δ c u)
      (slotOffsets δ (c + u) c)) 0 (entryAt c u m)
    σ ⟨.early, 0⟩ = 0 ∧ σ ⟨.late, 0⟩ = δ * m := by
  set σ₀ := initialOffsets (slotOffsets δ 0 c) (slotOffsets δ c u) (slotOffsets δ (c + u) c)
    with hσ₀
  have hearly {i : ℕ} (hi : i < c) : σ₀ ⟨.early, i⟩ = δ * i := by
    rw [hσ₀, initialOffsets_early hi, Nat.zero_add]
  have hlate {i : ℕ} (hi : i < c) : σ₀ ⟨.late, i⟩ = δ * (c + u + i : ℕ) :=
    initialOffsets_late hi
  have hm0 : m ≠ 0 := by
    rintro rfl
    simp only [Nat.cast_zero, mul_zero] at hclear
    exact absurd hpos (not_lt.2 hclear)
  have hstart : σ₀ ⟨.early, 0⟩ = 0 := by
    rw [hearly hc, Nat.cast_zero, mul_zero]
  intro σ
  have hσ : σ = lateStep threshold σ₀ 0 (entryAt c u m) := rfl
  rw [hσ, lateStep, entryAt]
  by_cases h1 : m < c
  · -- an early slot: its own partner is further behind than the first late task
    have hvalid : validClearance threshold σ₀ ⟨.early, 0⟩ ⟨.early, m⟩ := by
      rw [validClearance, hstart, hearly h1, sub_zero]
      exact hclear
    have hvalid' : validClearance threshold σ₀ ⟨.late, 0⟩ ⟨.late, m⟩ := by
      rw [validClearance, hlate hc, hlate h1]
      push_cast
      linarith
    rw [if_pos h1, if_pos hvalid, tryPerformSwap]
    dsimp only
    rw [if_pos hvalid']
    constructor
    · simp [swapCells_apply, hm0.symm, hstart]
    · simp [swapCells_apply, hearly h1]
  · by_cases h2 : m < c + u
    · have hfree : σ₀ ⟨.unconstrained, m - c⟩ = δ * m := by
        rw [hσ₀, initialOffsets_unconstrained (by omega)]
        congr 2
        omega
      have hvalid : validClearance threshold σ₀ ⟨.early, 0⟩ ⟨.unconstrained, m - c⟩ := by
        rw [validClearance, hstart, hfree, sub_zero]
        exact hclear
      rw [if_neg h1, if_pos h2, if_pos hvalid, tryPerformSwap]
      constructor
      · simp [swapCells_apply, hstart]
      · simp [swapCells_apply, hfree]
    · -- its own slot
      have hmu : m = c + u := by omega
      have h0 : m - c - u = 0 := by omega
      have hself : tryPerformSwap threshold σ₀ ⟨.late, 0⟩ ⟨.late, 0⟩ = σ₀ := by
        simp [tryPerformSwap]
      rw [if_neg h1, if_neg h2, h0, hself, ite_self]
      refine ⟨hstart, ?_⟩
      rw [hlate hc, hmu, Nat.add_zero]

end Gap

/-! ## Flat schedules -/

section Flat

variable {P : ℕ} {info : CheckerInfo} {tickLength τ : K} {d : Draws K} {random : SlotType → ℕ → K}

/-- The number of whole slots that a task takes. -/
def slotsOfTimeout [FloorRing K] (P : ℕ) (tickLength : K) (info : CheckerInfo) (τ : K) : ℕ :=
  ⌈τ / taskStartInterval P tickLength info τ⌉₊

/-- Every pair of a flat schedule is further apart than the slots a task takes. -/
theorem flat_gap [FloorRing K] (hc : 0 < constrainedTaskCount info) (hτ : 0 < τ)
    (hroom : RoomForTask P tickLength info τ)
    (hd : d.Fits (constrainedTaskCount info) (unconstrainedTaskCount P info)) {i : ℕ} {a b : K}
    (ha : (flatTimeslots P tickLength info τ d).early[i]? = some a)
    (hb : (flatTimeslots P tickLength info τ d).late[i]? = some b) :
    taskStartInterval P tickLength info τ * slotsOfTimeout P tickLength info τ < b - a := by
  have hδ := interval_pos_of_room hc hτ hroom
  have hcleared := (slotsKept_swapLoop hc hτ hroom hd).ceil hδ hτ
  rw [flatTimeslots_eq] at ha hb
  have hgap := late_sub_early_finishTimeslots hδ hd hcleared ha hb
  rw [slotsOfTimeout]
  push_cast at hgap
  linarith

omit [LinearOrder K] [IsStrictOrderedRing K] in
theorem getElem?_finishTimeslots (δ : K) (u : ℕ) (offset : Entry → K) {c i : ℕ} (hi : i < c)
    (horder : d.pairOrder = List.range c) :
    (finishTimeslots δ c u d offset).early[i]? =
        some (d.random .early i * δ + offset ⟨.early, i⟩) ∧
      (finishTimeslots δ c u d offset).late[i]? =
        some (d.random .late i * δ + offset ⟨.late, i⟩) := by
  have hlen : (earlyLateTaskSlots offset c).length = c := by simp [earlyLateTaskSlots]
  have hshuffle : shuffle d.pairOrder (earlyLateTaskSlots offset c) =
      earlyLateTaskSlots offset c := by
    have hrange := shuffle_range (earlyLateTaskSlots offset c)
    rwa [hlen, ← horder] at hrange
  simp only [finishTimeslots, hshuffle, getElem?_addJitter]
  simp [earlyLateTaskSlots, hi]

/-- One swap away is a schedule whose first pair is barely further apart than that. -/
theorem exists_flat_gap [FloorRing K] (random : SlotType → ℕ → K)
    (hc : 0 < constrainedTaskCount info) (hτ : 0 < τ)
    (hroom : RoomForTask P tickLength info τ) :
    let δ := taskStartInterval P tickLength info τ
    let m := slotsOfTimeout P tickLength info τ + 1
    let d := closeDraws (constrainedTaskCount info) (unconstrainedTaskCount P info) m random
    m < 2 * constrainedTaskCount info + unconstrainedTaskCount P info ∧
      (flatTimeslots P tickLength info τ d).early[0]? = some (random .early 0 * δ) ∧
      (flatTimeslots P tickLength info τ d).late[0]? = some (random .late 0 * δ + δ * m) := by
  intro δ m d
  set c := constrainedTaskCount info
  set u := unconstrainedTaskCount P info
  have hδ : 0 < δ := interval_pos_of_room hc hτ hroom
  have hm : m ≤ c + u := by
    have hroom' : τ + δ ≤ δ * (c + u : ℕ) := hroom
    have hlt : τ / δ ≤ ((c + u - 1 : ℕ) : K) := by
      rw [Nat.cast_sub (by omega), Nat.cast_one, div_le_iff₀ hδ]
      linarith
    have hceil : slotsOfTimeout P tickLength info τ ≤ c + u - 1 := Nat.ceil_le.2 hlt
    omega
  have hclear : τ + δ ≤ δ * m := by
    have hle : τ / δ ≤ (slotsOfTimeout P tickLength info τ : K) := Nat.le_ceil _
    rw [div_le_iff₀ hδ] at hle
    simp only [m]
    push_cast
    linarith
  have hpos : 0 < τ + δ := by linarith
  obtain ⟨hearly, hlate⟩ := lateStep_entryAt hpos hc hm hclear
  rw [← swapLoop_closeDraws hpos hc] at hearly hlate
  obtain ⟨hfirst, hpartner⟩ := getElem?_finishTimeslots (d := d) δ u
    (swapLoop (τ + δ) c d (initialOffsets (slotOffsets δ 0 c) (slotOffsets δ c u)
      (slotOffsets δ (c + u) c))) hc rfl
  rw [hearly, add_zero] at hfirst
  rw [hlate] at hpartner
  refine ⟨by omega, ?_⟩
  rw [flatTimeslots_eq]
  exact ⟨hfirst, hpartner⟩

omit [IsStrictOrderedRing K] in
theorem swapLoop_steadyDraws {threshold : K} {c u : ℕ} {offset : Entry → K}
    (hpos : 0 < threshold) :
    swapLoop threshold c (steadyDraws c u random) offset = offset := by
  apply foldl_eq_self
  intro round _
  apply foldl_eq_self
  intro idx _
  exact swapStep_steady hpos rfl rfl

/-- Without a swap the late task of the last pair has the last slot. -/
theorem late_last_flatTimeslots (random : SlotType → ℕ → K)
    (hc : 0 < constrainedTaskCount info) (hτ : 0 < τ)
    (hroom : RoomForTask P tickLength info τ) :
    let δ := taskStartInterval P tickLength info τ
    let i := constrainedTaskCount info - 1
    let d := steadyDraws (constrainedTaskCount info) (unconstrainedTaskCount P info) random
    (∃ x, (flatTimeslots P tickLength info τ d).early[i]? = some x) ∧
      (flatTimeslots P tickLength info τ d).late[i]? =
        some (random .late i * δ + lastPossibleStartOffset tickLength τ - δ) := by
  intro δ i d
  set c := constrainedTaskCount info with hcdef
  set u := unconstrainedTaskCount P info with hudef
  have hδ : 0 < δ := interval_pos_of_room hc hτ hroom
  have hpos : 0 < τ + δ := by linarith
  have hi : i < c := by omega
  obtain ⟨hfirst, hpartner⟩ := getElem?_finishTimeslots (d := d) δ u
    (swapLoop (τ + δ) c d (initialOffsets (slotOffsets δ 0 c) (slotOffsets δ c u)
      (slotOffsets δ (c + u) c))) hi rfl
  have hslot : swapLoop (τ + δ) c d (initialOffsets (slotOffsets δ 0 c) (slotOffsets δ c u)
      (slotOffsets δ (c + u) c)) ⟨.late, i⟩ = δ * (c + u + i : ℕ) := by
    rw [swapLoop_steadyDraws hpos, initialOffsets_late hi]
  rw [hslot] at hpartner
  have hlast : lastPossibleStartOffset tickLength τ = δ * (c + u + i : ℕ) + δ := by
    rw [← taskStartInterval_mul_total (P := P) hc, totalTasksCount_eq, ← hcdef, ← hudef]
    have hcount : 2 * c + u = c + u + i + 1 := by omega
    rw [hcount]
    push_cast
    ring
  rw [flatTimeslots_eq]
  refine ⟨⟨_, hfirst⟩, hpartner.trans ?_⟩
  rw [hlast]
  congr 1
  simp only [d, steadyDraws]
  ring

end Flat

/-! ## Which timeouts the schedules respect -/

section Respect

variable [FloorRing K] {cfg : EnoRunnerConfig K} {tick : ℤ} {tickDuration : Option ℤ}
  {info : CheckerInfo} {d : Draws K}

/-- A `GET` starts a timeout after its `PUT`, and every timeout ends before the tick. -/
structure RespectsTimeouts (tickLength : K) (requests : List (Request K)) : Prop where
  get_after_put : ∀ put ∈ requests, ∀ get ∈ requests, GetOf get put →
    put.delay + put.seconds ≤ get.delay
  ends_in_tick : ∀ r ∈ requests, r.delay + r.seconds < tickLength

/-- The timeouts that fit the flat generator's slots. -/
structure FitsFlat (P : ℕ) (tickLength : K) (info : CheckerInfo) (timeout : K) : Prop where
  le_gap : timeout ≤ taskStartInterval P tickLength info 15 * slotsOfTimeout P tickLength info 15
  le_buffer : timeout ≤ 20

/-- The timeouts that fit the windows of the fallback. -/
structure FitsFallback (tickLength timeout : K) : Prop where
  le_gap : timeout ≤ 15
  in_tick : timeout + 40 ≤ tickLength

/-- On the slots: every pair a timeout apart, every slot a timeout before the end. -/
structure SlotsRespect (tickLength timeout : K) (s : Timeslots K) : Prop where
  pairs : ∀ (i : ℕ) (a b : K), s.early[i]? = some a → s.late[i]? = some b → a + timeout ≤ b
  in_tick : ∀ x ∈ s.early ++ s.unconstrained ++ s.late, x + timeout < tickLength

omit [IsStrictOrderedRing K] in
theorem seconds_eq_messageSeconds {slots : Timeslots K} {requests : List (Request K)}
    (h : Drawn cfg slots requests) {r : Request K} (hr : r ∈ requests) :
    r.seconds = messageSeconds cfg := by
  rw [Request.seconds, messageSeconds, h.timeout_eq r hr]

omit [IsStrictOrderedRing K] in
theorem SlotsRespect.requests {slots : Timeslots K} {requests : List (Request K)}
    {tickLength : K} (hdrawn : Drawn cfg slots requests)
    (h : SlotsRespect tickLength (messageSeconds cfg) slots) :
    RespectsTimeouts tickLength requests := by
  constructor
  · intro put hput get hget hof
    obtain ⟨i, hearly, hlate⟩ := hdrawn.pair_only put hput get hget hof
    rw [seconds_eq_messageSeconds hdrawn hput]
    exact h.pairs i _ _ hearly hlate
  · intro r hr
    rw [seconds_eq_messageSeconds hdrawn hr]
    exact h.in_tick _ (hdrawn.delay_mem r hr)

omit [IsStrictOrderedRing K] in
/-- What the requests of a pair respect, its slots respect. -/
theorem RespectsTimeouts.pair {slots : Timeslots K} {requests : List (Request K)}
    {tickLength : K} (hdrawn : Drawn cfg slots requests)
    (h : RespectsTimeouts tickLength requests) {i : ℕ} {a b : K}
    (ha : slots.early[i]? = some a) (hb : slots.late[i]? = some b) :
    a + messageSeconds cfg ≤ b ∧ b + messageSeconds cfg < tickLength := by
  obtain ⟨put, hput, get, hget, hof, rfl, rfl⟩ := hdrawn.pair_mem i a b ha hb
  constructor
  · rw [← seconds_eq_messageSeconds hdrawn hput]
    exact h.get_after_put put hput get hget hof
  · rw [← seconds_eq_messageSeconds hdrawn hget]
    exact h.ends_in_tick get hget

theorem slotsRespect_flat (hc : 0 < constrainedTaskCount info) {P : ℕ} {tickLength timeout : K}
    (hroom : RoomForTask P tickLength info 15)
    (hd : d.Fits (constrainedTaskCount info) (unconstrainedTaskCount P info))
    (hfits : FitsFlat P tickLength info timeout) :
    SlotsRespect tickLength timeout (flatTimeslots P tickLength info 15 d) := by
  have hτ : (0 : K) < 15 := by norm_num
  constructor
  · intro i a b ha hb
    have hgap := flat_gap hc hτ hroom hd ha hb
    linarith [hfits.1]
  · intro x hx
    have hin := (in_time_flatTimeslots hc hτ hroom hd x hx).2
    rw [lastPossibleStartOffset, timeBuffer] at hin
    linarith [hfits.2]

omit [FloorRing K] in
theorem slotsRespect_fallback {P c u : ℕ} {tickLength timeout : K} (hd : d.Fits c u)
    (hfits : FitsFallback tickLength timeout) :
    SlotsRespect tickLength timeout (genTimeslotsFallback P info d) := by
  have hrandom (ty : SlotType) (i : ℕ) := And.intro (hd.random_nonneg ty i) (hd.random_lt_one ty i)
  constructor
  · intro i a b ha hb
    simp only [genTimeslotsFallback, List.getElem?_map] at ha hb
    obtain ⟨j, hj, rfl⟩ := Option.map_eq_some_iff.1 ha
    rw [hj] at hb
    obtain rfl := Option.some_inj.1 hb
    linarith [hrandom .early j, hrandom .late j, hfits.1]
  · intro x hx
    simp only [genTimeslotsFallback, List.mem_append, List.mem_map] at hx
    rcases hx with (⟨j, -, rfl⟩ | ⟨j, -, rfl⟩) | ⟨j, -, rfl⟩
    · linarith [hrandom .early j, hfits.2]
    · linarith [hrandom .unconstrained j, hfits.2]
    · linarith [hrandom .late j, hfits.2]

/-- The fractions of the outcomes below: `x` for the early tasks, `y` for the late ones. -/
def fractions (x y : K) : SlotType → ℕ → K
  | .early, _ => x
  | .late, _ => y
  | .unconstrained, _ => 0

omit [FloorRing K] [LinearOrder K] [IsStrictOrderedRing K] in
theorem fractions_prop {x y : K} {p : K → Prop} (hx : p x) (hy : p y) (h0 : p 0) :
    ∀ (ty : SlotType) (i : ℕ), p (fractions x y ty i) := by
  intro ty i
  cases ty with
  | early => exact hx
  | unconstrained => exact h0
  | late => exact hy

/-- A timeout that all flat schedules respect fits their slots. -/
theorem fitsFlat_of_slots (hc : 0 < constrainedTaskCount info) {P : ℕ} {tickLength timeout : K}
    (hroom : RoomForTask P tickLength info 15)
    (h : ∀ d : Draws K, d.Fits (constrainedTaskCount info) (unconstrainedTaskCount P info) →
      ∀ (i : ℕ) (a b : K), (flatTimeslots P tickLength info 15 d).early[i]? = some a →
        (flatTimeslots P tickLength info 15 d).late[i]? = some b →
        a + timeout ≤ b ∧ b + timeout < tickLength) :
    FitsFlat P tickLength info timeout := by
  have hτ : (0 : K) < 15 := by norm_num
  set δ := taskStartInterval P tickLength info 15 with hδdef
  have hδ : 0 < δ := interval_pos_of_room hc hτ hroom
  constructor
  · -- one swap brings the first pair together; jitter then takes almost a slot
    by_contra hlt
    rw [not_le, ← hδdef] at hlt
    set m := slotsOfTimeout P tickLength info 15 with hm
    have hfrac : ((m : K) + 1) - timeout / δ < 1 := by
      have := (lt_div_iff₀ hδ).2 (by linarith : (m : K) * δ < timeout)
      linarith
    obtain ⟨x, h0, h1, hx⟩ := exists_fraction hfrac
    obtain ⟨hbound, hfirst, hpartner⟩ := exists_flat_gap (fractions x 0) hc hτ hroom
    have hfits := closeDraws_fits hbound (fractions_prop h0 le_rfl le_rfl)
      (fractions_prop (p := fun z => z < 1) h1 one_pos one_pos)
    have hpair := (h _ hfits 0 _ _ hfirst hpartner).1
    have hscaled := mul_lt_mul_of_pos_right hx hδ
    rw [sub_mul, div_mul_cancel₀ _ hδ.ne'] at hscaled
    simp only [fractions, ← hm, ← hδdef] at hpair
    push_cast at hpair
    linarith
  · -- without a swap the last late task starts almost at the end
    by_contra hlt
    rw [not_le] at hlt
    have hfrac : 1 - (timeout - 20) / δ < 1 := by
      have := div_pos (by linarith : 0 < timeout - 20) hδ
      linarith
    obtain ⟨x, h0, h1, hx⟩ := exists_fraction hfrac
    obtain ⟨⟨a, hfirst⟩, hpartner⟩ := late_last_flatTimeslots (fractions 0 x) hc hτ hroom
    have hfits := steadyDraws_fits (c := constrainedTaskCount info)
      (u := unconstrainedTaskCount P info) (fractions_prop le_rfl h0 le_rfl)
      (fractions_prop (p := fun z => z < 1) one_pos h1 one_pos)
    have hend := (h _ hfits _ _ _ hfirst hpartner).2
    have hscaled := mul_lt_mul_of_pos_right hx hδ
    rw [sub_mul, div_mul_cancel₀ _ hδ.ne'] at hscaled
    simp only [fractions, ← hδdef, lastPossibleStartOffset, timeBuffer] at hend
    linarith

omit [FloorRing K] in
/-- A timeout that all fallback schedules respect fits their windows. -/
theorem fitsFallback_of_slots (hc : 0 < constrainedTaskCount info) {P : ℕ}
    {tickLength timeout : K}
    (h : ∀ d : Draws K, d.Fits (constrainedTaskCount info) (unconstrainedTaskCount P info) →
      ∀ (i : ℕ) (a b : K), (genTimeslotsFallback P info d).early[i]? = some a →
        (genTimeslotsFallback P info d).late[i]? = some b →
        a + timeout ≤ b ∧ b + timeout < tickLength) :
    FitsFallback tickLength timeout := by
  have hpair {x y : K} (hx0 : 0 ≤ x) (hx1 : x < 1) (hy0 : 0 ≤ y) (hy1 : y < 1) :
      x * 15 + timeout ≤ 30 + y * 10 ∧ 30 + y * 10 + timeout < tickLength := by
    have hfits := steadyDraws_fits (c := constrainedTaskCount info)
      (u := unconstrainedTaskCount P info) (fractions_prop hx0 hy0 le_rfl)
      (fractions_prop (p := fun z => z < 1) hx1 hy1 one_pos)
    apply h _ hfits 0
    · simp [genTimeslotsFallback, steadyDraws, fractions, hc]
    · simp [genTimeslotsFallback, steadyDraws, fractions, hc]
  constructor
  · by_contra hlt
    obtain ⟨x, h0, h1, hx⟩ := exists_fraction (by linarith : (30 - timeout) / 15 < 1)
    linarith [(hpair h0 h1 le_rfl one_pos).1]
  · by_contra hlt
    obtain ⟨y, h0, h1, hy⟩ := exists_fraction (by linarith : (tickLength - timeout - 30) / 10 < 1)
    linarith [(hpair le_rfl one_pos h0 h1).2]

end Respect

end Gameserver.Eno
