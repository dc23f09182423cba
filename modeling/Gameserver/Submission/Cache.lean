import Mathlib.Logic.Function.Basic
import Mathlib.Tactic.Ring
import Gameserver.Submission.Flag

/-!
# The flag cache

`class FlagCache` of `flagcache.cpp`: a table with one cell for each submitter, service,
victim, bucket of rounds and bucket of payloads, which holds the round and the payload of
the last flag that was looked up there.

* `FlagCache`, `resize`, `checkFlag` — the class, with 32-bit sizes and 64-bit indices.
* `Resize` — the steps of a resize, which has no lock.
* `cacheKey_inj` — a cell tells rounds and payloads apart.
* `index_inj` — if the size of the table fits in 32 bits, indices are in bounds, and
  different cells have different indices.
-/

namespace Gameserver.Submission

/-- `round_buckets`: `FLAGCACHE_DEFAULT_BUCKETS + 1`. -/
def roundBuckets : ℕ := 26

/-- `payload_buckets`. -/
def payloadBuckets : ℕ := 5

/-- `class FlagCache`: the sizes, and the allocated cells. -/
structure FlagCache where
  teamCount : UInt32
  serviceCount : UInt32
  /-- The number of allocated cells. -/
  size : ℕ
  cells : ℕ → UInt32

namespace FlagCache

/-- `FlagCache::FlagCache()`. -/
def initial : FlagCache := ⟨0, 0, 0, fun _ => 0⟩

/-- `cache_size`: it is calculated in 32 bits. -/
def newSize (teamCount serviceCount : UInt32) : ℕ :=
  teamCount.toNat * teamCount.toNat * serviceCount.toNat * roundBuckets * payloadBuckets % 2 ^ 32

/-- `resize`, as a whole. -/
def resize (teamCount serviceCount : UInt32) : FlagCache where
  teamCount := teamCount
  serviceCount := serviceCount
  size := newSize teamCount serviceCount
  cells := fun _ => 0

/-- `ids are [1..count], we need them [0..count-1]`; are they in bounds? -/
def InBounds (c : FlagCache) (submittingTeam teamId serviceId : UInt16) : Prop :=
  (submittingTeam - 1).toNat < c.teamCount.toNat ∧ (teamId - 1).toNat < c.teamCount.toNat ∧
    (serviceId - 1).toNat < c.serviceCount.toNat

instance (c : FlagCache) (submittingTeam teamId serviceId : UInt16) :
    Decidable (c.InBounds submittingTeam teamId serviceId) :=
  inferInstanceAs (Decidable (_ ∧ _ ∧ _))

/-- `index`, of type `size_t`. -/
def index (c : FlagCache) (submittingTeam teamId serviceId round payload : UInt16) : ℕ :=
  let index := (submittingTeam - 1).toNat
  let index := (index * c.serviceCount.toNat + (serviceId - 1).toNat) % 2 ^ 64
  let index := (index * c.teamCount.toNat + (teamId - 1).toNat) % 2 ^ 64
  let index := (index * roundBuckets + round.toNat % roundBuckets) % 2 ^ 64
  (index * payloadBuckets + payload.toNat % payloadBuckets) % 2 ^ 64

/-- `cache_key`. -/
def cacheKey (round payload : UInt16) : UInt32 := round.toUInt32 ||| payload.toUInt32 <<< 16

/-- `checkFlag` up to the exchange: the index of the cell, if the ids are in bounds. -/
def cell (c : FlagCache) (submittingTeam teamId serviceId round payload : UInt16) : Option ℕ :=
  if ¬ c.InBounds submittingTeam teamId serviceId then none
  else some (c.index submittingTeam teamId serviceId round payload)

/-- `cache[index].exchange(cache_key) != cache_key`.  An access outside of the table is
undefined (`none`). -/
def exchange (c : FlagCache) (index : ℕ) (key : UInt32) : Option (Bool × FlagCache) :=
  if index < c.size then
    some (c.cells index ≠ key, { c with cells := Function.update c.cells index key })
  else none

/-- `checkFlag`: "true = flag is possibly new, false = definitive not new". -/
def checkFlag (c : FlagCache) (submittingTeam teamId serviceId round payload : UInt16) :
    Option (Bool × FlagCache) :=
  match c.cell submittingTeam teamId serviceId round payload with
  | none => some (true, c)
  | some index => c.exchange index (cacheKey round payload)

/-! ## Steps of a resize -/

/-- `new std::atomic_uint[cache_size]`: the cells hold whatever was in the memory. -/
def allocate (c : FlagCache) (teamCount serviceCount : UInt32) (memory : List UInt32) : FlagCache :=
  { c with
    size := newSize teamCount serviceCount
    cells := fun i => if i < newSize teamCount serviceCount then memory.getD i 0 else 0 }

/-- `bzero` clears the next cells. -/
def clear (c : FlagCache) (next count : ℕ) : FlagCache :=
  { c with cells := fun i => if next ≤ i ∧ i < next + count then 0 else c.cells i }

/-- How far a resize to these sizes has got. -/
inductive Resize where
  | begun (teamCount serviceCount : UInt32)
  | teamCountSet (teamCount serviceCount : UInt32)
  | sizesSet (teamCount serviceCount : UInt32)
  /-- The new table is in place, and its cells are cleared up to `next`. -/
  | clearing (next : ℕ)
  deriving DecidableEq

/-- Does the next step put the new table in place? -/
def Resize.isAllocation : Resize → Bool
  | sizesSet _ _ => true
  | _ => false

/-- The next step of a resize.  It finds `memory` in the new table, or clears `count` cells. -/
def Resize.step (c : FlagCache) (memory : List UInt32) (count : ℕ) :
    Resize → FlagCache × Option Resize
  | begun teamCount serviceCount =>
    ({ c with teamCount := teamCount }, some (.teamCountSet teamCount serviceCount))
  | teamCountSet teamCount serviceCount =>
    ({ c with serviceCount := serviceCount }, some (.sizesSet teamCount serviceCount))
  | sizesSet teamCount serviceCount =>
    (c.allocate teamCount serviceCount memory, some (.clearing 0))
  | clearing next =>
    (c.clear next count, if c.size ≤ next + count then none else some (.clearing (next + count)))

/-- The progress of a resize, and the size of the table, do not depend on the cells. -/
theorem Resize.step_congr {c c' : FlagCache} (h : c'.size = c.size) (memory : List UInt32)
    (count : ℕ) (progress : Resize) :
    (progress.step c' memory count).1.size = (progress.step c memory count).1.size ∧
      (progress.step c' memory count).2 = (progress.step c memory count).2 := by
  cases progress with
  | begun _ _ => exact ⟨h, rfl⟩
  | teamCountSet _ _ => exact ⟨h, rfl⟩
  | sizesSet _ _ => exact ⟨rfl, rfl⟩
  | clearing next => exact ⟨h, by simp only [Resize.step, h]⟩

/-! ## Keys and indices -/

theorem toNat_cacheKey (round payload : UInt16) :
    (cacheKey round payload).toNat = payload.toNat * 65536 + round.toNat := by
  have hround := round.toNat_lt
  have hpayload := payload.toNat_lt
  have hshift : (payload.toUInt32 <<< 16).toNat = payload.toNat <<< 16 := by
    simp [UInt32.toNat_shiftLeft, Nat.shiftLeft_eq]
    omega
  have hadd := Nat.shiftLeft_add_eq_or_of_lt (a := payload.toNat) (i := 16) (b := round.toNat)
    (by simpa using hround)
  rw [cacheKey, UInt32.toNat_or, hshift, Nat.or_comm, UInt16.toNat_toUInt32, ← hadd,
    Nat.shiftLeft_eq]

theorem cacheKey_inj {round payload round' payload' : UInt16}
    (h : cacheKey round payload = cacheKey round' payload') :
    round = round' ∧ payload = payload' := by
  have hnat := congrArg UInt32.toNat h
  rw [toNat_cacheKey, toNat_cacheKey] at hnat
  have hround := round.toNat_lt
  have hround' := round'.toNat_lt
  constructor <;> apply UInt16.toNat.inj <;> omega

/-- The product of the sizes fits in the 32 bits in which it is calculated. -/
def SizesFit (teamCount serviceCount : UInt32) : Prop :=
  teamCount.toNat * teamCount.toNat * serviceCount.toNat * roundBuckets * payloadBuckets < 2 ^ 32

instance (teamCount serviceCount : UInt32) : Decidable (SizesFit teamCount serviceCount) :=
  inferInstanceAs (Decidable (_ < _))

theorem mul_add_lt_mul {i m j n : ℕ} (hi : i < m) (hj : j < n) : i * n + j < m * n :=
  calc i * n + j < i * n + n := Nat.add_lt_add_left hj _
    _ = (i + 1) * n := by ring
    _ ≤ m * n := Nat.mul_le_mul_right n hi

theorem le_mul_add (i j : ℕ) {n : ℕ} (hn : 0 < n) : i ≤ i * n + j :=
  (Nat.le_mul_of_pos_right i hn).trans (Nat.le_add_right _ _)

theorem mul_add_inj {i j i' j' n : ℕ} (hj : j < n) (hj' : j' < n) (h : i * n + j = i' * n + j') :
    i = i' ∧ j = j' := by
  have hn : 0 < n := Nat.zero_lt_of_lt hj
  have hdiv : (i * n + j) / n = (i' * n + j') / n := by rw [h]
  have hmod : (i * n + j) % n = (i' * n + j') % n := by rw [h]
  rw [Nat.mul_comm i, Nat.mul_comm i', Nat.mul_add_div hn, Nat.mul_add_div hn, Nat.div_eq_of_lt hj,
    Nat.div_eq_of_lt hj'] at hdiv
  rw [Nat.mul_comm i, Nat.mul_comm i', Nat.mul_add_mod, Nat.mul_add_mod, Nat.mod_eq_of_lt hj,
    Nat.mod_eq_of_lt hj'] at hmod
  exact ⟨hdiv, hmod⟩

variable {c : FlagCache} {submittingTeam teamId serviceId round payload submittingTeam' teamId'
  serviceId' round' payload' : UInt16}

/-- The index in unbounded arithmetic: a number in a mixed radix. -/
def exactIndex (c : FlagCache) (submittingTeam teamId serviceId round payload : UInt16) : ℕ :=
  ((((submittingTeam - 1).toNat * c.serviceCount.toNat + (serviceId - 1).toNat) *
    c.teamCount.toNat + (teamId - 1).toNat) * roundBuckets + round.toNat % roundBuckets) *
      payloadBuckets + payload.toNat % payloadBuckets

theorem exactIndex_lt (hin : c.InBounds submittingTeam teamId serviceId) :
    c.exactIndex submittingTeam teamId serviceId round payload <
      c.teamCount.toNat * c.teamCount.toNat * c.serviceCount.toNat * roundBuckets *
        payloadBuckets := by
  obtain ⟨hsubmitter, hteam, hservice⟩ := hin
  have hpair := mul_add_lt_mul (mul_add_lt_mul hsubmitter hservice) hteam
  have hlt := mul_add_lt_mul (mul_add_lt_mul hpair
    (Nat.mod_lt round.toNat (y := roundBuckets) (by decide)))
    (Nat.mod_lt payload.toNat (y := payloadBuckets) (by decide))
  calc c.exactIndex submittingTeam teamId serviceId round payload
      < c.teamCount.toNat * c.serviceCount.toNat * c.teamCount.toNat * roundBuckets *
          payloadBuckets := hlt
    _ = _ := by ring

/-- If the sizes fit, the index does not overflow. -/
theorem index_eq (hfit : SizesFit c.teamCount c.serviceCount)
    (hin : c.InBounds submittingTeam teamId serviceId) :
    c.index submittingTeam teamId serviceId round payload =
      c.exactIndex submittingTeam teamId serviceId round payload := by
  have hlt : c.exactIndex submittingTeam teamId serviceId round payload < 2 ^ 64 :=
    ((exactIndex_lt hin).trans hfit).trans (by decide)
  -- the index only grows from stage to stage, so no stage overflows
  have hlt₃ := (le_mul_add _ _ (n := payloadBuckets) (by decide)).trans_lt hlt
  have hlt₂ := (le_mul_add _ _ (n := roundBuckets) (by decide)).trans_lt hlt₃
  have hlt₁ := (le_mul_add _ _ (Nat.zero_lt_of_lt hin.1)).trans_lt hlt₂
  unfold index
  dsimp only
  rw [Nat.mod_eq_of_lt hlt₁, Nat.mod_eq_of_lt hlt₂, Nat.mod_eq_of_lt hlt₃]
  exact Nat.mod_eq_of_lt hlt

/-- **Different cells have different indices.** -/
theorem index_inj (hfit : SizesFit c.teamCount c.serviceCount)
    (hin : c.InBounds submittingTeam teamId serviceId)
    (hin' : c.InBounds submittingTeam' teamId' serviceId')
    (h : c.index submittingTeam teamId serviceId round payload =
      c.index submittingTeam' teamId' serviceId' round' payload') :
    submittingTeam = submittingTeam' ∧ teamId = teamId' ∧ serviceId = serviceId' ∧
      round.toNat % roundBuckets = round'.toNat % roundBuckets ∧
      payload.toNat % payloadBuckets = payload'.toNat % payloadBuckets := by
  rw [index_eq hfit hin, index_eq hfit hin'] at h
  obtain ⟨h, hpayload⟩ := mul_add_inj (Nat.mod_lt _ (by decide)) (Nat.mod_lt _ (by decide)) h
  obtain ⟨h, hround⟩ := mul_add_inj (Nat.mod_lt _ (by decide)) (Nat.mod_lt _ (by decide)) h
  obtain ⟨h, hteam⟩ := mul_add_inj hin.2.1 hin'.2.1 h
  obtain ⟨hsubmitter, hservice⟩ := mul_add_inj hin.2.2 hin'.2.2 h
  exact ⟨(UInt16.sub_left_inj 1).1 (UInt16.toNat.inj hsubmitter),
    (UInt16.sub_left_inj 1).1 (UInt16.toNat.inj hteam),
    (UInt16.sub_left_inj 1).1 (UInt16.toNat.inj hservice), hround, hpayload⟩

/-- The table has the size that the indices need. -/
structure Allocated (c : FlagCache) : Prop where
  fit : SizesFit c.teamCount c.serviceCount
  size : c.size =
    c.teamCount.toNat * c.teamCount.toNat * c.serviceCount.toNat * roundBuckets * payloadBuckets

theorem allocated_initial : initial.Allocated := ⟨by decide, rfl⟩

/-- A resize that nothing comes between is `resize`, whatever was in the memory. -/
theorem allocate_clear (c : FlagCache) (teamCount serviceCount : UInt32) (memory : List UInt32)
    {count : ℕ} (hcount : newSize teamCount serviceCount ≤ 0 + count) :
    (({ c with teamCount := teamCount, serviceCount := serviceCount }.allocate teamCount
      serviceCount memory).clear 0 count) = resize teamCount serviceCount := by
  simp only [clear, allocate, resize, FlagCache.mk.injEq, true_and]
  funext i
  by_cases hi : i < newSize teamCount serviceCount
  · rw [if_pos ⟨i.zero_le, by omega⟩]
  · simp [hi]

theorem allocated_resize {teamCount serviceCount : UInt32} (h : SizesFit teamCount serviceCount) :
    (resize teamCount serviceCount).Allocated :=
  ⟨h, Nat.mod_eq_of_lt h⟩

theorem Allocated.exchange (h : c.Allocated) (hin : c.InBounds submittingTeam teamId serviceId)
    (key : UInt32) :
    c.exchange (c.index submittingTeam teamId serviceId round payload) key =
      some (decide (c.cells (c.index submittingTeam teamId serviceId round payload) ≠ key),
        { c with
          cells := Function.update c.cells
            (c.index submittingTeam teamId serviceId round payload) key }) := by
  have hlt : c.index submittingTeam teamId serviceId round payload < c.size := by
    rw [index_eq h.fit hin, h.size]
    exact exactIndex_lt hin
  simp [FlagCache.exchange, hlt]

end FlagCache

end Gameserver.Submission
