import Gameserver.Lib.Rearrange
import Mathlib.Algebra.Order.Field.Basic
import Mathlib.Data.List.Pairwise
import Mathlib.Tactic.FieldSimp
import Mathlib.Tactic.Linarith
import Mathlib.Tactic.Ring

/-!
# The flat time-slot generator of the Eno runner

`gen_timeslots_flat` of `runners/eno.py` cuts the usable part of a tick into as many equal
slots as there are tasks: the first slots for the early tasks (the `PUT`s), the last ones
for their late partners (the `GET`s), the rest for everything else.  Then it swaps slots at
random, keeping every late task far enough behind its early partner, shuffles the tasks and
moves each one to a random point of its slot.

* `tryPerformSwap`, `swapLoop` — the random swaps.  The tagged entries are mutable objects
  shared between four lists: here one map from entries to offsets.
* `Cleared` — every late task lies at least the threshold behind its early partner.
  `cleared_lateStep`, `cleared_earlyStep`: no accepted swap breaks it.
* `genTimeslotsFlat_eq` — the three assertions all say the same; where there is a pair at
  all, the generator fails with an assertion or returns the jittered slots.
* `genTimeslotsFlat_keeps_constraints` — what every returned schedule satisfies.
-/

namespace Gameserver.Eno

open Rearrange

/-! ## The generator -/

/-- The counts of `CheckerInfoMessage`. -/
structure CheckerInfo where
  flagVariants : ℕ
  noiseVariants : ℕ
  havocVariants : ℕ
deriving DecidableEq, Repr

inductive SlotType
  | early
  | unconstrained
  | late
deriving DecidableEq, Repr

/-- A `TaggedIntervalEntry` without its offset: the tag tells the objects apart. -/
structure Entry where
  entryType : SlotType
  idx : ℕ
deriving DecidableEq, Repr

/-- The exceptions a schedule can end in. -/
inductive ScheduleError
  | zeroDivisionError
  | indexError
  | assertionError
  | stopIteration
deriving DecidableEq, Repr

/-- The three lists of delays. -/
structure Timeslots (K : Type) where
  early : List K
  late : List K
  unconstrained : List K
deriving DecidableEq

/-- What `random` returns: the chosen swap targets of each round and index, the orders of
the two shuffles, and the fractions that become jitter. -/
structure Draws (K : Type) where
  lateTarget : ℕ → ℕ → Entry
  earlyTarget : ℕ → ℕ → Entry
  pairOrder : List ℕ
  freeOrder : List ℕ
  random : SlotType → ℕ → K

def totalTasksCount (checkPastTicks : ℕ) (info : CheckerInfo) : ℕ :=
  (2 + checkPastTicks) * info.flagVariants + (2 * info.noiseVariants + info.havocVariants)

def constrainedTaskCount (info : CheckerInfo) : ℕ :=
  info.flagVariants + info.noiseVariants

def unconstrainedTaskCount (checkPastTicks : ℕ) (info : CheckerInfo) : ℕ :=
  checkPastTicks * info.flagVariants + info.havocVariants

def entries (entryType : SlotType) (n : ℕ) : List Entry :=
  (List.range n).map (Entry.mk entryType)

/-- `tagged_task_slots`, for `c` pairs and `u` other tasks. -/
def taggedTaskSlots (c u : ℕ) : List Entry :=
  entries .early c ++ entries .unconstrained u ++ entries .late c

/-- The outcomes that `random.choice`, `random.shuffle` and `random.random` can have. -/
structure Draws.Fits {K : Type} [Zero K] [One K] [LE K] [LT K] (d : Draws K) (c u : ℕ) :
    Prop where
  lateTarget_mem : ∀ round idx : ℕ, idx < c → d.lateTarget round idx ∈ taggedTaskSlots c u
  earlyTarget_mem : ∀ round idx : ℕ, idx < c → d.earlyTarget round idx ∈ taggedTaskSlots c u
  pairOrder_perm : d.pairOrder.Perm (List.range c)
  freeOrder_perm : d.freeOrder.Perm (List.range u)
  random_nonneg : ∀ (ty : SlotType) (i : ℕ), 0 ≤ d.random ty i
  random_lt_one : ∀ (ty : SlotType) (i : ℕ), d.random ty i < 1

variable {K : Type} [Field K]

def timeBuffer : K := 5

def lastPossibleStartOffset (tickLength taskTimeout : K) : K :=
  tickLength - timeBuffer - taskTimeout

def taskStartInterval (checkPastTicks : ℕ) (tickLength : K) (info : CheckerInfo)
    (taskTimeout : K) : K :=
  lastPossibleStartOffset tickLength taskTimeout / totalTasksCount checkPastTicks info

def taskIntervalStartOffsets (interval : K) (total : ℕ) : List K :=
  (List.range total).map fun (i : ℕ) => interval * (i : K)

variable [LinearOrder K]

def validClearance (threshold : K) (offset : Entry → K) (early late : Entry) : Prop :=
  offset late - offset early ≥ threshold

instance (threshold : K) (offset : Entry → K) (early late : Entry) :
    Decidable (validClearance threshold offset early late) :=
  inferInstanceAs (Decidable (_ ≥ _))

def tryPerformSwap (threshold : K) (offset : Entry → K) (current swapTarget : Entry) :
    Entry → K :=
  match swapTarget.entryType with
  | .unconstrained => swapCells offset current swapTarget
  | .early =>
    if validClearance threshold offset current ⟨.late, swapTarget.idx⟩ then
      swapCells offset current swapTarget
    else offset
  | .late =>
    if validClearance threshold offset ⟨.early, swapTarget.idx⟩ current then
      swapCells offset current swapTarget
    else offset

/-- First half of the loop body: a new slot for the late task of a pair. -/
def lateStep (threshold : K) (offset : Entry → K) (idx : ℕ) (swapLateTask : Entry) :
    Entry → K :=
  if validClearance threshold offset ⟨.early, idx⟩ swapLateTask then
    tryPerformSwap threshold offset ⟨.late, idx⟩ swapLateTask
  else offset

/-- Second half: a new slot for the early task of a pair, the pairs taken from the end. -/
def earlyStep (threshold : K) (offset : Entry → K) (idx : ℕ) (swapEarlyTask : Entry) :
    Entry → K :=
  if validClearance threshold offset swapEarlyTask ⟨.late, idx⟩ then
    tryPerformSwap threshold offset ⟨.early, idx⟩ swapEarlyTask
  else offset

def swapStep (threshold : K) (c : ℕ) (d : Draws K) (round : ℕ) (offset : Entry → K) (idx : ℕ) :
    Entry → K :=
  earlyStep threshold (lateStep threshold offset idx (d.lateTarget round idx))
    (c - idx - 1) (d.earlyTarget round idx)

def swapRound (threshold : K) (c : ℕ) (d : Draws K) (offset : Entry → K) (round : ℕ) :
    Entry → K :=
  (List.range c).foldl (swapStep threshold c d round) offset

def swapLoop (threshold : K) (c : ℕ) (d : Draws K) (offset : Entry → K) : Entry → K :=
  (List.range 20).foldl (swapRound threshold c d) offset

/-- The offsets the entries are created with. -/
def initialOffsets (early unconstrained late : List K) (entry : Entry) : K :=
  match entry.entryType with
  | .early => early.getD entry.idx 0
  | .unconstrained => unconstrained.getD entry.idx 0
  | .late => late.getD entry.idx 0

def addJitter (random : ℕ → K) (interval : K) (slots : List K) : List K :=
  slots.mapIdx fun i slot => random i * interval + slot

/-- `early_late_task_slots` after the loop. -/
def earlyLateTaskSlots (offset : Entry → K) (c : ℕ) : List (K × K) :=
  (List.range c).map fun i => (offset ⟨.early, i⟩, offset ⟨.late, i⟩)

/-- `unconstrained_start_offsets` after the loop. -/
def unconstrainedStartOffsets (offset : Entry → K) (u : ℕ) : List K :=
  (List.range u).map fun i => offset ⟨.unconstrained, i⟩

/-- What follows the loop: shuffle the pairs and the rest, add the jitter. -/
def finishTimeslots (interval : K) (c u : ℕ) (d : Draws K) (offset : Entry → K) :
    Timeslots K :=
  let pairs := shuffle d.pairOrder (earlyLateTaskSlots offset c)
  let free := shuffle d.freeOrder (unconstrainedStartOffsets offset u)
  { early := addJitter (d.random .early) interval (pairs.map Prod.fst)
    late := addJitter (d.random .late) interval (pairs.map Prod.snd)
    unconstrained := addJitter (d.random .unconstrained) interval free }

/-- What follows the assertions. -/
def spreadTimeslots (interval taskTimeout : K) (early unconstrained late : List K) (c : ℕ)
    (d : Draws K) : Timeslots K :=
  finishTimeslots interval c unconstrained.length d
    (swapLoop (taskTimeout + interval) c d (initialOffsets early unconstrained late))

/-- `l[0]` and `l[-1]`. -/
def itemOrError : Option K → Except ScheduleError K
  | some x => .ok x
  | none => .error .indexError

/-- The `assert` statement. -/
def assertThat (p : Prop) [Decidable p] : Except ScheduleError Unit :=
  if p then .ok () else .error .assertionError

def genTimeslotsFlat (checkPastTicks : ℕ) (tickLength : K) (info : CheckerInfo)
    (taskTimeout : K) (d : Draws K) : Except ScheduleError (Timeslots K) :=
  let total := totalTasksCount checkPastTicks info
  let c := constrainedTaskCount info
  let last := lastPossibleStartOffset tickLength taskTimeout
  if total = 0 then .error .zeroDivisionError
  else
    let interval := taskStartInterval checkPastTicks tickLength info taskTimeout
    let offsets := taskIntervalStartOffsets interval total
    let early := slice offsets 0 c
    let late := slice offsets (-c) offsets.length
    let unconstrained := slice offsets c (-c)
    do
      let lastEarly ← itemOrError early.getLast?
      assertThat (last - (2 : ℕ) * interval - taskTimeout ≥ lastEarly)
      let firstLate ← itemOrError late.head?
      assertThat (taskTimeout + interval ≤ firstLate)
      let firstEarly ← itemOrError early.head?
      assertThat (firstEarly + taskTimeout + interval ≤ firstLate)
      return spreadTimeslots interval taskTimeout early unconstrained late c d

/-! ## The three groups of slots -/

section Slots

variable {P : ℕ} {info : CheckerInfo} {tickLength τ : K}

theorem totalTasksCount_eq (P : ℕ) (info : CheckerInfo) :
    totalTasksCount P info =
      2 * constrainedTaskCount info + unconstrainedTaskCount P info := by
  simp only [totalTasksCount, constrainedTaskCount, unconstrainedTaskCount]
  ring

/-- The offsets of `n` slots, the first one at index `start`. -/
def slotOffsets (interval : K) (start n : ℕ) : List K :=
  (List.range n).map fun (i : ℕ) => interval * (start + i : ℕ)

omit [LinearOrder K] in
theorem taskIntervalStartOffsets_eq (δ : K) (c u : ℕ) :
    taskIntervalStartOffsets δ (2 * c + u) =
      slotOffsets δ 0 c ++ (slotOffsets δ c u ++ slotOffsets δ (c + u) c) := by
  have hrange : List.range (2 * c + u) =
      List.range c ++ ((List.range u).map (c + ·) ++ (List.range c).map (c + u + ·)) := by
    rw [← List.append_assoc, ← List.range_add, ← List.range_add]
    congr 1
    omega
  simp only [taskIntervalStartOffsets, slotOffsets, hrange, List.map_append, List.map_map,
    Nat.zero_add]
  rfl

omit [LinearOrder K] in
/-- The slices of the offsets, where there is at least one pair. -/
theorem slices_eq {δ : K} {c u : ℕ} (hc : 0 < c) :
    let offsets := taskIntervalStartOffsets δ (2 * c + u)
    slice offsets 0 c = slotOffsets δ 0 c ∧ slice offsets c (-c) = slotOffsets δ c u ∧
      slice offsets (-c) offsets.length = slotOffsets δ (c + u) c := by
  intro offsets
  have hoffsets := taskIntervalStartOffsets_eq δ c u
  have hlen : offsets.length = 2 * c + u := by simp [offsets, taskIntervalStartOffsets]
  have hback : 2 * c + u - c = c + u := by omega
  refine ⟨?_, ?_, ?_⟩
  · rw [slice_front (by omega)]
    simp only [offsets, hoffsets]
    apply List.take_left'
    simp [slotOffsets]
  · rw [slice_middle hc (by omega), hlen, hback]
    simp only [offsets, hoffsets]
    rw [← List.append_assoc, List.take_left' (by simp [slotOffsets]),
      List.drop_left' (by simp [slotOffsets])]
  · rw [slice_back hc (by omega), hlen, hback]
    simp only [offsets, hoffsets]
    rw [← List.append_assoc, List.drop_left' (by simp [slotOffsets])]

omit [LinearOrder K] in
theorem head?_slotOffsets {δ : K} {start n : ℕ} (hn : 0 < n) :
    (slotOffsets δ start n).head? = some (δ * start) := by
  obtain ⟨m, rfl⟩ := Nat.exists_eq_add_of_lt hn
  simp [slotOffsets, List.head?_range]

omit [LinearOrder K] in
theorem getLast?_slotOffsets {δ : K} {start n : ℕ} :
    (slotOffsets δ start (n + 1)).getLast? = some (δ * (start + n : ℕ)) := by
  simp [slotOffsets, List.range_succ]

omit [LinearOrder K] in
/-- All slots together fill the time in which a task may start. -/
theorem taskStartInterval_mul_total [CharZero K] (hc : 0 < constrainedTaskCount info) :
    taskStartInterval P tickLength info τ * (totalTasksCount P info : K) =
      lastPossibleStartOffset tickLength τ := by
  have htotal : (totalTasksCount P info : K) ≠ 0 := by
    rw [totalTasksCount_eq]
    exact_mod_cast (by omega : 2 * constrainedTaskCount info + unconstrainedTaskCount P info ≠ 0)
  rw [taskStartInterval, div_mul_cancel₀ _ htotal]

end Slots

/-! ## Where the assertions pass -/

section Assertions

variable [IsStrictOrderedRing K] {P : ℕ} {info : CheckerInfo} {tickLength τ : K} {d : Draws K}

/-- What each of the three assertions says: between the first early and the first late slot
there is room for a task and one slot more. -/
def RoomForTask (P : ℕ) (tickLength : K) (info : CheckerInfo) (τ : K) : Prop :=
  τ + taskStartInterval P tickLength info τ ≤
    taskStartInterval P tickLength info τ *
      (constrainedTaskCount info + unconstrainedTaskCount P info : ℕ)

instance (P : ℕ) (tickLength : K) (info : CheckerInfo) (τ : K) :
    Decidable (RoomForTask P tickLength info τ) :=
  inferInstanceAs (Decidable (_ ≤ _))

/-- The returned slots of a generator whose assertions pass. -/
def flatTimeslots (P : ℕ) (tickLength : K) (info : CheckerInfo) (τ : K) (d : Draws K) :
    Timeslots K :=
  let interval := taskStartInterval P tickLength info τ
  let c := constrainedTaskCount info
  let u := unconstrainedTaskCount P info
  spreadTimeslots interval τ (slotOffsets interval 0 c) (slotOffsets interval c u)
    (slotOffsets interval (c + u) c) c d

/-- With at least one pair, the generator returns its slots or fails with an assertion. -/
theorem genTimeslotsFlat_eq (hc : 0 < constrainedTaskCount info) :
    genTimeslotsFlat P tickLength info τ d =
      if RoomForTask P tickLength info τ then .ok (flatTimeslots P tickLength info τ d)
      else .error .assertionError := by
  set δ := taskStartInterval P tickLength info τ with hδ
  set u := unconstrainedTaskCount P info with hu
  obtain ⟨n, hn⟩ := Nat.exists_eq_add_of_lt hc
  rw [Nat.zero_add] at hn
  have htotal : totalTasksCount P info = 2 * (n + 1) + u := by
    rw [totalTasksCount_eq, hn]
  obtain ⟨hearly, hfree, hlate⟩ := slices_eq (δ := δ) (c := n + 1) (u := u) n.succ_pos
  have hlast : lastPossibleStartOffset tickLength τ = δ * (2 * (n + 1) + u : ℕ) := by
    rw [← taskStartInterval_mul_total (P := P) hc, htotal]
  have hfirst : lastPossibleStartOffset tickLength τ - (2 : ℕ) * δ - τ ≥ δ * (0 + n : ℕ) ↔
      RoomForTask P tickLength info τ := by
    rw [hlast, RoomForTask, ← hδ, ← hu, hn]
    push_cast
    constructor <;> intro h <;> linarith
  have hsecond : τ + δ ≤ δ * (n + 1 + u : ℕ) ↔ RoomForTask P tickLength info τ := by
    rw [RoomForTask, hn]
  have hthird : δ * (0 : ℕ) + τ + δ ≤ δ * (n + 1 + u : ℕ) ↔
      RoomForTask P tickLength info τ := by
    rw [← hsecond, Nat.cast_zero, mul_zero, zero_add]
  rw [genTimeslotsFlat, htotal, if_neg (by omega), ← hδ, hn]
  simp only [hearly, hfree, hlate, getLast?_slotOffsets, head?_slotOffsets n.succ_pos,
    itemOrError, assertThat, bind, Except.bind, hfirst, hsecond, hthird]
  by_cases hroom : RoomForTask P tickLength info τ
  · simp only [if_pos hroom, flatTimeslots, ← hδ, ← hu, hn]
    rfl
  · simp only [if_neg hroom]

omit [IsStrictOrderedRing K] in
/-- Without a pair it fails, and not with an assertion. -/
theorem genTimeslotsFlat_of_no_pair (hc : constrainedTaskCount info = 0) :
    genTimeslotsFlat P tickLength info τ d =
      .error (if info.havocVariants = 0 then .zeroDivisionError else .indexError) := by
  have hflags : info.flagVariants = 0 := by
    rw [constrainedTaskCount] at hc
    omega
  have htotal : totalTasksCount P info = info.havocVariants := by
    rw [totalTasksCount_eq, hc, unconstrainedTaskCount, hflags]
    simp
  rw [genTimeslotsFlat, htotal, hc]
  by_cases hhavoc : info.havocVariants = 0
  · simp [hhavoc]
  · have hempty (l : List K) : slice l 0 (0 : ℕ) = [] := by
      simp [slice, sliceBound]
    simp only [if_neg hhavoc, hempty]
    rfl

end Assertions

/-! ## Swaps keep every pair apart -/

section Swaps

variable {c u : ℕ} {threshold : K} {offset : Entry → K} {i : ℕ} {target : Entry} {d : Draws K}

/-- Every late task starts at least the threshold after its early partner. -/
def Cleared (c : ℕ) (threshold : K) (offset : Entry → K) : Prop :=
  ∀ i < c, validClearance threshold offset ⟨.early, i⟩ ⟨.late, i⟩

theorem mem_taggedTaskSlots {e : Entry} :
    e ∈ taggedTaskSlots c u ↔
      (e.entryType = .early ∧ e.idx < c) ∨ (e.entryType = .unconstrained ∧ e.idx < u) ∨
        (e.entryType = .late ∧ e.idx < c) := by
  obtain ⟨ty, j⟩ := e
  cases ty <;> simp [taggedTaskSlots, entries]

theorem nodup_taggedTaskSlots (c u : ℕ) : (taggedTaskSlots c u).Nodup := by
  have hentries (ty : SlotType) (n : ℕ) : (entries ty n).Nodup := by
    apply List.Nodup.map _ List.nodup_range
    intro i j hij
    simpa using hij
  apply List.Nodup.append
  · apply List.Nodup.append (hentries _ _) (hentries _ _)
    intro e he hf
    simp only [entries, List.mem_map] at he hf
    obtain ⟨i, -, rfl⟩ := he
    simp at hf
  · exact hentries _ _
  · intro e he hf
    simp only [entries, List.mem_append, List.mem_map] at he hf
    obtain ⟨i, -, rfl⟩ := hf
    simp at he

/-- A swap touches only the pairs of its two entries. -/
theorem Cleared.swap {a b : Entry} (h : Cleared c threshold offset)
    (ha : validClearance threshold (swapCells offset a b) ⟨.early, a.idx⟩ ⟨.late, a.idx⟩)
    (hb : validClearance threshold (swapCells offset a b) ⟨.early, b.idx⟩ ⟨.late, b.idx⟩) :
    Cleared c threshold (swapCells offset a b) := by
  intro k hk
  by_cases hka : k = a.idx
  · rw [hka]
    exact ha
  by_cases hkb : k = b.idx
  · rw [hkb]
    exact hb
  have hne (ty : SlotType) : swapCells offset a b ⟨ty, k⟩ = offset ⟨ty, k⟩ := by
    rw [swapCells_apply, if_neg, if_neg]
    · exact fun h => hkb (congrArg Entry.idx h)
    · exact fun h => hka (congrArg Entry.idx h)
  rw [validClearance, hne, hne]
  exact h k hk

/-- A task without a partner does not mind which slot it gets. -/
theorem Cleared.swap_unconstrained {a : Entry} {j : ℕ} (h : Cleared c threshold offset)
    (ha : validClearance threshold (swapCells offset a ⟨.unconstrained, j⟩) ⟨.early, a.idx⟩
      ⟨.late, a.idx⟩) :
    Cleared c threshold (swapCells offset a ⟨.unconstrained, j⟩) := by
  intro k hk
  by_cases hka : k = a.idx
  · rw [hka]
    exact ha
  have hne (ty : SlotType) (hty : ty ≠ .unconstrained) :
      swapCells offset a ⟨.unconstrained, j⟩ ⟨ty, k⟩ = offset ⟨ty, k⟩ := by
    rw [swapCells_apply, if_neg, if_neg]
    · exact fun h => hty (congrArg Entry.entryType h)
    · exact fun h => hka (congrArg Entry.idx h)
  rw [validClearance, hne _ SlotType.noConfusion, hne _ SlotType.noConfusion]
  exact h k hk

/-- A late task moves to a slot that its early partner admits. -/
theorem cleared_tryPerformSwap_late (hpos : 0 < threshold) (h : Cleared c threshold offset)
    (htarget : validClearance threshold offset ⟨.early, i⟩ target) :
    Cleared c threshold (tryPerformSwap threshold offset ⟨.late, i⟩ target) := by
  obtain ⟨ty, j⟩ := target
  cases ty with
  | unconstrained =>
    exact h.swap_unconstrained (by simpa [validClearance, swapCells_apply] using htarget)
  | early =>
    rw [tryPerformSwap]
    dsimp only
    split_ifs with hclear
    · have hij : i ≠ j := by
        rintro rfl
        exact absurd hpos (not_lt.2 (by simpa [validClearance] using hclear))
      apply h.swap
      · simpa [validClearance, swapCells_apply, hij] using htarget
      · simpa [validClearance, swapCells_apply, hij.symm] using hclear
    · exact h
  | late =>
    rw [tryPerformSwap]
    dsimp only
    split_ifs with hclear
    · apply h.swap
      · simpa [validClearance, swapCells_apply] using htarget
      · by_cases hij : j = i
        · subst hij
          simpa [validClearance, swapCells_apply] using hclear
        · simpa [validClearance, swapCells_apply, hij] using hclear
    · exact h

/-- An early task moves to a slot that its late partner admits. -/
theorem cleared_tryPerformSwap_early (hpos : 0 < threshold) (h : Cleared c threshold offset)
    (htarget : validClearance threshold offset target ⟨.late, i⟩) :
    Cleared c threshold (tryPerformSwap threshold offset ⟨.early, i⟩ target) := by
  obtain ⟨ty, j⟩ := target
  cases ty with
  | unconstrained =>
    exact h.swap_unconstrained (by simpa [validClearance, swapCells_apply] using htarget)
  | early =>
    rw [tryPerformSwap]
    dsimp only
    split_ifs with hclear
    · apply h.swap
      · simpa [validClearance, swapCells_apply] using htarget
      · by_cases hij : j = i
        · subst hij
          simpa [validClearance, swapCells_apply] using hclear
        · simpa [validClearance, swapCells_apply, hij] using hclear
    · exact h
  | late =>
    rw [tryPerformSwap]
    dsimp only
    split_ifs with hclear
    · have hij : i ≠ j := by
        rintro rfl
        exact absurd hpos (not_lt.2 (by simpa [validClearance] using hclear))
      apply h.swap
      · simpa [validClearance, swapCells_apply, hij] using htarget
      · simpa [validClearance, swapCells_apply, hij.symm] using hclear
    · exact h

/-- What the loop keeps: the pairs stay apart, and the entries share out the same offsets. -/
structure SlotsKept (c u : ℕ) (threshold : K) (offsets : List K) (offset : Entry → K) : Prop where
  cleared : Cleared c threshold offset
  perm : ((taggedTaskSlots c u).map offset).Perm offsets

variable {offsets : List K}

theorem map_tryPerformSwap_perm {current : Entry} (hcurrent : current ∈ taggedTaskSlots c u)
    (htarget : target ∈ taggedTaskSlots c u) :
    ((taggedTaskSlots c u).map (tryPerformSwap threshold offset current target)).Perm
      ((taggedTaskSlots c u).map offset) := by
  have hswap : ((taggedTaskSlots c u).map (swapCells offset current target)).Perm
      ((taggedTaskSlots c u).map offset) :=
    map_swapCells_perm (nodup_taggedTaskSlots c u) hcurrent htarget
  rw [tryPerformSwap]
  split
  · exact hswap
  · split_ifs
    · exact hswap
    · exact List.Perm.refl _
  · split_ifs
    · exact hswap
    · exact List.Perm.refl _

theorem SlotsKept.lateStep (h : SlotsKept c u threshold offsets offset) (hpos : 0 < threshold)
    (hi : i < c) (htarget : target ∈ taggedTaskSlots c u) :
    SlotsKept c u threshold offsets (lateStep threshold offset i target) := by
  rw [Eno.lateStep]
  split_ifs with hclear
  · have hcurrent : (⟨.late, i⟩ : Entry) ∈ taggedTaskSlots c u :=
      mem_taggedTaskSlots.2 (.inr (.inr ⟨rfl, hi⟩))
    constructor
    · exact cleared_tryPerformSwap_late hpos h.cleared hclear
    · exact (map_tryPerformSwap_perm hcurrent htarget).trans h.perm
  · exact h

theorem SlotsKept.earlyStep (h : SlotsKept c u threshold offsets offset) (hpos : 0 < threshold)
    (hi : i < c) (htarget : target ∈ taggedTaskSlots c u) :
    SlotsKept c u threshold offsets (earlyStep threshold offset i target) := by
  rw [Eno.earlyStep]
  split_ifs with hclear
  · have hcurrent : (⟨.early, i⟩ : Entry) ∈ taggedTaskSlots c u :=
      mem_taggedTaskSlots.2 (.inl ⟨rfl, hi⟩)
    constructor
    · exact cleared_tryPerformSwap_early hpos h.cleared hclear
    · exact (map_tryPerformSwap_perm hcurrent htarget).trans h.perm
  · exact h

/-- The whole loop keeps the slots, whatever targets are drawn. -/
theorem SlotsKept.swapLoop (h : SlotsKept c u threshold offsets offset)
    (hpos : 0 < threshold)
    (hlate : ∀ round idx : ℕ, idx < c → d.lateTarget round idx ∈ taggedTaskSlots c u)
    (hearly : ∀ round idx : ℕ, idx < c → d.earlyTarget round idx ∈ taggedTaskSlots c u) :
    SlotsKept c u threshold offsets (swapLoop threshold c d offset) := by
  apply List.foldlRecOn
  · exact h
  · intro offset h round _
    apply List.foldlRecOn
    · exact h
    · intro offset h i hi
      rw [List.mem_range] at hi
      apply SlotsKept.earlyStep
      · exact h.lateStep hpos hi (hlate round i hi)
      · exact hpos
      · omega
      · exact hearly round i hi

end Swaps

/-! ## From slots to delays -/

section Delays

variable {δ : K} {r : ℕ → K}

/-- The delay `x` lies in slot `k`. -/
def InSlot (δ : K) (k : ℕ) (x : K) : Prop :=
  δ * k ≤ x ∧ x < δ * (k + 1)

/-- Every task has a slot of its own, out of `total` slots of length `δ`. -/
def OwnSlots (δ : K) (total : ℕ) (delays : List K) : Prop :=
  ∃ slots : List ℕ, slots.Nodup ∧ (∀ k ∈ slots, k < total) ∧ List.Forall₂ (InSlot δ) slots delays

omit [LinearOrder K] in
@[simp] theorem length_addJitter (r : ℕ → K) (δ : K) (l : List K) :
    (addJitter r δ l).length = l.length := by
  simp [addJitter]

omit [LinearOrder K] in
theorem getElem?_addJitter (r : ℕ → K) (δ : K) (l : List K) (i : ℕ) :
    (addJitter r δ l)[i]? = l[i]?.map fun slot => r i * δ + slot := by
  simp [addJitter]

omit [LinearOrder K] in
theorem addJitter_cons (r : ℕ → K) (δ x : K) (l : List K) :
    addJitter r δ (x :: l) = (r 0 * δ + x) :: addJitter (fun i => r (i + 1)) δ l := by
  simp [addJitter, List.mapIdx_cons]

variable [IsStrictOrderedRing K]

theorem inSlot_of_jitter {x : K} (hδ : 0 < δ) (h0 : 0 ≤ x) (h1 : x < 1) (k : ℕ) :
    InSlot δ k (x * δ + δ * k) := by
  have hx : x * δ < 1 * δ := mul_lt_mul_of_pos_right h1 hδ
  have hx0 : 0 ≤ x * δ := mul_nonneg h0 hδ.le
  constructor
  · linarith
  · rw [mul_add]
    linarith

/-- Jitter keeps every task inside its slot. -/
theorem forall₂_inSlot_addJitter (hδ : 0 < δ) (slots : List ℕ) :
    ∀ r : ℕ → K, (∀ i, 0 ≤ r i) → (∀ i, r i < 1) →
      List.Forall₂ (InSlot δ) slots (addJitter r δ (slots.map fun (k : ℕ) => δ * (k : K))) := by
  induction slots with
  | nil => intro r _ _; exact List.Forall₂.nil
  | cons k slots ih =>
    intro r h0 h1
    rw [List.map_cons, addJitter_cons]
    apply List.Forall₂.cons
    · exact inSlot_of_jitter hδ (h0 0) (h1 0) k
    · exact ih _ (fun i => h0 (i + 1)) fun i => h1 (i + 1)

end Delays

section Finish

variable [IsStrictOrderedRing K] {c u : ℕ} {δ threshold : K} {offset : Entry → K} {d : Draws K}

omit [Field K] [LinearOrder K] [IsStrictOrderedRing K] in
theorem map_taggedTaskSlots_perm (offset : Entry → K) (c u : ℕ) :
    ((taggedTaskSlots c u).map offset).Perm
      ((earlyLateTaskSlots offset c).map Prod.fst ++ unconstrainedStartOffsets offset u ++
        (earlyLateTaskSlots offset c).map Prod.snd) := by
  apply List.Perm.of_eq
  simp only [taggedTaskSlots, entries, earlyLateTaskSlots, unconstrainedStartOffsets,
    List.map_append, List.map_map]
  rfl

/-- The shuffled slots are the slots of the loop in another order, pair by pair. -/
theorem own_slots_finishTimeslots (hδ : 0 < δ) (hd : d.Fits c u)
    (h : SlotsKept c u threshold (taskIntervalStartOffsets δ (2 * c + u)) offset) :
    let s := finishTimeslots δ c u d offset
    OwnSlots δ (2 * c + u) (s.early ++ s.unconstrained ++ s.late) := by
  intro s
  set pairs := shuffle d.pairOrder (earlyLateTaskSlots offset c) with hpairs
  set free := shuffle d.freeOrder (unconstrainedStartOffsets offset u) with hfree
  have hpairs' : pairs.Perm (earlyLateTaskSlots offset c) :=
    shuffle_perm (by simpa [earlyLateTaskSlots] using hd.pairOrder_perm)
  have hfree' : free.Perm (unconstrainedStartOffsets offset u) :=
    shuffle_perm (by simpa [unconstrainedStartOffsets] using hd.freeOrder_perm)
  have hslots : (pairs.map Prod.fst ++ free ++ pairs.map Prod.snd).Perm
      ((List.range (2 * c + u)).map fun (k : ℕ) => δ * (k : K)) := by
    have hshuffled := ((hpairs'.map Prod.fst).append hfree').append (hpairs'.map Prod.snd)
    exact (hshuffled.trans (map_taggedTaskSlots_perm offset c u).symm).trans h.perm
  -- the slots are the images of a list of slot numbers
  obtain ⟨numbers, heq, hperm⟩ := exists_map_of_perm_map hslots
  obtain ⟨front, back, rfl, hfront, hback⟩ := List.map_eq_append_iff.1 heq.symm
  obtain ⟨early, mid, rfl, hearly, hmid⟩ := List.map_eq_append_iff.1 hfront
  refine ⟨early ++ mid ++ back, hperm.symm.nodup List.nodup_range, ?_, ?_⟩
  · intro k hk
    exact List.mem_range.1 (hperm.subset hk)
  · have hjitter (ty : SlotType) (l : List ℕ) :=
      forall₂_inSlot_addJitter hδ l (d.random ty) (hd.random_nonneg ty) (hd.random_lt_one ty)
    apply List.rel_append
    · apply List.rel_append
      · have hs : s.early = addJitter (d.random .early) δ (pairs.map Prod.fst) := rfl
        rw [hs, ← hearly]
        exact hjitter .early early
      · have hs : s.unconstrained = addJitter (d.random .unconstrained) δ free := rfl
        rw [hs, ← hmid]
        exact hjitter .unconstrained mid
    · have hs : s.late = addJitter (d.random .late) δ (pairs.map Prod.snd) := rfl
      rw [hs, ← hback]
      exact hjitter .late back

/-- Jitter costs less than one slot: what remains of the threshold is the gap. -/
theorem late_sub_early_finishTimeslots (hδ : 0 < δ) (hd : d.Fits c u)
    (h : Cleared c threshold offset) {i : ℕ} {a b : K}
    (ha : (finishTimeslots δ c u d offset).early[i]? = some a)
    (hb : (finishTimeslots δ c u d offset).late[i]? = some b) : threshold - δ < b - a := by
  have hpairs : (shuffle d.pairOrder (earlyLateTaskSlots offset c)).Perm
      (earlyLateTaskSlots offset c) :=
    shuffle_perm (by simpa [earlyLateTaskSlots] using hd.pairOrder_perm)
  rw [finishTimeslots] at ha hb
  simp only [getElem?_addJitter, List.getElem?_map, Option.map_map] at ha hb
  obtain ⟨p, hp, rfl⟩ := Option.map_eq_some_iff.1 ha
  rw [hp, Option.map_some, Option.some_inj] at hb
  obtain ⟨j, hj, rfl⟩ := List.mem_map.1 (hpairs.subset (List.mem_of_getElem? hp))
  have hgap : offset ⟨.late, j⟩ - offset ⟨.early, j⟩ ≥ threshold := h j (List.mem_range.1 hj)
  have hearly : d.random .early i * δ < 1 * δ :=
    mul_lt_mul_of_pos_right (hd.random_lt_one .early i) hδ
  have hlate : 0 ≤ d.random .late i * δ := mul_nonneg (hd.random_nonneg .late i) hδ.le
  simp only [Function.comp_apply] at hb ⊢
  linarith

omit [IsStrictOrderedRing K] in
theorem lengths_finishTimeslots (δ : K) (offset : Entry → K)
    (hd : d.Fits c u) :
    let s := finishTimeslots δ c u d offset
    s.early.length = c ∧ s.late.length = c ∧ s.unconstrained.length = u := by
  have hpairs := (shuffle_perm (l := earlyLateTaskSlots offset c)
    (by simpa [earlyLateTaskSlots] using hd.pairOrder_perm)).length_eq
  have hfree := (shuffle_perm (l := unconstrainedStartOffsets offset u)
    (by simpa [unconstrainedStartOffsets] using hd.freeOrder_perm)).length_eq
  simp only [finishTimeslots, length_addJitter, List.length_map, hpairs, hfree]
  simp [earlyLateTaskSlots, unconstrainedStartOffsets]

omit [LinearOrder K] [IsStrictOrderedRing K] in
theorem initialOffsets_early {i : ℕ} {free late : List K} {start : ℕ} (hi : i < c) :
    initialOffsets (slotOffsets δ start c) free late ⟨.early, i⟩ = δ * (start + i : ℕ) := by
  simp [initialOffsets, slotOffsets, List.getD_eq_getElem?_getD, hi]

omit [LinearOrder K] [IsStrictOrderedRing K] in
theorem initialOffsets_late {i : ℕ} {early free : List K} {start : ℕ} (hi : i < c) :
    initialOffsets early free (slotOffsets δ start c) ⟨.late, i⟩ = δ * (start + i : ℕ) := by
  simp [initialOffsets, slotOffsets, List.getD_eq_getElem?_getD, hi]

omit [LinearOrder K] [IsStrictOrderedRing K] in
theorem initialOffsets_unconstrained {i : ℕ} {early late : List K} {start : ℕ} (hi : i < u) :
    initialOffsets early (slotOffsets δ start u) late ⟨.unconstrained, i⟩ =
      δ * (start + i : ℕ) := by
  simp [initialOffsets, slotOffsets, List.getD_eq_getElem?_getD, hi]

/-- The entries start out cleared, with the offsets they share out. -/
theorem slotsKept_initialOffsets (hroom : threshold ≤ δ * (c + u : ℕ)) :
    SlotsKept c u threshold (taskIntervalStartOffsets δ (2 * c + u))
      (initialOffsets (slotOffsets δ 0 c) (slotOffsets δ c u) (slotOffsets δ (c + u) c)) := by
  constructor
  · intro i hi
    rw [validClearance, initialOffsets_late hi, initialOffsets_early hi]
    push_cast at hroom ⊢
    linarith
  · apply List.Perm.of_eq
    rw [taskIntervalStartOffsets_eq, ← List.append_assoc]
    simp only [taggedTaskSlots, entries, List.map_append, List.map_map]
    congr 1
    · congr 1
      · apply List.map_congr_left
        intro i hi
        exact initialOffsets_early (List.mem_range.1 hi)
      · apply List.map_congr_left
        intro i hi
        exact initialOffsets_unconstrained (List.mem_range.1 hi)
    · apply List.map_congr_left
      intro i hi
      exact initialOffsets_late (List.mem_range.1 hi)

end Finish

/-! ## What a schedule keeps -/

section Constraints

variable [IsStrictOrderedRing K] {P : ℕ} {info : CheckerInfo} {tickLength τ : K} {d : Draws K}
  {s : Timeslots K}

/-- The constraints on a flat schedule. -/
structure FlatConstraints (P : ℕ) (tickLength : K) (info : CheckerInfo) (τ : K)
    (s : Timeslots K) : Prop where
  early_length : s.early.length = info.flagVariants + info.noiseVariants
  late_length : s.late.length = info.flagVariants + info.noiseVariants
  unconstrained_length : s.unconstrained.length = P * info.flagVariants + info.havocVariants
  late_after_early : ∀ (i : ℕ) (a b : K), s.early[i]? = some a → s.late[i]? = some b → τ < b - a
  in_time : ∀ x ∈ s.early ++ s.unconstrained ++ s.late,
    0 ≤ x ∧ x < tickLength - timeBuffer - τ
  own_slots : OwnSlots (taskStartInterval P tickLength info τ) (totalTasksCount P info)
    (s.early ++ s.unconstrained ++ s.late)

theorem interval_pos_of_room (hc : 0 < constrainedTaskCount info) (hτ : 0 < τ)
    (hroom : RoomForTask P tickLength info τ) : 0 < taskStartInterval P tickLength info τ := by
  by_contra hneg
  rw [RoomForTask] at hroom
  have hcount : (1 : K) ≤ (constrainedTaskCount info + unconstrainedTaskCount P info : ℕ) := by
    exact_mod_cast (by omega : 1 ≤ constrainedTaskCount info + unconstrainedTaskCount P info)
  have hle := mul_le_mul_of_nonpos_left hcount (not_lt.1 hneg)
  linarith

/-- A task in its slot starts inside the slots' total length. -/
theorem OwnSlots.in_time {δ : K} {total : ℕ} {l : List K} (h : OwnSlots δ total l) (hδ : 0 < δ) :
    ∀ x ∈ l, 0 ≤ x ∧ x < δ * total := by
  obtain ⟨slots, -, hbound, hslots⟩ := h
  induction hslots with
  | nil => simp
  | @cons k y slots l hin _ ih =>
    intro x hx
    rcases List.mem_cons.1 hx with rfl | hx
    · have hk : (k : K) + 1 ≤ total := by exact_mod_cast hbound k List.mem_cons_self
      have hend := mul_le_mul_of_nonneg_left hk hδ.le
      have hstart : (0 : K) ≤ δ * k := mul_nonneg hδ.le (Nat.cast_nonneg k)
      exact ⟨hstart.trans hin.1, hin.2.trans_le hend⟩
    · exact ih (fun k hk => hbound k (List.mem_cons_of_mem _ hk)) x hx

/-- The slots after the loop, for a generator whose assertions pass. -/
theorem slotsKept_swapLoop (hc : 0 < constrainedTaskCount info) (hτ : 0 < τ)
    (hroom : RoomForTask P tickLength info τ)
    (hd : d.Fits (constrainedTaskCount info) (unconstrainedTaskCount P info)) :
    let δ := taskStartInterval P tickLength info τ
    let c := constrainedTaskCount info
    let u := unconstrainedTaskCount P info
    SlotsKept c u (τ + δ) (taskIntervalStartOffsets δ (2 * c + u))
      (swapLoop (τ + δ) c d (initialOffsets (slotOffsets δ 0 c) (slotOffsets δ c u)
        (slotOffsets δ (c + u) c))) := by
  have hδ := interval_pos_of_room hc hτ hroom
  apply SlotsKept.swapLoop
  · exact slotsKept_initialOffsets hroom
  · linarith
  · exact hd.lateTarget_mem
  · exact hd.earlyTarget_mem

omit [IsStrictOrderedRing K] in
theorem flatTimeslots_eq (P : ℕ) (tickLength : K) (info : CheckerInfo) (τ : K) (d : Draws K) :
    let δ := taskStartInterval P tickLength info τ
    let c := constrainedTaskCount info
    let u := unconstrainedTaskCount P info
    flatTimeslots P tickLength info τ d =
      finishTimeslots δ c u d (swapLoop (τ + δ) c d (initialOffsets (slotOffsets δ 0 c)
        (slotOffsets δ c u) (slotOffsets δ (c + u) c))) := by
  simp [flatTimeslots, spreadTimeslots, slotOffsets]

omit [IsStrictOrderedRing K] in
theorem lengths_flatTimeslots
    (hd : d.Fits (constrainedTaskCount info) (unconstrainedTaskCount P info)) :
    let s := flatTimeslots P tickLength info τ d
    s.early.length = constrainedTaskCount info ∧ s.late.length = constrainedTaskCount info ∧
      s.unconstrained.length = unconstrainedTaskCount P info := by
  simp only [flatTimeslots_eq]
  exact lengths_finishTimeslots _ _ hd

theorem ownSlots_flatTimeslots (hc : 0 < constrainedTaskCount info) (hτ : 0 < τ)
    (hroom : RoomForTask P tickLength info τ)
    (hd : d.Fits (constrainedTaskCount info) (unconstrainedTaskCount P info)) :
    let s := flatTimeslots P tickLength info τ d
    OwnSlots (taskStartInterval P tickLength info τ) (totalTasksCount P info)
      (s.early ++ s.unconstrained ++ s.late) := by
  intro s
  simp only [s, flatTimeslots_eq, totalTasksCount_eq]
  exact own_slots_finishTimeslots (interval_pos_of_room hc hτ hroom) hd
    (slotsKept_swapLoop hc hτ hroom hd)

theorem in_time_flatTimeslots (hc : 0 < constrainedTaskCount info) (hτ : 0 < τ)
    (hroom : RoomForTask P tickLength info τ)
    (hd : d.Fits (constrainedTaskCount info) (unconstrainedTaskCount P info)) :
    let s := flatTimeslots P tickLength info τ d
    ∀ x ∈ s.early ++ s.unconstrained ++ s.late,
      0 ≤ x ∧ x < lastPossibleStartOffset tickLength τ := by
  intro s x hx
  have hin := (ownSlots_flatTimeslots hc hτ hroom hd).in_time
    (interval_pos_of_room hc hτ hroom) x hx
  rwa [taskStartInterval_mul_total hc] at hin

/-- Draws that swap nothing, shuffle nothing and start every task at the fraction `random`
of its slot: each task is offered its own partner's slot or its own. -/
def steadyDraws (c u : ℕ) (random : SlotType → ℕ → K) : Draws K where
  lateTarget _ idx := ⟨.early, idx⟩
  earlyTarget _ idx := ⟨.late, c - idx - 1⟩
  pairOrder := List.range c
  freeOrder := List.range u
  random := random

omit [IsStrictOrderedRing K] in
theorem steadyDraws_fits {c u : ℕ} {random : SlotType → ℕ → K}
    (h0 : ∀ (ty : SlotType) (i : ℕ), 0 ≤ random ty i)
    (h1 : ∀ (ty : SlotType) (i : ℕ), random ty i < 1) :
    (steadyDraws c u random).Fits c u where
  lateTarget_mem _ idx h := mem_taggedTaskSlots.2 (.inl ⟨rfl, h⟩)
  earlyTarget_mem _ idx h := mem_taggedTaskSlots.2 (.inr (.inr ⟨rfl, by
    simp only [steadyDraws]
    omega⟩))
  pairOrder_perm := List.Perm.refl _
  freeOrder_perm := List.Perm.refl _
  random_nonneg := h0
  random_lt_one := h1

/-- **The flat generator keeps its constraints**: for every outcome of the random choices,
every schedule it returns has its pairs apart, its tasks in time and a slot for each. -/
theorem genTimeslotsFlat_keeps_constraints
    (hpair : 1 ≤ info.flagVariants + info.noiseVariants) (hτ : 0 < τ)
    (hd : d.Fits (constrainedTaskCount info) (unconstrainedTaskCount P info))
    (h : genTimeslotsFlat P tickLength info τ d = .ok s) :
    FlatConstraints P tickLength info τ s := by
  have hc : 0 < constrainedTaskCount info := hpair
  rw [genTimeslotsFlat_eq hc] at h
  split_ifs at h with hroom
  obtain rfl := Except.ok.inj h
  have hδ := interval_pos_of_room hc hτ hroom
  obtain ⟨hearly, hlate, hrest⟩ := lengths_flatTimeslots hd
  constructor
  · exact hearly
  · exact hlate
  · exact hrest
  · intro i a b ha hb
    rw [flatTimeslots_eq] at ha hb
    have hkept := slotsKept_swapLoop hc hτ hroom hd
    have hgap := late_sub_early_finishTimeslots hδ hd hkept.cleared ha hb
    linarith
  · exact in_time_flatTimeslots hc hτ hroom hd
  · exact ownSlots_flatTimeslots hc hτ hroom hd

/-- One flag and one past tick in 80 s: 60 s are cut into three slots. -/
theorem genTimeslotsFlat_sample :
    FlatConstraints 1 (80 : ℚ) ⟨1, 0, 0⟩ 15 ⟨[10], [50], [30]⟩ :=
  genTimeslotsFlat_keeps_constraints (by decide) (by norm_num)
    (steadyDraws_fits (fun _ _ => by norm_num) fun _ _ => by norm_num)
    (by decide +kernel :
      genTimeslotsFlat 1 (80 : ℚ) ⟨1, 0, 0⟩ 15 (steadyDraws 1 1 fun _ _ => 1 / 2) =
        .ok ⟨[10], [50], [30]⟩)

end Constraints

end Gameserver.Eno
