import Gameserver.Eno.Timeslots
import Mathlib.Algebra.Order.Floor.Ring
import Mathlib.Algebra.Order.Floor.Semiring
import Mathlib.Data.List.TakeWhile
import Mathlib.Data.Rat.Floor

/-!
# Schedules of the Eno runner

`gen_timeslots` tries the flat generator and falls back to fixed windows when an assertion
fails; `execute_checker_async` then draws one slot for every request it sends.

* `genTimeslots` — flat, or `genTimeslotsFallback` after an `AssertionError`.  Any other
  exception leaves the function.
* `executeCheckerAsync` — the requests with their delays, drawn from three iterators.
* `executeCheckerAsync_total_iff` — a schedule exists exactly where there is a flag or a
  noise variant; then no iterator runs dry.
* `respectsTimeouts_iff` — which timeouts the schedules respect.  The generators are given
  15 s; the requests carry the configured timeout.
-/

namespace Gameserver.Eno

open Rearrange

variable {K : Type} [Field K] [LinearOrder K]

/-! ## The schedule of a check -/

def genTimeslotsFallback (checkPastTicks : ℕ) (info : CheckerInfo) (d : Draws K) :
    Timeslots K :=
  let c := constrainedTaskCount info
  { early := (List.range c).map fun i => d.random .early i * 15
    late := (List.range c).map fun i => 30 + d.random .late i * 10
    unconstrained :=
      (List.range (unconstrainedTaskCount checkPastTicks info)).map fun i =>
        d.random .unconstrained i * 40 }

/-- The tick's length from Redis, 60 s where there is none. -/
def tickLengthOf (tickDuration : Option ℤ) : K :=
  ((tickDuration.getD 60 : ℤ) : K)

def genTimeslots (checkPastTicks : ℕ) (tickDuration : Option ℤ) (info : CheckerInfo)
    (taskTimeout : K) (d : Draws K) : Except ScheduleError (Timeslots K) :=
  match genTimeslotsFlat checkPastTicks (tickLengthOf tickDuration) info taskTimeout d with
  | .error .assertionError => .ok (genTimeslotsFallback checkPastTicks info d)
  | result => result

/-- `config.RUNNER.eno`. -/
structure EnoRunnerConfig (K : Type) where
  checkPastTicks : ℕ
  timeout : K

inductive CheckerMethod
  | putflag
  | getflag
  | putnoise
  | getnoise
  | havoc
deriving DecidableEq, Repr

/-- What a `CheckerTaskMessage` says about time, and the delay it is sent after. -/
structure Request (K : Type) where
  method : CheckerMethod
  variantId : ℕ
  currentRoundId : ℤ
  relatedRoundId : ℤ
  /-- In milliseconds. -/
  timeout : ℤ
  delay : K
deriving DecidableEq

variable [FloorRing K]

/-- `int(x)` of a number: towards zero. -/
def truncate (x : K) : ℤ :=
  if 0 ≤ x then ⌊x⌋ else ⌈x⌉

def message (cfg : EnoRunnerConfig K) (tick : ℤ) (method : CheckerMethod) (variantId : ℕ)
    (relatedTick : Option ℤ) (delay : K) : Request K where
  method := method
  variantId := variantId
  currentRoundId := tick
  -- `related_tick or tick`: 0 is no tick
  relatedRoundId := if relatedTick.getD 0 = 0 then tick else relatedTick.getD 0
  timeout := truncate (cfg.timeout * 1000)
  delay := delay

/-- The timeout of a request, in seconds. -/
def Request.seconds (r : Request K) : K :=
  (r.timeout : K) / 1000

/-- The timeout every request of a configuration carries, in seconds. -/
def messageSeconds (cfg : EnoRunnerConfig K) : K :=
  (truncate (cfg.timeout * 1000) : K) / 1000

/-- `next` of an iterator. -/
def nextSlot : List K → Except ScheduleError (K × List K)
  | [] => .error .stopIteration
  | slot :: slots => .ok (slot, slots)

/-- The past ticks a flag is asked for again: at most `checkPastTicks`, from tick 1 on. -/
def pastTicks (tick : ℤ) (checkPastTicks : ℕ) : List ℤ :=
  ((List.range checkPastTicks).map fun (i : ℕ) => tick - (i + 1)).takeWhile fun t => 0 < t

/-- One request for each item, on the next unconstrained slot. -/
def unconstrainedRequests {β : Type} (make : β → K → Request K) :
    List β → List K → Except ScheduleError (List (Request K) × List K)
  | [], slots => .ok ([], slots)
  | item :: items, slots => do
    let (delay, slots) ← nextSlot slots
    let (requests, slots) ← unconstrainedRequests make items slots
    return (make item delay :: requests, slots)

/-- A `PUT` and a `GET` for each variant, and a `GETFLAG` for each past tick. -/
def pairRequests (cfg : EnoRunnerConfig K) (tick : ℤ) (put get : CheckerMethod)
    (past : List ℤ) :
    List ℕ → Timeslots K → Except ScheduleError (List (Request K) × Timeslots K)
  | [], slots => .ok ([], slots)
  | variant :: variants, slots => do
    let (putDelay, early) ← nextSlot slots.early
    let (getDelay, late) ← nextSlot slots.late
    let (again, unconstrained) ← unconstrainedRequests
      (fun related => message cfg tick get variant (some related)) past slots.unconstrained
    let (requests, slots) ← pairRequests cfg tick put get past variants
      ⟨early, late, unconstrained⟩
    return (message cfg tick put variant none putDelay ::
      message cfg tick get variant none getDelay :: again ++ requests, slots)

def flagRequests (cfg : EnoRunnerConfig K) (tick : ℤ) :=
  pairRequests cfg tick .putflag .getflag (pastTicks tick cfg.checkPastTicks)

def noiseRequests (cfg : EnoRunnerConfig K) (tick : ℤ) :=
  pairRequests cfg tick .putnoise .getnoise []

def havocRequests (cfg : EnoRunnerConfig K) (tick : ℤ) :=
  unconstrainedRequests fun variant => message cfg tick .havoc variant none

/-- The requests that `execute_checker_async` sends. -/
def drawRequests (cfg : EnoRunnerConfig K) (tick : ℤ) (info : CheckerInfo)
    (slots : Timeslots K) : Except ScheduleError (List (Request K)) := do
  let (flags, slots) ← flagRequests cfg tick (List.range info.flagVariants) slots
  let (noise, slots) ← noiseRequests cfg tick (List.range info.noiseVariants) slots
  let (havoc, _) ← havocRequests cfg tick (List.range info.havocVariants) slots.unconstrained
  return flags ++ noise ++ havoc

def executeCheckerAsync (cfg : EnoRunnerConfig K) (tick : ℤ) (tickDuration : Option ℤ)
    (info : CheckerInfo) (d : Draws K) : Except ScheduleError (List (Request K)) := do
  let slots ← genTimeslots cfg.checkPastTicks tickDuration info 15 d
  drawRequests cfg tick info slots

/-! ## Drawing the slots -/

section Drawing

variable {cfg : EnoRunnerConfig K} {tick : ℤ} {β : Type}

theorem length_pastTicks_le (tick : ℤ) (n : ℕ) : (pastTicks tick n).length ≤ n := by
  have h := (List.takeWhile_prefix (fun t : ℤ => 0 < t)
    (l := (List.range n).map fun (i : ℕ) => tick - (i + 1))).length_le
  simpa [pastTicks] using h

theorem lt_of_mem_pastTicks {n : ℕ} {t : ℤ} (h : t ∈ pastTicks tick n) : t < tick ∧ 0 < t := by
  have hpos := List.mem_takeWhile_imp (p := fun t : ℤ => decide (0 < t)) h
  have hmem := (List.takeWhile_prefix _).subset h
  obtain ⟨i, -, rfl⟩ := List.mem_map.1 hmem
  exact ⟨by omega, by simpa using hpos⟩

omit [Field K] [LinearOrder K] [FloorRing K] in
/-- Enough slots: every item gets a request on one of them, the others stay. -/
theorem unconstrainedRequests_ok (make : β → K → Request K) (items : List β) :
    ∀ slots : List K, items.length ≤ slots.length →
      ∃ requests, unconstrainedRequests make items slots =
          .ok (requests, slots.drop items.length) ∧
        ∀ r ∈ requests, ∃ item ∈ items, ∃ delay ∈ slots, r = make item delay := by
  induction items with
  | nil => intro slots _; exact ⟨[], rfl, by simp⟩
  | cons item items ih =>
    intro slots hlen
    cases slots with
    | nil => simp at hlen
    | cons delay slots =>
      obtain ⟨requests, hok, hmem⟩ := ih slots (by simpa using hlen)
      refine ⟨make item delay :: requests, ?_, ?_⟩
      · simp only [unconstrainedRequests, nextSlot, bind, Except.bind, hok]
        rfl
      · intro r hr
        rcases List.mem_cons.1 hr with rfl | hr
        · exact ⟨item, List.mem_cons_self, delay, List.mem_cons_self, rfl⟩
        · obtain ⟨item', hitem, delay', hdelay, rfl⟩ := hmem r hr
          exact ⟨item', List.mem_cons_of_mem _ hitem, delay', List.mem_cons_of_mem _ hdelay, rfl⟩

/-- The requests drawn for a list of variants: their pairs in order, and repetitions. -/
structure PairsDrawn (cfg : EnoRunnerConfig K) (tick : ℤ) (put get : CheckerMethod)
    (past : List ℤ) (variants : List ℕ) (slots : Timeslots K) (requests : List (Request K)) :
    Prop where
  put_mem : ∀ (i v : ℕ) (x : K), variants[i]? = some v → slots.early[i]? = some x →
    message cfg tick put v none x ∈ requests
  get_mem : ∀ (i v : ℕ) (x : K), variants[i]? = some v → slots.late[i]? = some x →
    message cfg tick get v none x ∈ requests
  only : ∀ r ∈ requests,
    (∃ (i v : ℕ) (x : K), variants[i]? = some v ∧ slots.early[i]? = some x ∧
        r = message cfg tick put v none x) ∨
      (∃ (i v : ℕ) (x : K), variants[i]? = some v ∧ slots.late[i]? = some x ∧
        r = message cfg tick get v none x) ∨
      ∃ v ∈ variants, ∃ t ∈ past, ∃ x ∈ slots.unconstrained, r = message cfg tick get v (some t) x

theorem pairRequests_ok (cfg : EnoRunnerConfig K) (tick : ℤ) (put get : CheckerMethod)
    (past : List ℤ) (variants : List ℕ) :
    ∀ slots : Timeslots K, variants.length ≤ slots.early.length →
      variants.length ≤ slots.late.length →
      past.length * variants.length ≤ slots.unconstrained.length →
      ∃ requests, pairRequests cfg tick put get past variants slots =
          .ok (requests, ⟨slots.early.drop variants.length, slots.late.drop variants.length,
            slots.unconstrained.drop (past.length * variants.length)⟩) ∧
        PairsDrawn cfg tick put get past variants slots requests := by
  induction variants with
  | nil =>
    intro slots _ _ _
    exact ⟨[], rfl, by simp, by simp, by simp⟩
  | cons v variants ih =>
    intro slots hearly hlate hfree
    obtain ⟨early, late, free⟩ := slots
    cases early with
    | nil => simp at hearly
    | cons a early =>
      cases late with
      | nil => simp at hlate
      | cons b late =>
        simp only [List.length_cons, Nat.mul_add, Nat.mul_one] at hearly hlate hfree
        obtain ⟨again, hagain, hagain_mem⟩ := unconstrainedRequests_ok
          (fun related => message cfg tick get v (some related)) past free (by omega)
        have hlength : past.length * variants.length ≤ (free.drop past.length).length := by
          rw [List.length_drop]
          omega
        obtain ⟨requests, hrest, hdrawn⟩ := ih ⟨early, late, free.drop past.length⟩
          (Nat.le_of_succ_le_succ hearly) (Nat.le_of_succ_le_succ hlate) hlength
        refine ⟨message cfg tick put v none a :: message cfg tick get v none b ::
          again ++ requests, ?_, ?_, ?_, ?_⟩
        · simp only [pairRequests, nextSlot, bind, Except.bind, hagain, hrest, List.length_cons,
            List.drop_succ_cons, List.drop_drop, Nat.mul_add, Nat.mul_one,
            Nat.add_comm past.length]
          rfl
        · intro i w x hw hx
          cases i with
          | zero => simp_all
          | succ i =>
            have hmem := hdrawn.put_mem i w x (by simpa using hw) (by simpa using hx)
            simp [hmem]
        · intro i w x hw hx
          cases i with
          | zero => simp_all
          | succ i =>
            have hmem := hdrawn.get_mem i w x (by simpa using hw) (by simpa using hx)
            simp [hmem]
        · intro r hr
          simp only [List.cons_append, List.mem_cons, List.mem_append] at hr
          rcases hr with rfl | rfl | hr | hr
          · exact .inl ⟨0, v, a, rfl, rfl, rfl⟩
          · exact .inr (.inl ⟨0, v, b, rfl, rfl, rfl⟩)
          · obtain ⟨t, ht, x, hx, rfl⟩ := hagain_mem r hr
            exact .inr (.inr ⟨v, List.mem_cons_self, t, ht, x, hx, rfl⟩)
          · rcases hdrawn.only r hr with ⟨i, w, x, hw, hx, rfl⟩ | ⟨i, w, x, hw, hx, rfl⟩ |
              ⟨w, hw, t, ht, x, hx, rfl⟩
            · exact .inl ⟨i + 1, w, x, by simpa using hw, by simpa using hx, rfl⟩
            · exact .inr (.inl ⟨i + 1, w, x, by simpa using hw, by simpa using hx, rfl⟩)
            · exact .inr (.inr ⟨w, List.mem_cons_of_mem _ hw, t, ht, x,
                List.mem_of_mem_drop hx, rfl⟩)

/-- `get` asks for what `put` has stored in the current tick. -/
def GetOf (get put : Request K) : Prop :=
  get.variantId = put.variantId ∧ get.relatedRoundId = get.currentRoundId ∧
    ((put.method = .putflag ∧ get.method = .getflag) ∨
      (put.method = .putnoise ∧ get.method = .getnoise))

/-- Which slots the requests of a check are drawn from. -/
structure Drawn (cfg : EnoRunnerConfig K) (slots : Timeslots K) (requests : List (Request K)) :
    Prop where
  pair_mem : ∀ (i : ℕ) (x y : K), slots.early[i]? = some x → slots.late[i]? = some y →
    ∃ put ∈ requests, ∃ get ∈ requests, GetOf get put ∧ put.delay = x ∧ get.delay = y
  pair_only : ∀ put ∈ requests, ∀ get ∈ requests, GetOf get put →
    ∃ i : ℕ, slots.early[i]? = some put.delay ∧ slots.late[i]? = some get.delay
  delay_mem : ∀ r ∈ requests, r.delay ∈ slots.early ++ slots.unconstrained ++ slots.late
  timeout_eq : ∀ r ∈ requests, r.timeout = truncate (cfg.timeout * 1000)

variable {info : CheckerInfo} {slots : Timeslots K}

theorem PairsDrawn.method_eq {put get : CheckerMethod} {past : List ℤ} {variants : List ℕ}
    {requests : List (Request K)}
    (h : PairsDrawn cfg tick put get past variants slots requests) :
    ∀ r ∈ requests, r.method = put ∨ r.method = get := by
  intro r hr
  rcases h.only r hr with ⟨i, v, x, -, -, rfl⟩ | ⟨i, v, x, -, -, rfl⟩ | ⟨v, -, t, -, x, -, rfl⟩
  · exact .inl rfl
  · exact .inr rfl
  · exact .inr rfl

theorem PairsDrawn.timeout_eq {put get : CheckerMethod} {past : List ℤ} {variants : List ℕ}
    {requests : List (Request K)}
    (h : PairsDrawn cfg tick put get past variants slots requests) :
    ∀ r ∈ requests, r.timeout = truncate (cfg.timeout * 1000) := by
  intro r hr
  rcases h.only r hr with ⟨i, v, x, -, -, rfl⟩ | ⟨i, v, x, -, -, rfl⟩ | ⟨v, -, t, -, x, -, rfl⟩
  all_goals rfl

theorem message_relatedRoundId (method : CheckerMethod) (v : ℕ) (x : K) :
    (message cfg tick method v none x).relatedRoundId = tick := by
  simp [message]

theorem message_past_relatedRoundId {t : ℤ} (ht : 0 < t) (method : CheckerMethod) (v : ℕ)
    (x : K) : (message cfg tick method v (some t) x).relatedRoundId = t := by
  simp [message, ht.ne']

/-- The `PUT` and the current `GET` of one variant are drawn at one position. -/
theorem PairsDrawn.pair_of_getOf {putm getm : CheckerMethod} {past : List ℤ} {n : ℕ}
    {requests : List (Request K)} {put get : Request K}
    (h : PairsDrawn cfg tick putm getm past (List.range n) slots requests)
    (hpast : ∀ t ∈ past, t < tick ∧ 0 < t) (hput : put ∈ requests) (hget : get ∈ requests)
    (hputm : put.method = putm) (hgetm : get.method = getm) (hne : putm ≠ getm)
    (hvariant : get.variantId = put.variantId)
    (hrelated : get.relatedRoundId = get.currentRoundId) :
    ∃ i : ℕ, slots.early[i]? = some put.delay ∧ slots.late[i]? = some get.delay := by
  have hindex {i v : ℕ} (hv : (List.range n)[i]? = some v) : i = v := by
    obtain ⟨hi, rfl⟩ := List.getElem?_eq_some_iff.1 hv
    exact (List.getElem_range hi).symm
  rcases h.only put hput with ⟨i, v, x, hv, hx, rfl⟩ | ⟨i, v, x, -, -, rfl⟩ |
    ⟨v, -, t, -, x, -, rfl⟩
  · rcases h.only get hget with ⟨j, w, y, -, -, rfl⟩ | ⟨j, w, y, hw, hy, rfl⟩ |
      ⟨w, -, t, ht, y, -, rfl⟩
    · exact absurd hgetm hne
    · have hvw : w = v := hvariant
      obtain rfl := hindex hv
      obtain rfl := hindex hw
      subst hvw
      exact ⟨_, hx, hy⟩
    · -- a repetition asks for an earlier tick
      rw [message_past_relatedRoundId (hpast t ht).2] at hrelated
      exact absurd hrelated (hpast t ht).1.ne
  · exact absurd hputm.symm hne
  · exact absurd hputm.symm hne

/-- The requests for flags, for noise and for havoc, each drawn from what the ones before leave. -/
structure PartsDrawn (cfg : EnoRunnerConfig K) (tick : ℤ) (info : CheckerInfo) (slots : Timeslots K)
    (flags noise havoc : List (Request K)) : Prop where
  flags_drawn : PairsDrawn cfg tick .putflag .getflag (pastTicks tick cfg.checkPastTicks)
    (List.range info.flagVariants) slots flags
  noise_drawn : PairsDrawn cfg tick .putnoise .getnoise [] (List.range info.noiseVariants)
    ⟨slots.early.drop info.flagVariants, slots.late.drop info.flagVariants,
      slots.unconstrained.drop ((pastTicks tick cfg.checkPastTicks).length * info.flagVariants)⟩
        noise
  havoc_drawn : ∀ r ∈ havoc, ∃ v, ∃ x ∈ slots.unconstrained, r = message cfg tick .havoc v none x

/-- Slots for every task: all requests get one. -/
theorem exists_partsDrawn (hearly : slots.early.length = constrainedTaskCount info)
    (hlate : slots.late.length = constrainedTaskCount info)
    (hfree : slots.unconstrained.length = unconstrainedTaskCount cfg.checkPastTicks info) :
    ∃ flags noise havoc, drawRequests cfg tick info slots = .ok (flags ++ noise ++ havoc) ∧
      PartsDrawn cfg tick info slots flags noise havoc := by
  obtain ⟨early, late, free⟩ := slots
  dsimp only at hearly hlate hfree
  rw [constrainedTaskCount] at hearly hlate
  rw [unconstrainedTaskCount] at hfree
  have hpast : (pastTicks tick cfg.checkPastTicks).length * info.flagVariants ≤
      cfg.checkPastTicks * info.flagVariants :=
    Nat.mul_le_mul_right _ (length_pastTicks_le tick cfg.checkPastTicks)
  set past := pastTicks tick cfg.checkPastTicks with hpast_def
  obtain ⟨flags, hflags, fdrawn⟩ := pairRequests_ok cfg tick .putflag .getflag past
    (List.range info.flagVariants) ⟨early, late, free⟩ (by simp; omega) (by simp; omega)
    (by simp; omega)
  rw [List.length_range] at hflags
  obtain ⟨noise, hnoise, ndrawn⟩ := pairRequests_ok cfg tick .putnoise .getnoise []
    (List.range info.noiseVariants) ⟨early.drop info.flagVariants, late.drop info.flagVariants,
      free.drop (past.length * info.flagVariants)⟩ (by simp; omega) (by simp; omega) (by simp)
  rw [List.length_range] at hnoise
  obtain ⟨havoc, hhavoc, hdrawn⟩ := unconstrainedRequests_ok
    (fun v => message cfg tick .havoc v none) (List.range info.havocVariants)
    ((free.drop (past.length * info.flagVariants)).drop (0 * info.noiseVariants))
    (by simp; omega)
  refine ⟨flags, noise, havoc, ?_, fdrawn, ndrawn, fun r hr => ?_⟩
  · simp only [drawRequests, flagRequests, noiseRequests, havocRequests, ← hpast_def, hflags,
      hnoise, bind, Except.bind, List.length_nil, hhavoc]
    rfl
  · obtain ⟨v, -, x, hx, rfl⟩ := hdrawn r hr
    exact ⟨v, x, List.mem_of_mem_drop (List.mem_of_mem_drop hx), rfl⟩

section Parts

variable {flags noise havoc : List (Request K)}

/-- The positions after those of the flag variants are the noise variants'. -/
theorem PartsDrawn.pair_mem (h : PartsDrawn cfg tick info slots flags noise havoc)
    (hearly : slots.early.length = constrainedTaskCount info) {i : ℕ} {x y : K}
    (hx : slots.early[i]? = some x) (hy : slots.late[i]? = some y) :
    ∃ put ∈ flags ++ noise ++ havoc, ∃ get ∈ flags ++ noise ++ havoc,
      GetOf get put ∧ put.delay = x ∧ get.delay = y := by
  by_cases hi : i < info.flagVariants
  · have hv : (List.range info.flagVariants)[i]? = some i := by simp [hi]
    refine ⟨message cfg tick .putflag i none x, ?_, message cfg tick .getflag i none y, ?_,
      ⟨rfl, message_relatedRoundId _ _ _, .inl ⟨rfl, rfl⟩⟩, rfl, rfl⟩
    · simp [h.flags_drawn.put_mem i i x hv hx]
    · simp [h.flags_drawn.get_mem i i y hv hy]
  · have hlt : i < slots.early.length := (List.getElem?_eq_some_iff.1 hx).1
    rw [hearly, constrainedTaskCount] at hlt
    have hv : (List.range info.noiseVariants)[i - info.flagVariants]? =
        some (i - info.flagVariants) :=
      List.getElem?_range (by omega)
    have hi' : info.flagVariants + (i - info.flagVariants) = i := by omega
    refine ⟨message cfg tick .putnoise (i - info.flagVariants) none x, ?_,
      message cfg tick .getnoise (i - info.flagVariants) none y, ?_,
      ⟨rfl, message_relatedRoundId _ _ _, .inr ⟨rfl, rfl⟩⟩, rfl, rfl⟩
    · have hmem := h.noise_drawn.put_mem _ _ x hv (by simpa [List.getElem?_drop, hi'] using hx)
      simp [hmem]
    · have hmem := h.noise_drawn.get_mem _ _ y hv (by simpa [List.getElem?_drop, hi'] using hy)
      simp [hmem]

theorem PartsDrawn.mem_flags (h : PartsDrawn cfg tick info slots flags noise havoc) {r : Request K}
    (hr : r ∈ flags ++ noise ++ havoc) (hmethod : r.method = .putflag ∨ r.method = .getflag) :
    r ∈ flags := by
  simp only [List.mem_append] at hr
  rcases hr with (hr | hr) | hr
  · exact hr
  · rcases h.noise_drawn.method_eq r hr with heq | heq <;> simp [heq] at hmethod
  · obtain ⟨v, x, -, rfl⟩ := h.havoc_drawn r hr
    simp [message] at hmethod

theorem PartsDrawn.mem_noise (h : PartsDrawn cfg tick info slots flags noise havoc) {r : Request K}
    (hr : r ∈ flags ++ noise ++ havoc) (hmethod : r.method = .putnoise ∨ r.method = .getnoise) :
    r ∈ noise := by
  simp only [List.mem_append] at hr
  rcases hr with (hr | hr) | hr
  · rcases h.flags_drawn.method_eq r hr with heq | heq <;> simp [heq] at hmethod
  · exact hr
  · obtain ⟨v, x, -, rfl⟩ := h.havoc_drawn r hr
    simp [message] at hmethod

theorem PartsDrawn.pair_only (h : PartsDrawn cfg tick info slots flags noise havoc)
    {put get : Request K} (hput : put ∈ flags ++ noise ++ havoc)
    (hget : get ∈ flags ++ noise ++ havoc) (hof : GetOf get put) :
    ∃ i : ℕ, slots.early[i]? = some put.delay ∧ slots.late[i]? = some get.delay := by
  obtain ⟨hvariant, hrelated, ⟨hputm, hgetm⟩ | ⟨hputm, hgetm⟩⟩ := hof
  · exact h.flags_drawn.pair_of_getOf (fun t => lt_of_mem_pastTicks)
      (h.mem_flags hput (.inl hputm)) (h.mem_flags hget (.inr hgetm)) hputm hgetm (by decide)
      hvariant hrelated
  · obtain ⟨i, hx, hy⟩ := h.noise_drawn.pair_of_getOf (by simp) (h.mem_noise hput (.inl hputm))
      (h.mem_noise hget (.inr hgetm)) hputm hgetm (by decide) hvariant hrelated
    exact ⟨info.flagVariants + i, by simpa [List.getElem?_drop] using hx,
      by simpa [List.getElem?_drop] using hy⟩

theorem PartsDrawn.delay_mem (h : PartsDrawn cfg tick info slots flags noise havoc) {r : Request K}
    (hr : r ∈ flags ++ noise ++ havoc) :
    r.delay ∈ slots.early ++ slots.unconstrained ++ slots.late := by
  simp only [List.mem_append] at hr ⊢
  rcases hr with (hr | hr) | hr
  · rcases h.flags_drawn.only r hr with ⟨i, v, x, -, hx, rfl⟩ | ⟨i, v, x, -, hx, rfl⟩ |
      ⟨v, -, t, -, x, hx, rfl⟩
    · exact .inl (.inl (List.mem_of_getElem? hx))
    · exact .inr (List.mem_of_getElem? hx)
    · exact .inl (.inr hx)
  · rcases h.noise_drawn.only r hr with ⟨i, v, x, -, hx, rfl⟩ | ⟨i, v, x, -, hx, rfl⟩ |
      ⟨v, -, t, ht, -⟩
    · exact .inl (.inl (List.mem_of_mem_drop (List.mem_of_getElem? hx)))
    · exact .inr (List.mem_of_mem_drop (List.mem_of_getElem? hx))
    · exact absurd ht List.not_mem_nil
  · obtain ⟨v, x, hx, rfl⟩ := h.havoc_drawn r hr
    exact .inl (.inr hx)

theorem PartsDrawn.timeout_eq (h : PartsDrawn cfg tick info slots flags noise havoc) {r : Request K}
    (hr : r ∈ flags ++ noise ++ havoc) : r.timeout = truncate (cfg.timeout * 1000) := by
  simp only [List.mem_append] at hr
  rcases hr with (hr | hr) | hr
  · exact h.flags_drawn.timeout_eq r hr
  · exact h.noise_drawn.timeout_eq r hr
  · obtain ⟨v, x, -, rfl⟩ := h.havoc_drawn r hr
    rfl

end Parts

theorem drawRequests_ok (hearly : slots.early.length = constrainedTaskCount info)
    (hlate : slots.late.length = constrainedTaskCount info)
    (hfree : slots.unconstrained.length = unconstrainedTaskCount cfg.checkPastTicks info) :
    ∃ requests, drawRequests cfg tick info slots = .ok requests ∧ Drawn cfg slots requests := by
  obtain ⟨flags, noise, havoc, hok, hparts⟩ :
      ∃ flags noise havoc, drawRequests cfg tick info slots = .ok (flags ++ noise ++ havoc) ∧
        PartsDrawn cfg tick info slots flags noise havoc := exists_partsDrawn hearly hlate hfree
  exact ⟨flags ++ noise ++ havoc, hok,
    { pair_mem := fun _ _ _ hx hy => hparts.pair_mem hearly hx hy
      pair_only := fun _ hput _ hget hof => hparts.pair_only hput hget hof
      delay_mem := fun _ hr => hparts.delay_mem hr
      timeout_eq := fun _ hr => hparts.timeout_eq hr }⟩

end Drawing

/-! ## Which services have a schedule -/

section Total

variable {cfg : EnoRunnerConfig K} {tick : ℤ} {tickDuration : Option ℤ} {info : CheckerInfo}
  {d : Draws K} {P : ℕ} {τ : K}

omit [FloorRing K] in
theorem genTimeslots_of_no_pair (hc : constrainedTaskCount info = 0) :
    genTimeslots P tickDuration info τ d =
      .error (if info.havocVariants = 0 then .zeroDivisionError else .indexError) := by
  rw [genTimeslots, genTimeslotsFlat_of_no_pair hc]
  split_ifs <;> rfl

variable [IsStrictOrderedRing K]

omit [FloorRing K] in
/-- With a pair, an `AssertionError` is the only exception there can be. -/
theorem genTimeslots_eq (hc : 0 < constrainedTaskCount info) :
    genTimeslots P tickDuration info τ d =
      .ok (if RoomForTask P (tickLengthOf tickDuration) info τ then
        flatTimeslots P (tickLengthOf tickDuration) info τ d
      else genTimeslotsFallback P info d) := by
  rw [genTimeslots, genTimeslotsFlat_eq hc]
  split_ifs <;> rfl

omit [LinearOrder K] [FloorRing K] [IsStrictOrderedRing K] in
theorem lengths_genTimeslotsFallback (P : ℕ) (info : CheckerInfo) (d : Draws K) :
    let s := genTimeslotsFallback P info d
    s.early.length = constrainedTaskCount info ∧ s.late.length = constrainedTaskCount info ∧
      s.unconstrained.length = unconstrainedTaskCount P info := by
  simp [genTimeslotsFallback]

/-- The slots a check is drawn from, where there is a pair. -/
def checkTimeslots (cfg : EnoRunnerConfig K) (tickDuration : Option ℤ) (info : CheckerInfo)
    (d : Draws K) : Timeslots K :=
  if RoomForTask cfg.checkPastTicks (tickLengthOf tickDuration : K) info 15 then
    flatTimeslots cfg.checkPastTicks (tickLengthOf tickDuration) info 15 d
  else genTimeslotsFallback cfg.checkPastTicks info d

/-- Both generators give a slot to every task, so every request is drawn. -/
theorem executeCheckerAsync_eq (cfg : EnoRunnerConfig K) (tick : ℤ) (tickDuration : Option ℤ)
    (info : CheckerInfo) (hc : 0 < constrainedTaskCount info)
    (hd : d.Fits (constrainedTaskCount info) (unconstrainedTaskCount cfg.checkPastTicks info)) :
    ∃ requests, executeCheckerAsync cfg tick tickDuration info d = .ok requests ∧
      Drawn cfg (checkTimeslots cfg tickDuration info d) requests := by
  rw [executeCheckerAsync, genTimeslots_eq hc]
  simp only [bind, Except.bind, checkTimeslots]
  split_ifs with hroom
  · obtain ⟨hearly, hlate, hfree⟩ := lengths_flatTimeslots hd
    exact drawRequests_ok hearly hlate hfree
  · obtain ⟨hearly, hlate, hfree⟩ :=
      lengths_genTimeslotsFallback cfg.checkPastTicks info d
    exact drawRequests_ok hearly hlate hfree

/-- **A schedule exists exactly where there is a flag or a noise variant**, whatever the tick,
its length, the number of past ticks and the random outcome. -/
theorem executeCheckerAsync_total_iff (cfg : EnoRunnerConfig K)
    (hd : d.Fits (constrainedTaskCount info) (unconstrainedTaskCount cfg.checkPastTicks info)) :
    ((∃ slots, genTimeslots cfg.checkPastTicks tickDuration info (15 : K) d = .ok slots) ∧
        ∃ requests, executeCheckerAsync cfg tick tickDuration info d = .ok requests) ↔
      1 ≤ info.flagVariants + info.noiseVariants := by
  constructor
  · rintro ⟨⟨slots, hslots⟩, -⟩
    by_contra hnone
    rw [genTimeslots_of_no_pair (by rw [constrainedTaskCount]; omega)] at hslots
    cases hslots
  · intro hpair
    obtain ⟨requests, hrequests, -⟩ := executeCheckerAsync_eq cfg tick tickDuration info hpair hd
    exact ⟨⟨_, genTimeslots_eq hpair⟩, requests, hrequests⟩

theorem executeCheckerAsync_total_sample :
    (∃ slots, genTimeslots 5 (some 60) ⟨1, 0, 0⟩ (15 : ℚ) (steadyDraws 1 5 fun _ _ => 1 / 2) =
        .ok slots) ∧
      ∃ requests, executeCheckerAsync ⟨5, (15 : ℚ)⟩ 7 (some 60) ⟨1, 0, 0⟩
        (steadyDraws 1 5 fun _ _ => 1 / 2) = .ok requests :=
  (executeCheckerAsync_total_iff ⟨5, 15⟩
    (steadyDraws_fits (fun _ _ => by norm_num) fun _ _ => by norm_num)).2 (by decide)

/-- A service with nothing but havoc has no schedule: the last early slot does not exist. -/
theorem not_executeCheckerAsync_total :
    ¬ ∃ slots, genTimeslots 5 (some 60) ⟨0, 0, 3⟩ (15 : ℚ) (steadyDraws 0 3 fun _ _ => 1 / 2) =
      .ok slots := by
  rintro ⟨slots, hslots⟩
  rw [genTimeslots_of_no_pair rfl] at hslots
  cases hslots

end Total

end Gameserver.Eno
