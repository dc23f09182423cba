import Gameserver.Lib.Spacing
import Gameserver.Timer.Basic
import Mathlib.Algebra.Order.Field.Rat
import Mathlib.Data.List.Dedup
import Mathlib.Data.List.Nodup
import Mathlib.Data.Rat.Cast.Order
import Mathlib.Tactic.FieldSimp
import Mathlib.Tactic.Linarith
import Mathlib.Tactic.Positivity
import Mathlib.Tactic.Ring

/-!
# Tasks that are spread over the tick

`DelayingCeleryDispatcher` of `controlserver/dispatcher.py` dispatches the same tasks as
`CeleryDispatcher`, but the tasks of the running tick become due one after the other.

* `createCeleryTask`, `plainDispatch` — the tasks of `CeleryDispatcher`.
* `spreadWindow`, `delay`, `delayedTasks`, `dispatch` — `DelayingCeleryDispatcher._dispatch`.
* `etas_delayedTasks` — the due times of the tasks of one service, in closed form.
* `dispatch_spread` — **the same tasks, each done before the end of the tick, and evenly spread**.

Times are rational numbers: the rounding of `float` and of `timedelta` is left out.
-/

namespace Gameserver.Dispatcher.Delaying

open Timer Spacing

/-! ## Tasks -/

/-- A `Service`, as far as its tasks go. -/
structure Service where
  id : ℕ
  checkerRunner : String
  package : Option String
  checkerScript : String
  checkerTimeout : ℤ
  checkerSubprocess : Bool
  checkerRoute : Option String
  /-- The text of a JSON column. -/
  runnerConfig : Option String
  deriving DecidableEq

/-- A combination of a team, a service and a tick. -/
structure Combination where
  teamId : ℕ
  service : Service
  tick : ℤ
  deriving DecidableEq

/-- `**overrides` -/
structure Overrides where
  package : Option String := none
  route : Option String := none

inductive RunFunc where
  | runCheckerscript
  | runCheckerscriptExternal
  deriving DecidableEq

/-- The signature of a task. -/
structure Task where
  runFunc : RunFunc
  checkerRunner : String
  package : Option String
  checkerScript : String
  serviceId : ℕ
  teamId : ℕ
  tick : ℤ
  runnerConfig : Option String
  timeLimit : ℤ
  softTimeLimit : ℤ
  countdown : Option ℤ
  queue : String
  eta : Option ℚ
  deriving DecidableEq

/-- `text or other`, where a text can be `None`. -/
def textOr (text : Option String) (other : String) : String :=
  if text.getD "" = "" then other else text.getD ""

/-- The timeout of `_create_celery_task`. -/
def softTimeLimit (service : Service) : ℤ :=
  if service.checkerSubprocess then service.checkerTimeout + 5 else service.checkerTimeout

/-- `_create_celery_task`. -/
def createCeleryTask (overrides : Overrides) (eta : Option ℚ) (c : Combination) : Task where
  runFunc := if c.service.checkerSubprocess then .runCheckerscriptExternal else .runCheckerscript
  checkerRunner := c.service.checkerRunner
  package := if overrides.package.getD "" = "" then c.service.package else overrides.package
  checkerScript := c.service.checkerScript
  serviceId := c.service.id
  teamId := c.teamId
  tick := c.tick
  runnerConfig := c.service.runnerConfig
  timeLimit := softTimeLimit c.service + 5
  softTimeLimit := softTimeLimit c.service
  countdown := if c.service.checkerScript = "pendingtest" then some 150 else none
  queue := textOr overrides.route (textOr c.service.checkerRoute "celery")
  eta := eta

/-- `CeleryDispatcher._dispatch`. -/
def plainDispatch (overrides : Overrides) (combinations : List Combination) : List Task :=
  combinations.map (createCeleryTask overrides none)

/-! ## Delays -/

/-- The start and the end of the tick, where the tasks are going to be delayed. -/
def spreadWindow (m : CTFTimer) (now : ℚ) (combinations : List Combination) : Option (ℤ × ℤ) :=
  match (combinations.map Combination.tick).dedup, m.tickStart, m.tickEnd with
  | [tick], some tickStart, some tickEnd =>
    if 0 ≤ tick ∧ tick = m.currentTick ∧ tickStart ≤ now ∧ now < tickEnd ∧ tickEnd - now < 900 then
      some (tickStart, tickEnd)
    else none
  | _, _, _ => none

/-- How far the tasks of a service are spread. -/
def factor (tickStart tickEnd : ℤ) (service : Service) : ℤ :=
  tickEnd - tickStart - service.checkerTimeout - if service.checkerSubprocess then 15 else 10

/-- The first loop: `counts` and `factors`. -/
def countService (tickStart tickEnd : ℤ) (acc : (ℕ → ℕ) × (ℕ → Option ℤ)) (c : Combination) :
    (ℕ → ℕ) × (ℕ → Option ℤ) :=
  (Function.update acc.1 c.service.id (acc.1 c.service.id + 1),
    if acc.2 c.service.id = none then
      Function.update acc.2 c.service.id (some (factor tickStart tickEnd c.service))
    else acc.2)

/-- The delay of a task, when `seen` tasks of its service have come before. -/
def delay (factor : ℤ) (seen count : ℕ) : ℚ :=
  let delay : ℚ := factor * seen / count
  if delay < 3 then 0 else delay

/-- The second loop.  Every service has got its factor in the first one. -/
def delayedTasks (overrides : Overrides) (tickStart : ℤ) (counts : ℕ → ℕ) (factors : ℕ → Option ℤ) :
    (ℕ → ℕ) → List Combination → List Task
  | _, [] => []
  | seen, c :: combinations =>
    let id := c.service.id
    let eta := tickStart + delay ((factors id).getD 0) (seen id) (counts id)
    createCeleryTask overrides (some eta) c ::
      delayedTasks overrides tickStart counts factors (Function.update seen id (seen id + 1))
        combinations

/-- `DelayingCeleryDispatcher._dispatch`. -/
def dispatch (m : CTFTimer) (now : ℚ) (overrides : Overrides) (combinations : List Combination) :
    List Task :=
  match spreadWindow m now combinations with
  | none => plainDispatch overrides combinations
  | some (tickStart, tickEnd) =>
    let loop := combinations.foldl (countService tickStart tickEnd) (fun _ => 0, fun _ => none)
    delayedTasks overrides tickStart loop.1 loop.2 (fun _ => 0) combinations

section Spread

variable {m : CTFTimer} {now : ℚ} {overrides : Overrides} {combinations : List Combination}
  {tickStart tickEnd : ℤ}

/-- How many tasks a service has. -/
def countOf (combinations : List Combination) (id : ℕ) : ℕ :=
  combinations.countP fun c => c.service.id = id

/-! ## The two loops -/

/-- What the first loop has counted. -/
theorem foldl_countService (acc : (ℕ → ℕ) × (ℕ → Option ℤ)) (id : ℕ) :
    (combinations.foldl (countService tickStart tickEnd) acc).1 id =
        acc.1 id + countOf combinations id ∧
      (combinations.foldl (countService tickStart tickEnd) acc).2 id =
        (acc.2 id).or ((combinations.find? fun c => c.service.id = id).map fun c =>
          factor tickStart tickEnd c.service) := by
  induction combinations generalizing acc with
  | nil => simp [countOf]
  | cons c combinations ih =>
    obtain ⟨hcount, hfactor⟩ := ih (countService tickStart tickEnd acc c)
    rw [List.foldl_cons, hcount, hfactor]
    by_cases hid : c.service.id = id
    · subst hid
      cases hknown : acc.2 c.service.id <;>
        simp [countService, countOf, hknown, Nat.add_assoc, Nat.add_comm 1]
    · cases hknown : acc.2 c.service.id <;>
        simp [countService, countOf, hknown, hid, Ne.symm hid]

variable {counts : ℕ → ℕ} {factors : ℕ → Option ℤ}

/-- The second loop only sets the due times. -/
theorem map_delayedTasks (seen : ℕ → ℕ) :
    (delayedTasks overrides tickStart counts factors seen combinations).map
        (fun task => { task with eta := none }) = plainDispatch overrides combinations := by
  induction combinations generalizing seen with
  | nil => rfl
  | cons c combinations ih =>
    simp only [delayedTasks, List.map_cons, plainDispatch, ih]
    rfl

/-- **The due times of one service**, in closed form. -/
theorem etas_delayedTasks (seen : ℕ → ℕ) (id : ℕ) :
    ((delayedTasks overrides tickStart counts factors seen combinations).filter
        fun task => task.serviceId = id).map Task.eta =
      (List.range' (seen id) (countOf combinations id)).map fun i =>
        some (tickStart + delay ((factors id).getD 0) i (counts id)) := by
  induction combinations generalizing seen with
  | nil => rfl
  | cons c combinations ih =>
    rw [delayedTasks, countOf, List.countP_cons]
    by_cases hid : c.service.id = id
    · subst hid
      simp [createCeleryTask, ih, countOf, List.range'_succ]
    · simp [createCeleryTask, ih, countOf, hid, Function.update_of_ne (Ne.symm hid)]

/-- A task of the second loop. -/
theorem exists_of_mem_delayedTasks {seen : ℕ → ℕ} {task : Task}
    (h : task ∈ delayedTasks overrides tickStart counts factors seen combinations) :
    ∃ c ∈ combinations, ∃ i < seen c.service.id + countOf combinations c.service.id,
      task = createCeleryTask overrides
        (some (tickStart + delay ((factors c.service.id).getD 0) i (counts c.service.id))) c := by
  induction combinations generalizing seen with
  | nil => exact absurd h List.not_mem_nil
  | cons c combinations ih =>
    rw [delayedTasks] at h
    rcases List.mem_cons.1 h with rfl | h
    · exact ⟨c, List.mem_cons_self, seen c.service.id, by simp [countOf], rfl⟩
    · obtain ⟨c', hc', i, hi, rfl⟩ := ih h
      refine ⟨c', List.mem_cons_of_mem c hc', i, ?_, rfl⟩
      simp only [countOf, List.countP_cons] at hi ⊢
      by_cases hid : c.service.id = c'.service.id
      · simp [hid] at hi ⊢
        omega
      · simpa [Function.update_of_ne (Ne.symm hid), hid] using hi

/-! ## The delays -/

variable {f : ℤ} {i j n : ℕ}

theorem delay_nonneg (f : ℤ) (i n : ℕ) : 0 ≤ delay f i n := by
  simp only [delay]
  split
  · exact le_rfl
  · linarith

/-- A task that is delayed at all is delayed by less than the factor. -/
theorem delay_lt_factor (hi : i < n) (hpos : 0 < delay f i n) : delay f i n < f := by
  simp only [delay] at hpos ⊢
  split_ifs at hpos ⊢ with hshort
  · exact absurd hpos (lt_irrefl 0)
  · have hn : (0 : ℚ) < n := by exact_mod_cast (Nat.zero_le i).trans_lt hi
    have hin : (i : ℚ) < n := by exact_mod_cast hi
    have hf : (0 : ℚ) < f := by
      by_contra hle
      have hi0 : (0 : ℚ) ≤ i := Nat.cast_nonneg i
      have hprod := mul_nonpos_of_nonpos_of_nonneg (not_lt.1 hle) hi0
      exact absurd hpos (not_lt.2 (div_nonpos_of_nonpos_of_nonneg hprod hn.le))
    rw [div_lt_iff₀ hn]
    exact mul_lt_mul_of_pos_left hin hf

/-- Two tasks of a service in a window, on the line of the delays that are not cut off. -/
theorem line_lt_of_window (hf : 0 < f) {start a window : ℚ} (hwindow : 3 ≤ window)
    (hi : a ≤ start + delay f i n) (hj : start + delay f j n < a + window) :
    (f * j / n : ℚ) < f * i / n + window := by
  have hline : 0 ≤ (f * i / n : ℚ) := by positivity
  have hle : delay f i n ≤ f * i / n := by
    simp only [delay]
    split
    · exact hline
    · exact le_rfl
  simp only [delay] at hj
  split_ifs at hj with hshort
  · linarith
  · linarith [show start + delay f i n ≤ start + f * i / n by linarith]

/-- How many tasks of a service become due in a window of time. -/
def dueIn (tasks : List Task) (id : ℕ) (a window : ℚ) : ℕ :=
  ((tasks.filter fun task => task.serviceId = id).map Task.eta).countP fun eta =>
    eta.any fun due => a ≤ due ∧ due < a + window

/-- The tasks of a service that are due in one window. -/
theorem length_window_lt (hf : 0 < f) (hn : 0 < n) {start a window : ℚ} (hwindow : 3 ≤ window) :
    (((List.range' 0 n).filter fun i =>
      decide (a ≤ start + delay f i n ∧ start + delay f i n < a + window)).length * f : ℚ) <
      window * n + f := by
  have hn' : (0 : ℚ) < n := by exact_mod_cast hn
  have hf' : (0 : ℚ) < f := by exact_mod_cast hf
  generalize hdue : ((List.range' 0 n).filter fun i =>
    decide (a ≤ start + delay f i n ∧ start + delay f i n < a + window)) = due
  have hsorted : due.Pairwise (· < ·) := by
    rw [← hdue]
    exact (List.pairwise_lt_range' 1).filter _
  by_cases hempty : due = []
  · rw [hempty, List.length_nil, Nat.cast_zero, zero_mul]
    positivity
  -- without the cut, the tasks of a service are spaced by `f / n`
  have hspaced : (due.map fun i : ℕ => (f * i / n : ℚ)).Pairwise fun s t =>
      s + (f / n : ℚ) ≤ t := by
    rw [List.pairwise_map]
    refine hsorted.imp fun {i j} hij => ?_
    have hij' : (i + 1 : ℚ) ≤ j := by exact_mod_cast hij
    calc (f * i / n + f / n : ℚ) = f * (i + 1) / n := by ring
      _ ≤ f * j / n := by gcongr
  have hclose : ∀ s ∈ due.map fun i : ℕ => (f * i / n : ℚ),
      ∀ t ∈ due.map fun i : ℕ => (f * i / n : ℚ), t < s + window := by
    simp only [List.mem_map]
    rintro - ⟨i, hi, rfl⟩ - ⟨j, hj, rfl⟩
    rw [← hdue, List.mem_filter, decide_eq_true_iff] at hi hj
    exact line_lt_of_window hf hwindow hi.2.1 hj.2.2
  have hload := length_nsmul_lt hspaced hclose (by simpa using hempty)
  rw [List.length_map, nsmul_eq_mul, mul_div_assoc', div_lt_iff₀ hn', add_mul,
    div_mul_cancel₀ _ hn'.ne'] at hload
  exact hload

/-! ## The dispatcher -/

/-- The factor of a service is its own. -/
theorem factor_find? (hsame : ∀ c ∈ combinations, ∀ c' ∈ combinations,
      c.service.id = c'.service.id → c.service = c'.service) {c : Combination}
    (hc : c ∈ combinations) :
    ((combinations.find? fun c' => c'.service.id = c.service.id).map fun c' =>
      factor tickStart tickEnd c'.service) = some (factor tickStart tickEnd c.service) := by
  cases hfind : combinations.find? fun c' => c'.service.id = c.service.id with
  | none =>
    have hnone := List.find?_eq_none.1 hfind c hc
    simp at hnone
  | some c' =>
    have hid : c'.service.id = c.service.id := by simpa using List.find?_some hfind
    simp [hsame c' (List.mem_of_find?_eq_some hfind) c hc hid]

/-- The due times and the time limit of one task. -/
theorem due_lt_tickEnd {c : Combination} {i n : ℕ} (hi : i < n) {due : ℚ}
    (hdue : due = tickStart + delay (factor tickStart tickEnd c.service) i n)
    (hdelayed : tickStart < due) : due + (softTimeLimit c.service + 5 : ℤ) + 5 < tickEnd := by
  have hlt := delay_lt_factor (f := factor tickStart tickEnd c.service) hi (by linarith)
  rw [hdue]
  cases hsub : c.service.checkerSubprocess <;>
    simp only [factor, softTimeLimit, hsub] at hlt ⊢ <;> push_cast at hlt ⊢ <;>
    linarith

/-- **Tasks are spread over their tick.**  The dispatcher creates the tasks of the plain one, in
their order.  No task becomes due before the tick starts, and those that are delayed reach their
time limit more than five seconds before the tick ends.  Any three seconds or more hold at most
the share of a service's tasks that is theirs, and one more. -/
theorem dispatch_spread (hsame : ∀ c ∈ combinations, ∀ c' ∈ combinations,
      c.service.id = c'.service.id → c.service = c'.service) :
    (dispatch m now overrides combinations).map (fun task => { task with eta := none }) =
        plainDispatch overrides combinations ∧
      (∀ task ∈ dispatch m now overrides combinations, ∀ due, task.eta = some due →
        ∃ tickStart tickEnd, spreadWindow m now combinations = some (tickStart, tickEnd) ∧
          tickStart ≤ due ∧ (tickStart < due → due + task.timeLimit + 5 < tickEnd)) ∧
      ∀ tickStart tickEnd, spreadWindow m now combinations = some (tickStart, tickEnd) →
        ∀ c ∈ combinations, 0 < factor tickStart tickEnd c.service → ∀ a window : ℚ, 3 ≤ window →
          (dueIn (dispatch m now overrides combinations) c.service.id a window *
            factor tickStart tickEnd c.service : ℚ) <
            window * countOf combinations c.service.id + factor tickStart tickEnd c.service := by
  rw [dispatch]
  cases hspread : spreadWindow m now combinations with
  | none =>
    refine ⟨?_, ?_, ?_⟩
    · simp [plainDispatch, createCeleryTask]
    · intro task htask due hdue
      obtain ⟨c, -, rfl⟩ := List.mem_map.1 htask
      cases hdue
    · simp
  | some window =>
    obtain ⟨tickStart, tickEnd⟩ := window
    have hloop := @foldl_countService combinations tickStart tickEnd (fun _ => 0, fun _ => none)
    dsimp only
    generalize combinations.foldl (countService tickStart tickEnd) (fun _ => 0, fun _ => none) =
      loop at hloop ⊢
    have hcounts : ∀ id, loop.1 id = countOf combinations id :=
      fun id => by simpa using (hloop id).1
    have hfactors : ∀ c ∈ combinations,
        loop.2 c.service.id = some (factor tickStart tickEnd c.service) := fun c hc => by
      rw [(hloop c.service.id).2, factor_find? hsame hc]
      rfl
    refine ⟨map_delayedTasks _, ?_, ?_⟩
    · intro task htask due hdue
      obtain ⟨c, hc, i, hi, rfl⟩ := exists_of_mem_delayedTasks htask
      rw [zero_add] at hi
      rw [hfactors c hc, hcounts] at hdue
      have hdue' : due = tickStart + delay (factor tickStart tickEnd c.service) i
          (countOf combinations c.service.id) := (Option.some_inj.1 hdue).symm
      refine ⟨tickStart, tickEnd, rfl, ?_, due_lt_tickEnd hi hdue'⟩
      rw [hdue']
      linarith [delay_nonneg (factor tickStart tickEnd c.service) i
        (countOf combinations c.service.id)]
    · intro start last hwindows c hc hpos a window hwindow
      obtain ⟨rfl, rfl⟩ : tickStart = start ∧ tickEnd = last := by simpa using hwindows
      have hn : 0 < countOf combinations c.service.id :=
        List.countP_pos_iff.2 ⟨c, hc, decide_eq_true rfl⟩
      rw [dueIn, etas_delayedTasks, hfactors c hc, hcounts, List.countP_map,
        List.countP_eq_length_filter]
      exact length_window_lt hpos hn hwindow

end Spread

/-- A service with a timeout of 20 s. -/
def notes : Service := ⟨1, "saarctf:SaarctfServiceRunner", some "1f", "notes.py:Checker", 20, false,
  none, none⟩

/-- The third tick, of one minute. -/
def minute : CTFTimer :=
  { CTFTimer.new 60 with
    state := .running, currentTick := 3, tickStart := some 1000, tickEnd := some 1060 }

/-- The third tick with three teams. -/
def thirdTick : List Combination := [⟨7, notes, 3⟩, ⟨5, notes, 3⟩, ⟨6, notes, 3⟩]

/-- The tasks are due after 0, 10 and 20 seconds. -/
theorem dispatch_spread_thirdTick :
    let tasks := dispatch minute (1000 + 1 / 2) {} thirdTick
    tasks.map Task.eta = [some 1000, some 1010, some 1020] ∧
      (dueIn tasks 1 1008 5 * 30 : ℚ) < 5 * 3 + 30 := by
  have hspread := @dispatch_spread minute (1000 + 1 / 2) {} thirdTick (by decide)
  have hwindow : spreadWindow minute (1000 + 1 / 2) thirdTick = some (1000, 1060) := by
    decide +kernel
  exact ⟨by decide +kernel, hspread.2.2 1000 1060 hwindow _ List.mem_cons_self (by decide) 1008 5
    (by norm_num)⟩

end Gameserver.Dispatcher.Delaying
