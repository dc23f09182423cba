import Gameserver.Dispatcher.Collect
import Mathlib.Data.List.Nodup
import Mathlib.Data.List.ProdSigma
import Mathlib.Data.List.MinMax
import Mathlib.Algebra.Order.Ring.Rat
import Mathlib.Logic.Function.Basic

/-!
# The tasks of a tick and their collection

At the start of a tick the dispatcher creates a task for every team and service, in a random
order, and at its end one thread goes over the tasks and then starts the scoring
(`_on_end_tick_deferred` of `controlserver/events_impl.py`).  The workers go on meanwhile.

* `combinations`, `Dispatched` — what is dispatched.
* `issueWarnings` — `_issue_warnings`, which also computes how early the last script finished.
* `World`, `World.step` — the thread, in any interleaving with the workers.
* `batch_collected` — **every dispatched combination gets a row, and the other rows are left
  alone**.
* `scoring_skipped_iff` — **when the collection raises, and the tick is not scored**.
-/

namespace Gameserver.Dispatcher

open Machine

/-! ## What is dispatched -/

/-- A `Team`, as far as the dispatcher looks at it. -/
structure Team where
  id : ℕ
  vpnConnected : Bool
  vpn2Connected : Bool
  wgVulnboxConnected : Bool

/-- A `Service`, as far as the dispatcher looks at it. -/
structure Service where
  id : ℕ
  checkerEnabled : Bool

/-- The ids of a team and of a service. -/
abbrev Key := ℕ × ℕ

/-- The combinations of `dispatch_checker_scripts`, before they are shuffled. -/
def combinations (checkVpnStatus : Bool) (teams : List Team) (services : List Service) :
    List Key :=
  let teams := if checkVpnStatus then
      teams.filter fun team => team.vpnConnected || team.vpn2Connected || team.wgVulnboxConnected
    else teams
  (teams.map Team.id).product ((services.filter Service.checkerEnabled).map Service.id)

/-- A tick after `dispatch_checker_scripts`.  Without combinations nothing is dispatched, and
`dispatcher:order:{tick}` is not there. -/
structure Dispatched where
  tick : ℤ
  checkVpnStatus : Bool
  teams : List Team
  services : List Service
  /-- `dispatcher:order:{tick}` -/
  order : List Key
  order_perm : order.Perm (combinations checkVpnStatus teams services)
  nodup_teams : (teams.map Team.id).Nodup
  nodup_services : (services.map Service.id).Nodup

namespace Dispatched

variable (d : Dispatched)

/-- The rows that `checker_results` can have for the tick. -/
def keys : List Key := (d.teams.map Team.id).product (d.services.map Service.id)

theorem nodup_order : d.order.Nodup := by
  rw [d.order_perm.nodup_iff]
  refine List.Nodup.product ?_ (d.nodup_services.sublist (List.filter_sublist.map _))
  split
  · exact d.nodup_teams.sublist (List.filter_sublist.map _)
  · exact d.nodup_teams

theorem order_subset : d.order ⊆ d.keys := by
  intro key hkey
  obtain ⟨hteam, hservice⟩ := List.pair_mem_product.mp (d.order_perm.mem_iff.mp hkey)
  refine List.pair_mem_product.mpr ⟨?_, List.map_subset _ (List.filter_subset_self _) hservice⟩
  split at hteam
  · exact List.map_subset _ (List.filter_subset_self _) hteam
  · exact hteam

/-- No combination comes twice. -/
theorem ne_of_order {d : Dispatched} {past rest : List Key} {key other : Key}
    (horder : d.order = past ++ key :: rest) (hother : other ∈ past ∨ other ∈ rest) :
    other ≠ key := by
  have hnodup := d.nodup_order
  rw [horder, List.nodup_append, List.nodup_cons] at hnodup
  obtain ⟨-, ⟨hrest, -⟩, hdisjoint⟩ := hnodup
  rintro rfl
  rcases hother with hother | hother
  · exact hdisjoint other hother other List.mem_cons_self rfl
  · exact hrest hother

end Dispatched

/-! ## The statistics -/

/-- The `stats` of `_collect`. -/
structure Stats where
  success : ℕ
  started : ℕ
  revoked : ℕ
  failure : ℕ
  deriving DecidableEq

namespace Stats

/-- `stats[status] += 1`, for the status that `_handle_celery_result` returns. -/
def add (stats : Stats) : CeleryState → Stats
  | .success => { stats with success := stats.success + 1 }
  | .started => { stats with started := stats.started + 1 }
  | .pending | .retry | .revoked => { stats with revoked := stats.revoked + 1 }
  | .failure _ _ => { stats with failure := stats.failure + 1 }

/-- `sum(stats.values())` -/
def total (stats : Stats) : ℕ := stats.success + stats.started + stats.revoked + stats.failure

/-- The statistics of the states that were seen. -/
def of (seen : List CeleryState) : Stats := seen.foldl add ⟨0, 0, 0, 0⟩

theorem of_concat (seen : List CeleryState) (state : CeleryState) :
    of (seen ++ [state]) = (of seen).add state := by
  simp [of]

theorem total_add (stats : Stats) (state : CeleryState) :
    (stats.add state).total = stats.total + 1 := by
  cases state <;> simp only [add, total] <;> omega

theorem total_of (seen : List CeleryState) : (of seen).total = seen.length := by
  induction seen using List.reverseRecOn with
  | nil => rfl
  | append_singleton seen state ih => rw [of_concat, total_add, ih, List.length_append]; rfl

/-- A task that is through. -/
def Ended : CeleryState → Prop
  | .success => True
  | .failure _ _ => True
  | _ => False

theorem not_open_of (seen : List CeleryState) :
    (of seen).revoked = 0 ∧ (of seen).started = 0 ↔ ∀ state ∈ seen, Ended state := by
  induction seen using List.reverseRecOn with
  | nil => simp [of]
  | append_singleton seen state ih =>
    rw [of_concat, List.forall_mem_append, ← ih]
    cases state <;> simp [add, Ended]

end Stats

/-! ## The warnings -/

/-- The warnings of `_issue_warnings`. -/
inductive Warning where
  /-- "Not all checker scripts have been executed. {} / {} revoked, {} / {} still active" -/
  | notExecuted (revoked started total : ℕ)
  /-- "Not all checker scripts finished in time: {} / {} still active" -/
  | notFinished (started total : ℕ)
  /-- "Worker close to overload: Last checker script finished {:.1f} sec before deadline" -/
  | closeToOverload (seconds : ℚ)
  deriving DecidableEq

/-- `_issue_warnings`: its warnings, and what it returns, if it does not raise.  Without a
script that has finished, `last_finished` is `None` and has no `timestamp`. -/
def issueWarnings (stats : Stats) (collectTime : ℚ) (lastFinished : Option ℕ) :
    List Warning × Option ℚ :=
  if 0 < stats.revoked then ([.notExecuted stats.revoked stats.started stats.total], some 0)
  else if 0 < stats.started then ([.notFinished stats.started stats.total], some 0)
  else
    match lastFinished with
    | none => ([], none)
    | some last =>
      (if collectTime - last ≤ 7 / 2 then [.closeToOverload (collectTime - last)] else [],
        some (collectTime - last))

theorem issueWarnings_eq_none_iff {stats : Stats} {collectTime : ℚ} {lastFinished : Option ℕ} :
    (issueWarnings stats collectTime lastFinished).2 = none ↔
      (stats.revoked = 0 ∧ stats.started = 0) ∧ lastFinished = none := by
  cases lastFinished <;> simp only [issueWarnings] <;> split_ifs <;> simp <;> omega

/-! ## The end of a tick -/

/-- How far `_on_end_tick_deferred` is. -/
inductive Phase where
  | waiting
  | collecting (rest : List Key)
  | writing (key : Key) (seen : CeleryState) (rest : List Key)
  /-- `scoring_and_ranking` is called. -/
  | scoring
  /-- `collect_checker_results` has raised, and `log_result_of_execution` raises again. -/
  | aborted
  deriving DecidableEq

/-- The tasks of all teams and services, and the thread. -/
structure World where
  tasks : Key → Task
  phase : Phase
  stats : Stats
  collectTime : ℚ
  warnings : List Warning

/-- The events of Celery and its workers. -/
def Event.isWorker : Event → Bool
  | .collectRead | .collectWrite => false
  | _ => true

namespace World

/-- After the dispatch, with the rows that were there before. -/
def start (rows : Key → Option Row) : World :=
  ⟨fun key => .dispatched (rows key), .waiting, .of [], 0, []⟩

/-- `func.max(CheckerResult.finished)` -/
def lastFinished (d : Dispatched) (w : World) : Option ℕ :=
  (d.keys.filterMap fun key => (w.tasks key).row.bind Row.finished).max?

/-- A step of a task. -/
def move (w : World) (key : Key) (e : Event) : World :=
  { w with tasks := Function.update w.tasks key (Dispatcher.step (w.tasks key) e) }

/-- What moves: a worker with a task, or the thread, at a time. -/
inductive Move where
  | worker (key : Key) (e : Event)
  | thread (now : ℚ)

/-- One step.  The thread reads the states of the tasks and writes their rows in the order of
the dispatch. -/
def step (d : Dispatched) (w : World) : Move → World
  | .worker key e => if key ∈ d.order ∧ e.isWorker then w.move key e else w
  | .thread now =>
    match w.phase with
    | .waiting =>
      -- `collect_checker_results` has nothing to do for these ticks
      if d.tick ≤ 0 ∨ d.order = [] then { w with phase := .scoring }
      else { w with phase := .collecting d.order, collectTime := now }
    | .collecting (key :: rest) =>
      { w.move key .collectRead with phase := .writing key (w.tasks key).state rest }
    | .writing key seen rest =>
      { w.move key .collectWrite with phase := .collecting rest, stats := w.stats.add seen }
    | .collecting [] =>
      match issueWarnings w.stats w.collectTime (w.lastFinished d) with
      | (warnings, some _) => { w with phase := .scoring, warnings := warnings }
      | (warnings, none) => { w with phase := .aborted, warnings := warnings }
    | .scoring => w
    | .aborted => w

end World

/-! ## One task -/

section Tasks

variable {before : Option Row} {t t' : Task} {seen : CeleryState}

theorem finished_saveCheckerResult (result : CheckerRunOutput) (now : ℕ) (row : Option Row) :
    (saveCheckerResult result now row).finished = some now := by
  cases row <;> rfl

theorem finished_handleCeleryResult (seen : CeleryState) (row : Option Row) :
    (handleCeleryResult seen row).bind Row.finished = row.bind Row.finished := by
  cases seen with
  | success => rfl
  | failure timeLimitExceeded error => cases timeLimitExceeded <;> cases row <;> rfl
  | _ => cases row <;> rfl

/-- What is known of the row of a collected task. -/
structure Settled (seen : CeleryState) (t : Task) : Prop where
  state : seen.Final → t.state = seen
  success : seen = .success →
    ∃ result, t.saved = some result ∧ t.row.map Row.status = some result.status
  unsuccessful : seen.Final → seen ≠ .success → t.row.map Row.status = collectedStatus seen
  /-- A result can come later. -/
  running : ¬ seen.Final → t.row.map Row.status = collectedStatus seen ∨
    ∃ result, t.saved = some result ∧ t.row.map Row.status = some result.status

/-- What holds of every task of a tick, for the row that was there before. -/
structure TaskOk (before : Option Row) (t : Task) : Prop where
  /-- Only a save sets `finished`. -/
  finished : (t.row.bind Row.finished).isSome ↔
    t.saved.isSome ∨ (before.bind Row.finished).isSome
  collection : Unwritten t ∧ ¬ Written t ∨ ∃ seen, t.collection = .done seen ∧ Settled seen t

theorem taskOk_dispatched (before : Option Row) : TaskOk before (.dispatched before) where
  finished := by simp [Task.dispatched]
  collection := by
    refine .inl ⟨unwritten_dispatched before, ?_⟩
    rintro ⟨seen, hdone⟩
    cases hdone

theorem Effect.finished (he : Effect t t')
    (h : (t.row.bind Row.finished).isSome ↔
      t.saved.isSome ∨ (before.bind Row.finished).isSome) :
    (t'.row.bind Row.finished).isSome ↔
      t'.saved.isSome ∨ (before.bind Row.finished).isSome := by
  cases he with
  | none => exact h
  | move => exact h
  | save result now => simp [finished_saveCheckerResult]
  | read => exact h
  | write seen =>
    simp only [finished_handleCeleryResult]
    exact h

/-- The row right after the write. -/
theorem Unwritten.settled (h : Unwritten t) (hread : t.collection = .read seen) :
    Settled seen { t with row := handleCeleryResult seen t.row, collection := .done seen } where
  state := h.state_of_read seen hread
  success := by
    rintro rfl
    have hsuccess := h.state_of_read .success hread trivial
    obtain ⟨result, hresult⟩ := Option.ne_none_iff_exists'.1 (h.saved_of_success hsuccess)
    exact ⟨result, hresult, h.row_of_saved result hresult⟩
  unsuccessful := fun _ hne => handleCeleryResult_status hne t.row
  running := by
    intro hfinal
    refine .inl (handleCeleryResult_status ?_ t.row)
    rintro rfl
    exact hfinal trivial

theorem Settled.step (h : Settled seen t) (he : LateEffect t t') : Settled seen t' := by
  cases he with
  | none => exact h
  | move state hfinal =>
    refine ⟨fun hseen => ?_, h.success, h.unsuccessful, h.running⟩
    rw [h.state hseen] at hfinal
    exact absurd hseen hfinal
  | save result now hfinal hsaved =>
    have hopen : ¬ seen.Final := by
      intro hseen
      rw [h.state hseen] at hfinal
      exact hfinal hseen
    refine ⟨fun hseen => absurd hseen hopen, ?_, fun hseen => absurd hseen hopen, fun _ => ?_⟩
    · rintro rfl
      exact absurd trivial hopen
    · exact .inr ⟨result, rfl, congrArg some (saveCheckerResult_status result now t.row)⟩

theorem Effect.taskOk (he : Effect t t') (h : TaskOk before t) : TaskOk before t' := by
  refine ⟨he.finished h.finished, ?_⟩
  rcases h.collection with ⟨hunwritten, hnot⟩ | ⟨seen, hdone, hsettled⟩
  · cases he with
    | write seen hread => exact .inr ⟨seen, rfl, hunwritten.settled hread⟩
    | none => exact .inl ⟨hunwritten, hnot⟩
    | move state hfinal hsuccess =>
      have he : Effect t { t with state := state } := .move state hfinal hsuccess
      exact .inl ⟨(he.unwritten (.inr hunwritten)).resolve_left hnot, hnot⟩
    | save result now hfinal hsaved =>
      have he := Effect.save result now hfinal hsaved
      exact .inl ⟨(he.unwritten (.inr hunwritten)).resolve_left hnot, hnot⟩
    | read hidle =>
      have hnot' : ¬ Written { t with collection := .read t.state } := by
        rintro ⟨seen, hdone⟩
        cases hdone
      exact .inl ⟨((Effect.read hidle).unwritten (.inr hunwritten)).resolve_left hnot', hnot'⟩
  · have hlate := he.late ⟨seen, hdone⟩
    refine .inr ⟨seen, ?_, hsettled.step hlate⟩
    cases hlate <;> exact hdone

theorem TaskOk.settled (h : TaskOk before t) (hdone : t.collection = .done seen) :
    Settled seen t := by
  rcases h.collection with ⟨-, hnot⟩ | ⟨seen', hdone', hsettled⟩
  · exact absurd ⟨seen, hdone⟩ hnot
  · obtain rfl : seen = seen' := by simpa using hdone.symm.trans hdone'
    exact hsettled

theorem collectedStatus_isSome (h : seen ≠ .success) : (collectedStatus seen).isSome := by
  cases seen with
  | success => exact absurd rfl h
  | failure timeLimitExceeded error => cases timeLimitExceeded <;> rfl
  | _ => rfl

/-- A collected combination has a row. -/
theorem Settled.row_isSome (h : Settled seen t) : t.row.isSome := by
  rw [← Option.isSome_map (f := Row.status)]
  by_cases hsuccess : seen = .success
  · obtain ⟨result, -, hrow⟩ := h.success hsuccess
    simp [hrow]
  · have hcollected := collectedStatus_isSome hsuccess
    by_cases hfinal : seen.Final
    · rwa [h.unsuccessful hfinal hsuccess]
    · rcases h.running hfinal with hrow | ⟨result, -, hrow⟩
      · rwa [hrow]
      · simp [hrow]

/-- A worker does not collect. -/
theorem collection_worker {e : Event} (he : e.isWorker) (t : Task) :
    (step t e).collection = t.collection := by
  cases e with
  | collectRead => cases he
  | collectWrite => cases he
  | _ => simp only [step]; split_ifs <;> rfl

/-- What a worker has saved stays. -/
theorem saved_worker {e : Event} (t : Task) (h : (step t e).saved = none) : t.saved = none := by
  have he := step_effect t e
  generalize step t e = t' at he h
  cases he with
  | none => exact h
  | move => exact h
  | save => cases h
  | read => exact h
  | write => exact h

/-- A task that was seen in its final state does not change any more. -/
theorem TaskOk.step_of_final (h : TaskOk before t) (hdone : t.collection = .done seen)
    (hfinal : seen.Final) (e : Event) : step t e = t := by
  have hstate := (h.settled hdone).state hfinal
  exact exec_of_final (hstate ▸ hfinal) ⟨seen, hdone⟩ [e]

end Tasks

/-! ## The thread and the workers -/

namespace World

variable {d : Dispatched} {rows : Key → Option Row} {w w' : World} {past rest : List Key}
  {key : Key} {seen : CeleryState}

/-- The combinations of `past` have been collected, with these statistics, and the ones of
`rest` have not. -/
structure Upto (w : World) (past rest : List Key) : Prop where
  stats : ∃ seen, past.map (fun key => (w.tasks key).collection) = seen.map .done ∧
    w.stats = .of seen
  idle : ∀ key ∈ rest, (w.tasks key).collection = .idle

/-- Every task has failed, and no script has finished for the tick. -/
structure Starved (d : Dispatched) (rows : Key → Option Row) (w : World) : Prop where
  dispatched : d.order ≠ []
  failed : ∀ key ∈ d.order, (∃ timeLimitExceeded error,
    (w.tasks key).collection = .done (.failure timeLimitExceeded error)) ∧
      (w.tasks key).saved = none
  unfinished : ∀ key ∈ d.keys, (rows key).bind Row.finished = none

/-- How far the collection is in a phase. -/
def PhaseOk (d : Dispatched) (rows : Key → Option Row) (w : World) : Phase → Prop
  | .waiting => w.Upto [] d.order
  | .collecting rest =>
    (0 < d.tick ∧ d.order ≠ []) ∧ ∃ past, d.order = past ++ rest ∧ w.Upto past rest
  | .writing key seen rest =>
    (0 < d.tick ∧ d.order ≠ []) ∧ ∃ past, d.order = past ++ key :: rest ∧ w.Upto past rest ∧
      (w.tasks key).collection = .read seen
  | .scoring => 0 < d.tick → w.Upto d.order [] ∧ ¬ Starved d rows w
  | .aborted => 0 < d.tick ∧ w.Upto d.order [] ∧ Starved d rows w

/-- The invariant of the thread and the workers. -/
structure Invariant (d : Dispatched) (rows : Key → Option Row) (w : World) : Prop where
  task : ∀ key, TaskOk (rows key) (w.tasks key)
  untouched : ∀ key, key ∉ d.order → w.tasks key = .dispatched (rows key)
  phase : PhaseOk d rows w w.phase

theorem Upto.congr (h : w.Upto past rest) (hstats : w'.stats = w.stats)
    (hsame : ∀ key, key ∈ past ∨ key ∈ rest →
      (w'.tasks key).collection = (w.tasks key).collection) : w'.Upto past rest := by
  obtain ⟨seen, hseen, hof⟩ := h.stats
  refine ⟨⟨seen, ?_, hstats.trans hof⟩, fun key hkey => ?_⟩
  · rw [← hseen]
    exact List.map_congr_left fun key hkey => hsame key (.inl hkey)
  · rw [hsame key (.inr hkey)]
    exact h.idle key hkey

theorem Upto.concat (h : w.Upto past rest) (hdone : (w'.tasks key).collection = .done seen)
    (hstats : w'.stats = w.stats.add seen)
    (hsame : ∀ key, key ∈ past ∨ key ∈ rest →
      (w'.tasks key).collection = (w.tasks key).collection) :
    w'.Upto (past ++ [key]) rest := by
  obtain ⟨states, hstates, hof⟩ := h.stats
  refine ⟨⟨states ++ [seen], ?_, ?_⟩, fun key hkey => ?_⟩
  · rw [List.map_append, List.map_append, ← hstates]
    refine congrArg₂ (· ++ ·) (List.map_congr_left fun key hkey => hsame key (.inl hkey)) ?_
    simp [hdone]
  · rw [hstats, hof, Stats.of_concat]
  · rw [hsame key (.inr hkey)]
    exact h.idle key hkey

/-! ### The end of the collection -/

theorem lastFinished_eq_none_iff (h : w.Invariant d rows) : w.lastFinished d = none ↔
    ∀ key ∈ d.keys, (w.tasks key).saved = none ∧ (rows key).bind Row.finished = none := by
  have hrow : ∀ key, (w.tasks key).row.bind Row.finished = none ↔
      (w.tasks key).saved = none ∧ (rows key).bind Row.finished = none := by
    intro key
    rw [← Option.not_isSome_iff_eq_none, (h.task key).finished]
    simp
  simp only [lastFinished, List.max?_eq_none_iff, List.filterMap_eq_nil_iff, hrow]

/-- `_issue_warnings` raises exactly then. -/
theorem starved_iff (h : w.Invariant d rows) (hupto : w.Upto d.order [])
    (hdispatched : d.order ≠ []) :
    Starved d rows w ↔
      (w.stats.revoked = 0 ∧ w.stats.started = 0) ∧ w.lastFinished d = none := by
  obtain ⟨states, hstates, hof⟩ := hupto.stats
  have hmem : ∀ state, state ∈ states ↔
      ∃ key ∈ d.order, (w.tasks key).collection = .done state := by
    intro state
    have hmap : Collection.done state ∈ states.map .done ↔ state ∈ states := by simp
    rw [← hmap, ← hstates, List.mem_map]
  rw [hof, Stats.not_open_of, lastFinished_eq_none_iff h]
  constructor
  · intro hstarved
    refine ⟨fun state hstate => ?_, fun key hkey => ⟨?_, hstarved.unfinished key hkey⟩⟩
    · obtain ⟨key, hkey, hdone⟩ := (hmem state).mp hstate
      obtain ⟨⟨timeLimitExceeded, error, hfailed⟩, -⟩ := hstarved.failed key hkey
      obtain rfl : state = .failure timeLimitExceeded error := by
        simpa using hdone.symm.trans hfailed
      trivial
    · by_cases horder : key ∈ d.order
      · exact (hstarved.failed key horder).2
      · rw [h.untouched key horder]
        rfl
  · rintro ⟨hended, hunfinished⟩
    refine ⟨hdispatched, fun key hkey => ?_, fun key hkey => (hunfinished key hkey).2⟩
    have hsaved := (hunfinished key (d.order_subset hkey)).1
    refine ⟨?_, hsaved⟩
    have hdone : (w.tasks key).collection ∈ states.map .done := by
      rw [← hstates]
      exact List.mem_map_of_mem hkey
    obtain ⟨state, hstate, hdone⟩ := List.mem_map.mp hdone
    cases state with
    | failure timeLimitExceeded error => exact ⟨timeLimitExceeded, error, hdone.symm⟩
    | success =>
      obtain ⟨result, hresult, -⟩ := ((h.task key).settled hdone.symm).success rfl
      cases hsaved.symm.trans hresult
    | _ => exact (hended _ hstate).elim

/-! ### The steps -/

theorem tasks_move_self (w : World) (key : Key) (e : Event) :
    (w.move key e).tasks key = Dispatcher.step (w.tasks key) e := by
  simp [move]

theorem tasks_move_of_ne {other : Key} (h : other ≠ key) (w : World) (e : Event) :
    (w.move key e).tasks other = w.tasks other := by
  simp [move, h]

theorem taskOk_move (h : ∀ key, TaskOk (rows key) (w.tasks key)) (e : Event) (other : Key) :
    TaskOk (rows other) ((w.move key e).tasks other) := by
  by_cases heq : other = key
  · rw [heq, tasks_move_self]
    exact (step_effect _ e).taskOk (h key)
  · rw [tasks_move_of_ne heq]
    exact h other

theorem untouched_move (h : ∀ key, key ∉ d.order → w.tasks key = .dispatched (rows key))
    (hkey : key ∈ d.order) (e : Event) (other : Key) (hother : other ∉ d.order) :
    (w.move key e).tasks other = .dispatched (rows other) := by
  have hne : other ≠ key := by
    rintro rfl
    exact hother hkey
  rw [tasks_move_of_ne hne]
  exact h other hother

theorem collection_move {e : Event} (he : e.isWorker) (other : Key) :
    ((w.move key e).tasks other).collection = (w.tasks other).collection := by
  by_cases heq : other = key
  · rw [heq, tasks_move_self, collection_worker he]
  · rw [tasks_move_of_ne heq]

theorem starved_move {e : Event} (h : w.Invariant d rows) (he : e.isWorker) :
    Starved d rows (w.move key e) ↔ Starved d rows w := by
  constructor
  · intro hstarved
    refine ⟨hstarved.dispatched, fun other hother => ?_, hstarved.unfinished⟩
    obtain ⟨⟨timeLimitExceeded, error, hdone⟩, hsaved⟩ := hstarved.failed other hother
    rw [collection_move he] at hdone
    refine ⟨⟨timeLimitExceeded, error, hdone⟩, ?_⟩
    by_cases heq : other = key
    · rw [heq, tasks_move_self] at hsaved
      exact heq ▸ saved_worker _ hsaved
    · rwa [tasks_move_of_ne heq] at hsaved
  · intro hstarved
    refine ⟨hstarved.dispatched, fun other hother => ?_, hstarved.unfinished⟩
    obtain ⟨⟨timeLimitExceeded, error, hdone⟩, hsaved⟩ := hstarved.failed other hother
    rw [collection_move he]
    refine ⟨⟨timeLimitExceeded, error, hdone⟩, ?_⟩
    by_cases heq : other = key
    · rw [← heq, tasks_move_self, (h.task other).step_of_final hdone trivial]
      exact hsaved
    · rwa [tasks_move_of_ne heq]

theorem invariant_worker (h : w.Invariant d rows) (hkey : key ∈ d.order) {e : Event}
    (he : e.isWorker) : (w.move key e).Invariant d rows := by
  have hupto : ∀ {past rest}, w.Upto past rest → (w.move key e).Upto past rest :=
    fun hupto => hupto.congr rfl fun other _ => collection_move he other
  have hstarved : Starved d rows (w.move key e) ↔ Starved d rows w := starved_move h he
  refine ⟨taskOk_move h.task e, untouched_move h.untouched hkey e, ?_⟩
  have hphase := h.phase
  have hsame : (w.move key e).phase = w.phase := rfl
  rw [hsame]
  cases heq : w.phase with
  | waiting =>
    rw [heq] at hphase
    exact hupto hphase
  | collecting rest =>
    rw [heq] at hphase
    obtain ⟨hbegun, past, horder, hpast⟩ := hphase
    exact ⟨hbegun, past, horder, hupto hpast⟩
  | writing other seen rest =>
    rw [heq] at hphase
    obtain ⟨hbegun, past, horder, hpast, hread⟩ := hphase
    exact ⟨hbegun, past, horder, hupto hpast, (collection_move he other).trans hread⟩
  | scoring =>
    rw [heq] at hphase
    exact fun htick => ⟨hupto (hphase htick).1, fun hnow => (hphase htick).2 (hstarved.mp hnow)⟩
  | aborted =>
    rw [heq] at hphase
    exact ⟨hphase.1, hupto hphase.2.1, hstarved.mpr hphase.2.2⟩

theorem invariant_thread (h : w.Invariant d rows) (now : ℚ) :
    (w.step d (.thread now)).Invariant d rows := by
  have hphase := h.phase
  cases heq : w.phase with
  | waiting =>
    rw [heq] at hphase
    simp only [step, heq]
    split_ifs with hnothing
    · refine ⟨h.task, h.untouched, fun htick => ?_⟩
      have horder : d.order = [] := hnothing.resolve_left (by omega)
      have hupto : w.Upto [] d.order := hphase
      rw [horder] at hupto ⊢
      exact ⟨hupto.congr rfl fun _ _ => rfl, fun hstarved => hstarved.dispatched horder⟩
    · rw [not_or, not_le] at hnothing
      exact ⟨h.task, h.untouched, hnothing, [], rfl, hphase.congr rfl fun _ _ => rfl⟩
  | collecting rest =>
    rw [heq] at hphase
    obtain ⟨hbegun, past, horder, hpast⟩ := hphase
    cases rest with
    | nil =>
      rw [List.append_nil] at horder
      rw [← horder] at hpast
      have hstarved := starved_iff h hpast hbegun.2
      rw [← @issueWarnings_eq_none_iff w.stats w.collectTime (w.lastFinished d)] at hstarved
      simp only [step, heq]
      split
      · next hwarnings =>
        refine ⟨h.task, h.untouched, fun _ => ⟨hpast.congr rfl fun _ _ => rfl, fun hnow => ?_⟩⟩
        have hnone := hstarved.mp ⟨hnow.dispatched, hnow.failed, hnow.unfinished⟩
        rw [hwarnings] at hnone
        cases hnone
      · next hwarnings =>
        have hnow := hstarved.mpr (by rw [hwarnings])
        exact ⟨h.task, h.untouched, hbegun.1, hpast.congr rfl fun _ _ => rfl,
          hnow.dispatched, hnow.failed, hnow.unfinished⟩
    | cons key rest =>
      have hkey : key ∈ d.order := by simp [horder]
      have hread : (step d w (.thread now)) =
          { w.move key .collectRead with phase := .writing key (w.tasks key).state rest } := by
        simp only [step, heq]
      have hidle : (w.tasks key).collection = .idle := hpast.idle key List.mem_cons_self
      rw [hread]
      refine ⟨taskOk_move h.task _, untouched_move h.untouched hkey _, hbegun, past, horder, ?_, ?_⟩
      · refine Upto.congr ⟨hpast.stats, fun other hother =>
          hpast.idle other (List.mem_cons_of_mem key hother)⟩ rfl fun other hother => ?_
        exact congrArg Task.collection
          (tasks_move_of_ne (Dispatched.ne_of_order horder hother) w _)
      · refine (congrArg Task.collection (tasks_move_self w key _)).trans ?_
        simp [Dispatcher.step, hidle]
  | writing key seen rest =>
    rw [heq] at hphase
    obtain ⟨hbegun, past, horder, hpast, hread⟩ := hphase
    have hkey : key ∈ d.order := by simp [horder]
    have hwrite : step d w (.thread now) =
        { w.move key .collectWrite with
          phase := .collecting rest
          stats := w.stats.add seen } := by
      simp only [step, heq]
    rw [hwrite]
    have hdone : ((w.move key .collectWrite).tasks key).collection = .done seen := by
      refine (congrArg Task.collection (tasks_move_self w key _)).trans ?_
      simp [Dispatcher.step, hread]
    refine ⟨taskOk_move h.task _, untouched_move h.untouched hkey _, hbegun, past ++ [key],
      by simpa using horder, hpast.concat hdone rfl fun other hother => ?_⟩
    exact congrArg Task.collection
      (tasks_move_of_ne (Dispatched.ne_of_order horder hother) w _)
  | scoring => simpa only [step, heq] using h
  | aborted => simpa only [step, heq] using h

theorem invariant_step (h : w.Invariant d rows) (move : Move) :
    (w.step d move).Invariant d rows := by
  cases move with
  | worker key e =>
    rw [step]
    split
    · next hmay => exact invariant_worker h hmay.1 hmay.2
    · exact h
  | thread now => exact invariant_thread h now

theorem invariant_start (d : Dispatched) (rows : Key → Option Row) :
    (start rows).Invariant d rows where
  task key := taskOk_dispatched (rows key)
  untouched _ _ := rfl
  phase := ⟨⟨[], rfl, rfl⟩, fun _ _ => rfl⟩

theorem invariant_exec (d : Dispatched) (rows : Key → Option Row) (moves : List Move) :
    (exec (step d) (start rows) moves).Invariant d rows :=
  exec_invariant (Invariant d rows) (fun _ move h => invariant_step h move)
    (invariant_start d rows) moves

/-! ### The thread ends -/

/-- The steps that the thread still has to make. -/
def remaining (d : Dispatched) : Phase → ℕ
  | .waiting => 2 * d.order.length + 2
  | .collecting rest => 2 * rest.length + 1
  | .writing _ _ rest => 2 * rest.length + 2
  | .scoring => 0
  | .aborted => 0

/-- A move of the thread. -/
def Move.isThread : Move → Bool
  | .worker _ _ => false
  | .thread _ => true

theorem remaining_step (d : Dispatched) (w : World) (move : Move) :
    remaining d (w.step d move).phase ≤
      remaining d w.phase - (if move.isThread then 1 else 0) := by
  cases move with
  | worker key e =>
    simp only [step, Move.isThread]
    split <;> simp [World.move]
  | thread now =>
    simp only [step, Move.isThread]
    split
    · next heq => split <;> simp [heq, remaining]
    · next heq => simp [heq, remaining]; omega
    · next heq => simp [heq, remaining]
    · next heq => split <;> simp [heq, remaining]
    · next heq => simp [heq, remaining]
    · next heq => simp [heq, remaining]

theorem remaining_exec (d : Dispatched) (w : World) (moves : List Move) :
    remaining d (exec (step d) w moves).phase ≤
      remaining d w.phase - moves.countP Move.isThread := by
  induction moves generalizing w with
  | nil => simp
  | cons move moves ih =>
    have hstep := remaining_step d w move
    rw [exec_cons, List.countP_cons]
    have hrest := ih (w.step d move)
    omega

theorem ended_of_remaining {phase : Phase} (h : remaining d phase = 0) :
    phase = .scoring ∨ phase = .aborted := by
  cases phase <;> simp_all [remaining]

theorem ended_of_steps {moves : List Move}
    (hsteps : 2 * d.order.length + 2 ≤ moves.countP Move.isThread) :
    (exec (step d) (start rows) moves).phase = .scoring ∨
      (exec (step d) (start rows) moves).phase = .aborted := by
  have hstart : remaining d (start rows).phase = 2 * d.order.length + 2 := rfl
  have hremaining := remaining_exec d (start rows) moves
  have hzero : remaining d (exec (step d) (start rows) moves).phase = 0 := by omega
  exact ended_of_remaining hzero

theorem Invariant.upto_of_ended (h : w.Invariant d rows) (htick : 0 < d.tick)
    (hended : w.phase = .scoring ∨ w.phase = .aborted) : w.Upto d.order [] := by
  have hphase := h.phase
  rcases hended with hended | hended
  · rw [hended] at hphase
    exact (hphase htick).1
  · rw [hended] at hphase
    exact hphase.2.1

/-- **Every dispatched combination is collected.**  Once the thread has made its steps, in any
interleaving with the workers, every combination that was dispatched has a row: the one of its
worker where the task had succeeded, the one of the collection where it had failed or was
revoked, and one of them where it was still open.  The statistics count every combination once,
and no other row has changed. -/
theorem batch_collected (d : Dispatched) (rows : Key → Option Row) (moves : List Move)
    (htick : 0 < d.tick) (hsteps : 2 * d.order.length + 2 ≤ moves.countP Move.isThread) :
    let w := exec (step d) (start rows) moves
    (∀ key ∈ d.order, (w.tasks key).row.isSome ∧
      ∃ seen, (w.tasks key).collection = .done seen ∧ Settled seen (w.tasks key)) ∧
    (∀ key, key ∉ d.order → (w.tasks key).row = rows key) ∧
    w.stats.total = d.order.length ∧
    ∃ seen, d.order.map (fun key => (w.tasks key).collection) = seen.map .done ∧
      w.stats = .of seen := by
  intro w
  have hinv : w.Invariant d rows := invariant_exec d rows moves
  have hupto := hinv.upto_of_ended htick (ended_of_steps hsteps)
  obtain ⟨states, hstates, hof⟩ := hupto.stats
  refine ⟨fun key hkey => ?_, fun key hkey => ?_, ?_, states, hstates, hof⟩
  · have hdone : (w.tasks key).collection ∈ states.map .done := by
      rw [← hstates]
      exact List.mem_map_of_mem hkey
    obtain ⟨seen, -, hdone⟩ := List.mem_map.mp hdone
    have hsettled := (hinv.task key).settled hdone.symm
    exact ⟨hsettled.row_isSome, seen, hdone.symm, hsettled⟩
  · rw [hinv.untouched key hkey]
    rfl
  · have hlength := congrArg List.length hstates
    rw [List.length_map, List.length_map] at hlength
    rw [hof, Stats.total_of, hlength]

/-- A tick of one team and one service. -/
def oneTask : Dispatched where
  tick := 3
  checkVpnStatus := false
  teams := [⟨1, true, false, false⟩]
  services := [⟨1, true⟩]
  order := [(1, 1)]
  order_perm := .refl _
  nodup_teams := by simp
  nodup_services := by simp

theorem batch_collected_oneTask :
    let moves : List Move := [.worker (1, 1) .start, .thread 100, .thread 100,
      .worker (1, 1) (.save ⟨.success, none, none⟩ 100), .thread 100, .thread 101]
    let w := exec (step oneTask) (start fun _ => none) moves
    ((w.tasks (1, 1)).row.isSome ∧
      ∃ seen, (w.tasks (1, 1)).collection = .done seen ∧ Settled seen (w.tasks (1, 1))) ∧
    w.stats.total = 1 := by
  intro moves w
  have hcollected := batch_collected oneTask (fun _ => none) moves (by decide) (by decide)
  exact ⟨hcollected.1 (1, 1) (by decide), hcollected.2.2.1⟩

/-- **When a tick is not scored.**  Once the thread has made its steps it has called the
scoring, except where every task was seen to fail, none of them had saved a result, and no
script had finished for the tick before: then it has died. -/
theorem scoring_skipped_iff (d : Dispatched) (rows : Key → Option Row) (moves : List Move)
    (htick : 0 < d.tick) (hsteps : 2 * d.order.length + 2 ≤ moves.countP Move.isThread) :
    let w := exec (step d) (start rows) moves
    (w.phase = .scoring ∨ w.phase = .aborted) ∧
    (w.phase = .aborted ↔ d.order ≠ [] ∧
      (∀ key ∈ d.order, (∃ timeLimitExceeded error,
        (w.tasks key).collection = .done (.failure timeLimitExceeded error)) ∧
          (w.tasks key).saved = none) ∧
      ∀ key ∈ d.keys, (rows key).bind Row.finished = none) := by
  intro w
  have hinv : w.Invariant d rows := invariant_exec d rows moves
  have hended : w.phase = .scoring ∨ w.phase = .aborted := ended_of_steps hsteps
  refine ⟨hended, ?_⟩
  have hphase := hinv.phase
  constructor
  · intro haborted
    rw [haborted] at hphase
    exact ⟨hphase.2.2.dispatched, hphase.2.2.failed, hphase.2.2.unfinished⟩
  · rintro ⟨hdispatched, hfailed, hunfinished⟩
    refine hended.resolve_left fun hscoring => ?_
    rw [hscoring] at hphase
    exact (hphase htick).2 ⟨hdispatched, hfailed, hunfinished⟩

theorem scoring_skipped_oneTask :
    (exec (step oneTask) (start fun _ => none) [.worker (1, 1) .start,
      .worker (1, 1) (.fail false "ImportError"), .thread 100, .thread 100, .thread 100,
      .thread 100]).phase = .aborted := by
  refine (scoring_skipped_iff oneTask (fun _ => none) _ (by decide) (by decide)).2.mpr
    ⟨by decide, ?_, fun _ _ => rfl⟩
  intro key hkey
  obtain rfl : key = (1, 1) := by simpa [oneTask] using hkey
  exact ⟨⟨false, "ImportError", rfl⟩, rfl⟩

end World

end Gameserver.Dispatcher
