import Gameserver.Lib.Machine
import Gameserver.Scoring.Model

/-!
# Collecting checker results

A checker task writes its row of `checker_results` itself (`save_checker_result` of
`checker_runner/runner.py`), and then its Celery state becomes final.  At the end of the
tick the dispatcher reads the Celery state (`_handle_celery_result` of `dispatcher.py`)
and stores a status of its own for every task that has not succeeded.  Nothing locks the
two against each other.

* `upsert` — `CheckerResult.upsert`: which columns an update sets.
* `saveCheckerResult`, `handleCeleryResult` — the two writers.
* `Event`, `step` — one task and its only collection, in any interleaving.
* `collection_settles` — **what the row says after the collection**.
-/

namespace Gameserver.Dispatcher

open Gameserver.Scoring (CheckerStatus)

/-- A `CheckerResult` object.  Attributes that were not set are `none`. -/
structure Entry where
  status : CheckerStatus
  message : Option String := none
  output : Option String := none
  runOverTime : Option Bool := none
  finished : Option ℕ := none

/-- A row of `checker_results`, as far as the writers look at it. -/
structure Row where
  status : CheckerStatus
  message : Option String
  output : Option String
  /-- "true if the task finished, but was too late (already revoked)" -/
  runOverTime : Bool
  finished : Option ℕ
  deriving DecidableEq

/-- `CheckerResult.upsert(entry)`, executed with the values of an object.  Without an
entry, or where the entry does not set them, an update leaves `run_over_time` and
`finished` alone. -/
def upsert (entry : Option Entry) (values : Entry) : Option Row → Row
  | none =>
    { status := values.status
      message := values.message
      output := values.output
      runOverTime := values.runOverTime.getD false
      finished := values.finished }
  | some row =>
    { status := values.status
      message := values.message
      output := values.output
      runOverTime :=
        if (entry.bind Entry.runOverTime).isSome then values.runOverTime.getD false
        else row.runOverTime
      finished :=
        if (entry.bind Entry.finished).isSome then values.finished else row.finished }

/-- The state of a task in the Celery backend. -/
inductive CeleryState where
  | pending
  | started
  | retry
  | success
  /-- By the time limit or by another exception, with its `repr`. -/
  | failure (timeLimitExceeded : Bool) (error : String)
  | revoked
  deriving DecidableEq

/-- `CheckerRunOutput`. -/
structure CheckerRunOutput where
  status : CheckerStatus
  message : Option String
  output : Option String
  deriving DecidableEq

/-- `save_checker_result`, at the time `now`. -/
def saveCheckerResult (result : CheckerRunOutput) (now : ℕ) (row : Option Row) : Row :=
  let dbresult : Entry :=
    { status := result.status, message := result.message, output := result.output,
      finished := some now }
  upsert (some dbresult) dbresult row

/-- The output of a crashed task: what it had written before, and the exception. -/
def crashOutput (error : String) (old : Option Row) : String :=
  match old.bind Row.output with
  | some output => if output = "" then error else output ++ "\n" ++ error
  | none => error

/-- `_handle_celery_result`, for the state it has read: the object it stores, if any. -/
def collected (old : Option Row) : CeleryState → Option Entry
  | .failure true _ => some { status := .timeout }
  | .failure false error =>
    some { status := .crashed, output := some (crashOutput error old) }
  | .started =>
    some
      { status := .timeout
        message := some "Service not checked completely"
        output := some "Still running after tick end..."
        runOverTime := some true }
  | .pending | .retry | .revoked =>
    some
      { status := .revoked
        message := some "Service not checked"
        output := some "Not started before the tick ended" }
  | .success => none

/-- `_handle_celery_result`: the row after it. -/
def handleCeleryResult (seen : CeleryState) (row : Option Row) : Option Row :=
  match collected row seen with
  | some dbResult => some (upsert none dbResult row)
  | none => row

/-! ## One task and its collection -/

/-- How far the collection of the task is. -/
inductive Collection where
  | idle
  | read (seen : CeleryState)
  | done (seen : CeleryState)
  deriving DecidableEq

/-- A task: its Celery state, what the worker has saved, the row, the collection. -/
structure Task where
  state : CeleryState
  saved : Option CheckerRunOutput
  row : Option Row
  collection : Collection
  deriving DecidableEq

/-- Dispatched, with the row that was there before. -/
def Task.dispatched (row : Option Row) : Task := ⟨.pending, none, row, .idle⟩

/-- The steps of the worker, of Celery and of the dispatcher. -/
inductive Event where
  | start
  | retry
  | revoke
  | save (result : CheckerRunOutput) (now : ℕ)
  | succeed
  | fail (timeLimitExceeded : Bool) (error : String)
  | collectRead
  | collectWrite

/-- One step; a step that is not possible in a state does nothing.  A task saves once,
while it runs, and succeeds only after that; it may fail before and after. -/
def step (t : Task) : Event → Task
  | .start =>
    if t.state = .pending ∨ t.state = .retry then { t with state := .started } else t
  | .retry => if t.state = .started ∧ t.saved = none then { t with state := .retry } else t
  | .revoke => if t.state = .pending then { t with state := .revoked } else t
  | .save result now =>
    if t.state = .started ∧ t.saved = none then
      { t with saved := some result, row := some (saveCheckerResult result now t.row) }
    else t
  | .succeed => if t.state = .started ∧ t.saved ≠ none then { t with state := .success } else t
  | .fail timeLimitExceeded error =>
    if t.state = .started then { t with state := .failure timeLimitExceeded error } else t
  | .collectRead => if t.collection = .idle then { t with collection := .read t.state } else t
  | .collectWrite =>
    match t.collection with
    | .read seen => { t with row := handleCeleryResult seen t.row, collection := .done seen }
    | _ => t

/-! ## What a step can do -/

/-- States that do not change any more. -/
def CeleryState.Final : CeleryState → Prop
  | .success => True
  | .failure _ _ => True
  | .revoked => True
  | _ => False

/-- What one step can do to a task. -/
inductive Effect (t : Task) : Task → Prop where
  | none : Effect t t
  | move (state : CeleryState) (hfinal : ¬ t.state.Final)
      (hsuccess : state = .success → t.saved ≠ .none) : Effect t { t with state := state }
  | save (result : CheckerRunOutput) (now : ℕ) (hfinal : ¬ t.state.Final)
      (hsaved : t.saved = .none) :
      Effect t { t with saved := some result, row := some (saveCheckerResult result now t.row) }
  | read (hidle : t.collection = .idle) : Effect t { t with collection := .read t.state }
  | write (seen : CeleryState) (hread : t.collection = .read seen) :
      Effect t { t with row := handleCeleryResult seen t.row, collection := .done seen }

theorem Effect.guarded {t t' : Task} {c : Prop} [Decidable c] (h : c → Effect t t') :
    Effect t (if c then t' else t) := by
  split
  · exact h ‹_›
  · exact .none

theorem step_effect (t : Task) (e : Event) : Effect t (step t e) := by
  cases e with
  | start =>
    refine Effect.guarded fun h => .move _ ?_ (by simp)
    rcases h with h | h <;> simp [h, CeleryState.Final]
  | retry => exact Effect.guarded fun h => .move _ (by simp [h.1, CeleryState.Final]) (by simp)
  | revoke => exact Effect.guarded fun h => .move _ (by simp [h, CeleryState.Final]) (by simp)
  | save result now =>
    exact Effect.guarded fun h => .save result now (by simp [h.1, CeleryState.Final]) h.2
  | succeed =>
    exact Effect.guarded fun h => .move _ (by simp [h.1, CeleryState.Final]) fun _ => h.2
  | fail timeLimitExceeded error =>
    exact Effect.guarded fun h => .move _ (by simp [h, CeleryState.Final]) (by simp)
  | collectRead => exact Effect.guarded fun h => .read h
  | collectWrite =>
    cases h : t.collection with
    | read seen =>
      have heffect := Effect.write seen h
      simpa only [step, h] using heffect
    | idle => simpa only [step, h] using Effect.none
    | done seen => simpa only [step, h] using Effect.none

/-- The row of a save has the status of the worker. -/
theorem saveCheckerResult_status (result : CheckerRunOutput) (now : ℕ) (row : Option Row) :
    (saveCheckerResult result now row).status = result.status := by
  cases row <;> rfl

/-- The status the collection gives to a task that has not succeeded. -/
def collectedStatus (seen : CeleryState) : Option CheckerStatus :=
  (collected none seen).map Entry.status

theorem handleCeleryResult_status {seen : CeleryState} (h : seen ≠ .success) (row : Option Row) :
    (handleCeleryResult seen row).map Row.status = collectedStatus seen := by
  cases seen with
  | success => exact absurd rfl h
  | failure timeLimitExceeded error => cases timeLimitExceeded <;> cases row <;> rfl
  | _ => cases row <;> rfl

/-! ## Before the write -/

/-- What holds until the collection writes. -/
structure Unwritten (t : Task) : Prop where
  /-- A task succeeds after it has saved. -/
  saved_of_success : t.state = .success → t.saved ≠ none
  /-- The row is the one of the worker, if it has saved. -/
  row_of_saved : ∀ result, t.saved = some result → t.row.map Row.status = some result.status
  /-- A final state that was read is still the state. -/
  state_of_read : ∀ seen, t.collection = .read seen → seen.Final → t.state = seen

/-- The collection has written. -/
def Written (t : Task) : Prop := ∃ seen, t.collection = .done seen

variable {t t' : Task} {seen : CeleryState}

theorem unwritten_dispatched (row : Option Row) : Unwritten (.dispatched row) where
  saved_of_success h := by cases h
  row_of_saved _ h := by cases h
  state_of_read _ h := by cases h

theorem Effect.written (he : Effect t t') (h : Written t) : Written t' := by
  obtain ⟨seen, hdone⟩ := h
  cases he with
  | none => exact ⟨seen, hdone⟩
  | move => exact ⟨seen, hdone⟩
  | save => exact ⟨seen, hdone⟩
  | read hidle => exact absurd (hdone.symm.trans hidle) (by simp)
  | write seen' hread => exact absurd (hdone.symm.trans hread) (by simp)

theorem Effect.unwritten (he : Effect t t') (h : Written t ∨ Unwritten t) :
    Written t' ∨ Unwritten t' := by
  rcases h with h | h
  · exact .inl (he.written h)
  cases he with
  | none => exact .inr h
  | move state hfinal hsuccess =>
    refine .inr ⟨hsuccess, h.row_of_saved, ?_⟩
    intro seen hread hseen
    exact absurd (h.state_of_read seen hread hseen ▸ hseen) hfinal
  | save result now hfinal hsaved =>
    refine .inr ⟨by simp, ?_, ?_⟩
    · intro result' heq
      obtain rfl : result = result' := by simpa using heq
      exact congrArg some (saveCheckerResult_status result now t.row)
    · exact h.state_of_read
  | read hidle =>
    refine .inr ⟨h.saved_of_success, h.row_of_saved, ?_⟩
    intro seen hread _
    simpa using hread
  | write seen hread => exact .inl ⟨seen, rfl⟩

theorem unwritten_of_read (row : Option Row) (es : List Event)
    (h : (Machine.exec step (.dispatched row) es).collection = .read seen) :
    Unwritten (Machine.exec step (.dispatched row) es) := by
  have hinv := Machine.exec_invariant (fun t => Written t ∨ Unwritten t)
    (fun _ e ht => (step_effect _ e).unwritten ht) (.inr (unwritten_dispatched row)) es
  refine hinv.resolve_left ?_
  rintro ⟨seen', hdone⟩
  exact absurd (hdone.symm.trans h) (by simp)

/-! ## After the write -/

/-- A collected task is changed by the worker only, and only until its state is final. -/
inductive LateEffect (t : Task) : Task → Prop where
  | none : LateEffect t t
  | move (state : CeleryState) (hfinal : ¬ t.state.Final) : LateEffect t { t with state := state }
  | save (result : CheckerRunOutput) (now : ℕ) (hfinal : ¬ t.state.Final)
      (hsaved : t.saved = .none) :
      LateEffect t { t with saved := some result, row := some (saveCheckerResult result now t.row) }

theorem Effect.late (he : Effect t t') (h : Written t) : LateEffect t t' := by
  obtain ⟨seen, hdone⟩ := h
  cases he with
  | none => exact .none
  | move state hfinal => exact .move state hfinal
  | save result now hfinal hsaved => exact .save result now hfinal hsaved
  | read hidle => exact absurd (hdone.symm.trans hidle) (by simp)
  | write seen' hread => exact absurd (hdone.symm.trans hread) (by simp)

/-- A collected task in a final state does not change any more. -/
theorem exec_of_final (hstate : t.state.Final) (h : Written t) (es : List Event) :
    Machine.exec step t es = t := by
  have hsame : ∀ {t'}, LateEffect t t' → t' = t := by
    intro t' he
    cases he with
    | none => rfl
    | move state hfinal => exact absurd hstate hfinal
    | save result now hfinal => exact absurd hstate hfinal
  refine Machine.exec_invariant (· = t) ?_ rfl es
  rintro t' e rfl
  exact hsame ((step_effect t' e).late h)

/-- The row of a task that was collected before it saved: the status of the collection
until there is a save, and then that of the worker. -/
structure Late (status : Option CheckerStatus) (t : Task) : Prop where
  written : Written t
  status_eq : t.row.map Row.status = (t.saved.map CheckerRunOutput.status).or status

theorem Late.step {status : Option CheckerStatus} (h : Late status t) (he : Effect t t') :
    Late status t' := by
  refine ⟨he.written h.written, ?_⟩
  cases he.late h.written with
  | none => exact h.status_eq
  | move => exact h.status_eq
  | save result now => exact congrArg some (saveCheckerResult_status result now t.row)

/-- The mark of a late task stays. -/
theorem Effect.runOverTime (he : Effect t t')
    (h : Written t ∧ t.row.map Row.runOverTime = some true) :
    Written t' ∧ t'.row.map Row.runOverTime = some true := by
  refine ⟨he.written h.1, ?_⟩
  cases he.late h.1 with
  | none => exact h.2
  | move => exact h.2
  | save result now =>
    obtain ⟨row, hrow, hmark⟩ := Option.map_eq_some_iff.1 h.2
    rw [hrow]
    exact congrArg some hmark

/-- **What the row says after the collection.**  In every interleaving of a task with its
only collection, and whatever happens later: a task that was seen to succeed keeps the
status its worker saved; one that was seen to fail keeps `TIMEOUT` or `CRASHED`; one that
had not saved before the write has the status of the collection until it saves, and then
that of the worker, with the mark of a result that came too late. -/
theorem collection_settles (row : Option Row) (before after : List Event) (seen : CeleryState)
    (hread : (Machine.exec step (.dispatched row) before).collection = .read seen) :
    let t := Machine.exec step (.dispatched row) before
    let t' := Machine.exec step (step t .collectWrite) after
    (seen = .success → ∃ result, t.saved = some result ∧
      t'.row.map Row.status = some result.status) ∧
    (∀ timeLimitExceeded error, seen = .failure timeLimitExceeded error →
      t'.row.map Row.status = some (if timeLimitExceeded then .timeout else .crashed)) ∧
    (seen ≠ .success → t.saved = none →
      t'.row.map Row.status = (t'.saved.map CheckerRunOutput.status).or (collectedStatus seen)) ∧
    (seen = .started → t.row = none → t'.row.map Row.runOverTime = some true) := by
  intro t t'
  have hunwritten : Unwritten t := unwritten_of_read row before hread
  have hwrite : step t .collectWrite =
      { t with row := handleCeleryResult seen t.row, collection := .done seen } := by
    simp only [step, t, hread]
  have hwritten : Written (step t .collectWrite) := ⟨seen, by rw [hwrite]⟩
  have hfinal : seen.Final → t' = step t .collectWrite := by
    intro hseen
    refine exec_of_final ?_ hwritten after
    rw [hwrite]
    exact (hunwritten.state_of_read seen hread hseen).symm ▸ hseen
  refine ⟨?_, ?_, ?_, ?_⟩
  · rintro rfl
    have hsuccess := hunwritten.state_of_read .success hread trivial
    obtain ⟨result, hresult⟩ := Option.ne_none_iff_exists'.1 (hunwritten.saved_of_success hsuccess)
    refine ⟨result, hresult, ?_⟩
    rw [hfinal trivial, hwrite]
    exact hunwritten.row_of_saved result hresult
  · rintro timeLimitExceeded error rfl
    rw [hfinal trivial, hwrite]
    refine (handleCeleryResult_status (by simp) t.row).trans ?_
    cases timeLimitExceeded <;> rfl
  · intro hseen hsaved
    have hlate : Late (collectedStatus seen) (step t .collectWrite) := by
      refine ⟨hwritten, ?_⟩
      rw [hwrite]
      simpa [hsaved] using handleCeleryResult_status hseen t.row
    exact (Machine.exec_invariant (Late (collectedStatus seen))
      (fun _ e ht => ht.step (step_effect _ e)) hlate after).status_eq
  · rintro rfl hrow
    have hmark : (step t .collectWrite).row.map Row.runOverTime = some true := by
      rw [hwrite]
      simp [hrow, handleCeleryResult, collected, upsert]
    exact (Machine.exec_invariant (fun t => Written t ∧ t.row.map Row.runOverTime = some true)
      (fun _ e ht => (step_effect _ e).runOverTime ht) ⟨hwritten, hmark⟩ after).2

/-- A task that is running at the end of the tick, and saves after the collection. -/
theorem collection_settles_late :
    let t := Machine.exec step (.dispatched none) [.start, .collectRead]
    let t' := Machine.exec step (step t .collectWrite) [.save ⟨.success, none, none⟩ 5]
    t.collection = .read .started ∧ t'.row.map Row.status = some .success ∧
      t'.row.map Row.runOverTime = some true := by
  have hsettles := collection_settles none [.start, .collectRead]
    [.save ⟨.success, none, none⟩ 5] .started rfl
  exact ⟨rfl, hsettles.2.2.1 (by decide) rfl, hsettles.2.2.2 rfl rfl⟩

/-- A save between the two steps of the collection is lost; and a save after them replaces
the status of the collection. -/
theorem collection_overwrites_save :
    let t := Machine.exec step (.dispatched none)
      [.start, .collectRead, .save ⟨.success, none, none⟩ 5, .collectWrite, .succeed]
    let t' := Machine.exec step (.dispatched none) [.start, .collectRead, .collectWrite]
    (t.saved.map CheckerRunOutput.status = some .success ∧ t.row.map Row.status = some .timeout) ∧
      t'.saved = none ∧ t'.row.map Row.status = some .timeout ∧
      (step t' (.save ⟨.success, none, none⟩ 5)).row.map Row.status = some .success := by
  decide

end Gameserver.Dispatcher
