import Gameserver.Eno.Schedule
import Mathlib.Data.List.Perm.Basic
import Mathlib.Logic.Function.Basic

/-!
# The status of an Eno check

The answers to a check's requests arrive in any order, and `_handle_result` folds each one
into the status.

* `nextStatus`, `handleResult` — one answer.
* `foldl_nextStatus_of_internalError` — the last internal error decides.
* `foldl_nextStatus_of_offline`, `…_of_mumble`, `…_of_past` — the levels below it.
* `checkStatus_perm_iff` — for which answers the order does not matter: no internal errors
  of both kinds, and no current `MUMBLE` beside a past `OFFLINE` alone.
-/

namespace Gameserver.Eno

/-! ## Answers -/

inductive CheckerTaskResult
  | ok
  | mumble
  | offline
  | internalError
deriving DecidableEq, Repr

/-- The values of `EnoCheckerRunner.status`. -/
inductive CheckStatus
  | success
  | recovering
  | mumble
  | offline
  | crashed
  | timeout
deriving DecidableEq, Repr

/-- What `_handle_result` reads of a `CheckerTaskMessage`. -/
structure TaskMessage where
  method : CheckerMethod
  teamId : ℤ
  variantId : ℕ
  currentRoundId : ℤ
  relatedRoundId : ℤ
  taskChainId : String
deriving DecidableEq

/-- `CheckerResultMessage`. -/
structure ResultMessage where
  result : CheckerTaskResult
  message : Option String
  attackInfo : Option String
deriving DecidableEq

abbrev Answer : Type := TaskMessage × ResultMessage

/-- The task is for an earlier tick. -/
def Answer.IsPast (a : Answer) : Prop :=
  a.1.currentRoundId ≠ a.1.relatedRoundId

instance (a : Answer) : Decidable a.IsPast :=
  inferInstanceAs (Decidable (_ ≠ _))

/-- The status of an internal error. -/
def errorStatus (message : Option String) : CheckStatus :=
  if message ≠ some "TIMEOUT" then .crashed else .timeout

def nextStatus (status : CheckStatus) (a : Answer) : CheckStatus :=
  if a.2.result = .internalError then errorStatus a.2.message
  else if (status = .success ∨ status = .recovering) ∧ a.2.result ≠ .ok ∧ a.IsPast then
    .recovering
  else if (status = .success ∨ status = .recovering) ∧ a.2.result = .mumble then .mumble
  else if (status = .success ∨ status = .recovering ∨ status = .mumble) ∧
      a.2.result = .offline then .offline
  else status

/-- The fields of the runner that `_handle_result` writes.  A line of `output` is its data;
`flagIds` are the keys and values set in Redis. -/
structure RunnerState where
  status : CheckStatus
  messages : String → Option String
  recoveryMessages : String → Option String
  flagIds : List ((ℤ × ℤ × ℕ) × String)
  output : List (CheckerMethod × ℕ × ℤ × CheckerTaskResult)

def RunnerState.reset : RunnerState where
  status := .success
  messages := fun _ => none
  recoveryMessages := fun _ => none
  flagIds := []
  output := []

/-- `_task_chain_msg_write`: the first message of a chain, unless an `OFFLINE` follows. -/
def taskChainMsgWrite (messages : String → Option String) (key : String)
    (result : CheckerTaskResult) (message : String) : String → Option String :=
  if result = .offline then Function.update messages key (some message)
  else Function.update messages key (some ((messages key).getD message))

/-- `if result.message:` — an empty text is no message. -/
def shownMessage : Option String → Option String
  | some text => if text = "" then none else some text
  | none => none

def writeMessage (s : RunnerState) (a : Answer) : RunnerState :=
  match shownMessage a.2.message with
  | none => s
  | some text =>
    if a.IsPast then
      { s with recoveryMessages :=
          taskChainMsgWrite s.recoveryMessages a.1.taskChainId a.2.result text }
    else
      { s with messages := taskChainMsgWrite s.messages a.1.taskChainId a.2.result text }

def writeFlagId (s : RunnerState) (a : Answer) : RunnerState :=
  match a.1.method, a.2.attackInfo with
  | .putflag, some info =>
    { s with flagIds := s.flagIds ++ [((a.1.teamId, a.1.currentRoundId, a.1.variantId), info)] }
  | _, _ => s

def handleResult (s : RunnerState) (a : Answer) : RunnerState :=
  let s := writeMessage s a
  let s := { s with status := nextStatus s.status a }
  let s := writeFlagId s a
  { s with output := s.output ++ [(a.1.method, a.1.variantId, a.1.relatedRoundId, a.2.result)] }

/-- The status after all answers of a check, in the order they arrive. -/
def checkStatus (answers : List Answer) : CheckStatus :=
  (answers.foldl handleResult .reset).status

@[simp] theorem writeMessage_status (s : RunnerState) (a : Answer) :
    (writeMessage s a).status = s.status := by
  rw [writeMessage]
  split
  · rfl
  · split_ifs <;> rfl

@[simp] theorem writeFlagId_status (s : RunnerState) (a : Answer) :
    (writeFlagId s a).status = s.status := by
  rw [writeFlagId]
  split <;> rfl

@[simp] theorem handleResult_status (s : RunnerState) (a : Answer) :
    (handleResult s a).status = nextStatus s.status a := by
  simp [handleResult]

/-- The status depends on the status alone. -/
theorem foldl_handleResult_status (answers : List Answer) :
    ∀ s : RunnerState, (answers.foldl handleResult s).status =
      answers.foldl nextStatus s.status := by
  induction answers with
  | nil => intro s; rfl
  | cons a answers ih =>
    intro s
    rw [List.foldl_cons, ih, handleResult_status, List.foldl_cons]

theorem checkStatus_eq (answers : List Answer) :
    checkStatus answers = answers.foldl nextStatus .success :=
  foldl_handleResult_status answers _

/-! ## The levels of the status -/

section Levels

variable {a : Answer} {answers : List Answer} {s e : CheckStatus}

/-- An internal error. -/
def Answer.Internal (a : Answer) : Prop := a.2.result = .internalError

/-- The request timed out. -/
def Answer.TimedOut (a : Answer) : Prop := a.Internal ∧ a.2.message = some "TIMEOUT"

/-- The request failed in another way. -/
def Answer.Crashed (a : Answer) : Prop := a.Internal ∧ a.2.message ≠ some "TIMEOUT"

/-- The service is offline in the current tick. -/
def Answer.OfflineNow (a : Answer) : Prop := a.2.result = .offline ∧ ¬ a.IsPast

/-- A task of the current tick failed. -/
def Answer.MumbleNow (a : Answer) : Prop := a.2.result = .mumble ∧ ¬ a.IsPast

/-- A task of an earlier tick found the service offline. -/
def Answer.OfflinePast (a : Answer) : Prop := a.2.result = .offline ∧ a.IsPast

/-- A task of an earlier tick did not succeed. -/
def Answer.FailedPast (a : Answer) : Prop := a.2.result ≠ .ok ∧ a.IsPast

/-- Nothing but past failures so far. -/
def CheckStatus.Open (s : CheckStatus) : Prop := s = .success ∨ s = .recovering

instance (a : Answer) : Decidable a.Internal :=
  inferInstanceAs (Decidable (_ = _))

instance (a : Answer) : Decidable a.FailedPast :=
  inferInstanceAs (Decidable (_ ∧ _))

instance (a : Answer) : Decidable a.OfflinePast :=
  inferInstanceAs (Decidable (_ ∧ _))

theorem nextStatus_internal (h : a.Internal) : nextStatus s a = errorStatus a.2.message :=
  if_pos h

/-- Without an internal error a final status stays. -/
theorem nextStatus_final (h : ¬ a.Internal) (hs : s = .offline ∨ s = .crashed ∨ s = .timeout) :
    nextStatus s a = s := by
  rw [Answer.Internal] at h
  rcases hs with rfl | rfl | rfl <;> simp [nextStatus, h]

theorem nextStatus_offlineNow (h : a.OfflineNow)
    (hs : s.Open ∨ s = .mumble ∨ s = .offline) : nextStatus s a = .offline := by
  obtain ⟨hresult, hnow⟩ := h
  rcases hs with (rfl | rfl) | rfl | rfl <;> simp [nextStatus, hresult, hnow]

theorem nextStatus_mumbleNow (h : a.MumbleNow) (hs : s.Open) : nextStatus s a = .mumble := by
  obtain ⟨hresult, hnow⟩ := h
  rcases hs with rfl | rfl <;> simp [nextStatus, hresult, hnow]

theorem nextStatus_offline_of_mumble (h : a.2.result = .offline) :
    nextStatus .mumble a = .offline := by
  simp [nextStatus, h]

theorem nextStatus_mumble (hinternal : ¬ a.Internal) (hoffline : a.2.result ≠ .offline) :
    nextStatus .mumble a = .mumble := by
  rw [Answer.Internal] at hinternal
  simp [nextStatus, hinternal, hoffline]

/-- Below a current failure there are only past ones. -/
theorem nextStatus_open (hs : s.Open) (hinternal : ¬ a.Internal) (hoffline : ¬ a.OfflineNow)
    (hmumble : ¬ a.MumbleNow) : nextStatus s a = if a.FailedPast then .recovering else s := by
  obtain ⟨task, result, text, info⟩ := a
  by_cases hpast : Answer.IsPast (task, ⟨result, text, info⟩)
  · rcases hs with rfl | rfl <;> cases result <;>
      simp_all [nextStatus, Answer.Internal, Answer.FailedPast]
  · rcases hs with rfl | rfl <;> cases result <;>
      simp_all [nextStatus, Answer.Internal, Answer.FailedPast, Answer.OfflineNow,
        Answer.MumbleNow]

/-- Internal errors of one kind decide the status. -/
theorem foldl_nextStatus_of_internal (answers : List Answer) :
    ∀ s : CheckStatus, (∃ a ∈ answers, a.Internal) →
      (∀ a ∈ answers, a.Internal → errorStatus a.2.message = e) →
      answers.foldl nextStatus s = e := by
  have hstay (l : List Answer) : (∀ a ∈ l, a.Internal → errorStatus a.2.message = e) →
      (e = .crashed ∨ e = .timeout) → l.foldl nextStatus e = e := by
    intro hall he
    apply Rearrange.foldl_eq_self
    intro a ha
    by_cases hinternal : a.Internal
    · rw [nextStatus_internal hinternal]
      exact hall a ha hinternal
    · exact nextStatus_final hinternal (.inr he)
  induction answers with
  | nil => simp
  | cons a answers ih =>
    intro s hex hall
    have hall' := fun b hb => hall b (List.mem_cons_of_mem a hb)
    rw [List.foldl_cons]
    by_cases hinternal : a.Internal
    · have ha := hall a List.mem_cons_self hinternal
      rw [nextStatus_internal hinternal, ha]
      apply hstay answers hall'
      rw [← ha, errorStatus]
      split_ifs
      · exact .inl rfl
      · exact .inr rfl
    · obtain ⟨b, hb, hbinternal⟩ := hex
      rcases List.mem_cons.1 hb with rfl | hb
      · exact absurd hbinternal hinternal
      · exact ih _ ⟨b, hb, hbinternal⟩ hall'

/-- Without an internal error the status stays below the errors. -/
theorem nextStatus_below (hinternal : ¬ a.Internal)
    (hs : s.Open ∨ s = .mumble ∨ s = .offline) :
    (nextStatus s a).Open ∨ nextStatus s a = .mumble ∨ nextStatus s a = .offline := by
  obtain ⟨task, result, text, info⟩ := a
  by_cases hpast : Answer.IsPast (task, ⟨result, text, info⟩)
  all_goals
    rcases hs with (rfl | rfl) | rfl | rfl <;> cases result <;>
      simp_all [nextStatus, Answer.Internal, CheckStatus.Open]

/-- A service offline in the current tick is offline. -/
theorem foldl_nextStatus_of_offline (answers : List Answer) :
    ∀ s : CheckStatus, (s.Open ∨ s = .mumble ∨ s = .offline) →
      (∀ a ∈ answers, ¬ a.Internal) → (s = .offline ∨ ∃ a ∈ answers, a.OfflineNow) →
      answers.foldl nextStatus s = .offline := by
  induction answers with
  | nil => simp
  | cons a answers ih =>
    intro s hs hno hex
    have ha := hno a List.mem_cons_self
    apply ih
    · exact nextStatus_below ha hs
    · exact fun b hb => hno b (List.mem_cons_of_mem a hb)
    · rcases hex with rfl | ⟨b, hb, hoffline⟩
      · exact .inl (nextStatus_final ha (.inl rfl))
      · rcases List.mem_cons.1 hb with rfl | hb
        · exact .inl (nextStatus_offlineNow hoffline hs)
        · exact .inr ⟨b, hb, hoffline⟩

/-- Current failures without anything offline. -/
theorem foldl_nextStatus_of_mumble (answers : List Answer) :
    ∀ s : CheckStatus, (s.Open ∨ s = .mumble) →
      (∀ a ∈ answers, ¬ a.Internal ∧ a.2.result ≠ .offline) →
      (s = .mumble ∨ ∃ a ∈ answers, a.MumbleNow) → answers.foldl nextStatus s = .mumble := by
  induction answers with
  | nil => simp
  | cons a answers ih =>
    intro s hs hno hex
    obtain ⟨hinternal, hoffline⟩ := hno a List.mem_cons_self
    apply ih
    · rcases hs with hs | rfl
      · by_cases hmumble : a.MumbleNow
        · exact .inr (nextStatus_mumbleNow hmumble hs)
        · rw [nextStatus_open hs hinternal (fun h => hoffline h.1) hmumble]
          split_ifs
          · exact .inl (.inr rfl)
          · exact .inl hs
      · exact .inr (nextStatus_mumble hinternal hoffline)
    · exact fun b hb => hno b (List.mem_cons_of_mem a hb)
    · rcases hex with rfl | ⟨b, hb, hmumble⟩
      · exact .inl (nextStatus_mumble hinternal hoffline)
      · rcases List.mem_cons.1 hb with rfl | hb
        · rcases hs with hs | rfl
          · exact .inl (nextStatus_mumbleNow hmumble hs)
          · exact .inl (nextStatus_mumble hinternal hoffline)
        · exact .inr ⟨b, hb, hmumble⟩

/-- Past failures alone. -/
theorem foldl_nextStatus_of_past (answers : List Answer) :
    ∀ s : CheckStatus, s.Open →
      (∀ a ∈ answers, ¬ a.Internal ∧ ¬ a.OfflineNow ∧ ¬ a.MumbleNow) →
      answers.foldl nextStatus s = if ∃ a ∈ answers, a.FailedPast then .recovering else s := by
  induction answers with
  | nil => simp
  | cons a answers ih =>
    intro s hs hno
    obtain ⟨hinternal, hoffline, hmumble⟩ := hno a List.mem_cons_self
    have hrest := fun b hb => hno b (List.mem_cons_of_mem a hb)
    rw [List.foldl_cons, nextStatus_open hs hinternal hoffline hmumble]
    by_cases hfailed : a.FailedPast
    · rw [if_pos hfailed, ih _ (.inr rfl) hrest, ite_self, if_pos ⟨a, List.mem_cons_self, hfailed⟩]
    · have hiff : (∃ b ∈ a :: answers, b.FailedPast) ↔ ∃ b ∈ answers, b.FailedPast := by
        rw [List.exists_mem_cons_iff, or_iff_right hfailed]
      rw [if_neg hfailed, ih _ hs hrest]
      simp only [hiff]

/-- A current failure leaves at least a current failure. -/
theorem foldl_nextStatus_mumble_or_offline (answers : List Answer) :
    ∀ s : CheckStatus, (s.Open ∨ s = .mumble ∨ s = .offline) → (∀ a ∈ answers, ¬ a.Internal) →
      (s = .mumble ∨ s = .offline ∨ ∃ a ∈ answers, a.MumbleNow) →
      answers.foldl nextStatus s = .mumble ∨ answers.foldl nextStatus s = .offline := by
  induction answers with
  | nil => simp
  | cons a answers ih =>
    intro s hs hno hex
    have ha := hno a List.mem_cons_self
    have hmumble : nextStatus .mumble a = .mumble ∨ nextStatus .mumble a = .offline := by
      by_cases hoffline : a.2.result = .offline
      · exact .inr (nextStatus_offline_of_mumble hoffline)
      · exact .inl (nextStatus_mumble ha hoffline)
    have hfinal : nextStatus .offline a = .offline := nextStatus_final ha (.inl rfl)
    apply ih
    · exact nextStatus_below ha hs
    · exact fun b hb => hno b (List.mem_cons_of_mem a hb)
    · rcases hex with rfl | rfl | ⟨b, hb, hnow⟩
      · exact hmumble.imp_right .inl
      · exact .inr (.inl hfinal)
      · rcases List.mem_cons.1 hb with rfl | hb
        · rcases hs with hs | rfl | rfl
          · exact .inl (nextStatus_mumbleNow hnow hs)
          · exact hmumble.imp_right .inl
          · exact .inr (.inl hfinal)
        · exact .inr (.inr ⟨b, hb, hnow⟩)

end Levels

/-! ## Where the order does not matter -/

section Order

variable {answers : List Answer}

/-- Some answer of the check is of the kind. -/
def Has (kind : Answer → Prop) (answers : List Answer) : Prop :=
  ∃ a ∈ answers, kind a

/-- The answers whose order does not matter. -/
def OrderIrrelevant (answers : List Answer) : Prop :=
  ¬ (Has Answer.TimedOut answers ∧ Has Answer.Crashed answers) ∧
    (Has Answer.Internal answers ∨ Has Answer.OfflineNow answers ∨
      ¬ (Has Answer.MumbleNow answers ∧ Has Answer.OfflinePast answers))

theorem Has.perm {kind : Answer → Prop} {order : List Answer} (h : order.Perm answers)
    (hsome : Has kind answers) : Has kind order := by
  obtain ⟨a, ha, hkind⟩ := hsome
  exact ⟨a, h.mem_iff.2 ha, hkind⟩

theorem Has.last {kind : Answer → Prop} (hsome : Has kind answers) :
    ∃ (rest : List Answer) (a : Answer), (rest ++ [a]).Perm answers ∧ kind a := by
  obtain ⟨a, ha, hkind⟩ := hsome
  obtain ⟨front, back, rfl⟩ := List.append_of_mem ha
  refine ⟨front ++ back, a, ?_, hkind⟩
  rw [List.append_assoc]
  exact List.Perm.append_left front List.perm_append_comm

theorem checkStatus_append (rest : List Answer) (a : Answer) :
    checkStatus (rest ++ [a]) = nextStatus (checkStatus rest) a := by
  rw [checkStatus_eq, checkStatus_eq, List.foldl_append]
  rfl

/-- With internal errors of one kind. -/
theorem checkStatus_of_internal {e : CheckStatus} (h : Has Answer.Internal answers)
    (hall : ∀ a ∈ answers, a.Internal → errorStatus a.2.message = e) : checkStatus answers = e := by
  rw [checkStatus_eq]
  exact foldl_nextStatus_of_internal answers _ h hall

theorem checkStatus_perm_of_irrelevant (h : OrderIrrelevant answers) {order : List Answer}
    (hperm : order.Perm answers) : checkStatus order = checkStatus answers := by
  obtain ⟨hkinds, hlevels⟩ := h
  have hmem {a : Answer} (ha : a ∈ order) : a ∈ answers := hperm.mem_iff.1 ha
  by_cases hinternal : Has Answer.Internal answers
  · obtain ⟨e, he⟩ : ∃ e, ∀ a ∈ answers, a.Internal → errorStatus a.2.message = e := by
      by_cases htimeout : Has Answer.TimedOut answers
      · refine ⟨.timeout, fun a ha hinternal => ?_⟩
        have hmessage : a.2.message = some "TIMEOUT" := by
          by_contra hne
          exact hkinds ⟨htimeout, a, ha, hinternal, hne⟩
        rw [errorStatus, hmessage]
        simp
      · refine ⟨.crashed, fun a ha hinternal => ?_⟩
        have hmessage : a.2.message ≠ some "TIMEOUT" :=
          fun heq => htimeout ⟨a, ha, hinternal, heq⟩
        rw [errorStatus, if_pos hmessage]
    rw [checkStatus_of_internal hinternal he,
      checkStatus_of_internal (hinternal.perm hperm) fun a ha => he a (hmem ha)]
  have hno : ∀ a ∈ answers, ¬ a.Internal := fun a ha h => hinternal ⟨a, ha, h⟩
  have hopen : CheckStatus.success.Open := .inl rfl
  simp only [checkStatus_eq]
  by_cases hoffline : Has Answer.OfflineNow answers
  · rw [foldl_nextStatus_of_offline answers _ (.inl hopen) hno (.inr hoffline),
      foldl_nextStatus_of_offline order _ (.inl hopen) (fun a ha => hno a (hmem ha))
        (.inr (hoffline.perm hperm))]
  have hnow : ∀ a ∈ answers, ¬ a.OfflineNow := fun a ha h => hoffline ⟨a, ha, h⟩
  by_cases hmumble : Has Answer.MumbleNow answers
  · have hpast : ¬ Has Answer.OfflinePast answers := by
      rcases hlevels with h | h | h
      · exact absurd h hinternal
      · exact absurd h hoffline
      · exact fun hpast => h ⟨hmumble, hpast⟩
    have hclean : ∀ a ∈ answers, ¬ a.Internal ∧ a.2.result ≠ .offline := by
      refine fun a ha => ⟨hno a ha, fun hresult => ?_⟩
      by_cases hispast : a.IsPast
      · exact hpast ⟨a, ha, hresult, hispast⟩
      · exact hnow a ha ⟨hresult, hispast⟩
    rw [foldl_nextStatus_of_mumble answers _ (.inl hopen) hclean (.inr hmumble),
      foldl_nextStatus_of_mumble order _ (.inl hopen) (fun a ha => hclean a (hmem ha))
        (.inr (hmumble.perm hperm))]
  · have hclean : ∀ a ∈ answers, ¬ a.Internal ∧ ¬ a.OfflineNow ∧ ¬ a.MumbleNow :=
      fun a ha => ⟨hno a ha, hnow a ha, fun h => hmumble ⟨a, ha, h⟩⟩
    have hiff : (∃ a ∈ order, a.FailedPast) ↔ ∃ a ∈ answers, a.FailedPast := by
      simp only [hperm.mem_iff]
    rw [foldl_nextStatus_of_past answers _ hopen hclean,
      foldl_nextStatus_of_past order _ hopen fun a ha => hclean a (hmem ha)]
    simp only [hiff]

/-- **Where the order of the answers does not matter**: there are not internal errors of both
kinds, and some internal error, a service offline now, or not a current `MUMBLE` together
with a past `OFFLINE`. -/
theorem checkStatus_perm_iff (answers : List Answer) :
    (∀ order order' : List Answer, order.Perm answers → order'.Perm answers →
      checkStatus order = checkStatus order') ↔ OrderIrrelevant answers := by
  constructor
  · intro h
    constructor
    · -- the last internal error decides
      rintro ⟨htimeout, hcrash⟩
      obtain ⟨rest, a, hperm, hinternal, hmessage⟩ := htimeout.last
      obtain ⟨rest', b, hperm', hinternal', hmessage'⟩ := hcrash.last
      have heq := h _ _ hperm hperm'
      rw [checkStatus_append, checkStatus_append, nextStatus_internal hinternal,
        nextStatus_internal hinternal', hmessage, errorStatus, errorStatus, if_pos hmessage'] at heq
      simp at heq
    · by_contra hlevels
      simp only [not_or, not_not] at hlevels
      obtain ⟨hinternal, hoffline, hmumble, hpast⟩ := hlevels
      have hno : ∀ a ∈ answers, ¬ a.Internal := fun a ha h => hinternal ⟨a, ha, h⟩
      have hnow : ∀ a ∈ answers, ¬ a.OfflineNow := fun a ha h => hoffline ⟨a, ha, h⟩
      have hopen : CheckStatus.success.Open := .inl rfl
      -- a past `OFFLINE` at the end follows the current `MUMBLE`
      have hlast : ∃ order, order.Perm answers ∧ checkStatus order = .offline := by
        obtain ⟨rest, a, hperm, hresult, hispast⟩ := hpast.last
        have hrest : ∀ b ∈ rest, ¬ b.Internal :=
          fun b hb => hno b (hperm.mem_iff.1 (List.mem_append_left _ hb))
        obtain ⟨b, hb, hbmumble⟩ := hmumble.perm hperm
        have hbrest : b ∈ rest := by
          rcases List.mem_append.1 hb with hb | hb
          · exact hb
          · rw [List.mem_singleton.1 hb] at hbmumble
            exact absurd hispast hbmumble.2
        refine ⟨rest ++ [a], hperm, ?_⟩
        rw [checkStatus_append, checkStatus_eq]
        rcases foldl_nextStatus_mumble_or_offline rest .success (.inl hopen) hrest
          (.inr (.inr ⟨b, hbrest, hbmumble⟩)) with hstatus | hstatus
        · rw [hstatus, nextStatus_offline_of_mumble hresult]
        · rw [hstatus, nextStatus_final (hno a (hperm.mem_iff.1 (by simp))) (.inl rfl)]
      -- all of them at the front are only past failures
      have hfirst : ∃ order, order.Perm answers ∧ checkStatus order = .mumble := by
        refine ⟨_, List.filter_append_perm (fun a => decide a.OfflinePast) answers, ?_⟩
        rw [checkStatus_eq, List.foldl_append, foldl_nextStatus_of_past _ _ hopen]
        · apply foldl_nextStatus_of_mumble
          · split_ifs
            · exact .inl (.inr rfl)
            · exact .inl hopen
          · intro a ha
            obtain ⟨hmem, hnot⟩ := List.mem_filter.1 ha
            simp only [Bool.not_eq_true', decide_eq_false_iff_not] at hnot
            refine ⟨hno a hmem, fun hresult => ?_⟩
            by_cases hispast : a.IsPast
            · exact hnot ⟨hresult, hispast⟩
            · exact hnow a hmem ⟨hresult, hispast⟩
          · obtain ⟨b, hb, hbmumble⟩ := hmumble
            refine .inr ⟨b, List.mem_filter.2 ⟨hb, ?_⟩, hbmumble⟩
            simpa using fun h : b.OfflinePast => hbmumble.2 h.2
        · intro a ha
          obtain ⟨hmem, hoff⟩ := List.mem_filter.1 ha
          have hpast' : a.OfflinePast := of_decide_eq_true hoff
          exact ⟨hno a hmem, hnow a hmem, fun h => h.2 hpast'.2⟩
      obtain ⟨order, hperm, hstatus⟩ := hlast
      obtain ⟨order', hperm', hstatus'⟩ := hfirst
      have heq := h _ _ hperm hperm'
      rw [hstatus, hstatus'] at heq
      cases heq
  · intro h order order' hperm hperm'
    rw [checkStatus_perm_of_irrelevant h hperm, checkStatus_perm_of_irrelevant h hperm']

/-- A flag of the current tick is wrong, and for one of an earlier tick the service does not
answer: the order decides between `MUMBLE` and `OFFLINE`. -/
theorem not_checkStatus_perm :
    ¬ ∀ answers order order' : List Answer, order.Perm answers → order'.Perm answers →
      checkStatus order = checkStatus order' := by
  intro h
  let failed : Answer := (⟨.getflag, 1, 0, 7, 7, "a"⟩, ⟨.mumble, none, none⟩)
  let missing : Answer := (⟨.getflag, 1, 0, 7, 5, "b"⟩, ⟨.offline, none, none⟩)
  have heq := h [failed, missing] [failed, missing] [missing, failed] (List.Perm.refl _)
    (List.Perm.swap _ _ _)
  exact absurd heq (by decide)

end Order

end Gameserver.Eno
