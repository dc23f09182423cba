import Gameserver.Lib.Population
import Gameserver.Submission.Refinement
import Mathlib.Algebra.BigOperators.Group.List.Basic

/-!
# The statistics of the submission server

`flag-submission-server/src/statistics.cpp` has a counter for every team and every kind of
answer.  The workers count while reports are made, each flag after its INSERT and before its
answer; a report exchanges one counter after the other for 0, and several reports can be made at
the same time.

* `FlagState`, `Answer.flagState` — what an answer is counted as.
* `Report`, `Report.read` — the loop of `getFlagReport`.
* `World`, `World.step` — the server, its counters and the reports.
* `Accounted`, `InTable` — the calls that are counted and not answered yet, and those that are
  stored and not counted yet, make up the difference.
* `flags_conserved` — **every counted flag is in exactly one report, or still in its counter**;
  and once no call is in progress, the counts are those of the answers.
* `new_flags_conserved` — **once no call is in progress, the new flags of a team are its rows in
  `submitted_flags`**.
-/

namespace Gameserver.Submission

open Machine Parties

/-! ## What is counted -/

/-- `enum FlagState` -/
inductive FlagState where
  | new
  | old
  | expired
  | invalid
  | nop
  | own
  deriving DecidableEq

/-- The index of a counter. -/
def FlagState.toNat : FlagState → ℕ
  | new => 0
  | old => 1
  | expired => 2
  | invalid => 3
  | nop => 4
  | own => 5

/-- What `progress_flag` counts a flag as, for its answer. -/
def Answer.flagState : Answer → Option FlagState
  | .invalidService | .invalidTeam | .testing | .invalid => some .invalid
  | .flagOfNopTeam => some .nop
  | .ownFlag => some .own
  | .expired => some .expired
  | .alreadySubmitted => some .old
  | .ok => some .new
  | .notRunning | .invalidSource | .asNopTeam | .databaseError => none
  | .statusCheck _ _ _ | .teamCheck _ => none

/-- `MAX_TEAMS` -/
def maxTeams : ℕ := 2048

/-- `flag_counters`, by team and by index. -/
abbrev FlagCounters := ℕ → ℕ → ℕ

/-- `countFlag`: there are no counters for further teams. -/
def countFlag (counters : FlagCounters) (submittingTeam : UInt16) (state : FlagState) :
    FlagCounters :=
  if submittingTeam.toNat < maxTeams then
    Function.update counters submittingTeam.toNat
      (Function.update (counters submittingTeam.toNat) state.toNat
        (counters submittingTeam.toNat state.toNat + 1))
  else counters

/-! ## A report -/

/-- A call of `getFlagReport`: the lines it has, the team it is at, and the values of this team
that it has read. -/
structure Report where
  lines : List (ℕ × List ℕ)
  team : ℕ
  line : List ℕ
  deriving DecidableEq

namespace Report

def start : Report := ⟨[], 0, []⟩

/-- Are all counters read? -/
def Done (r : Report) : Prop := maxTeams ≤ r.team

instance (r : Report) : Decidable r.Done := inferInstanceAs (Decidable (_ ≤ _))

/-- The next value.  After the sixth one a line is added, unless all of them are 0. -/
def add (r : Report) (value : ℕ) : Report :=
  let line := r.line ++ [value]
  if line.length < 6 then { r with line := line }
  else ⟨if line.any (· ≠ 0) then r.lines ++ [(r.team, line)] else r.lines, r.team + 1, []⟩

/-- One `atomic_exchange` of the loop. -/
def read (r : Report) (counters : FlagCounters) : Report × FlagCounters :=
  if r.Done then (r, counters)
  else
    (r.add (counters r.team r.line.length),
      Function.update counters r.team (Function.update (counters r.team) r.line.length 0))

/-- What a line says of a counter. -/
def valueOf (team index : ℕ) (line : ℕ × List ℕ) : ℕ :=
  if line.1 = team then line.2.getD index 0 else 0

/-- What a report says of a counter, or has read of it. -/
def value (r : Report) (team index : ℕ) : ℕ :=
  (r.lines.map (valueOf team index)).sum + valueOf team index (r.team, r.line)

end Report

/-! ## The server and its reports -/

namespace Statistics

structure World where
  server : Server
  counters : FlagCounters
  /-- The reports, in the order of the requests. -/
  reports : List Report
  /-- For the record: the calls of `countFlag`. -/
  counted : List (UInt16 × FlagState)

inductive Event where
  | server (e : Submission.Event)
  /-- "statistics flags" -/
  | request
  /-- The next counter of a report. -/
  | read (report : ℕ)

/-- The call of `countFlag` of a worker that has its answer.  A test flag is counted only for a
wrong MAC. -/
def counted : Phase → Option (UInt16 × FlagState)
  | .counting _ thisTeam flag answer =>
    if isTestFlag flag ∧ answer = .invalidService then none
    else answer.flagState.map (thisTeam, ·)
  | _ => none

/-- The call of `countFlag` in an event of the server. -/
def counts (s : Server) : Submission.Event → Option (UInt16 × FlagState)
  | .count worker => counted (s.workers worker)
  | _ => none

/-- The reply in an event of the server. -/
def newReply (s : Server) : Submission.Event → Option Reply
  | .answer worker =>
    match s.workers worker with
    | .answering source flag answer => some ⟨worker, source, flag, answer⟩
    | _ => none
  | _ => none

/-- `countFlag`, if it is called. -/
def World.count (w : World) : Option (UInt16 × FlagState) → World
  | none => w
  | some (team, state) =>
    { w with counters := countFlag w.counters team state, counted := w.counted ++ [(team, state)] }

def World.step (config : Config) (checkCache : Bool) (w : World) : Event → World
  | .server e =>
    { w with server := w.server.step checkCache config e }.count (counts w.server e)
  | .request => { w with reports := w.reports ++ [.start] }
  | .read i =>
    match w.reports[i]? with
    | none => w
    | some report =>
      { w with
        reports := w.reports.set i (report.read w.counters).1
        counters := (report.read w.counters).2 }

def World.start : World := ⟨.initial, fun _ _ => 0, [], []⟩

/-- What all reports together say of a counter. -/
def World.reported (w : World) (team : ℕ) (state : FlagState) : ℕ :=
  (w.reports.map fun report => report.value team state.toNat).sum

/-! ## One counter -/

theorem FlagState.toNat_injective : Function.Injective FlagState.toNat := by
  intro a b h
  cases a <;> cases b <;> first | rfl | cases h

theorem countFlag_apply (counters : FlagCounters) (submittingTeam : UInt16) (state : FlagState)
    {team : ℕ} (hteam : team < maxTeams) (index : ℕ) :
    countFlag counters submittingTeam state team index = counters team index +
      if submittingTeam.toNat = team ∧ state.toNat = index then 1 else 0 := by
  unfold countFlag
  by_cases heq : submittingTeam.toNat = team
  · subst heq
    by_cases hindex : state.toNat = index
    · simp [hteam, hindex]
    · simp [hteam, hindex, Function.update_of_ne (Ne.symm hindex)]
  · split
    · simp [Function.update_of_ne (Ne.symm heq), heq]
    · simp [heq]

/-! ## A step of a report -/

theorem getD_concat (line : List ℕ) (value index : ℕ) :
    (line ++ [value]).getD index 0 =
      line.getD index 0 + if line.length = index then value else 0 := by
  simp only [List.getD_eq_getElem?_getD]
  rcases lt_trichotomy index line.length with hlt | heq | hgt
  · simp [List.getElem?_append_left hlt, hlt, hlt.ne']
  · simp [heq]
  · have hout : (line ++ [value]).length ≤ index := by simp; omega
    simp [List.getElem?_eq_none hout, List.getElem?_eq_none hgt.le, hgt.ne]

theorem valueOf_concat (team index owner : ℕ) (line : List ℕ) (value : ℕ) :
    Report.valueOf team index (owner, line ++ [value]) =
      Report.valueOf team index (owner, line) +
        if owner = team ∧ line.length = index then value else 0 := by
  by_cases howner : owner = team
  · simp only [Report.valueOf, howner, if_true, true_and, getD_concat]
  · simp [Report.valueOf, howner]

theorem valueOf_zeros {team index owner : ℕ} {counts : List ℕ} (h : ¬ counts.any (· ≠ 0)) :
    Report.valueOf team index (owner, counts) = 0 := by
  unfold Report.valueOf
  split
  · by_cases hindex : index < counts.length
    · have hzero : counts[index] = 0 := by
        by_contra hne
        exact h (List.any_eq_true.mpr ⟨counts[index], List.getElem_mem hindex, by simpa using hne⟩)
      simpa [List.getD_eq_getElem?_getD, hindex] using hzero
    · simp [List.getD_eq_getElem?_getD, List.getElem?_eq_none (not_lt.mp hindex)]
  · rfl

/-- A line without counts is not missed. -/
theorem value_add (r : Report) (value team index : ℕ) :
    (r.add value).value team index = r.value team index +
      if r.team = team ∧ r.line.length = index then value else 0 := by
  have hline := valueOf_concat team index r.team r.line value
  have hempty : Report.valueOf team index (r.team + 1, []) = 0 := by simp [Report.valueOf]
  generalize (if r.team = team ∧ r.line.length = index then value else 0) = added at hline ⊢
  unfold Report.add
  dsimp only
  split_ifs with hshort hany
  · simp only [Report.value, hline]
    omega
  · simp only [Report.value, List.map_append, List.sum_append, List.map_cons, List.map_nil,
      List.sum_cons, List.sum_nil, hempty, hline]
    omega
  · have hzeros : Report.valueOf team index (r.team, r.line ++ [value]) = 0 := valueOf_zeros hany
    simp only [Report.value, hempty]
    omega

/-- What is taken from a counter is in the report. -/
theorem value_read (r : Report) (counters : FlagCounters) (team index : ℕ) :
    (r.read counters).1.value team index + (r.read counters).2 team index =
      r.value team index + counters team index := by
  unfold Report.read
  split
  · rfl
  · simp only [value_add]
    by_cases hcell : r.team = team ∧ r.line.length = index
    · obtain ⟨rfl, rfl⟩ := hcell
      simp
    · have hkept : Function.update counters r.team
          (Function.update (counters r.team) r.line.length 0) team index =
            counters team index := by
        by_cases hteam : team = r.team
        · subst hteam
          have hindex : index ≠ r.line.length := fun h => hcell ⟨rfl, h.symm⟩
          simp [hindex]
        · simp [hteam]
      simp [hcell, hkept]

theorem sum_map_set {α : Type*} (f : α → ℕ) {l : List α} {i : ℕ} {a : α} (h : l[i]? = some a)
    (b : α) : ((l.set i b).map f).sum + f a = (l.map f).sum + f b := by
  induction l generalizing i with
  | nil => simp at h
  | cons c l ih =>
    cases i with
    | zero =>
      obtain rfl : c = a := by simpa using h
      simp only [List.set_cons_zero, List.map_cons, List.sum_cons]
      omega
    | succ i =>
      have hrest := ih (by simpa using h)
      simp only [List.set_cons_succ, List.map_cons, List.sum_cons]
      omega

/-! ## The counters and the reports -/

section

variable {config : Config} {checkCache : Bool} {w : World} {team : ℕ} {state : FlagState}

/-- Is it a call of `countFlag` for this counter? -/
def isCall (team : ℕ) (state : FlagState) (call : UInt16 × FlagState) : Bool :=
  call.1.toNat = team ∧ call.2 = state

/-- The calls of `countFlag` for a counter. -/
def calls (counted : List (UInt16 × FlagState)) (team : ℕ) (state : FlagState) : ℕ :=
  counted.countP (isCall team state)

/-- Nothing is counted twice, and nothing is lost. -/
def Conserved (w : World) : Prop :=
  ∀ team < maxTeams, ∀ state : FlagState,
    w.reported team state + w.counters team state.toNat = calls w.counted team state

theorem Conserved.count (h : Conserved w) (call : Option (UInt16 × FlagState)) :
    Conserved (w.count call) := by
  cases call with
  | none => exact h
  | some call =>
    intro team hteam state
    have hold := h team hteam state
    have hreported : (w.count (some call)).reported team state = w.reported team state := rfl
    have hcounters : (w.count (some call)).counters team state.toNat =
        w.counters team state.toNat +
          if call.1.toNat = team ∧ call.2.toNat = state.toNat then 1 else 0 :=
      countFlag_apply w.counters call.1 call.2 hteam state.toNat
    have hcounted : calls (w.count (some call)).counted team state = calls w.counted team state +
        if call.1.toNat = team ∧ call.2 = state then 1 else 0 := by
      simp [calls, isCall, World.count, List.countP_append, List.countP_singleton]
    simp only [FlagState.toNat_injective.eq_iff] at hcounters
    rw [hreported, hcounters, hcounted, ← hold, Nat.add_assoc]

theorem Conserved.step (h : Conserved w) (e : Event) : Conserved (w.step config checkCache e) := by
  cases e with
  | server e =>
    have hserver : Conserved { w with server := w.server.step checkCache config e } := h
    exact hserver.count _
  | request =>
    intro team hteam state
    have hempty : Report.start.value team state.toNat = 0 := by
      simp [Report.value, Report.start, Report.valueOf]
    simpa [World.step, World.reported, hempty] using h team hteam state
  | read i =>
    cases hreport : w.reports[i]? with
    | none => simpa only [World.step, hreport] using h
    | some report =>
      intro team hteam state
      have hset := sum_map_set (fun report => report.value team state.toNat) hreport
        (report.read w.counters).1
      have hread := value_read report w.counters team state.toNat
      have hold := h team hteam state
      simp only [World.step, hreport, World.reported] at hold ⊢
      omega

/-! ## The answers -/

/-- Before the cache, a count for another team than the source is one of a wrong flag. -/
theorem checks_of_flagState {globals : Globals} {source : UInt16} {flag : FlagFormat}
    {answer : Answer} (h : checks config globals source flag = .error answer)
    (hanswer : answer.flagState = some state) (hstate : state ≠ .invalid) :
    thisTeam globals source = source ∧ state ≠ .new := by
  have hgame : ∀ team, gameChecks config globals team flag = some answer → state ≠ .new := by
    intro team hsome
    unfold gameChecks at hsome
    split_ifs at hsome <;> cases hsome <;> cases hanswer <;> decide
  have htest : ∀ team, answerTestFlag config globals flag team ≠ answer := by
    rintro team rfl
    unfold answerTestFlag at hanswer
    split_ifs at hanswer <;> cases hanswer
    exact hstate rfl
  have hinvalid : Answer.invalid ≠ answer := by
    rintro rfl
    cases hanswer
    exact hstate rfl
  unfold checks at h
  dsimp only at h
  split at h
  · cases h
    cases hanswer
  split at h
  · cases h
    cases hanswer
  · next hsource =>
    cases hflag : isTestFlag flag with
    | true =>
      rw [hflag] at h
      simp only [if_true] at h
      split at h
      · exact absurd (Except.error.inj h) hinvalid
      · exact absurd (Except.error.inj h) (htest _)
    | false =>
      have hvalid : source.toNat ≤ globals.maxTeamId.toNat ∧ source ≠ 0 := by
        by_contra hnot
        exact hsource ⟨hnot, by simp [hflag]⟩
      rw [hflag] at h
      simp only [Bool.false_eq_true, if_false] at h
      split at h
      · next answer' hsome =>
        obtain rfl := Except.error.inj h
        exact ⟨if_pos hvalid, hgame _ hsome⟩
      · split at h
        · exact absurd (Except.error.inj h) hinvalid
        · cases h

/-- Is it a reply to a team, counted as this? -/
def isReply (team : ℕ) (state : FlagState) (r : Reply) : Bool :=
  r.team.toNat = team ∧ r.answer.flagState = some state

/-- The call is counted and not answered yet. -/
def unanswered (team : ℕ) (state : FlagState) : Phase → Bool
  | .answering source _ answer => source.toNat = team ∧ answer.flagState = some state
  | _ => false

/-- A row is stored for the call, and the flag is not counted yet. -/
def uncounted (team : ℕ) : Phase → Bool
  | .counting _ thisTeam _ answer => thisTeam.toNat = team ∧ answer = .ok
  | _ => false

/-- The flag will be counted for the team that gets the answer, unless it is a wrong one. -/
def CountsSource : Phase → Prop
  | .counting source thisTeam _ answer =>
    ∀ state, answer.flagState = some state → state ≠ .invalid → thisTeam = source
  | _ => True

/-- After an exchange the worker has no answer yet. -/
theorem exchange_phase (s : Server) (worker : ℕ) (team' : UInt16) (flag : FlagFormat)
    (cell : Option ℕ) :
    (s.exchange worker team' flag cell).workers worker = s.workers worker ∨
      ∃ isNew, (s.exchange worker team' flag cell).workers worker = .lookedUp team' flag isNew :=
  (s.exchange_workers worker team' flag cell).imp (congrFun · worker)
    fun ⟨isNew, h⟩ => ⟨isNew, by rw [h, Function.update_self]⟩

theorem CountsSource.step {s : Server} (h : ∀ worker, CountsSource (s.workers worker))
    (e : Submission.Event) (worker : ℕ) :
    CountsSource ((s.step checkCache config e).workers worker) := by
  by_cases hmoves : e.worker = some worker
  swap
  · -- another worker moves, or none
    have hsame : (s.step checkCache config e).workers worker = s.workers worker := by
      cases hother : e.worker with
      | none => rw [s.step_workers_none checkCache config hother]
      | some other =>
        have hne : worker ≠ other := fun heq => hmoves (heq ▸ hother)
        rw [s.step_workers checkCache config hother, Function.update_of_ne hne]
    rw [hsame]
    exact h worker
  cases e with
  | submit w source flag =>
    obtain rfl := Option.some.inj hmoves
    simp only [Server.step]
    split
    · split
      · rename_i answer hchecks
        simp only [Server.goto, Function.update_self]
        exact fun state hanswer hstate => (checks_of_flagState hchecks hanswer hstate).1
      · simp only [Server.goto, Function.update_self]
        trivial
    · exact h w
  | exchange w =>
    obtain rfl := Option.some.inj hmoves
    simp only [Server.step]
    split
    · rcases exchange_phase s w _ _ _ with heq | ⟨isNew, heq⟩
      · rw [heq]
        exact h w
      · rw [heq]
        trivial
    · exact h w
  | insert w outcome =>
    obtain rfl := Option.some.inj hmoves
    simp only [Server.step]
    split
    · obtain ⟨answer, heq⟩ := s.insert_workers w _ _ _ _ outcome
      rw [heq, Function.update_self]
      exact fun _ _ _ => rfl
    · exact h w
  | initModelSizes _ _ => cases hmoves
  | resize _ _ => cases hmoves
  | setCurrentState _ => cases hmoves
  | setCurrentRound _ => cases hmoves
  | _ w =>
    obtain rfl := Option.some.inj hmoves
    simp only [Server.step]
    split
    · simp only [Server.goto, Server.reply, Function.update_self]
      trivial
    · exact h w

/-- A call is counted as nothing else than its answer says. -/
theorem countP_counted_of_ne (source thisTeam : UInt16) (flag : FlagFormat) (team : ℕ)
    {answer : Answer} (hanswer : answer.flagState ≠ some state) :
    (counted (.counting source thisTeam flag answer)).toList.countP (isCall team state) = 0 := by
  rw [counted]
  split
  · rfl
  · cases hflag : answer.flagState with
    | none => rfl
    | some state' =>
      have hother : state' ≠ state := fun heq => hanswer (hflag.trans (congrArg some heq))
      simp [isCall, hother]

/-- **Apart from wrong flags, the calls are counted as they are answered.** -/
theorem countP_counts (config : Config) (checkCache : Bool) (team : ℕ) (s : Server)
    {e : Submission.Event} {worker : ℕ} (he : e.worker = some worker)
    (hsource : CountsSource (s.workers worker)) (hstate : state ≠ .invalid) :
    (newReply s e).toList.countP (isReply team state) +
        (if unanswered team state ((s.step checkCache config e).workers worker) then 1 else 0) =
      (counts s e).toList.countP (isCall team state) +
        if unanswered team state (s.workers worker) then 1 else 0 := by
  cases e with
  | count w =>
    obtain rfl := Option.some.inj he
    cases hworker : s.workers w with
    | counting source thisTeam flag answer =>
      rw [hworker] at hsource
      by_cases hanswer : answer.flagState = some state
      · obtain rfl := hsource state hanswer hstate
        have hvalid : answer ≠ .invalidService := by
          rintro rfl
          exact hstate (Option.some.inj hanswer).symm
        simp [newReply, counts, counted, hworker, Server.step, Server.goto, unanswered, isCall,
          hanswer, hvalid, List.countP_singleton]
      · have hcounted := countP_counted_of_ne source thisTeam flag team hanswer
        simp [newReply, counts, hworker, hcounted, Server.step, Server.goto, unanswered, hanswer]
    | _ => simp [newReply, counts, counted, hworker, Server.step, unanswered]
  | answer w =>
    obtain rfl := Option.some.inj he
    cases hworker : s.workers w with
    | answering source flag answer =>
      simp [newReply, counts, hworker, Server.step, Server.reply, unanswered, isReply,
        List.countP_singleton]
    | _ => simp [newReply, counts, hworker, Server.step, unanswered]
  | exchange w =>
    obtain rfl := Option.some.inj he
    cases hworker : s.workers w with
    | located team' flag cell resets =>
      rcases exchange_phase s w team' flag cell with heq | ⟨isNew, heq⟩ <;>
        simp [newReply, counts, Server.step, heq, hworker, unanswered]
    | _ => simp [newReply, counts, Server.step, hworker]
  | insert w outcome =>
    obtain rfl := Option.some.inj he
    cases hworker : s.workers w with
    | submitting team' flag isNew round =>
      obtain ⟨answer, heq⟩ := s.insert_workers w team' flag isNew round outcome
      simp [newReply, counts, Server.step, heq, hworker, unanswered]
    | _ => simp [newReply, counts, Server.step, hworker]
  | submit w source flag =>
    obtain rfl := Option.some.inj he
    cases hworker : s.workers w with
    | idle =>
      cases hchecks : checks config s.globals source flag <;>
        simp [newReply, counts, Server.step, hworker, hchecks, Server.goto, unanswered]
    | _ => simp [newReply, counts, Server.step, hworker]
  | initModelSizes _ _ => cases he
  | resize _ _ => cases he
  | setCurrentState _ => cases he
  | setCurrentRound _ => cases he
  | _ w =>
    obtain rfl := Option.some.inj he
    cases hworker : s.workers w <;>
      simp [newReply, counts, Server.step, hworker, Server.goto, unanswered]

/-! ## The replies and the table -/

/-- The replies of the server. -/
theorem step_replies (s : Server) (e : Submission.Event) :
    (s.step checkCache config e).replies = s.replies ++ (newReply s e).toList := by
  cases e with
  | submit worker source flag =>
    simp only [Server.step, newReply, Option.toList_none, List.append_nil]
    repeat' split
    all_goals rfl
  | exchange worker =>
    simp only [Server.step, newReply, Option.toList_none, List.append_nil]
    split
    · exact (s.exchange_frame worker _ _ _).2.2
    · rfl
  | insert worker outcome =>
    simp only [Server.step, newReply, Option.toList_none, List.append_nil]
    split
    · rename_i isNew _ _
      cases isNew <;> rfl
    · rfl
  | answer worker =>
    simp only [Server.step, newReply]
    cases s.workers worker with
    | answering source flag answer => rfl
    | _ => exact (List.append_nil _).symm
  | setCurrentState _ => exact (List.append_nil _).symm
  | setCurrentRound _ => exact (List.append_nil _).symm
  | _ =>
    simp only [Server.step, newReply, Option.toList_none, List.append_nil]
    split <;> rfl

/-- **An INSERT that does not report an error adds a row exactly where the flag is counted as
new.** -/
theorem countP_newRow (config : Config) (checkCache : Bool) (team : ℕ) (s : Server)
    {e : Submission.Event} {worker : ℕ} (he : e.worker = some worker)
    (hfailed : e ≠ .insert worker (.failed true)) :
    (s.newRow e).toList.countP (fun row => row.submittedBy.toNat = team) +
        (if uncounted team (s.workers worker) then 1 else 0) =
      (counts s e).toList.countP (isCall team .new) +
        if uncounted team ((s.step checkCache config e).workers worker) then 1 else 0 := by
  cases e with
  | count w =>
    obtain rfl := Option.some.inj he
    cases hworker : s.workers w with
    | counting source thisTeam flag answer =>
      by_cases hanswer : answer = .ok
      · subst hanswer
        simp [Server.newRow, counts, counted, hworker, Server.step, Server.goto, uncounted, isCall,
          Answer.flagState, List.countP_singleton]
      · have hnew : answer.flagState ≠ some .new := by
          cases answer <;> first | exact absurd rfl hanswer | simp [Answer.flagState]
        have hcounted := countP_counted_of_ne source thisTeam flag team hnew
        simp [Server.newRow, counts, hworker, hcounted, Server.step, Server.goto, uncounted,
          hanswer]
    | _ => simp [Server.newRow, counts, counted, hworker, Server.step, uncounted]
  | insert w outcome =>
    obtain rfl := Option.some.inj he
    cases hworker : s.workers w with
    | submitting team' flag isNew round =>
      cases isNew with
      | false =>
        simp [Server.newRow, counts, hworker, Server.step, Server.insert, Server.goto, uncounted]
      | true =>
        cases outcome with
        | executed =>
          simp only [Server.newRow, counts, hworker, Server.step, Server.insert, Server.goto,
            Table.newRow, Table.insertFlag, if_true, Function.update_self, uncounted]
          split <;> simp [Server.submitAnswer]
        | failed stored =>
          cases stored with
          | true => exact absurd rfl hfailed
          | false =>
            simp [Server.newRow, counts, hworker, Server.step, Server.insert, Server.goto,
              Table.newRow, Table.insertFlag, uncounted, Server.submitAnswer]
    | _ => simp [Server.newRow, counts, hworker, Server.step]
  | submit w source flag =>
    obtain rfl := Option.some.inj he
    cases hworker : s.workers w with
    | idle =>
      cases hchecks : checks config s.globals source flag with
      | error answer =>
        have hne : answer ≠ .ok := by
          rintro rfl
          exact (checks_of_flagState hchecks rfl (by decide)).2 rfl
        simp [Server.newRow, counts, Server.step, hworker, hchecks, Server.goto, uncounted, hne]
      | ok team' =>
        simp [Server.newRow, counts, Server.step, hworker, hchecks, Server.goto, uncounted]
    | _ => simp [Server.newRow, counts, Server.step, hworker]
  | exchange w =>
    obtain rfl := Option.some.inj he
    cases hworker : s.workers w with
    | located team' flag cell resets =>
      rcases exchange_phase s w team' flag cell with heq | ⟨isNew, heq⟩ <;>
        simp [Server.newRow, counts, Server.step, heq, hworker, uncounted]
    | _ => simp [Server.newRow, counts, Server.step, hworker]
  | initModelSizes _ _ => cases he
  | resize _ _ => cases he
  | setCurrentState _ => cases he
  | setCurrentRound _ => cases he
  | _ w =>
    obtain rfl := Option.some.inj he
    cases hworker : s.workers w <;>
      simp [Server.newRow, counts, Server.step, hworker, Server.goto, Server.reply, uncounted]

/-- Steps of the maintenance and of the timer are none of a call. -/
theorem nothing_of_worker_none (s : Server) {e : Submission.Event} (he : e.worker = none) :
    newReply s e = none ∧ counts s e = none ∧ s.newRow e = none := by
  cases e with
  | initModelSizes _ _ => exact ⟨rfl, rfl, rfl⟩
  | resize _ _ => exact ⟨rfl, rfl, rfl⟩
  | setCurrentState _ => exact ⟨rfl, rfl, rfl⟩
  | setCurrentRound _ => exact ⟨rfl, rfl, rfl⟩
  | _ => cases he

theorem server_count (w : World) (call : Option (UInt16 × FlagState)) :
    (w.count call).server = w.server := by
  cases call <;> rfl

theorem counted_count (w : World) (call : Option (UInt16 × FlagState)) :
    (w.count call).counted = w.counted ++ call.toList := by
  cases call <;> simp [World.count]

theorem server_step (w : World) (e : Event) : (w.step config checkCache e).server =
    match e with
    | .server e => w.server.step checkCache config e
    | _ => w.server := by
  cases e with
  | server e => simp [World.step, server_count]
  | request => rfl
  | read i =>
    simp only [World.step]
    split <;> rfl

theorem counted_step (w : World) (e : Event) : (w.step config checkCache e).counted =
    match e with
    | .server e => w.counted ++ (counts w.server e).toList
    | _ => w.counted := by
  cases e with
  | server e => simp [World.step, counted_count]
  | request => rfl
  | read i =>
    simp only [World.step]
    split <;> rfl

/-- The answers say what was counted, but for the calls that are counted and not answered yet. -/
structure Accounted (w : World) : Prop where
  busy : FewBusy .idle w.server.workers
  source : ∀ worker, CountsSource (w.server.workers worker)
  answered : ∀ (team : ℕ) (state : FlagState), state ≠ .invalid →
    calls w.counted team state = w.server.replies.countP (isReply team state) +
      population (fun phase => unanswered team state phase) w.server.workers

theorem accounted_start : Accounted .start where
  busy := fewBusy_const _
  source _ := trivial
  answered _ _ _ := by simp [World.start, Server.initial, calls, population, unanswered]

theorem FewBusy.step {s : Server} (h : FewBusy .idle s.workers) (e : Submission.Event) :
    FewBusy .idle (s.step checkCache config e).workers := by
  cases he : e.worker with
  | none => rwa [s.step_workers_none checkCache config he]
  | some worker =>
    rw [s.step_workers checkCache config he]
    exact h.update worker _

theorem Accounted.step (h : Accounted w) (e : Event) :
    Accounted (w.step config checkCache e) := by
  cases e with
  | server e =>
    refine ⟨?_, ?_, fun team state hstate => ?_⟩
    · rw [server_step]
      exact FewBusy.step h.busy e
    · rw [server_step]
      exact CountsSource.step h.source e
    · have hold := h.answered team state hstate
      rw [counted_step, server_step, calls, List.countP_append, step_replies, List.countP_append]
      cases he : e.worker with
      | none =>
        obtain ⟨hreply, hcounts, -⟩ := nothing_of_worker_none w.server he
        rw [w.server.step_workers_none checkCache config he, hreply, hcounts]
        simpa [calls] using hold
      | some worker =>
        have hmove := population_update (p := fun phase => unanswered team state phase) h.busy
          (by simp [unanswered]) worker ((w.server.step checkCache config e).workers worker)
        have hcount := countP_counts config checkCache team w.server he (h.source worker) hstate
        rw [w.server.step_workers checkCache config he]
        rw [calls] at hold
        omega
  | request => exact ⟨h.busy, h.source, h.answered⟩
  | read i =>
    refine ⟨?_, ?_, fun team state hstate => ?_⟩
    · rw [server_step]
      exact h.busy
    · rw [server_step]
      exact h.source
    · rw [counted_step, server_step]
      exact h.answered team state hstate

/-- The table says how many flags of a team were new, but for those that are stored and not
counted yet. -/
structure InTable (team : ℕ) (w : World) : Prop where
  busy : FewBusy .idle w.server.workers
  rows : (w.server.table.rows.countP fun row => row.submittedBy.toNat = team) =
    calls w.counted team .new + population (fun phase => uncounted team phase) w.server.workers

theorem InTable.step (h : InTable team w) {e : Event}
    (hfailed : ∀ worker, e ≠ .server (.insert worker (.failed true))) :
    InTable team (w.step config checkCache e) := by
  cases e with
  | server e =>
    refine ⟨?_, ?_⟩
    · rw [server_step]
      exact FewBusy.step h.busy e
    · have hold := h.rows
      rw [counted_step, server_step, calls, List.countP_append, Server.step_table_rows,
        List.countP_append]
      cases he : e.worker with
      | none =>
        obtain ⟨-, hcounts, hrow⟩ := nothing_of_worker_none w.server he
        rw [w.server.step_workers_none checkCache config he, hcounts, hrow]
        simpa [calls] using hold
      | some worker =>
        have hmove := population_update (p := fun phase => uncounted team phase) h.busy
          (by simp [uncounted]) worker ((w.server.step checkCache config e).workers worker)
        have hrow := countP_newRow config checkCache team w.server he fun heq =>
          hfailed worker (congrArg Event.server heq)
        rw [w.server.step_workers checkCache config he]
        rw [calls] at hold
        omega
  | request => exact ⟨h.busy, h.rows⟩
  | read i =>
    refine ⟨?_, ?_⟩
    · rw [server_step]
      exact h.busy
    · rw [counted_step, server_step]
      exact h.rows

theorem inTable_exec {es : List Event}
    (hfailed : ∀ worker, .server (.insert worker (.failed true)) ∉ es) (h : InTable team w) :
    InTable team (exec (World.step config checkCache) w es) := by
  induction es generalizing w with
  | nil => exact h
  | cons e es ih =>
    refine ih (fun worker hmem => hfailed worker (List.mem_cons_of_mem e hmem)) (h.step ?_)
    rintro worker rfl
    exact hfailed worker List.mem_cons_self

/-- **No flag is lost from the statistics, and none is counted twice.**  With any number of
workers and of reports that are made at the same time, the reports and the counter together say
for every team how many of its flags were counted; and once no call is in progress, apart from
wrong flags, that is how many of its flags were answered so. -/
theorem flags_conserved (config : Config) (checkCache : Bool) (es : List Event) {team : ℕ}
    (hteam : team < maxTeams) (state : FlagState) :
    let w := exec (World.step config checkCache) .start es
    w.reported team state + w.counters team state.toNat = calls w.counted team state ∧
      (state ≠ .invalid → (∀ worker, w.server.workers worker = .idle) →
        calls w.counted team state = w.server.replies.countP (isReply team state)) := by
  intro w
  have hconserved : Conserved w :=
    exec_invariant Conserved (fun _ e h => h.step e) (fun _ _ _ => rfl) es
  have haccounted : Accounted w :=
    exec_invariant Accounted (fun _ e h => h.step e) accounted_start es
  refine ⟨hconserved team hteam state, fun hstate hidle => ?_⟩
  rw [haccounted.answered team state hstate,
    population_eq_zero hidle (by simp [unanswered]), Nat.add_zero]

/-- **The new flags of a team are its rows**, once no call is in progress: where no INSERT fails
after it has stored its row, the reports and the counter say how many rows `submitted_flags` has
for the team. -/
theorem new_flags_conserved (config : Config) (checkCache : Bool) {es : List Event}
    (hfailed : ∀ worker, .server (.insert worker (.failed true)) ∉ es)
    (hidle : ∀ worker,
      (exec (World.step config checkCache) .start es).server.workers worker = .idle)
    {team : ℕ} (hteam : team < maxTeams) :
    let w := exec (World.step config checkCache) .start es
    w.reported team .new + w.counters team FlagState.new.toNat =
      w.server.table.rows.countP fun row => row.submittedBy.toNat = team := by
  intro w
  have hconserved : Conserved w := exec_invariant Conserved (fun _ e h => h.step e)
    (fun _ _ _ => rfl) es
  have hstart : InTable team .start := ⟨fewBusy_const _,
    by simp [World.start, Server.initial, Table.empty, calls, population, uncounted]⟩
  have htable : InTable team w := inTable_exec hfailed hstart
  rw [hconserved team hteam .new, htable.rows,
    population_eq_zero hidle (by simp [uncounted]), Nat.add_zero]

end

/-- A team submits a flag while a report is made, and then the next report is made as far as its
counter. -/
def reportedOnce : List Event :=
  [.request, .server (.setCurrentState .running), .server (.submit 0 1 (exampleFlag 0 7)),
    .server (.lookup 0), .server (.exchange 0), .server (.readRound 0), .read 0,
    .server (.insert 0 .executed)] ++ List.replicate 6 (.read 0) ++
    [.server (.count 0), .server (.setCurrentRound 1), .server (.answer 0)]

/-- After that, no call is in progress. -/
theorem idle_reportedOnce (worker : ℕ) :
    (exec (World.step exampleConfig true) .start reportedOnce).server.workers worker = .idle := by
  cases worker with
  | zero => decide +kernel
  | succ worker => rfl

theorem flags_conserved_reportedOnce :
    let w := exec (World.step exampleConfig true) .start reportedOnce
    w.reported 1 .new + w.counters 1 FlagState.new.toNat =
      w.server.replies.countP (isReply 1 .new) :=
  have h := flags_conserved exampleConfig true reportedOnce (show 1 < maxTeams by decide) .new
  h.1.trans (h.2 (by decide) idle_reportedOnce)

theorem new_flags_conserved_reportedOnce :
    let w := exec (World.step exampleConfig true) .start reportedOnce
    w.reported 1 .new + w.counters 1 FlagState.new.toNat =
      w.server.table.rows.countP fun row => row.submittedBy.toNat = 1 :=
  new_flags_conserved exampleConfig true (by simp [reportedOnce]) idle_reportedOnce (by decide)

end Statistics

end Gameserver.Submission
