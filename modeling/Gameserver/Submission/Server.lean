import Gameserver.Lib.Machine
import Gameserver.Submission.Cache

/-!
# The submission server

Any number of workers run `progress_flag` at the same time, on one cache and one table
`submitted_flags`.  Other workers, the timer and the periodic maintenance come between the
steps of a call: the checks, finding the cell in the cache, the exchange of the cell, reading
`Redis::current_round` for the INSERT, the INSERT, the count and the answer.  The maintenance
resizes the cache in steps of its own (`FlagCache.Resize`), for there is no lock.

* `Row`, `Table` — the table and its unique constraint; `Table.insert`.
* `Server`, `Event`, `step` — the server, with the cache (`CHECK_CACHE`) or without it.
* `step_table_rows` — what one event can do to the table.

A call that is answered by the cache still goes through reading the round and the INSERT,
without doing anything there, and a call of a server without cache through the lookup: servers
with and without cache can run under the same schedule.
-/

namespace Gameserver.Submission

/-- The columns of `submitted_flags` the server writes. -/
structure Row where
  submittedBy : UInt16
  teamId : UInt16
  serviceId : UInt16
  tickIssued : UInt16
  payload : UInt16
  tickSubmitted : ℤ
  deriving DecidableEq

/-- What identifies a submission. -/
abbrev RowKey := UInt16 × UInt16 × UInt16 × UInt16 × UInt16

/-- The columns of `submitted_flags_unique_1`. -/
def Row.key (row : Row) : RowKey :=
  (row.submittedBy, row.teamId, row.serviceId, row.tickIssued, row.payload)

/-- The key of the row a flag is stored in. -/
def FlagFormat.key (flag : FlagFormat) (team : UInt16) : RowKey :=
  (team, flag.teamId, flag.serviceId, flag.round, flag.payload)

/-- What the database does with an INSERT. -/
inductive Outcome where
  /-- It is executed. -/
  | executed
  /-- It ends in an error, whether the row was stored before or not. -/
  | failed (stored : Bool)
  deriving DecidableEq

/-- Is the row in the table afterwards? -/
def Outcome.stores : Outcome → Bool
  | executed => true
  | failed stored => stored

/-- The table `submitted_flags`, in the order of the INSERTs. -/
structure Table where
  rows : List Row
  /-- `submitted_flags_unique_1` -/
  unique : (rows.map Row.key).Nodup

namespace Table

def empty : Table := ⟨[], List.nodup_nil⟩

/-- Is there a row with this key? -/
def Stored (table : Table) (key : RowKey) : Prop := ∃ row ∈ table.rows, row.key = key

instance (table : Table) (key : RowKey) : Decidable (table.Stored key) :=
  inferInstanceAs (Decidable (∃ row ∈ table.rows, _))

/-- The rows that an INSERT adds. -/
def newRow (table : Table) (row : Row) : Outcome → Option Row
  | .executed => if table.Stored row.key then none else some row
  | .failed stored => if ¬ stored ∨ table.Stored row.key then none else some row

theorem not_stored_of_newRow {table : Table} {row row' : Row} {outcome : Outcome}
    (h : table.newRow row outcome = some row') : row' = row ∧ ¬ table.Stored row.key := by
  cases outcome with
  | executed =>
    by_cases hstored : table.Stored row.key
    · simp [newRow, hstored] at h
    · exact ⟨by simpa [newRow, hstored, eq_comm] using h, hstored⟩
  | failed stored =>
    by_cases hstored : table.Stored row.key
    · simp [newRow, hstored] at h
    · cases stored with
      | false => simp [newRow] at h
      | true => exact ⟨by simpa [newRow, hstored, eq_comm] using h, hstored⟩

/-- `INSERT INTO submitted_flags ... ON CONFLICT DO NOTHING`. -/
def insert (table : Table) (row : Row) (outcome : Outcome) : Table :=
  match h : table.newRow row outcome with
  | none => table
  | some row' =>
    { rows := table.rows ++ [row']
      unique := by
        obtain ⟨rfl, hnot⟩ := not_stored_of_newRow h
        rw [List.map_append, List.map_singleton, List.nodup_append]
        refine ⟨table.unique, by simp, fun key hkey key' hkey' heq => hnot ?_⟩
        obtain rfl := List.mem_singleton.1 hkey'
        obtain ⟨r, hr, hrkey⟩ := List.mem_map.1 hkey
        exact ⟨r, hr, hrkey.trans heq⟩ }

/-- `insertFlag`: the number of affected rows, or `-1` for an error. -/
def insertFlag (table : Table) (row : Row) (outcome : Outcome) : ℤ :=
  match outcome with
  | .executed => if table.Stored row.key then 0 else 1
  | .failed _ => -1

/-- What an INSERT does to the table. -/
theorem insert_rows (table : Table) (row : Row) (outcome : Outcome) :
    (table.insert row outcome).rows = table.rows ++ (table.newRow row outcome).toList := by
  unfold insert
  split
  · rename_i h
    simp [h]
  · rename_i row' h
    simp [h]

end Table

/-- Where a worker is in `progress_flag`. -/
inductive Phase where
  | idle
  /-- The checks are passed. -/
  | checked (team : UInt16) (flag : FlagFormat)
  /-- The cell is found, if the cache has one for the flag.  For the record: how many resizes
  had begun by then. -/
  | located (team : UInt16) (flag : FlagFormat) (cell : Option ℕ) (resets : ℕ)
  /-- The cache has been asked: is the flag possibly new? -/
  | lookedUp (team : UInt16) (flag : FlagFormat) (isNew : Bool)
  /-- The round for the INSERT has been read. -/
  | submitting (team : UInt16) (flag : FlagFormat) (isNew : Bool) (round : ℤ)
  /-- The answer is known.  It is counted for `thisTeam`, which is not always the source. -/
  | counting (source thisTeam : UInt16) (flag : FlagFormat) (answer : Answer)
  /-- The flag is counted. -/
  | answering (source : UInt16) (flag : FlagFormat) (answer : Answer)
  deriving DecidableEq

/-- An answer, and to whom and what it was given. -/
structure Reply where
  worker : ℕ
  team : UInt16
  flag : FlagFormat
  answer : Answer
  deriving DecidableEq

structure Server where
  globals : Globals
  cache : FlagCache
  /-- The resize that is running; one thread does them all. -/
  resizing : Option FlagCache.Resize
  workers : ℕ → Phase
  table : Table
  /-- All answers so far, in order. -/
  replies : List Reply
  /-- For the record: the flags looked up since the last reset, last one first. -/
  lookups : List (UInt16 × FlagFormat)
  /-- For the record: the resizes that have begun. -/
  resets : ℕ
  /-- For the record: the INSERTs that were executed, or failed after they had stored the row. -/
  carriedOut : List RowKey
  /-- Memory outside of the cache was accessed. -/
  undefined : Bool

def Server.initial : Server where
  globals := .initial
  cache := .initial
  resizing := none
  workers := fun _ => .idle
  table := .empty
  replies := []
  lookups := []
  resets := 0
  carriedOut := []
  undefined := false

/-- What happens to the server. -/
inductive Event where
  /-- A worker begins with a flag from a team, and makes the checks. -/
  | submit (worker : ℕ) (source : UInt16) (flag : FlagFormat)
  /-- `checkFlag` up to the exchange. -/
  | lookup (worker : ℕ)
  /-- The exchange. -/
  | exchange (worker : ℕ)
  | readRound (worker : ℕ)
  | insert (worker : ℕ) (outcome : Outcome)
  /-- `countFlag` -/
  | count (worker : ℕ)
  | answer (worker : ℕ)
  /-- `initModelSizes`, up to the resize. -/
  | initModelSizes (maxTeamId maxServiceId : UInt32)
  /-- The next step of the resize. -/
  | resize (memory : List UInt32) (count : ℕ)
  /-- `setCurrentState` -/
  | setCurrentState (state : GameState)
  /-- `setCurrentRound` -/
  | setCurrentRound (round : ℤ)
  deriving DecidableEq

/-- The worker that makes a step. -/
def Event.worker : Event → Option ℕ
  | submit worker _ _ => some worker
  | lookup worker => some worker
  | exchange worker => some worker
  | readRound worker => some worker
  | insert worker _ => some worker
  | count worker => some worker
  | answer worker => some worker
  | initModelSizes _ _ => none
  | resize _ _ => none
  | setCurrentState _ => none
  | setCurrentRound _ => none

/-- The submitting team, as it is counted. -/
def thisTeam (globals : Globals) (source : UInt16) : UInt16 :=
  if source.toNat ≤ globals.maxTeamId.toNat ∧ source ≠ 0 then source else 0xffff

namespace Server

/-- A worker goes to another phase. -/
def goto (s : Server) (worker : ℕ) (phase : Phase) : Server :=
  { s with workers := Function.update s.workers worker phase }

/-- A worker is done with a flag. -/
def reply (s : Server) (r : Reply) : Server :=
  { s with workers := Function.update s.workers r.worker .idle, replies := s.replies ++ [r] }

/-- The cell of a flag, if the server has a cache. -/
def cell (checkCache : Bool) (s : Server) (team : UInt16) (flag : FlagFormat) : Option ℕ :=
  if checkCache then
    s.cache.cell team flag.teamId flag.serviceId flag.round flag.payload
  else none

/-- The exchange of the cell, if there is one: is the flag possibly new? -/
def exchange (s : Server) (worker : ℕ) (team : UInt16) (flag : FlagFormat) :
    Option ℕ → Server
  | none => s.goto worker (.lookedUp team flag true)
  | some index =>
    match s.cache.exchange index (FlagCache.cacheKey flag.round flag.payload) with
    | some (isNew, cache) =>
      { s with cache := cache, lookups := (team, flag) :: s.lookups }.goto worker
        (.lookedUp team flag isNew)
    | none => { s with undefined := true }

/-- The answer for the result of `submit_flag`. -/
def submitAnswer (result : ℤ) : Answer :=
  if result < 0 then .databaseError else if result = 0 then .alreadySubmitted else .ok

/-- `submit_flag` and the answer, unless the cache has answered. -/
def insert (s : Server) (worker : ℕ) (team : UInt16) (flag : FlagFormat) (isNew : Bool)
    (round : ℤ) (outcome : Outcome) : Server :=
  if isNew then
    let row : Row := ⟨team, flag.teamId, flag.serviceId, flag.round, flag.payload, round⟩
    { s with
      table := s.table.insert row outcome
      carriedOut := if outcome.stores then row.key :: s.carriedOut else s.carriedOut }.goto
        worker (.counting team team flag (submitAnswer (s.table.insertFlag row outcome)))
  else s.goto worker (.counting team team flag .alreadySubmitted)

/-- The next step of a resize.  The new table forgets what was looked up. -/
def resize (s : Server) (memory : List UInt32) (count : ℕ) (progress : FlagCache.Resize) :
    Server :=
  { s with
    cache := (progress.step s.cache memory count).1
    resizing := (progress.step s.cache memory count).2
    lookups := if progress.isAllocation then [] else s.lookups }

/-- One event.  An event of a worker that is somewhere else does nothing. -/
def step (checkCache : Bool) (config : Config) (s : Server) : Event → Server
  | .submit worker source flag =>
    match s.workers worker with
    | .idle =>
      match checks config s.globals source flag with
      | .error answer =>
        s.goto worker (.counting source (thisTeam s.globals source) flag answer)
      | .ok team => s.goto worker (.checked team flag)
    | _ => s
  | .lookup worker =>
    match s.workers worker with
    | .checked team flag =>
      s.goto worker (.located team flag (s.cell checkCache team flag) s.resets)
    | _ => s
  | .exchange worker =>
    match s.workers worker with
    | .located team flag cell _ => s.exchange worker team flag cell
    | _ => s
  | .readRound worker =>
    match s.workers worker with
    | .lookedUp team flag isNew =>
      s.goto worker (.submitting team flag isNew s.globals.currentRound)
    | _ => s
  | .insert worker outcome =>
    match s.workers worker with
    | .submitting team flag isNew round => s.insert worker team flag isNew round outcome
    | _ => s
  | .count worker =>
    match s.workers worker with
    | .counting source _ flag answer => s.goto worker (.answering source flag answer)
    | _ => s
  | .answer worker =>
    match s.workers worker with
    | .answering source flag answer => s.reply ⟨worker, source, flag, answer⟩
    | _ => s
  | .initModelSizes maxTeamId maxServiceId =>
    match s.resizing with
    | none =>
      { s with
        globals := { s.globals with maxTeamId := maxTeamId, maxServiceId := maxServiceId }
        resizing := some (.begun maxTeamId maxServiceId)
        resets := s.resets + 1 }
    | some _ => s
  | .resize memory count =>
    match s.resizing with
    | none => s
    | some progress => s.resize memory count progress
  | .setCurrentState state => { s with globals := { s.globals with state := state } }
  | .setCurrentRound round => { s with globals := { s.globals with currentRound := round } }

/-- The row that an event adds to the table, if it adds one. -/
def newRow (s : Server) : Event → Option Row
  | .insert worker outcome =>
    match s.workers worker with
    | .submitting team flag true round =>
      s.table.newRow ⟨team, flag.teamId, flag.serviceId, flag.round, flag.payload, round⟩ outcome
    | _ => none
  | _ => none

/-- The exchange leaves everything but the cache and the worker. -/
theorem exchange_frame (s : Server) (worker : ℕ) (team : UInt16) (flag : FlagFormat)
    (cell : Option ℕ) :
    (s.exchange worker team flag cell).globals = s.globals ∧
      (s.exchange worker team flag cell).table = s.table ∧
      (s.exchange worker team flag cell).replies = s.replies := by
  cases cell with
  | none => exact ⟨rfl, rfl, rfl⟩
  | some index =>
    simp only [exchange]
    split <;> exact ⟨rfl, rfl, rfl⟩

theorem exchange_workers (s : Server) (worker : ℕ) (team : UInt16) (flag : FlagFormat)
    (cell : Option ℕ) :
    (s.exchange worker team flag cell).workers = s.workers ∨
      ∃ isNew, (s.exchange worker team flag cell).workers =
        Function.update s.workers worker (.lookedUp team flag isNew) := by
  cases cell with
  | none => exact .inr ⟨true, rfl⟩
  | some index =>
    simp only [exchange]
    split
    · rename_i isNew _ _
      exact .inr ⟨isNew, rfl⟩
    · exact .inl rfl

theorem insert_workers (s : Server) (worker : ℕ) (team : UInt16) (flag : FlagFormat)
    (isNew : Bool) (round : ℤ) (outcome : Outcome) :
    ∃ answer, (s.insert worker team flag isNew round outcome).workers =
      Function.update s.workers worker (.counting team team flag answer) := by
  cases isNew with
  | true => exact ⟨_, rfl⟩
  | false => exact ⟨_, rfl⟩

theorem insert_globals (s : Server) (worker : ℕ) (team : UInt16) (flag : FlagFormat)
    (isNew : Bool) (round : ℤ) (outcome : Outcome) :
    (s.insert worker team flag isNew round outcome).globals = s.globals := by
  cases isNew <;> rfl

/-- All events of `initModelSizes`, if nothing comes between them. -/
def wholeInitModelSizes (memory : List UInt32) (maxTeamId maxServiceId : UInt32) : List Event :=
  [.initModelSizes maxTeamId maxServiceId, .resize [] 0, .resize [] 0, .resize memory 0,
    .resize [] (2 ^ 32)]

/-- Then the cache is empty, whatever was in the memory. -/
theorem exec_wholeInitModelSizes (checkCache : Bool) (config : Config) {s : Server}
    (h : s.resizing = none) (memory : List UInt32) (maxTeamId maxServiceId : UInt32) :
    Machine.exec (step checkCache config) s (wholeInitModelSizes memory maxTeamId maxServiceId) =
      { s with
        globals := { s.globals with maxTeamId := maxTeamId, maxServiceId := maxServiceId }
        cache := .resize maxTeamId maxServiceId
        lookups := []
        resets := s.resets + 1 } := by
  have hsize : FlagCache.newSize maxTeamId maxServiceId ≤ 0 + 2 ^ 32 :=
    (Nat.mod_lt _ (by decide)).le.trans (Nat.le_add_left _ _)
  have hdone : (({ s.cache with teamCount := maxTeamId, serviceCount := maxServiceId } :
      FlagCache).allocate maxTeamId maxServiceId memory).size ≤ 0 + 2 ^ 32 := hsize
  have hcleared := FlagCache.allocate_clear s.cache maxTeamId maxServiceId memory hsize
  simp only [wholeInitModelSizes, Machine.exec_cons, Machine.exec_nil, step, h, resize,
    FlagCache.Resize.step, FlagCache.Resize.isAllocation]
  rw [if_pos hdone, hcleared]
  rfl

/-- A worker moves alone. -/
theorem step_workers (checkCache : Bool) (config : Config) (s : Server) {e : Event} {worker : ℕ}
    (he : e.worker = some worker) :
    (s.step checkCache config e).workers = Function.update s.workers worker
      ((s.step checkCache config e).workers worker) := by
  -- a worker stays where it is, or goes to some phase
  have hmove : (s.step checkCache config e).workers = s.workers ∨
      ∃ phase, (s.step checkCache config e).workers = Function.update s.workers worker phase := by
    cases e with
    | submit w source flag =>
      obtain rfl := Option.some.inj he
      simp only [step]
      repeat' split
      · exact .inr ⟨_, rfl⟩
      · exact .inr ⟨_, rfl⟩
      · exact .inl rfl
    | exchange w =>
      obtain rfl := Option.some.inj he
      simp only [step]
      split
      · exact (s.exchange_workers w _ _ _).imp_right fun ⟨isNew, h⟩ => ⟨_, h⟩
      · exact .inl rfl
    | insert w outcome =>
      obtain rfl := Option.some.inj he
      simp only [step]
      split
      · obtain ⟨answer, h⟩ := s.insert_workers w _ _ _ _ outcome
        exact .inr ⟨_, h⟩
      · exact .inl rfl
    | initModelSizes _ _ => cases he
    | resize _ _ => cases he
    | setCurrentState _ => cases he
    | setCurrentRound _ => cases he
    | _ w =>
      obtain rfl := Option.some.inj he
      simp only [step]
      split
      · exact .inr ⟨_, rfl⟩
      · exact .inl rfl
  rcases hmove with h | ⟨phase, h⟩
  · rw [h, Function.update_eq_self]
  · rw [h, Function.update_self]

theorem step_workers_none (checkCache : Bool) (config : Config) (s : Server) {e : Event}
    (he : e.worker = none) : (s.step checkCache config e).workers = s.workers := by
  cases e with
  | initModelSizes _ _ =>
    simp only [step]
    split <;> rfl
  | resize _ _ =>
    simp only [step]
    split <;> rfl
  | setCurrentState _ => rfl
  | setCurrentRound _ => rfl
  | _ => cases he

/-- Only an INSERT changes the table. -/
theorem step_table (checkCache : Bool) (config : Config) (s : Server) {e : Event}
    (he : ∀ worker outcome, e ≠ .insert worker outcome) :
    (s.step checkCache config e).table = s.table := by
  cases e with
  | insert worker outcome => exact absurd rfl (he worker outcome)
  | exchange worker =>
    simp only [step]
    split
    · exact (s.exchange_frame worker _ _ _).2.1
    · rfl
  | submit worker source flag =>
    simp only [step]
    repeat' split
    all_goals rfl
  | setCurrentState _ => rfl
  | setCurrentRound _ => rfl
  | _ =>
    simp only [step]
    split <;> rfl

/-- **What one event can do to the table.** -/
theorem step_table_rows (checkCache : Bool) (config : Config) (s : Server) (e : Event) :
    (s.step checkCache config e).table.rows = s.table.rows ++ (s.newRow e).toList := by
  cases e with
  | insert worker outcome =>
    simp only [step, newRow]
    cases s.workers worker with
    | submitting team flag isNew round =>
      cases isNew with
      | false => exact (List.append_nil _).symm
      | true => exact s.table.insert_rows _ outcome
    | _ => exact (List.append_nil _).symm
  | _ =>
    rw [step_table checkCache config s (by simp)]
    exact (List.append_nil _).symm

end Server

end Gameserver.Submission
