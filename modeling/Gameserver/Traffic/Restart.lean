import Gameserver.Lib.Rounding
import Mathlib.Data.List.Basic
import Mathlib.Data.List.Nodup

/-!
# Restarting the traffic statistics

`manage-trafficstats.py` reads the counters once a minute and stores what was added since the
minute before.  An interrupt saves its state, and a restart within the same minute goes on from
there.

* `Round`, `State` — what the loop sees in one round, and what it keeps.
* `Table`, `efficientInsert` — the rows in the database.  It takes neither no rows nor a second row
  for a time and a team.
* `saveDifference`, `State.round`, `State.stored` — one round, and the rows of a run.  An exception
  ends the run.
* `State.json`, `State.restart` — the saved state, as it comes back from the file.
* `survives_iff` — when a restart changes nothing.

Times are in microseconds.
-/

namespace Gameserver.Traffic

open Rounding (roundDiv)

/-- A key of a dictionary. -/
inductive Key where
  | int (n : ℤ)
  | str (text : String)
deriving DecidableEq, Repr

/-- What the loop sees in one round. -/
structure Round where
  /-- The first `time.time()`. -/
  start : ℤ
  /-- The second one, after the statistics have been stored. -/
  finish : ℤ
  /-- The counters of the teams. -/
  results : List (ℤ × List ℤ)
  /-- They are a dictionary. -/
  nodup : (results.map Prod.fst).Nodup
  /-- Is `network:state` on? -/
  network : Bool
deriving DecidableEq, Repr

/-- A row of the table of statistics. -/
structure Row where
  time : ℤ
  teamId : ℤ
  values : List ℤ
deriving DecidableEq, Repr

/-- What is unique in the table. -/
def Row.key (row : Row) : ℤ × ℤ := (row.time, row.teamId)

/-- The table of statistics. -/
structure Table where
  rows : List Row
  unique : (rows.map Row.key).Nodup
deriving DecidableEq

/-- `TeamTrafficStats.efficient_insert`; `none` is an exception.  Without rows the arrays are empty,
and `unnest` cannot tell their type. -/
def efficientInsert (table : Table) (rows : List Row) : Option Table :=
  if h : rows ≠ [] ∧ ((table.rows ++ rows).map Row.key).Nodup then some ⟨table.rows ++ rows, h.2⟩
  else none

/-- The variables of the loop. -/
structure State where
  lastMinuteResults : List (Key × List ℤ)
  oldVpnStatus : Bool
  lastMinuteTick : ℤ
deriving DecidableEq, Repr

/-- `TICK_TIME`, in seconds. -/
def tickTime : ℤ := 60

/-- `TICK_TIME`. -/
def minute : ℤ := tickTime * 1000000

/-- The minute that is stored for a time. -/
def nearestTick (t : ℤ) : ℤ := roundDiv t minute * tickTime

/-- The rows that `save_difference` inserts. -/
def saveDifference (timestamp : ℤ) (newResults : List (ℤ × List ℤ))
    (lastMinuteResults : List (Key × List ℤ)) : List Row :=
  newResults.filterMap fun e => (lastMinuteResults.lookup (.int e.1)).map fun oldValues =>
    ⟨timestamp, e.1, List.zipWith (· - ·) e.2 oldValues⟩

/-- The results of a round, as a dictionary. -/
def Round.dict (r : Round) : List (Key × List ℤ) := r.results.map fun e => (.int e.1, e.2)

namespace State

/-- Does a round take statistics? -/
def takes (s : State) (r : Round) : Bool := s.oldVpnStatus || r.network

/-- The rows of a round. -/
def rows (s : State) (r : Round) : List Row :=
  if s.takes r then saveDifference (nearestTick r.start) r.results s.lastMinuteResults else []

/-- The variables after a round. -/
def next (s : State) (r : Round) : State :=
  -- the variable for the time holds the duration where statistics were taken
  let t := if s.takes r then r.finish - r.start else r.start
  ⟨r.dict, r.network, nearestTick t⟩

/-- One round of the loop: the variables and the table afterwards, unless it raises. -/
def round (s : State) (table : Table) (r : Round) : Option (State × Table) :=
  if s.takes r then (efficientInsert table (s.rows r)).map fun table => (s.next r, table)
  else some (s.next r, table)

/-- The variables and the table after some rounds, if none of them raises. -/
def after : State → Table → List Round → Option (State × Table)
  | s, table, [] => some (s, table)
  | s, table, r :: rounds => (s.round table r).bind fun e => after e.1 e.2 rounds

/-- The rows of each round, up to the first one that raises. -/
def stored : State → Table → List Round → List (List Row)
  | _, _, [] => []
  | s, table, r :: rounds =>
    match s.round table r with
    | some (s', table') => s.rows r :: stored s' table' rounds
    | none => []

/-- The variables before the first round. -/
def initial (r : Round) : State := ⟨r.dict, r.network, nearestTick r.start⟩

/-- The state that comes back from the file: JSON has no other keys than texts. -/
def json (s : State) : State :=
  { s with lastMinuteResults := s.lastMinuteResults.map fun e =>
      (match e.1 with
        | .int n => .str (toString n)
        | .str text => .str text, e.2) }

/-- Does a process that starts at this time go on from the state? -/
def accepts (s : State) (now : ℤ) : Bool := s.lastMinuteTick = now / minute * tickTime

/-- The variables of a process that starts at this time and finds the saved state; `fresh` is what
it would see otherwise. -/
def restart (s : State) (now : ℤ) (fresh : Round) : State :=
  if s.json.accepts now then s.json else initial fresh

/-- A restart goes on from the saved state, and stores what the process would have stored. -/
def Survives (s : State) (table : Table) (now : ℤ) (fresh : Round) (rounds : List Round) : Prop :=
  s.json.accepts now = true ∧ (s.restart now fresh).stored table rounds = s.stored table rounds

end State

/-! ## Inserting -/

section Insert

variable {table : Table} {rows : List Row}

theorem efficientInsert_nil : efficientInsert table [] = none := by
  rw [efficientInsert, dif_neg (by simp)]

/-- New rows are refused if there are none or one of them is in the table. -/
theorem efficientInsert_eq_none_iff (hrows : (rows.map Row.key).Nodup) :
    efficientInsert table rows = none ↔
      rows = [] ∨ ∃ row ∈ rows, row.key ∈ table.rows.map Row.key := by
  have hnodup : ((table.rows ++ rows).map Row.key).Nodup ↔
      ∀ row ∈ rows, row.key ∉ table.rows.map Row.key := by
    rw [List.map_append, List.nodup_append_comm, List.nodup_append']
    simp [hrows, table.unique, List.disjoint_left]
  unfold efficientInsert
  rw [dite_eq_right_iff]
  simp only [reduceCtorEq, imp_false, hnodup, not_and_or, not_forall, not_not, exists_prop]

end Insert

/-! ## A round after a restart -/

variable (s : State) (table : Table) (r : Round)

/-- The variables after a round do not depend on the keys. -/
@[simp] theorem next_json : s.json.next r = s.next r := rfl

@[simp] theorem takes_json : s.json.takes r = s.takes r := rfl

theorem lookup_json (n : ℤ) : s.json.lastMinuteResults.lookup (.int n) = none := by
  refine List.lookup_eq_none_iff.mpr fun e he => ?_
  obtain ⟨e', -, rfl⟩ := List.mem_map.mp he
  obtain ⟨key, values⟩ := e'
  cases key <;> rfl

/-- No key from the file is found, so there is nothing to store. -/
theorem rows_json : s.json.rows r = [] := by
  unfold State.rows
  split_ifs
  · exact List.filterMap_eq_nil_iff.mpr fun e _ => by rw [lookup_json]; rfl
  · rfl

theorem round_json_of_takes (htakes : s.takes r = true) : s.json.round table r = none := by
  rw [State.round, takes_json, if_pos htakes, rows_json, efficientInsert_nil]
  rfl

theorem lookup_dict_eq_none_iff (n : ℤ) :
    r.dict.lookup (.int n) = none ↔ n ∉ r.results.map Prod.fst := by
  rw [List.lookup_eq_none_iff]
  constructor
  · intro h hmem
    obtain ⟨e, he, rfl⟩ := List.mem_map.mp hmem
    exact absurd (h _ (List.mem_map_of_mem he)) (by simp)
  · intro h e he
    obtain ⟨e', he', rfl⟩ := List.mem_map.mp he
    exact bne_iff_ne.mpr fun heq => h (List.mem_map.mpr ⟨e', he', (Key.int.inj heq).symm⟩)

/-- The keys of new rows. -/
theorem mem_map_key_saveDifference (timestamp : ℤ) (first : Round) (key : ℤ × ℤ) :
    key ∈ (saveDifference timestamp first.results r.dict).map Row.key ↔
      key.1 = timestamp ∧ key.2 ∈ first.results.map Prod.fst ∧ key.2 ∈ r.results.map Prod.fst := by
  have hmem : ∀ n, n ∈ r.results.map Prod.fst ↔ ∃ old, r.dict.lookup (.int n) = some old := by
    intro n
    rw [← not_iff_not, ← lookup_dict_eq_none_iff, Option.eq_none_iff_forall_ne_some]
    simp
  rw [hmem]
  unfold saveDifference
  constructor
  · intro h
    obtain ⟨row, hrow, rfl⟩ := List.mem_map.mp h
    obtain ⟨e, he, hrow⟩ := List.mem_filterMap.mp hrow
    obtain ⟨old, hold, rfl⟩ := Option.map_eq_some_iff.mp hrow
    exact ⟨rfl, List.mem_map_of_mem he, old, hold⟩
  · obtain ⟨time, team⟩ := key
    rintro ⟨rfl, hteam, old, hold⟩
    obtain ⟨e, he, rfl⟩ := List.mem_map.mp hteam
    exact List.mem_map.mpr ⟨_, List.mem_filterMap.mpr
      ⟨e, he, Option.map_eq_some_iff.mpr ⟨old, hold, rfl⟩⟩, rfl⟩

theorem nodup_map_key_saveDifference (timestamp : ℤ) (first : Round) (old : List (Key × List ℤ)) :
    ((saveDifference timestamp first.results old).map Row.key).Nodup := by
  have hpairwise := List.pairwise_map.mp first.nodup
  unfold saveDifference
  refine List.pairwise_map.mpr (List.pairwise_filterMap.mpr ?_)
  refine hpairwise.imp fun hne row hrow row' hrow' heq => ?_
  obtain ⟨_, -, rfl⟩ := Option.map_eq_some_iff.mp hrow
  obtain ⟨_, -, rfl⟩ := Option.map_eq_some_iff.mp hrow'
  exact hne (congrArg Prod.snd heq)

theorem saveDifference_eq_nil_iff (timestamp : ℤ) (first : Round) :
    saveDifference timestamp first.results r.dict = [] ↔
      (first.results.map Prod.fst).Disjoint (r.results.map Prod.fst) := by
  unfold saveDifference
  rw [List.filterMap_eq_nil_iff]
  simp only [Option.map_eq_none_iff, lookup_dict_eq_none_iff]
  constructor
  · rintro h n hn
    obtain ⟨e, he, rfl⟩ := List.mem_map.mp hn
    exact h e he
  · exact fun h e he => h (List.mem_map_of_mem he)

/-- The database has the statistics of the minute of a round already, for a team that is in it and
in the round before. -/
def Repeated (table : Table) (last first : Round) : Prop :=
  ∃ row ∈ table.rows, row.time = nearestTick first.start ∧
    row.teamId ∈ first.results.map Prod.fst ∧ row.teamId ∈ last.results.map Prod.fst

/-- When a round that takes statistics raises. -/
theorem round_eq_none_iff (first : Round) (htakes : (r.network || first.network) = true) :
    (s.next r).round table first = none ↔
      (first.results.map Prod.fst).Disjoint (r.results.map Prod.fst) ∨ Repeated table r first := by
  have htakes' : (s.next r).takes first = true := htakes
  have hrows : (s.next r).rows first =
      saveDifference (nearestTick first.start) first.results r.dict := if_pos htakes'
  rw [State.round, if_pos htakes', Option.map_eq_none_iff, hrows,
    efficientInsert_eq_none_iff (nodup_map_key_saveDifference _ _ _), saveDifference_eq_nil_iff]
  refine or_congr_right ?_
  constructor
  · rintro ⟨row, hrow, hold⟩
    obtain ⟨htime, hfirst, hlast⟩ :=
      (mem_map_key_saveDifference r _ first row.key).mp (List.mem_map_of_mem hrow)
    obtain ⟨old, hold, heq⟩ := List.mem_map.mp hold
    have htime' : old.time = row.time := congrArg Prod.fst heq
    have hteam' : old.teamId = row.teamId := congrArg Prod.snd heq
    exact ⟨old, hold, htime'.trans htime, hteam' ▸ hfirst, hteam' ▸ hlast⟩
  · rintro ⟨old, hold, htime, hfirst, hlast⟩
    obtain ⟨row, hrow, heq⟩ := List.mem_map.mp
      ((mem_map_key_saveDifference r _ first old.key).mpr ⟨htime, hfirst, hlast⟩)
    exact ⟨row, hrow, heq ▸ List.mem_map_of_mem hold⟩

/-- Only the first round after a restart can store something else. -/
theorem stored_json_iff (rounds : List Round) :
    (s.next r).json.stored table rounds = (s.next r).stored table rounds ↔
      ∀ first, rounds.head? = some first →
        (r.network || first.network) = false ∨
          (first.results.map Prod.fst).Disjoint (r.results.map Prod.fst) ∨
          Repeated table r first := by
  cases rounds with
  | nil => exact iff_of_true rfl fun first h => by cases h
  | cons first rounds =>
    simp only [List.head?_cons, Option.some.injEq, forall_eq']
    by_cases htakes : (r.network || first.network) = true
    · -- the restarted process ends here
      have htakes' : (s.next r).takes first = true := htakes
      rw [htakes, ← round_eq_none_iff s table r first htakes]
      simp only [State.stored, round_json_of_takes _ table first htakes', Bool.true_eq_false,
        false_or]
      cases (s.next r).round table first with
      | none => exact iff_of_true rfl rfl
      | some e => simp
    · rw [Bool.not_eq_true] at htakes
      have htakes' : (s.next r).takes first = false := htakes
      refine iff_of_true ?_ (.inl htakes)
      have hround : ∀ s : State, s.takes first = false →
          s.stored table (first :: rounds) = [] :: (s.next first).stored table rounds := by
        intro s hs
        simp [State.stored, State.round, State.rows, hs]
      rw [hround _ htakes', hround _ ((takes_json _ first).trans htakes'), next_json]

/-! ## The minute of the saved state -/

/-- The time that the last round leaves in the variable. -/
theorem accepts_iff (now : ℤ) :
    (s.next r).json.accepts now = true ↔
      roundDiv (if s.takes r then r.finish - r.start else r.start) minute = now / minute := by
  rw [State.accepts, decide_eq_true_iff]
  show roundDiv (if s.takes r then _ else _) minute * tickTime = _ * tickTime ↔ _
  unfold tickTime
  omega

/-! ## A run -/

/-- `old_vpn_status` after some rounds. -/
def statusAfter (start : State) (history : List Round) : Bool :=
  (history.getLast?.map Round.network).getD start.oldVpnStatus

variable {s table r}

/-- What a round that does not raise leaves. -/
theorem round_fst {s' : State} {table' : Table} (h : s.round table r = some (s', table')) :
    s' = s.next r := by
  unfold State.round at h
  split_ifs at h
  · obtain ⟨_, -, heq⟩ := Option.map_eq_some_iff.mp h
    exact (congrArg Prod.fst heq).symm
  · exact (congrArg Prod.fst (Option.some.inj h)).symm

/-- The variables after a run are those that its last round leaves. -/
theorem exists_next_of_after {history : List Round} {last : Round} {s' : State} {table' : Table}
    (h : s.after table (history ++ [last]) = some (s', table')) :
    ∃ s₀ : State, s' = s₀.next last ∧ s₀.oldVpnStatus = statusAfter s history := by
  induction history generalizing s table with
  | nil =>
    obtain ⟨⟨s₁, table₁⟩, hround, hafter⟩ := Option.bind_eq_some_iff.mp h
    obtain rfl : s₁ = s' := congrArg Prod.fst (Option.some.inj hafter)
    exact ⟨s, round_fst hround, rfl⟩
  | cons r rounds ih =>
    obtain ⟨⟨s₁, table₁⟩, hround, hafter⟩ := Option.bind_eq_some_iff.mp h
    obtain ⟨s₀, hs₀, hstatus⟩ := ih hafter
    refine ⟨s₀, hs₀, hstatus.trans ?_⟩
    obtain rfl := round_fst hround
    cases rounds with
    | nil => rfl
    | cons r' rounds => simp [statusAfter, List.getLast?_cons]

/-- **When a restart changes nothing.**  The last round took no statistics and began in the half of
its minute that is rounded down, and the next one takes none either, or raises in any case. -/
theorem survives_iff (start : State) (table₀ : Table) (history : List Round) (last : Round)
    (table : Table) (hcompleted : start.after table₀ (history ++ [last]) = some (s, table))
    (now : ℤ) (fresh : Round) (rounds : List Round) (hminute : now / minute = last.start / minute) :
    s.Survives table now fresh rounds ↔
      (if statusAfter start history || last.network then
          roundDiv (last.finish - last.start) minute = last.start / minute
        else roundDiv last.start minute = last.start / minute) ∧
      ∀ first, rounds.head? = some first →
        (last.network || first.network) = false ∨
          (first.results.map Prod.fst).Disjoint (last.results.map Prod.fst) ∨
          Repeated table last first := by
  obtain ⟨s₀, rfl, hstatus⟩ := exists_next_of_after hcompleted
  have haccepts := accepts_iff s₀ last now
  rw [hminute, apply_ite (roundDiv · minute = last.start / minute), State.takes, hstatus]
    at haccepts
  rw [State.Survives, ← stored_json_iff s₀ table last rounds, haccepts]
  refine and_congr_right fun hsame => ?_
  rw [State.restart, if_pos (haccepts.mpr hsame)]

/-- A round at the start of a minute, with one team that has sent so much. -/
def roundAt (number : ℤ) (network : Bool) (count : ℤ) : Round :=
  ⟨number * minute + 1000, number * minute + 5000, [(1, List.replicate 20 count)],
    List.nodup_singleton _, network⟩

/-- A table without rows. -/
def Table.empty : Table := ⟨[], List.nodup_nil⟩

/-- A restart while the network is off, a minute before it is switched on. -/
theorem survives_off :
    ((State.initial (roundAt 28333333 false 0)).next (roundAt 28333334 false 5)).Survives .empty
      (28333334 * minute + 30000000) (roundAt 28333335 false 5)
      [roundAt 28333335 false 5, roundAt 28333336 true 7] := by
  refine (survives_iff (State.initial (roundAt 28333333 false 0)) .empty []
    (roundAt 28333334 false 5) .empty (by decide) _ _ _ (by decide)).mpr
    ⟨by decide, fun first hfirst => ?_⟩
  obtain rfl := Option.some.inj hfirst
  exact .inl rfl

/-- A restart while the network is on is one from the beginning; and when the network is switched
on after a restart, the process ends in the first round instead of storing its statistics. -/
theorem not_survives :
    (∃ s table, (State.initial (roundAt 28333333 true 0)).after .empty [roundAt 28333334 true 5] =
        some (s, table) ∧
      ¬ s.Survives table (28333334 * minute + 30000000) (roundAt 28333335 true 7)
        [roundAt 28333336 true 9]) ∧
      ∃ s table,
        (State.initial (roundAt 28333333 false 0)).after .empty [roundAt 28333334 false 5] =
          some (s, table) ∧
      ¬ s.Survives table (28333334 * minute + 30000000) (roundAt 28333335 true 7)
        [roundAt 28333335 true 7] := by
  refine ⟨⟨(State.initial (roundAt 28333333 true 0)).next (roundAt 28333334 true 5),
    ⟨[⟨28333334 * tickTime, 1, List.replicate 20 5⟩], List.nodup_singleton _⟩, by decide,
    fun h => absurd h.1 (by decide)⟩, ?_⟩
  exact ⟨(State.initial (roundAt 28333333 false 0)).next (roundAt 28333334 false 5), .empty,
    by decide, fun h => absurd h.2 (by decide)⟩

end Gameserver.Traffic
