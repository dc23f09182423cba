import Gameserver.Lib.Commuting
import Gameserver.Timer.Reconstruct
import Gameserver.Timer.Safety

/-!
# Recording the ticks

`DatabaseTickRecording` of `controlserver/events_impl.py` writes the start and the end of every
tick to the database.  Each write has a thread of its own, and is tried again after an error, so
the writes come in any order, and a write may be made twice.

* `setField`, `setStart`, `setEnd` — the upserts of `Tick`.
* `record_comm`, `record_record` — upserts of different fields commute, and can be repeated.
* `historyOf` — what the events of the timer say, in their order.
* `recorded_history` — **the table holds the history of the game**, whatever the threads do.
* `recorded_restart` — **a game whose Redis is lost goes on where it stopped**.
-/

namespace Gameserver.Timer

open Machine

/-! ## Upserts -/

/-- `INSERT … ON CONFLICT (tick) DO UPDATE`, on the rows in the order of their key. -/
def setField (tick : ℤ) (update : Tick → Tick) : List Tick → List Tick
  | [] => [update ⟨tick, none, none⟩]
  | row :: rows =>
    if row.tick = tick then update row :: rows
    else if tick < row.tick then update ⟨tick, none, none⟩ :: row :: rows
    else row :: setField tick update rows

/-- `Tick.set_start`. -/
def setStart (rows : List Tick) (tick ts : ℤ) : List Tick :=
  setField tick (fun row => { row with tickStart := some ts }) rows

/-- `Tick.set_end`. -/
def setEnd (rows : List Tick) (tick ts : ℤ) : List Tick :=
  setField tick (fun row => { row with tickEnd := some ts }) rows

/-- The thread of an event, with the time that the event was given. -/
def recordEvent (rows : List Tick) : TickEvent × ℤ → List Tick
  | (.started tick, ts) => setStart rows tick ts
  | (.ended tick, ts) => setEnd rows tick ts

/-- What an event changes in the row of its tick. -/
def updateOf : TickEvent × ℤ → Tick → Tick
  | (.started _, ts) => fun row => { row with tickStart := some ts }
  | (.ended _, ts) => fun row => { row with tickEnd := some ts }

theorem recordEvent_eq (rows : List Tick) (w : TickEvent × ℤ) :
    recordEvent rows w = setField w.1.tick (updateOf w) rows := by
  obtain ⟨event, ts⟩ := w
  cases event <;> rfl

@[simp] theorem updateOf_tick (w : TickEvent × ℤ) (row : Tick) :
    (updateOf w row).tick = row.tick := by
  obtain ⟨event, ts⟩ := w
  cases event <;> rfl

theorem updateOf_updateOf (w : TickEvent × ℤ) (row : Tick) :
    updateOf w (updateOf w row) = updateOf w row := by
  obtain ⟨event, ts⟩ := w
  cases event <;> rfl

/-- The two fields of a row are independent. -/
theorem updateOf_comm {v w : TickEvent × ℤ} (h : v.1 ≠ w.1) (htick : v.1.tick = w.1.tick)
    (row : Tick) : updateOf v (updateOf w row) = updateOf w (updateOf v row) := by
  obtain ⟨event, ts⟩ := v
  obtain ⟨event', ts'⟩ := w
  cases event with
  | started n =>
    cases event' with
    | started k =>
      obtain rfl : n = k := htick
      exact absurd rfl h
    | ended k => rfl
  | ended n =>
    cases event' with
    | started k => rfl
    | ended k =>
      obtain rfl : n = k := htick
      exact absurd rfl h

section SetField

variable {n k : ℤ} {f g : Tick → Tick} {rows : List Tick}

theorem setField_setField (hf : ∀ row, (f row).tick = row.tick) (hff : ∀ row, f (f row) = f row)
    (rows : List Tick) : setField n f (setField n f rows) = setField n f rows := by
  induction rows with
  | nil => simp [setField, hf, hff]
  | cons row rows ih =>
    rw [setField]
    split_ifs with heq hlt
    · simp [setField, hf, hff, heq]
    · simp [setField, hf, hff]
    · simp [setField, heq, hlt, ih]

theorem setField_comm_of_lt (hf : ∀ row, (f row).tick = row.tick)
    (hg : ∀ row, (g row).tick = row.tick) (hlt : n < k) (rows : List Tick) :
    setField k g (setField n f rows) = setField n f (setField k g rows) := by
  induction rows with
  | nil => simp [setField, hf, hg, hlt, hlt.ne, hlt.ne', hlt.not_gt]
  | cons row rows ih =>
    rcases lt_trichotomy row.tick n with h | h | h
    · have hk : row.tick < k := h.trans hlt
      simp [setField, h.ne, h.not_gt, hk.ne, hk.not_gt, ih]
    · simp [setField, hf, h, hlt.ne, hlt.not_gt]
    · rcases lt_trichotomy row.tick k with h' | h' | h'
      · simp [setField, hf, h.ne', h, h'.ne, h'.not_gt, hlt.ne, hlt.not_gt]
      · simp [setField, hf, hg, h', hlt, hlt.ne, hlt.ne', hlt.not_gt]
      · simp [setField, hf, hg, h, h.ne', h', h'.ne', hlt, hlt.ne, hlt.ne', hlt.not_gt]

theorem setField_comm_same (hf : ∀ row, (f row).tick = row.tick)
    (hg : ∀ row, (g row).tick = row.tick) (hfg : ∀ row, f (g row) = g (f row)) (rows : List Tick) :
    setField n g (setField n f rows) = setField n f (setField n g rows) := by
  induction rows with
  | nil => simp [setField, hf, hg, hfg]
  | cons row rows ih =>
    rcases lt_trichotomy row.tick n with h | h | h
    · simp [setField, h.ne, h.not_gt, ih]
    · simp [setField, hf, hg, h, hfg]
    · simp [setField, hf, hg, h, h.ne', hfg]

theorem setField_comm (hf : ∀ row, (f row).tick = row.tick) (hg : ∀ row, (g row).tick = row.tick)
    (hfg : n = k → ∀ row, f (g row) = g (f row)) (rows : List Tick) :
    setField k g (setField n f rows) = setField n f (setField k g rows) := by
  rcases lt_trichotomy n k with hlt | rfl | hgt
  · exact setField_comm_of_lt hf hg hlt rows
  · exact setField_comm_same hf hg (hfg rfl) rows
  · exact (setField_comm_of_lt hg hf hgt rows).symm

/-- A new tick comes after all others. -/
theorem setField_append (h : ∀ row ∈ rows, row.tick < n) :
    setField n f rows = rows ++ [f ⟨n, none, none⟩] := by
  induction rows with
  | nil => rfl
  | cons row rows ih =>
    have hrow := h row List.mem_cons_self
    rw [setField, if_neg hrow.ne, if_neg hrow.not_gt, ih fun r hr =>
      h r (List.mem_cons_of_mem _ hr)]
    rfl

theorem setField_concat {row : Tick} (h : ∀ row ∈ rows, row.tick < n) (hrow : row.tick = n) :
    setField n f (rows ++ [row]) = rows ++ [f row] := by
  induction rows with
  | nil => simp [setField, hrow]
  | cons first rows ih =>
    have hfirst := h first List.mem_cons_self
    rw [List.cons_append, setField, if_neg hfirst.ne, if_neg hfirst.not_gt,
      ih fun r hr => h r (List.mem_cons_of_mem _ hr)]
    rfl

end SetField

/-- Threads of different events can run in either order. -/
theorem record_comm {v w : TickEvent × ℤ} (h : v.1 ≠ w.1) (rows : List Tick) :
    recordEvent (recordEvent rows v) w = recordEvent (recordEvent rows w) v := by
  simp only [recordEvent_eq]
  exact setField_comm (updateOf_tick v) (updateOf_tick w) (fun htick => updateOf_comm h htick) rows

/-- A thread that has written before it fails can write again. -/
theorem record_record (w : TickEvent × ℤ) (rows : List Tick) :
    recordEvent (recordEvent rows w) w = recordEvent rows w := by
  simp only [recordEvent_eq]
  exact setField_setField (updateOf_tick w) (updateOf_updateOf w) rows

/-! ## Histories -/

/-- The history after one more event. -/
def History.next (history : History) : TickEvent × ℤ → History
  | (.started _, ts) => { history with running := some ts }
  | (.ended _, ts) => ⟨history.ended ++ [(history.running.getD 0, ts)], none⟩

/-- The history that the events make up, in the order in which the timer emits them. -/
def historyOf (timed : List (TickEvent × ℤ)) : History := timed.foldl History.next ⟨[], none⟩

theorem endedRows_concat (first : ℤ) (ended : List (ℤ × ℤ)) (times : ℤ × ℤ) :
    endedRows first (ended ++ [times]) =
      endedRows first ended ++ [⟨first + ended.length, some times.1, some times.2⟩] := by
  induction ended generalizing first with
  | nil => simp [endedRows]
  | cons t ended ih =>
    simp only [List.cons_append, endedRows, ih, List.length_cons]
    rw [show first + 1 + (ended.length : ℤ) = first + ((ended.length + 1 : ℕ) : ℤ) by
      push_cast; ring]

/-- The last tick that has started. -/
def History.lastTick (history : History) : ℤ :=
  history.ended.length + if history.running.isSome then 1 else 0

theorem tick_lt_of_mem_endedRows {ended : List (ℤ × ℤ)} {row : Tick}
    (h : row ∈ endedRows 1 ended) : row.tick < ended.length + 1 := by
  have := of_mem_endedRows h
  omega

/-- In a game that takes its course, the upsert of an event adds the event to the rows. -/
theorem rows_next {history : History} {w : TickEvent × ℤ}
    (h : Alternating history.running.isSome history.lastTick [w.1]) :
    recordEvent history.rows w = (history.next w).rows ∧
      (history.next w).running.isSome = w.1.opens ∧ (history.next w).lastTick = w.1.tick := by
  obtain ⟨ended, running⟩ := history
  obtain ⟨event, ts⟩ := w
  cases running with
  | none =>
    cases event with
    | started n =>
      obtain ⟨hn, -⟩ := h
      have hn : n = (ended.length : ℤ) + 1 := by simpa [History.lastTick] using hn
      refine ⟨?_, rfl, ?_⟩
      · rw [recordEvent_eq]
        simp only [History.rows, History.next, TickEvent.tick, Option.toList_none, List.map_nil,
          List.append_nil]
        rw [setField_append fun row hrow => hn ▸ tick_lt_of_mem_endedRows hrow, hn]
        rfl
      · rw [TickEvent.tick, hn]
        rfl
    | ended n => exact h.elim
  | some s =>
    cases event with
    | started n => exact h.elim
    | ended n =>
      obtain ⟨hn, -⟩ := h
      have hn : n = (ended.length : ℤ) + 1 := by simpa [History.lastTick] using hn
      refine ⟨?_, rfl, ?_⟩
      · rw [recordEvent_eq]
        simp only [History.rows, History.next, TickEvent.tick, Option.toList_some, List.map_cons,
          List.map_nil, endedRows_concat, Option.toList_none, List.append_nil]
        rw [setField_concat (fun row hrow => hn ▸ tick_lt_of_mem_endedRows hrow) hn.symm,
          Int.add_comm]
        rfl
      · simp [TickEvent.tick, hn, History.lastTick, History.next]

/-- The upserts in the order of the events. -/
theorem rows_foldl (history : History) {timed : List (TickEvent × ℤ)}
    (h : Alternating history.running.isSome history.lastTick (timed.map Prod.fst)) :
    timed.foldl recordEvent history.rows = (timed.foldl History.next history).rows ∧
      (timed.foldl History.next history).running.isSome =
        tickOpen history.running.isSome (timed.map Prod.fst) ∧
      (timed.foldl History.next history).lastTick =
        lastTick history.lastTick (timed.map Prod.fst) := by
  induction timed generalizing history with
  | nil => exact ⟨rfl, rfl, rfl⟩
  | cons w timed ih =>
    rw [List.map_cons, ← List.singleton_append, alternating_append] at h
    obtain ⟨hrows, hopen, hlast⟩ := rows_next h.1
    have hrest := h.2
    rw [show tickOpen history.running.isSome [w.1] = w.1.opens from rfl,
      show lastTick history.lastTick [w.1] = w.1.tick from rfl, ← hopen, ← hlast] at hrest
    rw [List.foldl_cons, List.foldl_cons, hrows]
    obtain ⟨h₁, h₂, h₃⟩ := ih _ hrest
    refine ⟨h₁, ?_, ?_⟩
    · rw [h₂, hopen]
      rfl
    · rw [h₃, hlast]
      rfl

/-! ## The events of a run -/

section Runs

variable {tickDuration clock : ℤ} {calls : List Call} {timed ws : List (TickEvent × ℤ)}

/-- No event comes twice. -/
theorem Alternating.nodup {isOpen : Bool} {tick : ℤ} {events : List TickEvent}
    (h : Alternating isOpen tick events) : events.Nodup := by
  refine h.pairwise.imp ?_
  rintro e f (hlt | ⟨k, rfl, rfl⟩)
  · rintro rfl
    exact absurd hlt (lt_irrefl _)
  · nofun

/-- Where a run of a new timer stands in its events. -/
structure EventsInv (r : TimerRun) : Prop where
  alternate : Alternating false 0 r.events
  running : decide (r.timer.state = .running) = tickOpen false r.events
  tick : r.timer.currentTick = lastTick 0 r.events

theorem eventsInv_exec (tickDuration clock : ℤ) (calls : List Call) :
    EventsInv (exec TimerRun.step (.init (.new tickDuration) clock) calls) := by
  have hinit : EventsInv (.init (.new tickDuration) clock) := ⟨trivial, rfl, rfl⟩
  refine exec_invariant EventsInv (fun r c h => ?_) hinit calls
  have heff := r.timer.call_effect c
  refine ⟨?_, ?_, ?_⟩
  · rw [TimerRun.events_step, alternating_append, ← h.running, ← h.tick]
    exact ⟨h.alternate, heff.alternating⟩
  · rw [TimerRun.events_step, tickOpen_append, ← h.running]
    exact heff.tickOpen
  · rw [TimerRun.events_step, lastTick_append, ← h.tick]
    exact heff.lastTick

/-- What the threads leave is what they would leave one after the other. -/
theorem foldl_recordEvent {isOpen : Bool} {tick : ℤ} (h : Alternating isOpen tick
    (timed.map Prod.fst)) (hws : ∀ w, w ∈ ws ↔ w ∈ timed) (rows : List Tick) :
    ws.foldl recordEvent rows = timed.foldl recordEvent rows := by
  have hinj := List.inj_on_of_nodup_map h.nodup
  refine Commuting.foldl_eq_of_mem_iff (fun v hv w hw rows => ?_)
    (fun w _ rows => record_record w rows) hws rows
  by_cases hsame : v.1 = w.1
  · rw [hinj hv hw hsame]
  · exact record_comm hsame rows

/-- **The table holds the history of the game.**  Take any run of the master timer from its start,
the times its events are given, and the upserts of the threads in any order, each of them at least
once: the rows are the ticks of the history, which stands where the timer stands. -/
theorem recorded_history
    (htimed : timed.map Prod.fst =
      (exec TimerRun.step (.init (.new tickDuration) clock) calls).events)
    (hws : ∀ w, w ∈ ws ↔ w ∈ timed) :
    let r := exec TimerRun.step (.init (.new tickDuration) clock) calls
    ws.foldl recordEvent [] = (historyOf timed).rows ∧
      ((historyOf timed).running.isSome ↔ r.timer.state = .running) ∧
      (historyOf timed).lastTick = r.timer.currentTick := by
  intro r
  have hinv := eventsInv_exec tickDuration clock calls
  have halternate : Alternating false 0 (timed.map Prod.fst) := by
    rw [htimed]
    exact hinv.alternate
  obtain ⟨hrows, hopen, hlast⟩ := rows_foldl ⟨[], none⟩ halternate
  have hrunning : (historyOf timed).running.isSome = decide (r.timer.state = .running) := by
    rw [historyOf, hopen, htimed]
    exact hinv.running.symm
  refine ⟨(foldl_recordEvent halternate hws []).trans hrows, ?_, ?_⟩
  · rw [hrunning]
    exact decide_eq_true_iff
  · rw [historyOf, hlast, htimed, hinv.tick]
    rfl

/-- The first tick ends, and the second one starts. -/
def sampleCalls : List Call := [.startCtf 1000, .checkTime 1120 1120]

/-- The events of these calls, with their times. -/
def sampleTimed : List (TickEvent × ℤ) :=
  [(.started 1, 1000000000), (.ended 1, 1120000000), (.started 2, 1120000000)]

theorem map_sampleTimed : sampleTimed.map Prod.fst =
    (exec TimerRun.step (.init (.new 120) 0) sampleCalls).events := rfl

/-- The thread for the start of the second tick is the first, and one write is made twice. -/
def sampleWrites : List (TickEvent × ℤ) :=
  [(.started 2, 1120000000), (.ended 1, 1120000000), (.started 1, 1000000000),
    (.ended 1, 1120000000)]

theorem mem_sampleWrites (w : TickEvent × ℤ) : w ∈ sampleWrites ↔ w ∈ sampleTimed := by
  simp only [sampleWrites, sampleTimed, List.mem_cons, List.not_mem_nil, or_false]
  tauto

theorem recorded_history_sample : sampleWrites.foldl recordEvent [] =
    [⟨1, some 1000000000, some 1120000000⟩, ⟨2, some 1120000000, none⟩] :=
  (recorded_history map_sampleTimed mem_sampleWrites).1

/-! ## A new start -/

variable {history : History}

theorem maxStar_lastTick (h : history.ended ≠ []) :
    maxStar (history.rows.map (·.tick)) = some history.lastTick := by
  obtain ⟨t, ht, hlast⟩ := exists_last_endedRows 1 h
  have hrow : ∀ row ∈ endedRows 1 history.ended, row.tick ≤ history.lastTick := by
    intro row hrow
    have := of_mem_endedRows hrow
    rw [History.lastTick]
    split_ifs <;> omega
  refine maxStar_eq ?_ ?_ ?_
  · cases hrunning : history.running with
    | none =>
      refine List.mem_map.mpr ⟨t, List.mem_append_left _ ht, ?_⟩
      simp [History.lastTick, hrunning, hlast]
    | some s =>
      refine List.mem_map.mpr ⟨⟨history.ended.length + 1, some s, none⟩,
        List.mem_append_right _ ?_, ?_⟩
      · simp [hrunning]
      · simp [History.lastTick, hrunning]
  · rw [History.lastTick]
    split_ifs <;> omega
  · refine List.forall_mem_map.mpr fun row hmem => ?_
    rcases List.mem_append.mp hmem with hmem | hmem
    · exact hrow row hmem
    · obtain ⟨s, hs, rfl⟩ := List.mem_map.mp hmem
      simp [History.lastTick, Option.mem_toList.mp hs]

/-- The state that the script writes. -/
theorem reconstructRedis_rows (h : history.ended ≠ []) (redis : Redis) :
    ∃ s e time, reconstructRedis history.rows redis = some (redis.write
      (((timingWrites (if history.running.isSome then .suspended else .stopped)
        history.ended.length (some s, some e, some time)).map fun w => (w.1.key, w.2)) ++
          history.rows.flatMap Tick.writes)) := by
  obtain ⟨s, e, time, htimes⟩ := exists_lastTimes h
  have hpos : 0 < history.ended.length := List.length_pos_iff.mpr h
  have hstate : ((0 : ℤ) < history.ended.length ∧ (history.ended.length : ℤ) < history.lastTick) ↔
      history.running.isSome = true := by
    rw [History.lastTick]
    split_ifs with hrunning <;> simp [hrunning, hpos]
  refine ⟨s, e, time, ?_⟩
  rw [reconstructRedis, maxStar_completed h, maxStar_lastTick h]
  show (lastTimes _ _).bind _ = _
  rw [htimes]
  simp only [Option.bind_some, hstate]
  rfl

theorem ended_ne_nil {n : ℤ} {ts : ℤ} (h : (TickEvent.ended n, ts) ∈ timed) (history : History) :
    (timed.foldl History.next history).ended ≠ [] := by
  have hkeep : ∀ (timed : List (TickEvent × ℤ)) (history : History), history.ended ≠ [] →
      (timed.foldl History.next history).ended ≠ [] := by
    intro timed
    induction timed with
    | nil => exact fun _ h => h
    | cons w timed ih =>
      intro history hne
      refine ih _ ?_
      obtain ⟨event, ts⟩ := w
      cases event <;> simp [History.next, hne]
  induction timed generalizing history with
  | nil => cases h
  | cons w timed ih =>
    rcases List.mem_cons.mp h with rfl | h
    · exact hkeep timed _ (by simp [History.next])
    · exact ih h _

/-- A new timer gets the state that the script has written. -/
theorem state_of_initFromRedis {ticks : List Tick} {redis : Redis} {state : CTFState} {tick : ℤ}
    {times : Option ℤ × Option ℤ × Option ℤ} {m m' : CTFTimer}
    (h : m.initFromRedis (redis.write (((timingWrites state tick times).map
      fun w => (w.1.key, w.2)) ++ ticks.flatMap Tick.writes)).rawKeys = some m') :
    m'.state = state := by
  have hkeys := write_rawKeys ticks redis state tick times .state
  have hfield := (CTFTimer.initFromRedis_iff m (by rw [hkeys]; exact Option.some_ne_none _)).mp h
    .state
  rw [hkeys] at hfield
  have hpayload := hfield.symm.trans (m.fieldFromRedis_payload (.state state))
  exact Message.state.inj (Option.some.inj hpayload)

theorem startCtf_currentTick {m : CTFTimer} (h : m.state ≠ .running) (now : ℤ) :
    (m.startCtf now).1.currentTick = m.currentTick + 1 := by
  rw [CTFTimer.startCtf, if_pos h]
  simp

/-- **The game goes on where it stopped.**  If Redis is lost at any time after the end of the first
tick, the script completes on the recorded table, a new timer can read what it writes, and is
suspended if a tick was running and stopped otherwise; when it is started, it starts the
interrupted tick once more, or the tick after the last one. -/
theorem recorded_restart
    (htimed : timed.map Prod.fst =
      (exec TimerRun.step (.init (.new tickDuration) clock) calls).events)
    (hws : ∀ w, w ∈ ws ↔ w ∈ timed)
    (hended : ∃ n, TickEvent.ended n ∈
      (exec TimerRun.step (.init (.new tickDuration) clock) calls).events) (m : CTFTimer) :
    let r := exec TimerRun.step (.init (.new tickDuration) clock) calls
    ∃ redis m', reconstructRedis (ws.foldl recordEvent []) (fun _ => none) = some redis ∧
      m.initFromRedis redis.rawKeys = some m' ∧
      m'.state = (if r.timer.state = .running then .suspended else .stopped) ∧
      ∀ now, (m'.startCtf now).1.currentTick =
        if r.timer.state = .running then r.timer.currentTick else r.timer.currentTick + 1 := by
  intro r
  obtain ⟨hrows, hrunning, hlast⟩ := recorded_history htimed hws
  obtain ⟨n, hn⟩ := hended
  rw [← htimed, List.mem_map] at hn
  obtain ⟨⟨event, ts⟩, hmem, rfl⟩ := hn
  have hne : (historyOf timed).ended ≠ [] := ended_ne_nil hmem _
  obtain ⟨s, e, time, hre⟩ := reconstructRedis_rows hne (fun _ => none)
  obtain ⟨m', hm', htick⟩ := (initFromRedis_write_iff (historyOf timed).rows (fun _ => none)
    (if (historyOf timed).running.isSome then .suspended else .stopped)
    (historyOf timed).ended.length m s e time).mpr (Option.some_ne_none _)
  have hstate := state_of_initFromRedis hm'
  refine ⟨_, m', by rw [hrows, hre], hm', ?_, fun now => ?_⟩
  · rw [hstate]
    simp only [hrunning]
    rfl
  · have hidle : m'.state ≠ .running := by
      rw [hstate]
      split_ifs <;> decide
    rw [startCtf_currentTick hidle, htick]
    have hcount : ((historyOf timed).ended.length : ℤ) +
        (if (historyOf timed).running.isSome then 1 else 0) = r.timer.currentTick := hlast
    simp only [hrunning] at hcount
    show _ = if r.timer.state = .running then _ else _
    split_ifs at hcount ⊢ <;> omega

/-- Tick 2 was running: the new timer is suspended, and starts it once more. -/
theorem recorded_restart_sample : ∃ redis m',
    reconstructRedis (sampleWrites.foldl recordEvent []) (fun _ => none) = some redis ∧
      (CTFTimer.new 60).initFromRedis redis.rawKeys = some m' ∧ m'.state = .suspended ∧
      ∀ now, (m'.startCtf now).1.currentTick = 2 :=
  recorded_restart map_sampleTimed mem_sampleWrites ⟨1, by decide⟩ (.new 60)

end Runs

end Gameserver.Timer
