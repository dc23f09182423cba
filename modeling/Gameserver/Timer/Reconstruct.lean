import Gameserver.Lib.Rounding
import Gameserver.Timer.Wire

/-!
# Rebuilding Redis from the recorded ticks

When Redis has lost its data, `reconstruct_redis` writes it again from the ticks that the
database has recorded.  A new timer then reads the `timing:*` keys, and the dashboard reads
`round:N:start` and `round:N:end`.

* `Redis`, `Channel.key`, `roundKey` — the keys and who reads them.
* `Tick`, `reconstructRedis` — the script.
* `History` — what the database can hold: ticks `1..n`, all of them ended but perhaps the last.
* `rebuilds_iff` — when the script leaves what its readers need.
-/

namespace Gameserver.Timer

open Rounding (roundDiv)

/-! ## Redis -/

/-- The keys and their values. -/
abbrev Redis := String → Option String

/-- `redis.set` -/
def Redis.set (redis : Redis) (key value : String) : Redis := fun k =>
  if k = key then some value else redis k

/-- One `redis.set` after the other. -/
def Redis.write (redis : Redis) (writes : List (String × String)) : Redis :=
  writes.foldl (fun redis write => redis.set write.1 write.2) redis

/-- The key that has the name of the channel. -/
def Channel.key : Channel → String
  | .state => "timing:state"
  | .desiredState => "timing:desiredState"
  | .currentRound => "timing:currentRound"
  | .roundStart => "timing:roundStart"
  | .roundEnd => "timing:roundEnd"
  | .roundTime => "timing:roundTime"
  | .stopAfterRound => "timing:stopAfterRound"
  | .startAt => "timing:startAt"
  | .openVulnboxAccessAt => "timing:openVulnboxAccessAt"

/-- What `init_from_redis` gets. -/
def Redis.rawKeys (redis : Redis) : RawKeys := fun ch => redis ch.key

/-- A key of `update_tick_times`: `round:{tick}:{field}`. -/
def roundKey (tick : ℤ) (field : String) : String := "round:" ++ toString tick ++ ":" ++ field

/-! ## The script -/

/-- A row of the table of ticks.  Times are in microseconds. -/
structure Tick where
  tick : ℤ
  tickStart : Option ℤ
  tickEnd : Option ℤ
deriving DecidableEq, Repr

/-- `int(time.timestamp())` -/
def intTimestamp (time : ℤ) : ℤ := time.tdiv 1000000

/-- `max(0, *numbers)`; `none` is the `TypeError` of `max(0)`. -/
def maxStar (numbers : List ℤ) : Option ℤ :=
  if numbers = [] then none else (0 :: numbers).max?

/-- `(end - start).seconds`, without the days. -/
def deltaSeconds (tickStart tickEnd : ℤ) : ℤ := (tickEnd - tickStart) / 1000000 % 86400

/-- A key of the script: `round.{tick}.{field}`. -/
def dottedKey (tick : ℤ) (field : String) : String := "round." ++ toString tick ++ "." ++ field

/-- What the script writes for one tick. -/
def Tick.writes (t : Tick) : List (String × String) :=
  (t.tickStart.toList.map fun s => (dottedKey t.tick "start", toString (intTimestamp s))) ++
    (t.tickEnd.toList.map fun e => (dottedKey t.tick "end", toString (intTimestamp e))) ++
    match t.tickStart, t.tickEnd with
    | some s, some e => [(dottedKey t.tick "time", toString (roundDiv (e - s) 1000000))]
    | _, _ => []

/-- The start, the end and the estimated time of the last completed tick; the outer `none` is
an exception. -/
def lastTimes (ticks : List Tick) (lastCompletedTick : ℤ) :
    Option (Option ℤ × Option ℤ × Option ℤ) :=
  if 0 < lastCompletedTick then do
    let t ← ticks.find? (·.tick = lastCompletedTick)
    let s ← t.tickStart
    let e ← t.tickEnd
    return (some (intTimestamp s), some (intTimestamp e), some (roundDiv (deltaSeconds s e) 5 * 5))
  else some (none, none, none)

/-- The values of the `timing:*` keys that the script writes. -/
def timingWrites (state : CTFState) (tick : ℤ) (times : Option ℤ × Option ℤ × Option ℤ) :
    List (Channel × String) :=
  [(.state, state.name), (.desiredState, state.name), (.currentRound, toString tick),
    (.roundStart, intText times.1), (.roundEnd, intText times.2.1), (.roundTime, intText times.2.2),
    (.stopAfterRound, intText none), (.startAt, intText none)]

/-- `reconstruct_redis`, from the ticks in their order; `none` where it raises. -/
def reconstructRedis (ticks : List Tick) (redis : Redis) : Option Redis := do
  let lastCompletedTick ← maxStar ((ticks.filter (·.tickEnd.isSome)).map (·.tick))
  let lastTick ← maxStar (ticks.map (·.tick))
  let state : CTFState :=
    if 0 < lastCompletedTick ∧ lastCompletedTick < lastTick then .suspended else .stopped
  let times ← lastTimes ticks lastCompletedTick
  return redis.write (((timingWrites state lastCompletedTick times).map fun w => (w.1.key, w.2)) ++
    ticks.flatMap Tick.writes)

/-! ## Recorded histories -/

/-- The start and end times of the ticks that have ended, and the start time of the tick after
them if one is running. -/
structure History where
  ended : List (ℤ × ℤ)
  running : Option ℤ
deriving DecidableEq, Repr

/-- The rows for ticks that have ended, the first of them with this number. -/
def endedRows (first : ℤ) : List (ℤ × ℤ) → List Tick
  | [] => []
  | times :: rest => ⟨first, some times.1, some times.2⟩ :: endedRows (first + 1) rest

/-- The rows of the table. -/
def History.rows (history : History) : List Tick :=
  endedRows 1 history.ended ++
    history.running.toList.map fun s => ⟨history.ended.length + 1, some s, none⟩

/-- The recorded times of a tick are in the keys for the dashboard. -/
def Tick.Recorded (redis : Redis) (t : Tick) : Prop :=
  (∀ s, t.tickStart = some s → redis (roundKey t.tick "start") = some (toString (intTimestamp s))) ∧
    ∀ e, t.tickEnd = some e → redis (roundKey t.tick "end") = some (toString (intTimestamp e))

/-- The script completes, a new timer reads the last completed tick, and the dashboard finds the
times of every tick. -/
def Rebuilds (history : History) (redis : Redis) (m : CTFTimer) : Prop :=
  ∃ redis', reconstructRedis history.rows redis = some redis' ∧
    (∃ m', m.initFromRedis redis'.rawKeys = some m' ∧ m'.currentTick = history.ended.length) ∧
    ∀ t ∈ history.rows, t.Recorded redis'

/-! ## Writing keys -/

theorem Redis.write_append (redis : Redis) (first second : List (String × String)) :
    redis.write (first ++ second) = (redis.write first).write second :=
  List.foldl_append ..

theorem Redis.write_of_notMem {writes : List (String × String)} {key : String} (redis : Redis)
    (h : key ∉ writes.map Prod.fst) : redis.write writes key = redis key := by
  induction writes generalizing redis with
  | nil => rfl
  | cons w writes ih =>
    rw [List.map_cons, List.mem_cons, not_or] at h
    exact (ih (redis.set w.1 w.2) h.2).trans (if_neg h.1)

theorem append_ne {a b : String} (hlen : a.toList.length = b.toList.length) (hne : a ≠ b)
    (x y : String) : a ++ x ≠ b ++ y := by
  intro h
  have hlist := congrArg String.toList h
  rw [String.toList_append, String.toList_append] at hlist
  exact hne (String.toList_inj.mp (List.append_inj_left hlist hlen))

theorem roundKey_eq (tick : ℤ) (field : String) :
    roundKey tick field = "round:" ++ (toString tick ++ ":" ++ field) := by
  rw [roundKey, String.append_assoc, String.append_assoc, String.append_assoc]

theorem Channel.exists_key_eq (ch : Channel) : ∃ name, ch.key = "timing" ++ name := by
  cases ch with
  | state => exact ⟨":state", by decide⟩
  | desiredState => exact ⟨":desiredState", by decide⟩
  | currentRound => exact ⟨":currentRound", by decide⟩
  | roundStart => exact ⟨":roundStart", by decide⟩
  | roundEnd => exact ⟨":roundEnd", by decide⟩
  | roundTime => exact ⟨":roundTime", by decide⟩
  | stopAfterRound => exact ⟨":stopAfterRound", by decide⟩
  | startAt => exact ⟨":startAt", by decide⟩
  | openVulnboxAccessAt => exact ⟨":openVulnboxAccessAt", by decide⟩

theorem dottedKey_eq (tick : ℤ) (field : String) :
    dottedKey tick field = "round." ++ (toString tick ++ "." ++ field) := by
  rw [dottedKey, String.append_assoc, String.append_assoc, String.append_assoc]

theorem Tick.exists_field {t : Tick} {w : String × String} (h : w ∈ t.writes) :
    ∃ field, w.1 = dottedKey t.tick field := by
  obtain ⟨n, s, e⟩ := t
  rcases List.mem_append.mp h with h | h
  · rcases List.mem_append.mp h with h | h
    · obtain ⟨s, -, rfl⟩ := List.mem_map.mp h
      exact ⟨"start", rfl⟩
    · obtain ⟨e, -, rfl⟩ := List.mem_map.mp h
      exact ⟨"end", rfl⟩
  · cases s with
    | none => cases h
    | some s =>
      cases e with
      | none => cases h
      | some e =>
        obtain rfl := List.mem_singleton.mp h
        exact ⟨"time", rfl⟩

/-- The keys of the ticks have dots, where other keys have colons. -/
theorem notMem_writes {ticks : List Tick} {key start name : String}
    (hlen : start.toList.length = 6) (hne : start ≠ "round.") (hkey : key = start ++ name) :
    key ∉ (ticks.flatMap Tick.writes).map Prod.fst := by
  intro hmem
  obtain ⟨w, hw, rfl⟩ := List.mem_map.mp hmem
  obtain ⟨t, -, hw⟩ := List.mem_flatMap.mp hw
  obtain ⟨field, hfield⟩ := Tick.exists_field hw
  rw [dottedKey_eq, hkey] at hfield
  exact append_ne hlen hne _ _ hfield

/-! ## The keys that the script leaves -/

section

variable (ticks : List Tick) (redis : Redis) (state : CTFState) (tick : ℤ)
  (times : Option ℤ × Option ℤ × Option ℤ)

/-- The keys of the dashboard stay as they are. -/
theorem write_roundKey (n : ℤ) (field : String) :
    redis.write (((timingWrites state tick times).map fun w => (w.1.key, w.2)) ++
      ticks.flatMap Tick.writes) (roundKey n field) = redis (roundKey n field) := by
  rw [Redis.write_append, Redis.write_of_notMem _
    (notMem_writes (by decide) (by decide) (roundKey_eq n field)), Redis.write_of_notMem]
  intro hmem
  rw [List.map_map] at hmem
  obtain ⟨w, -, hw⟩ := List.mem_map.mp hmem
  obtain ⟨name, hname⟩ := w.1.exists_key_eq
  rw [roundKey_eq] at hw
  exact append_ne (a := "timing") (b := "round:") (by decide) (by decide) _ _ (hname.symm.trans hw)

/-- The keys of the timer. -/
theorem write_rawKeys (ch : Channel) :
    (redis.write (((timingWrites state tick times).map fun w => (w.1.key, w.2)) ++
      ticks.flatMap Tick.writes)).rawKeys ch =
      match ch with
      | .state | .desiredState => some state.name
      | .currentRound => some (toString tick)
      | .roundStart => some (intText times.1)
      | .roundEnd => some (intText times.2.1)
      | .roundTime => some (intText times.2.2)
      | .stopAfterRound | .startAt => some (intText none)
      | .openVulnboxAccessAt => redis "timing:openVulnboxAccessAt" := by
  obtain ⟨name, hname⟩ := ch.exists_key_eq
  rw [Redis.rawKeys, Redis.write_append, Redis.write_of_notMem _
    (notMem_writes (by decide) (by decide) hname)]
  cases ch <;> simp [Redis.write, Redis.set, timingWrites, Channel.key]

/-- A new timer reads the fields that were written, and the one that was there before. -/
theorem initFromRedis_write_iff (m : CTFTimer) (tickStart tickEnd tickTime : ℤ) :
    (∃ m', m.initFromRedis (redis.write
        (((timingWrites state tick (some tickStart, some tickEnd, some tickTime)).map
          fun w => (w.1.key, w.2)) ++ ticks.flatMap Tick.writes)).rawKeys = some m' ∧
      m'.currentTick = tick) ↔
      toInt (redis "timing:openVulnboxAccessAt") ≠ none := by
  have hkeys := write_rawKeys ticks redis state tick
    (some tickStart, some tickEnd, some tickTime)
  generalize redis.write _ = redis' at hkeys ⊢
  have hstate : redis'.rawKeys .state ≠ none := by
    rw [hkeys]
    exact Option.some_ne_none _
  constructor
  · rintro ⟨m', hm', -⟩ hnone
    have hopen := (CTFTimer.initFromRedis_iff m hstate).mp hm' .openVulnboxAccessAt
    rw [hkeys] at hopen
    simp [CTFTimer.fieldFromRedis, hnone] at hopen
  · intro hsome
    obtain ⟨openAt, hopen⟩ := Option.ne_none_iff_exists'.mp hsome
    refine ⟨⟨state, state, tick, some tickStart, some tickEnd, tickTime, none, none, openAt⟩,
      (CTFTimer.initFromRedis_iff m hstate).mpr fun ch => ?_, rfl⟩
    rw [hkeys]
    cases ch with
    | state => exact m.fieldFromRedis_payload (.state state)
    | desiredState => exact m.fieldFromRedis_payload (.desiredState state)
    | currentRound => exact m.fieldFromRedis_payload (.currentRound tick)
    | roundStart => exact m.fieldFromRedis_payload (.roundStart (some tickStart))
    | roundEnd => exact m.fieldFromRedis_payload (.roundEnd (some tickEnd))
    | roundTime => exact m.fieldFromRedis_payload (.roundTime tickTime)
    | stopAfterRound => exact m.fieldFromRedis_payload (.stopAfterRound none)
    | startAt => exact m.fieldFromRedis_payload (.startAt none)
    | openVulnboxAccessAt => exact congrArg (Option.map Message.openVulnboxAccessAt) hopen

end

/-! ## The last completed tick -/

theorem maxStar_eq {numbers : List ℤ} {n : ℤ} (hmem : n ∈ numbers) (hn : 0 ≤ n)
    (hle : ∀ x ∈ numbers, x ≤ n) : maxStar numbers = some n := by
  rw [maxStar, if_neg (List.ne_nil_of_mem hmem)]
  exact List.max?_eq_some_iff.mpr ⟨List.mem_cons_of_mem 0 hmem, List.forall_mem_cons.mpr ⟨hn, hle⟩⟩

theorem exists_maxStar {numbers : List ℤ} (h : numbers ≠ []) : ∃ n, maxStar numbers = some n := by
  rw [maxStar, if_neg h, List.max?_cons]
  exact ⟨_, rfl⟩

/-- A tick that has ended has its times, and comes after the first one. -/
theorem of_mem_endedRows {first : ℤ} {ended : List (ℤ × ℤ)} {t : Tick}
    (h : t ∈ endedRows first ended) :
    t.tickStart.isSome ∧ t.tickEnd.isSome ∧ first ≤ t.tick ∧ t.tick < first + ended.length := by
  induction ended generalizing first with
  | nil => cases h
  | cons times ended ih =>
    rw [List.length_cons]
    rcases List.mem_cons.mp h with rfl | h
    · exact ⟨rfl, rfl, le_rfl, by push_cast; omega⟩
    · obtain ⟨hs, he, hlow, hhigh⟩ := ih h
      exact ⟨hs, he, by omega, by push_cast; omega⟩

theorem exists_last_endedRows (first : ℤ) {ended : List (ℤ × ℤ)} (h : ended ≠ []) :
    ∃ t ∈ endedRows first ended, t.tick = first + ended.length - 1 := by
  induction ended generalizing first with
  | nil => exact absurd rfl h
  | cons times ended ih =>
    by_cases hend : ended = []
    · subst hend
      exact ⟨_, List.mem_cons_self, by simp⟩
    · obtain ⟨t, ht, hlast⟩ := ih (first + 1) hend
      exact ⟨t, List.mem_cons_of_mem _ ht, by rw [hlast, List.length_cons]; push_cast; omega⟩

theorem History.filter_rows (history : History) :
    history.rows.filter (·.tickEnd.isSome) = endedRows 1 history.ended := by
  have hended : (endedRows 1 history.ended).filter (·.tickEnd.isSome) = endedRows 1 history.ended :=
    List.filter_eq_self.mpr fun t ht => (of_mem_endedRows ht).2.1
  rw [History.rows, List.filter_append, hended]
  cases history.running <;> simp

variable {history : History}

theorem maxStar_completed (h : history.ended ≠ []) :
    maxStar ((history.rows.filter (·.tickEnd.isSome)).map (·.tick)) =
      some (history.ended.length : ℤ) := by
  obtain ⟨t, ht, hlast⟩ := exists_last_endedRows 1 h
  rw [History.filter_rows]
  refine maxStar_eq (List.mem_map.mpr ⟨t, ht, by omega⟩) (by omega) (List.forall_mem_map.mpr ?_)
  intro t' ht'
  have := of_mem_endedRows ht'
  omega

theorem exists_lastTimes (h : history.ended ≠ []) :
    ∃ s e time, lastTimes history.rows history.ended.length = some (some s, some e, some time) := by
  have hpos : 0 < history.ended.length := List.length_pos_iff.mpr h
  obtain ⟨t, ht, hlast⟩ := exists_last_endedRows 1 h
  have hfound : (history.rows.find? (·.tick = (history.ended.length : ℤ))).isSome :=
    List.find?_isSome.mpr ⟨t, List.mem_append_left _ ht, by simp [hlast]⟩
  obtain ⟨t', ht'⟩ := Option.isSome_iff_exists.mp hfound
  have hnumber : t'.tick = history.ended.length := by simpa using List.find?_some ht'
  have hended : t' ∈ endedRows 1 history.ended := by
    rcases List.mem_append.mp (List.mem_of_find?_eq_some ht') with hmem | hmem
    · exact hmem
    · obtain ⟨s, -, rfl⟩ := List.mem_map.mp hmem
      exact absurd hnumber (by simp)
  obtain ⟨hs, he, -, -⟩ := of_mem_endedRows hended
  obtain ⟨s, hs⟩ := Option.isSome_iff_exists.mp hs
  obtain ⟨e, he⟩ := Option.isSome_iff_exists.mp he
  refine ⟨intTimestamp s, intTimestamp e, roundDiv (deltaSeconds s e) 5 * 5, ?_⟩
  rw [lastTimes, if_pos (by omega), ht']
  simp [hs, he]

/-- With a completed tick, the script completes. -/
theorem exists_reconstructRedis (history : History) (h : history.ended ≠ []) (redis : Redis) :
    ∃ state s e time, reconstructRedis history.rows redis = some (redis.write
      (((timingWrites state history.ended.length (some s, some e, some time)).map
        fun w => (w.1.key, w.2)) ++ history.rows.flatMap Tick.writes)) := by
  obtain ⟨s, e, time, htimes⟩ := exists_lastTimes h
  have hrows : history.rows.map (·.tick) ≠ [] := by
    obtain ⟨t, ht, -⟩ := exists_last_endedRows 1 h
    exact List.ne_nil_of_mem (List.mem_map_of_mem (List.mem_append_left _ ht))
  obtain ⟨lastTick, hlast⟩ := exists_maxStar hrows
  refine ⟨if (0 : ℤ) < history.ended.length ∧ (history.ended.length : ℤ) < lastTick then
    .suspended else .stopped, s, e, time, ?_⟩
  rw [reconstructRedis, maxStar_completed h, hlast]
  show (lastTimes _ _).bind _ = _
  rw [htimes]
  rfl

/-- Without one, it ends with a `TypeError`. -/
theorem reconstructRedis_eq_none (h : history.ended = []) (redis : Redis) :
    reconstructRedis history.rows redis = none := by
  rw [reconstructRedis, History.filter_rows, h]
  rfl

/-- **When Redis can be rebuilt.**  Some tick has ended, the key that the script leaves out can be
read, and the keys for the dashboard, which it writes under other names, are still there. -/
theorem rebuilds_iff (history : History) (redis : Redis) (m : CTFTimer) :
    Rebuilds history redis m ↔
      history.ended ≠ [] ∧ toInt (redis "timing:openVulnboxAccessAt") ≠ none ∧
        ∀ t ∈ history.rows, t.Recorded redis := by
  by_cases h : history.ended = []
  · refine iff_of_false ?_ fun hright => hright.1 h
    rintro ⟨redis', hredis', -⟩
    rw [reconstructRedis_eq_none h] at hredis'
    cases hredis'
  · obtain ⟨state, s, e, time, hre⟩ := exists_reconstructRedis history h redis
    have hinit := initFromRedis_write_iff history.rows redis state history.ended.length
      m s e time
    have hrecorded := write_roundKey history.rows redis state history.ended.length
      (some s, some e, some time)
    rw [Rebuilds, hre]
    constructor
    · rintro ⟨redis', hredis', hm', ht⟩
      obtain rfl := Option.some.inj hredis'
      refine ⟨h, hinit.mp hm', fun t hmem => ?_⟩
      simpa only [Tick.Recorded, hrecorded] using ht t hmem
    · rintro ⟨-, hopen, ht⟩
      refine ⟨_, rfl, hinit.mpr hopen, fun t hmem => ?_⟩
      simpa only [Tick.Recorded, hrecorded] using ht t hmem

/-- An empty Redis has no times after the script, and before the first tick has ended the script
does not complete. -/
theorem not_rebuilds :
    ¬ Rebuilds ⟨[(1700000000000000, 1700000120000000)], none⟩ (fun _ => none) (.new 120) ∧
      ¬ Rebuilds ⟨[], none⟩ (fun _ => none) (.new 120) := by
  constructor
  · rintro ⟨redis', hredis', -, hrecorded⟩
    obtain ⟨state, s, e, time, hre⟩ := exists_reconstructRedis
      ⟨[(1700000000000000, 1700000120000000)], none⟩ (List.cons_ne_nil _ _)
      (fun _ => none)
    obtain rfl := Option.some.inj (hre.symm.trans hredis')
    have hstart := (hrecorded _ List.mem_cons_self).1 _ rfl
    rw [write_roundKey] at hstart
    cases hstart
  · rintro ⟨redis', hredis', -⟩
    rw [reconstructRedis_eq_none rfl] at hredis'
    cases hredis'

end Gameserver.Timer
