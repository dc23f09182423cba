import Mathlib
import Gameserver.Timer.Command

/-!
# The timing fields as texts

Redis keeps and delivers texts.  `redis_set_and_publish` writes a field as one, and there are
two readers: the listener of a subscribed timer, and `init_from_redis` of a new one.

* `Message.payload` — the text of a field, with `None` for a field that is not set.
* `listen` — what the listener makes of a text; `listen_payload` — it gets the field back.
* `fieldFromRedis`, `initFromRedis` — what a new timer makes of the keys.
-/

namespace Gameserver.Timer

/-- `state.name`. -/
def CTFState.name : CTFState → String
  | .stopped => "STOPPED"
  | .suspended => "SUSPENDED"
  | .running => "RUNNING"

/-- `CTFState[name]`, which raises on other names. -/
def CTFState.ofName (name : String) : Option CTFState :=
  if name = "STOPPED" then some .stopped
  else if name = "SUSPENDED" then some .suspended
  else if name = "RUNNING" then some .running
  else none

@[simp] theorem CTFState.ofName_name (state : CTFState) :
    CTFState.ofName state.name = some state := by
  cases state <;> decide

/-- `to_int`: the outer `none` is an exception, the inner one is `None`. -/
def toInt : Option String → Option (Option ℤ)
  | none => some none
  | some x => if x = "" ∨ x = "None" then some none else x.toInt?.map some

/-- The value `redis_set_and_publish` writes for an `int | None`. -/
def intText : Option ℤ → String
  | none => "None"
  | some n => toString n

theorem toInt?_toString (n : ℤ) : (toString n).toInt? = some n := Int.toInt?_repr n

theorem toString_ne_of_toInt? {text : String} (h : text.toInt? = none) (n : ℤ) :
    toString n ≠ text := by
  rintro rfl
  rw [toInt?_toString] at h
  cases h

theorem toString_ne_empty (n : ℤ) : toString n ≠ "" := by
  refine toString_ne_of_toInt? ?_ n
  rw [String.toInt?_eq_none_iff, ← Bool.not_eq_true, String.isInt_iff]
  rintro (hnat | ⟨t, ht, -⟩)
  · exact absurd (String.isNat_iff.1 hnat).1 (by decide)
  · simpa using congrArg String.toList ht

theorem toString_ne_none (n : ℤ) : toString n ≠ "None" := by
  refine toString_ne_of_toInt? ?_ n
  rw [String.toInt?_eq_none_iff, ← Bool.not_eq_true, String.isInt_iff]
  rintro (hnat | ⟨t, ht, -⟩)
  · exact absurd ((String.isNat_iff.1 hnat).2.1 'N' (by decide)) (by decide)
  · simpa using congrArg String.toList ht

@[simp] theorem toInt_intText (x : Option ℤ) : toInt (some (intText x)) = some x := by
  cases x with
  | none => decide
  | some n =>
    rw [intText, toInt, if_neg (not_or.2 ⟨toString_ne_empty n, toString_ne_none n⟩),
      toInt?_toString]
    rfl

/-- The text of a message. -/
def Message.payload : Message → String
  | .state s | .desiredState s => s.name
  | .currentRound n | .roundTime n => toString n
  | .roundStart t | .roundEnd t | .stopAfterRound t | .startAt t | .openVulnboxAccessAt t =>
    intText t

/-- How `__listen_for_redis_events` reads a text; `none` where it raises. -/
def listen : Channel → String → Option Message
  | .state, data => (CTFState.ofName data).map .state
  | .desiredState, data => (CTFState.ofName data).map .desiredState
  | .currentRound, data => data.toInt?.map .currentRound
  | .roundStart, data => (toInt (some data)).map .roundStart
  | .roundEnd, data => (toInt (some data)).map .roundEnd
  | .roundTime, data => data.toInt?.map .roundTime
  | .stopAfterRound, data => (toInt (some data)).map .stopAfterRound
  | .startAt, data => (toInt (some data)).map .startAt
  | .openVulnboxAccessAt, data => (toInt (some data)).map .openVulnboxAccessAt

/-- The listener reads what was written. -/
@[simp] theorem listen_payload (msg : Message) : listen msg.channel msg.payload = some msg := by
  cases msg <;> simp [listen, Message.channel, Message.payload]

/-- `__listen_for_redis_events`: one message; the listener ends where it raises. -/
def CTFTimer.receive (m : CTFTimer) (ch : Channel) (data : String) : CTFTimer :=
  match listen ch data with
  | some msg => m.handleMessage msg
  | none => m

@[simp] theorem CTFTimer.receive_payload (m : CTFTimer) (msg : Message) :
    m.receive msg.channel msg.payload = m.handleMessage msg := by
  rw [receive, listen_payload]

/-! ## A new timer -/

/-- The keys as Redis holds them. -/
abbrev RawKeys := Channel → Option String

/-- `int(tick_time or self._tick_time)`. -/
def tickTimeFromRedis (tickTime : ℤ) : Option String → Option ℤ
  | none => some tickTime
  | some x => if x = "" then some tickTime else x.toInt?

/-- `init_from_redis` on the timer `m`; `none` where it raises. -/
def CTFTimer.initFromRedis (m : CTFTimer) (keys : RawKeys) : Option CTFTimer :=
  match keys .state with
  | none => some m
  | some state => do
    let state ← CTFState.ofName state
    let desiredState ← (keys .desiredState).bind CTFState.ofName
    let currentTick ← toInt (keys .currentRound)
    let tickStart ← toInt (keys .roundStart)
    let tickEnd ← toInt (keys .roundEnd)
    let tickTime ← tickTimeFromRedis m.tickTime (keys .roundTime)
    let stopAfterTick ← toInt (keys .stopAfterRound)
    let startAt ← toInt (keys .startAt)
    let openVulnboxAccessAt ← toInt (keys .openVulnboxAccessAt)
    return {
      state := state
      desiredState := desiredState
      currentTick := currentTick.getD 0
      tickStart := tickStart
      tickEnd := tickEnd
      tickTime := tickTime
      stopAfterTick := stopAfterTick
      startAt := startAt
      openVulnboxAccessAt := openVulnboxAccessAt }

/-- What `init_from_redis` makes of a single key. -/
def CTFTimer.fieldFromRedis (m : CTFTimer) : Channel → Option String → Option Message
  | .state, data => (data.bind CTFState.ofName).map .state
  | .desiredState, data => (data.bind CTFState.ofName).map .desiredState
  | .currentRound, data => (toInt data).map fun n => .currentRound (n.getD 0)
  | .roundStart, data => (toInt data).map .roundStart
  | .roundEnd, data => (toInt data).map .roundEnd
  | .roundTime, data => (tickTimeFromRedis m.tickTime data).map .roundTime
  | .stopAfterRound, data => (toInt data).map .stopAfterRound
  | .startAt, data => (toInt data).map .startAt
  | .openVulnboxAccessAt, data => (toInt data).map .openVulnboxAccessAt

/-- A new timer reads what was written. -/
@[simp] theorem CTFTimer.fieldFromRedis_payload (m : CTFTimer) (msg : Message) :
    m.fieldFromRedis msg.channel (some msg.payload) = some msg := by
  cases msg with
  | currentRound n =>
    show (toInt (some (intText (some n)))).map _ = _
    rw [toInt_intText]
    rfl
  | roundTime n =>
    show (if toString n = "" then some m.tickTime else (toString n).toInt?).map _ = _
    rw [if_neg (toString_ne_empty n), toInt?_toString]
    rfl
  | _ => simp [fieldFromRedis, Message.channel, Message.payload]

/-- The fields of a timer are what its nine channels read. -/
theorem CTFTimer.ext_read {m m' : CTFTimer} (h : ∀ ch, m.read ch = m'.read ch) : m = m' := by
  have hfields := And.intro (h .state) (And.intro (h .desiredState) (And.intro (h .currentRound)
    (And.intro (h .roundStart) (And.intro (h .roundEnd) (And.intro (h .roundTime)
      (And.intro (h .stopAfterRound) (And.intro (h .startAt) (h .openVulnboxAccessAt))))))))
  cases m
  cases m'
  simpa [CTFTimer.read] using hfields

/-- With the state there, `init_from_redis` reads every field from its own key. -/
theorem CTFTimer.initFromRedis_iff (m : CTFTimer) {keys : RawKeys} (hstate : keys .state ≠ none)
    {t : CTFTimer} :
    m.initFromRedis keys = some t ↔ ∀ ch, m.fieldFromRedis ch (keys ch) = some (t.read ch) := by
  obtain ⟨state, hstate⟩ := Option.ne_none_iff_exists'.mp hstate
  constructor
  · intro h ch
    rw [initFromRedis, hstate] at h
    simp only [Option.bind_eq_bind, Option.bind_eq_some_iff, Option.pure_def, Option.some.injEq]
      at h
    obtain ⟨state', h1, desired, h2, tick, h3, start, h4, stop, h5, time, h6, last, h7, at_, h8,
      vulnbox, h9, rfl⟩ := h
    obtain ⟨raw, hraw, h2⟩ := h2
    cases ch <;> simp_all [fieldFromRedis, CTFTimer.read]
  · intro h
    have h1 := h .state
    have h2 := h .desiredState
    have h3 := h .currentRound
    have h4 := h .roundStart
    have h5 := h .roundEnd
    have h6 := h .roundTime
    have h7 := h .stopAfterRound
    have h8 := h .startAt
    have h9 := h .openVulnboxAccessAt
    simp only [fieldFromRedis, CTFTimer.read, Option.map_eq_some_iff, Message.state.injEq,
      Message.desiredState.injEq, Message.currentRound.injEq, Message.roundStart.injEq,
      Message.roundEnd.injEq, Message.roundTime.injEq, Message.stopAfterRound.injEq,
      Message.startAt.injEq, Message.openVulnboxAccessAt.injEq, exists_eq_right] at *
    obtain ⟨tick, h3, htick⟩ := h3
    rw [hstate] at h1
    rw [initFromRedis, hstate]
    simp only [Option.bind_some] at h1
    simp [h1, h2, h3, h4, h5, h6, h7, h8, h9, htick]

end Gameserver.Timer
