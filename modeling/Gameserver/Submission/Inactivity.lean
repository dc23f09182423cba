import Gameserver.Submission.Connection

/-!
# The inactivity timer of a connection

Every 30 seconds `check` looks at `hasSeenActivity`: "set to true for activity, false during
checks".  Nothing but the constructor sets it to true.

* `hasSeenActivity_exec` — the flag says whether the timer has not fired yet.
* `check_deletes_iff` — so the second firing closes the connection.
* `closesOnlyIdle_iff` — the runs in which the timer closes only an idle connection.
-/

namespace Gameserver.Submission.Connection

open Machine

variable (R : Responder)

/-- A read or a write is handled in the event. -/
def Event.active : Event → Bool
  | .io read write => read.isSome || write.isSome
  | .invalid => false
  | .check => false

/-- The events since the last firing of the timer, or since the start. -/
def sinceFiring (es : List Event) : List Event :=
  es.rtakeWhile (· ≠ .check)

/-- The timer closes the connection only if nothing was read or written since its last firing. -/
def ClosesOnlyIdle (isLocal : Bool) (es : List Event) : Prop :=
  ∀ before after, es = before ++ .check :: after →
    let c := exec (step R) (new isLocal) before
    c.deleted = false → c.check.deleted = true → ∀ e ∈ sinceFiring before, e.active = false

/-! ## What the events do to the flag -/

section Flag

variable {R} {c : Connection}

theorem store_flags (c : Connection) (i : ℕ) (b : UInt8) :
    (c.store i b).hasSeenActivity = c.hasSeenActivity ∧ (c.store i b).deleted = c.deleted := by
  rw [store]
  split_ifs <;> exact ⟨rfl, rfl⟩

theorem readByte_flags (c : Connection) (b : UInt8) :
    (c.readByte R b).hasSeenActivity = c.hasSeenActivity ∧
      (c.readByte R b).deleted = c.deleted := by
  rw [readByte]
  split_ifs
  · exact store_flags c c.lineBufferPos 0
  · exact store_flags c c.lineBufferPos b
  · exact ⟨rfl, rfl⟩

theorem readCb_flags (c : Connection) (result : Recv) :
    (c.readCb R result).hasSeenActivity = c.hasSeenActivity ∧
      (c.readCb R result).deleted = c.deleted := by
  have hloop (chunk : List UInt8) : ∀ c : Connection,
      (chunk.foldl (readByte R) c).hasSeenActivity = c.hasSeenActivity ∧
        (chunk.foldl (readByte R) c).deleted = c.deleted := by
    induction chunk with
    | nil => intro c; exact ⟨rfl, rfl⟩
    | cons b chunk ih =>
      intro c
      obtain ⟨hseen, hdeleted⟩ := ih (c.readByte R b)
      exact ⟨hseen.trans (readByte_flags c b).1, hdeleted.trans (readByte_flags c b).2⟩
  cases result with
  | error => exact ⟨rfl, rfl⟩
  | bytes chunk =>
    cases chunk with
    | nil => exact ⟨rfl, rfl⟩
    | cons b chunk => exact hloop (b :: chunk) c

theorem writeCb_flags (c : Connection) (result : Write) :
    (c.writeCb result).hasSeenActivity = c.hasSeenActivity ∧
      (c.writeCb result).deleted = c.deleted := by
  cases hqueue : c.writeQueue with
  | nil => simp [writeCb, hqueue]
  | cons buffer queue => cases result <;> simp [writeCb, hqueue]

theorem settle_flags (c : Connection) :
    c.settle.hasSeenActivity = c.hasSeenActivity ∧
      (c.deleted = true → c.settle.deleted = true) := by
  rw [settle]
  split_ifs
  · exact ⟨rfl, fun _ => rfl⟩
  · exact ⟨rfl, id⟩

/-- No read and no write sets the flag. -/
theorem callback_flags (c : Connection) (read : Option Recv) (write : Option Write) :
    (c.callback R read write).hasSeenActivity = c.hasSeenActivity ∧
      (c.deleted = true → (c.callback R read write).deleted = true) := by
  have hread : (c.readPart R read).hasSeenActivity = c.hasSeenActivity ∧
      (c.readPart R read).deleted = c.deleted := by
    cases read with
    | none => exact ⟨rfl, rfl⟩
    | some result => exact readCb_flags c result
  have hwrite (c : Connection) : (write.elim c c.writeCb).hasSeenActivity = c.hasSeenActivity ∧
      (write.elim c c.writeCb).deleted = c.deleted := by
    cases write with
    | none => exact ⟨rfl, rfl⟩
    | some result => exact writeCb_flags c result
  obtain ⟨hseen, hdeleted⟩ := hwrite (c.readPart R read)
  obtain ⟨hseen', hdeleted'⟩ := settle_flags (write.elim (c.readPart R read)
    (c.readPart R read).writeCb)
  refine ⟨(hseen'.trans hseen).trans hread.1, fun h => hdeleted' ?_⟩
  rw [hdeleted, hread.2, h]

/-- A deleted connection stays deleted. -/
theorem deleted_step (h : c.deleted = true) (e : Event) : (c.step R e).deleted = true := by
  cases e with
  | io read write => exact (callback_flags c read write).2 h
  | invalid => exact h
  | check =>
    rw [step, check]
    split_ifs
    · exact h
    · rfl

theorem deleted_exec (h : c.deleted = true) (es : List Event) :
    (exec (step R) c es).deleted = true :=
  exec_invariant (fun c : Connection => c.deleted = true) (fun _ e h => deleted_step h e) h es

/-- Without a firing of the timer the flag stays. -/
theorem hasSeenActivity_exec_of_notMem {es : List Event} (h : Event.check ∉ es) :
    ∀ c : Connection, (exec (step R) c es).hasSeenActivity = c.hasSeenActivity := by
  induction es with
  | nil => intro c; rfl
  | cons e es ih =>
    intro c
    rw [exec_cons, ih (fun hmem => h (List.mem_cons_of_mem e hmem))]
    cases e with
    | io read write => exact (callback_flags c read write).1
    | invalid => rfl
    | check => exact absurd List.mem_cons_self h

/-- The timer fires on a connection with the flag. -/
theorem check_of_seen (h : c.hasSeenActivity = true) :
    c.check = { c with hasSeenActivity := false } :=
  if_pos h

theorem check_of_not_seen (h : c.hasSeenActivity = false) : c.check.deleted = true := by
  rw [check, if_neg (by simp [h])]

/-- **The flag only tells whether the timer has fired before.** -/
theorem hasSeenActivity_exec (isLocal : Bool) (es : List Event) :
    (exec (step R) (new isLocal) es).hasSeenActivity = decide (Event.check ∉ es) := by
  by_cases hmem : Event.check ∈ es
  · obtain ⟨before, after, rfl⟩ := List.append_of_mem hmem
    have hstays (after : List Event) : ∀ c : Connection, c.hasSeenActivity = false →
        (exec (step R) c after).hasSeenActivity = false := by
      induction after with
      | nil => intro c h; exact h
      | cons e after ih =>
        intro c h
        apply ih
        cases e with
        | io read write => exact (callback_flags c read write).1.trans h
        | invalid => exact h
        | check =>
          rw [step, check]
          split_ifs
          · rfl
          · exact h
    rw [exec_append, exec_cons, hstays]
    · simp
    · rw [step, check]
      split_ifs with hseen
      · rfl
      · simpa using hseen
  · rw [hasSeenActivity_exec_of_notMem hmem]
    simp [new, hmem]

end Flag

/-! ## When the timer closes a connection -/

variable {R} {isLocal : Bool}

/-- **Every firing but the first one closes the connection**, whatever has been read or written. -/
theorem check_deletes_iff {before : List Event}
    (hopen : (exec (step R) (new isLocal) before).deleted = false) :
    (exec (step R) (new isLocal) before).check.deleted = true ↔ Event.check ∈ before := by
  have hseen := hasSeenActivity_exec (R := R) isLocal before
  by_cases hmem : Event.check ∈ before
  · refine iff_of_true (check_of_not_seen ?_) hmem
    rw [hseen]
    simp [hmem]
  · refine iff_of_false ?_ hmem
    rw [check_of_seen (by rw [hseen]; simp [hmem])]
    simp [hopen]

/-- A connection that is open has seen at most one firing. -/
theorem check_notMem_of_open {before between : List Event}
    (hopen : (exec (step R) (new isLocal) (before ++ .check :: between)).deleted = false) :
    Event.check ∉ before ∧ Event.check ∉ between := by
  have hclosed {first : List Event} (hmem : Event.check ∈ first) (after : List Event)
      (hsplit : before ++ .check :: between = first ++ .check :: after) : False := by
    rw [hsplit, exec_append, exec_cons] at hopen
    have hdeleted : ((exec (step R) (new isLocal) first).step R .check).deleted = true := by
      by_cases hfirst : (exec (step R) (new isLocal) first).deleted = true
      · exact deleted_step hfirst .check
      · exact (check_deletes_iff (by simpa using hfirst)).2 hmem
    rw [deleted_exec hdeleted after] at hopen
    cases hopen
  constructor
  · exact fun hmem => hclosed hmem between rfl
  · intro hmem
    obtain ⟨front, back, rfl⟩ := List.append_of_mem hmem
    exact hclosed (List.mem_append_right before List.mem_cons_self) back
      (by simp : _ = (before ++ .check :: front) ++ .check :: back)

theorem sinceFiring_eq {before between : List Event} (h : Event.check ∉ between) :
    sinceFiring (before ++ .check :: between) = between := by
  have hall : ∀ e ∈ between, decide (e ≠ Event.check) = true := by
    intro e he
    exact decide_eq_true (ne_of_mem_of_not_mem he h)
  rw [sinceFiring, List.rtakeWhile, List.reverse_append, List.reverse_cons, List.append_assoc,
    List.takeWhile_append_of_pos (by simpa using hall)]
  simp

/-- **Where the timer closes only an idle connection**: nothing is read or written between the
first and the second firing, unless the connection is closed before the second one. -/
theorem closesOnlyIdle_iff (es : List Event) :
    ClosesOnlyIdle R isLocal es ↔
      ∀ before between after : List Event, es = before ++ .check :: (between ++ .check :: after) →
        Event.check ∉ before → Event.check ∉ between →
        (exec (step R) (new isLocal) (before ++ .check :: between)).deleted = false →
          ∀ e ∈ between, e.active = false := by
  constructor
  · intro h before between after hes _ hbetween hopen
    have hidle := h (before ++ .check :: between) after (by simp [hes]) hopen
      ((check_deletes_iff hopen).2 (by simp))
    rwa [sinceFiring_eq hbetween] at hidle
  · rintro h first after rfl c hopen hdeleted
    obtain ⟨before, between, rfl⟩ := List.append_of_mem ((check_deletes_iff hopen).1 hdeleted)
    obtain ⟨hbefore, hbetween⟩ := check_notMem_of_open hopen
    rw [sinceFiring_eq hbetween]
    exact h before between after (by simp) hbefore hbetween hopen

/-- A byte is read between the first two firings; the second one closes the connection. -/
theorem not_closesOnlyIdle :
    ¬ ClosesOnlyIdle ⟨fun _ _ _ => [], fun _ => [], fun _ => [], fun _ => []⟩ false
      [.check, .io (some (.bytes [83])) none, .check] := by
  intro h
  have hidle := h [.check, .io (some (.bytes [83])) none] [] rfl rfl rfl
    (.io (some (.bytes [83])) none) (by decide)
  exact absurd hidle (by decide)

end Gameserver.Submission.Connection
