import Gameserver.Submission.Connection

/-!
# The responses of a connection

A client that sends faster than it reads is not read from: above 32 pending responses the
connection is registered for writing only.  This file follows the responses through the
write queue, over every order of events the registered mask allows.

* `answers`, `answerBytes` — the responses to a line and to a stream, without buffers, queue
  and events.
* `Allowed` — the events of a connection without read or write errors and without expiry of
  its inactivity timer.
* `responses_in_order` — what is written is a part of the answers from the start on, a live
  connection is registered for an event, and a connection is closed only after the end of
  the file and when everything is written.
-/

namespace Gameserver.Submission

open Machine

/-! ## The answers to a stream -/

/-- The responses to a line with this number. -/
def answers (R : Responder) (isLocal : Bool) (number : ℕ) (line : List UInt8) :
    List (List UInt8) :=
  let command := line.takeWhile (· ≠ 0)
  if isLocal then
    if command = utf8 "statistics connections" then [R.getConnectionFDReport number]
    else if command = utf8 "statistics flags" then R.getFlagReport number
    else if command = utf8 "statistics cache" then [R.getCacheReport number]
    else [R.progressFlag number line line.length]
  else [R.progressFlag number line line.length]

/-- All responses to the lines of a stream, in the order of the lines. -/
def answerBytes (R : Responder) (isLocal : Bool) (s : List UInt8) : List UInt8 :=
  ((Lines.terminated newline s).zipIdx.flatMap fun line =>
    answers R isLocal line.2 (line.1.take maxLineBytes)).flatten

variable (R : Responder) {isLocal : Bool}

theorem answerBytes_snoc_newline (s : List UInt8) :
    answerBytes R isLocal (s ++ [newline]) = answerBytes R isLocal s ++
      (answers R isLocal (Lines.terminated newline s).length
        ((Lines.unterminated newline s).take maxLineBytes)).flatten := by
  simp [answerBytes, Lines.terminated_snoc_sep, List.zipIdx_append]

theorem answerBytes_snoc_of_ne {b : UInt8} (hb : b ≠ newline) (s : List UInt8) :
    answerBytes R isLocal (s ++ [b]) = answerBytes R isLocal s := by
  rw [answerBytes, answerBytes, Lines.terminated_snoc_of_ne hb]

namespace Connection

variable {c : Connection} {s : List UInt8}

/-- The bytes that are pending write. -/
def pendingBytes (c : Connection) : List UInt8 := c.writeQueue.flatMap ConstBuffer.dpos

@[simp] theorem flatMap_dpos_new (responses : List (List UInt8)) :
    (responses.map ConstBuffer.new).flatMap ConstBuffer.dpos = responses.flatten := by
  induction responses with
  | nil => rfl
  | cons response responses ih => simp [ih, ConstBuffer.new, ConstBuffer.dpos]

/-- A terminated buffer, read as a C string, is the line up to its first zero. -/
theorem cString_store (h : Framed c s) :
    (c.store c.lineBufferPos 0).cString = c.line.takeWhile (· ≠ 0) := by
  obtain ⟨hlt, hstore⟩ := store_of_le (c := c) h.pos_le 0
  have hset : c.lineBuffer.toList.set c.lineBufferPos 0 =
      c.line ++ 0 :: c.lineBuffer.toList.drop (c.lineBufferPos + 1) :=
    List.set_eq_take_append_cons_drop.trans (if_pos (by simpa using hlt))
  simp only [cString, hstore, Vector.toList_set, hset]
  rw [List.takeWhile_append]
  split_ifs with hall
  · have hline : c.line.takeWhile (· ≠ 0) = c.line :=
      (List.takeWhile_prefix _).eq_of_length hall
    rw [hline, List.takeWhile_cons_of_neg (by simp), List.append_nil]
  · rfl

/-- The responses in `read_cb` are the answers to the line. -/
theorem responses_store (h : Framed c s) :
    (c.store c.lineBufferPos 0).responses R =
      answers R c.isLocal (Lines.terminated newline s).length
        ((Lines.unterminated newline s).take maxLineBytes) := by
  obtain ⟨hlt, hstore⟩ := store_of_le (c := c) h.pos_le 0
  have hlocal : (c.store c.lineBufferPos 0).isLocal = c.isLocal := by rw [hstore]
  have hcount : (c.store c.lineBufferPos 0).lineCount = c.lineCount := by rw [hstore]
  have hpos : (c.store c.lineBufferPos 0).lineBufferPos = c.line.length := by
    rw [hstore]
    exact h.pos
  unfold responses answers
  rw [cString_store h, line_store h.pos_le, hlocal, hcount, hpos, h.lineCount, h.line]

/-! ## Runs without errors -/

/-- The end of the file is read in this event. -/
def Event.eof : Event → Bool
  | .io (some (.bytes [])) _ => true
  | _ => false

/-- The event can happen to the connection: it is not deleted, the mask allows what the event
does, `recv` returns at most 256 bytes, `write` accepts at most what it is given, neither
fails, and the inactivity timer does not expire. -/
def Allowed (R : Responder) (c : Connection) : Event → Prop
  | .io read write => c.deleted = false ∧ (read.isSome → c.events.read) ∧
      (write.isSome → c.events.write) ∧
      (read.all fun result => result ≠ .error ∧ result.chunk.length ≤ 256) ∧
      write.all fun
        | .error => false
        | .accepted n => (c.readPart R read).writeQueue.head?.all fun buffer => n ≤ buffer.nbytes
  | .invalid => c.deleted = false
  | .check => c.deleted = false ∧ c.hasSeenActivity

instance (c : Connection) (e : Event) : Decidable (c.Allowed R e) :=
  match e with
  | .io _ _ => inferInstanceAs (Decidable (_ ∧ (_ → _) ∧ (_ → _) ∧ _ ∧ _))
  | .invalid => inferInstanceAs (Decidable (_ = _))
  | .check => inferInstanceAs (Decidable (_ ∧ _))

/-- The state of the responses to the stream `s`: what is not written is pending. -/
structure Answered (R : Responder) (isLocal : Bool) (c : Connection) (s : List UInt8) : Prop where
  framed : Framed c s
  local_eq : c.isLocal = isLocal
  bytes : c.written ++ c.pendingBytes = answerBytes R isLocal s
  writeClosed : c.writeClosed = false

variable {R}

theorem answered_new (isLocal : Bool) : Answered R isLocal (new isLocal) [] :=
  ⟨framed_new isLocal, rfl, by simp [new, pendingBytes, answerBytes], rfl⟩

/-- Reading a byte queues the answer, if the byte ends a line. -/
theorem Answered.readByte (h : Answered R isLocal c s) (b : UInt8) :
    Answered R isLocal (c.readByte R b) (s ++ [b]) := by
  have hframed := h.framed.readByte R b
  obtain ⟨hlt, hstore⟩ := store_of_le (c := c) h.framed.pos_le b
  obtain ⟨hlt', hstore'⟩ := store_of_le (c := c) h.framed.pos_le 0
  have hresponses := responses_store R h.framed
  unfold Connection.readByte at hframed ⊢
  split_ifs at hframed ⊢ with hb hpos
  · subst hb
    refine ⟨hframed, ?_, ?_, ?_⟩
    · show (c.store c.lineBufferPos 0).isLocal = isLocal
      rw [hstore']
      exact h.local_eq
    · show (c.store c.lineBufferPos 0).written ++ ((c.store c.lineBufferPos 0).writeQueue ++
        ((c.store c.lineBufferPos 0).responses R).map ConstBuffer.new).flatMap ConstBuffer.dpos = _
      rw [hresponses, List.flatMap_append, flatMap_dpos_new, ← List.append_assoc,
        answerBytes_snoc_newline, h.local_eq, ← h.bytes, hstore']
      rfl
    · show (c.store c.lineBufferPos 0).writeClosed = false
      rw [hstore']
      exact h.writeClosed
  · rw [hstore] at hframed ⊢
    exact ⟨hframed, h.local_eq, by rw [answerBytes_snoc_of_ne R hb, ← h.bytes]; rfl, h.writeClosed⟩
  · exact ⟨hframed, h.local_eq, by rw [answerBytes_snoc_of_ne R hb, ← h.bytes], h.writeClosed⟩

theorem Answered.foldl (h : Answered R isLocal c s) (chunk : List UInt8) :
    Answered R isLocal (chunk.foldl (Connection.readByte R) c) (s ++ chunk) := by
  induction chunk generalizing c s with
  | nil => simpa using h
  | cons b chunk ih =>
    rw [List.foldl_cons, List.append_cons]
    exact ih (h.readByte b)

/-- Writing moves bytes from the front of the queue to the socket. -/
theorem Answered.accepted (h : Answered R isLocal c s) (n : ℕ) :
    Answered R isLocal (c.writeCb (.accepted n)) s := by
  refine ⟨h.framed.writeCb _, ?_, ?_, ?_⟩
  · unfold writeCb
    split <;> exact h.local_eq
  · rw [← h.bytes]
    unfold writeCb pendingBytes
    split
    · rfl
    · contradiction
    · rename_i buffer queue m hq hm
      obtain rfl := Write.accepted.inj hm
      have hrest : buffer.dpos = buffer.dpos.take n ++ buffer.data.drop (buffer.pos + n) := by
        rw [← List.drop_drop]
        exact (List.take_append_drop n _).symm
      rw [hq]
      dsimp only
      split_ifs with hdone
      · -- the buffer is written completely
        have hnil : buffer.data.drop (buffer.pos + n) = [] :=
          List.drop_eq_nil_of_le (Nat.sub_eq_zero_iff_le.1 hdone)
        rw [hnil, List.append_nil] at hrest
        rw [List.flatMap_cons, ← hrest, List.append_assoc]
      · rw [List.flatMap_cons, List.flatMap_cons, ← List.append_assoc, ← List.append_assoc,
          List.append_assoc c.written]
        exact congrArg (fun bytes => c.written ++ bytes ++ _) hrest.symm
  · unfold writeCb
    split
    · exact h.writeClosed
    · contradiction
    · exact h.writeClosed

/-! ## Opening and closing -/

/-- Reading bytes neither closes nor deletes the connection. -/
theorem readByte_closed (c : Connection) (b : UInt8) :
    (c.readByte R b).readClosed = c.readClosed ∧ (c.readByte R b).deleted = c.deleted := by
  have hstore : ∀ i b', (c.store i b').readClosed = c.readClosed ∧
      (c.store i b').deleted = c.deleted := by
    intro i b'
    unfold store
    split <;> exact ⟨rfl, rfl⟩
  unfold readByte submitLine
  split_ifs
  · exact hstore _ _
  · exact hstore _ _
  · exact ⟨rfl, rfl⟩

theorem foldl_readByte_closed (c : Connection) (chunk : List UInt8) :
    (chunk.foldl (readByte R) c).readClosed = c.readClosed ∧
      (chunk.foldl (readByte R) c).deleted = c.deleted := by
  induction chunk generalizing c with
  | nil => exact ⟨rfl, rfl⟩
  | cons b chunk ih =>
    obtain ⟨hread, hdeleted⟩ := readByte_closed (R := R) c b
    exact ⟨(ih _).1.trans hread, (ih _).2.trans hdeleted⟩

/-- What reading does, without errors. -/
theorem Answered.readPart (h : Answered R isLocal c s) {read : Option Recv} (write : Option Write)
    (hread : read.all fun result => result ≠ .error) :
    Answered R isLocal (c.readPart R read) (s ++ (Event.io read write).received) ∧
      (c.readPart R read).readClosed = (c.readClosed || (Event.io read write).eof) ∧
      (c.readPart R read).deleted = c.deleted := by
  have hframed := h.framed.readPart R read write
  match read with
  | none =>
    have hs : s ++ (Event.io none write).received = s := List.append_nil s
    rw [hs]
    exact ⟨h, (Bool.or_false _).symm, rfl⟩
  | some .error => simp at hread
  | some (.bytes []) =>
    have hs : s ++ (Event.io (some (.bytes [])) write).received = s := List.append_nil s
    rw [hs] at hframed ⊢
    exact ⟨⟨hframed, h.local_eq, h.bytes, h.writeClosed⟩, (Bool.or_true _).symm, rfl⟩
  | some (.bytes (b :: chunk)) =>
    obtain ⟨hclosed, hdeleted⟩ := foldl_readByte_closed (R := R) c (b :: chunk)
    exact ⟨h.foldl (b :: chunk), hclosed.trans (Bool.or_false _).symm, hdeleted⟩

/-- What writing does, without errors. -/
theorem Answered.writePart (h : Answered R isLocal c s) {write : Option Write}
    (hwrite : write ≠ some .error) :
    Answered R isLocal (write.elim c c.writeCb) s ∧
      (write.elim c c.writeCb).readClosed = c.readClosed ∧
      (write.elim c c.writeCb).deleted = c.deleted := by
  match write with
  | none => exact ⟨h, rfl, rfl⟩
  | some .error => exact absurd rfl hwrite
  | some (.accepted n) =>
    refine ⟨h.accepted n, ?_⟩
    show (c.writeCb (.accepted n)).readClosed = c.readClosed ∧
      (c.writeCb (.accepted n)).deleted = c.deleted
    unfold writeCb
    split <;> exact ⟨rfl, rfl⟩

/-- When a connection is open and when it is deleted, after these events. -/
structure Lifecycle (c : Connection) (es : List Event) : Prop where
  events : c.deleted = false → c.events = c.mask
  live : c.deleted = false → ¬ (c.readClosed ∧ c.writeQueue = [])
  closed : c.deleted = true → c.readClosed ∧ c.writeQueue = []
  eof : c.readClosed = es.any Event.eof

theorem lifecycle_new (isLocal : Bool) : Lifecycle (new isLocal) [] where
  events := by simp [new, mask]
  live := by simp [new]
  closed := by simp [new]
  eof := rfl

/-- The end of `callback`. -/
theorem Answered.settle (h : Answered R isLocal c s) {es : List Event}
    (hdeleted : c.deleted = false)
    (heof : c.readClosed = es.any Event.eof) :
    Answered R isLocal c.settle s ∧ Lifecycle c.settle es := by
  have hframed := h.framed.settle
  unfold Connection.settle at hframed ⊢
  by_cases hdone : c.readClosed ∧ (c.writeClosed ∨ c.writeQueue = [])
  · rw [if_pos hdone] at hframed ⊢
    refine ⟨⟨hframed, h.local_eq, h.bytes, h.writeClosed⟩, ?_⟩
    exact ⟨by simp, by simp, fun _ => by simpa [h.writeClosed] using hdone, heof⟩
  · rw [if_neg hdone] at hframed ⊢
    refine ⟨⟨hframed, h.local_eq, h.bytes, h.writeClosed⟩, ?_⟩
    exact ⟨fun _ => rfl, fun _ => by simpa [h.writeClosed] using hdone, by simp [hdeleted], heof⟩

/-- The invariant of a run. -/
def Serving (R : Responder) (isLocal : Bool) (c : Connection) (es : List Event) : Prop :=
  Answered R isLocal c (received es) ∧ Lifecycle c es

/-- **Every allowed event keeps the invariant.** -/
theorem Serving.step {es : List Event} (h : Serving R isLocal c es) {e : Event}
    (hok : c.Allowed R e) : Serving R isLocal (c.step R e) (es ++ [e]) := by
  obtain ⟨hans, hlife⟩ := h
  have hreceived : received (es ++ [e]) = received es ++ e.received := by simp [received]
  unfold Serving
  rw [hreceived]
  match e with
  | .io read write =>
    obtain ⟨hdeleted, -, -, hread, hwrite⟩ := hok
    have hread' : read.all fun result => result ≠ .error := by
      cases read <;> simp_all
    have hwrite' : write ≠ some .error := by
      rintro rfl
      simp at hwrite
    obtain ⟨hans₁, hclosed₁, hdel₁⟩ := hans.readPart write hread'
    obtain ⟨hans₂, hclosed₂, hdel₂⟩ := hans₁.writePart hwrite'
    refine hans₂.settle (hdel₂.trans (hdel₁.trans hdeleted)) ?_
    rw [hclosed₂, hclosed₁, hlife.eof]
    simp
  | .invalid =>
    refine ⟨by simpa [Event.received, Connection.step] using hans, hlife.events, hlife.live,
      hlife.closed, ?_⟩
    rw [List.any_append, ← hlife.eof]
    simp [Event.eof, Connection.step]
  | .check =>
    obtain ⟨hdeleted, hactive⟩ := hok
    have hcheck : c.step R .check = { c with hasSeenActivity := false } := if_pos hactive
    rw [hcheck, Event.received, List.append_nil]
    refine ⟨⟨hans.framed.congr rfl rfl rfl rfl rfl, hans.local_eq, hans.bytes, hans.writeClosed⟩,
      hlife.events, hlife.live, hlife.closed, ?_⟩
    rw [List.any_append, ← hlife.eof]
    simp [Event.eof]

/-- An open connection waits for something. -/
theorem Lifecycle.registered {es : List Event} (h : Lifecycle c es) (hw : c.writeClosed = false)
    (hdeleted : c.deleted = false) : c.events.read ∨ c.events.write := by
  have hlive := h.live hdeleted
  rw [h.events hdeleted]
  cases hq : c.writeQueue with
  | nil => simp_all [mask]
  | cons buffer queue => simp [mask, hq, hw]

end Connection

/-- How a connection has served its client in the events `es`. -/
structure Served (R : Responder) (isLocal : Bool) (c : Connection) (es : List Connection.Event) :
    Prop where
  inOrder : c.written <+: answerBytes R isLocal (received es)
  registered : c.deleted = false → c.events.read ∨ c.events.write
  complete : c.deleted = true →
    (∃ e ∈ es, e.eof) ∧ c.written = answerBytes R isLocal (received es)

/-- **Responses are complete and in order**, for every order of the events that the mask
allows, every chunking of the input and every amount a write accepts. -/
theorem responses_in_order (R : Responder) (isLocal : Bool) (es : List Connection.Event)
    (hok : Along (Connection.step R) (Connection.Allowed R) (.new isLocal) es) :
    Served R isLocal (exec (Connection.step R) (.new isLocal) es) es := by
  have hinv : Connection.Serving R isLocal (exec (Connection.step R) (.new isLocal) es)
      ([] ++ es.flatMap fun e => [e]) :=
    hok.invariant_log (fun _ _ _ h hc => h.step hc)
      ⟨Connection.answered_new isLocal, Connection.lifecycle_new isLocal⟩
  rw [List.nil_append, List.flatMap_singleton'] at hinv
  obtain ⟨hans, hlife⟩ := hinv
  refine ⟨⟨_, hans.bytes⟩, hlife.registered hans.writeClosed, fun hdeleted => ?_⟩
  obtain ⟨hclosed, hempty⟩ := hlife.closed hdeleted
  refine ⟨by simpa [hlife.eof] using hclosed, ?_⟩
  rw [← hans.bytes, Connection.pendingBytes, hempty]
  simp

/-- Answers `OK` to every line that is not empty, and nothing to an empty line. -/
def okResponder : Responder where
  progressFlag := fun _ line _ => if line = [] then [] else [79, 75]
  getConnectionFDReport := fun _ => []
  getFlagReport := fun _ => []
  getCacheReport := fun _ => []

/-- A line in two chunks, an empty line and an unfinished one; the end of the file comes while
a response is written byte by byte. -/
theorem responses_in_order_partial_writes :
    Served okResponder false
      (exec (Connection.step okResponder) (.new false)
        [.io (some (.bytes [65])) none, .io (some (.bytes [66, 10, 10, 67])) none,
          .io (some (.bytes [])) (some (.accepted 1)), .check, .io none (some (.accepted 1)),
          .io none (some (.accepted 0))])
      [.io (some (.bytes [65])) none, .io (some (.bytes [66, 10, 10, 67])) none,
        .io (some (.bytes [])) (some (.accepted 1)), .check, .io none (some (.accepted 1)),
        .io none (some (.accepted 0))] :=
  responses_in_order okResponder false _ (by decide)

end Gameserver.Submission
