import Mathlib
import Gameserver.Lib.Lines
import Gameserver.Lib.Machine
import Gameserver.Submission.Format

/-!
# A connection of the submission server

`class Connection` of `flag-submission-server/src/main.cpp`: one client sends lines and gets
a response to each of them.

* `ConstBuffer` — a response that is pending write.
* `Responder` — what answers the lines: `progress_flag` and the statistics.
* `readCb`, `writeCb`, `callback`, `check` — the methods.
* `Event`, `step` — what the event loop does with a connection.
* `framing` — however the bytes arrive, the lines of the stream are handed on, each cut to
  its first `MAX_LINE_BYTES` bytes, and no write to the line buffer is out of bounds.
-/

namespace Gameserver.Submission

open Machine

/-- `MAX_LINE_BYTES`. -/
def maxLineBytes : ℕ := 80

/-- `'\n'`. -/
def newline : UInt8 := 10

/-- `class ConstBuffer`. -/
structure ConstBuffer where
  data : List UInt8
  pos : ℕ
  deriving DecidableEq

namespace ConstBuffer

def new (data : List UInt8) : ConstBuffer := ⟨data, 0⟩

/-- The bytes at `dpos()`. -/
def dpos (buffer : ConstBuffer) : List UInt8 := buffer.data.drop buffer.pos

def nbytes (buffer : ConstBuffer) : ℕ := buffer.data.length - buffer.pos

end ConstBuffer

/-- What the connection asks for a response.  The answers may depend on everything outside
the connection, so each is an arbitrary function of the number of the line as well. -/
structure Responder where
  progressFlag : ℕ → List UInt8 → ℕ → List UInt8
  getConnectionFDReport : ℕ → List UInt8
  getFlagReport : ℕ → List (List UInt8)
  getCacheReport : ℕ → List UInt8

/-- The events an `ev::io` watcher is registered for. -/
structure Mask where
  read : Bool
  write : Bool
  deriving DecidableEq

/-- `class Connection`.  The last fields are not in the source: they record what the
connection has done. -/
structure Connection where
  /-- `isLocalAddress(peer_address)` -/
  isLocal : Bool
  lineCount : ℕ
  lineBuffer : Vector UInt8 (maxLineBytes + 2)
  lineBufferPos : ℕ
  readClosed : Bool
  writeQueue : List ConstBuffer
  writeClosed : Bool
  hasSeenActivity : Bool
  /-- What `io` is registered for. -/
  events : Mask
  /-- `delete this` -/
  deleted : Bool
  /-- The lines and lengths handed on. -/
  handed : List (List UInt8 × ℕ)
  /-- The bytes written to the socket. -/
  written : List UInt8
  /-- There was a write outside `line_buffer`. -/
  overrun : Bool

namespace Connection

/-- A new connection, after `init_cb`. -/
def new (isLocal : Bool) : Connection where
  isLocal := isLocal
  lineCount := 0
  lineBuffer := Vector.replicate _ 0
  lineBufferPos := 0
  readClosed := false
  writeQueue := []
  writeClosed := false
  hasSeenActivity := true
  events := ⟨true, false⟩
  deleted := false
  handed := []
  written := []
  overrun := false

/-! ## Reading -/

/-- `line_buffer[i] = b`. -/
def store (c : Connection) (i : ℕ) (b : UInt8) : Connection :=
  if h : i < maxLineBytes + 2 then { c with lineBuffer := c.lineBuffer.set i b h }
  else { c with overrun := true }

/-- The line in the buffer. -/
def line (c : Connection) : List UInt8 := c.lineBuffer.toList.take c.lineBufferPos

/-- The buffer as a C string. -/
def cString (c : Connection) : List UInt8 := c.lineBuffer.toList.takeWhile (· ≠ 0)

/-- The responses to the line in the buffer. -/
def responses (R : Responder) (c : Connection) : List (List UInt8) :=
  if c.isLocal then
    if c.cString = utf8 "statistics connections" then [R.getConnectionFDReport c.lineCount]
    else if c.cString = utf8 "statistics flags" then R.getFlagReport c.lineCount
    else if c.cString = utf8 "statistics cache" then [R.getCacheReport c.lineCount]
    else [R.progressFlag c.lineCount c.line c.lineBufferPos]
  else [R.progressFlag c.lineCount c.line c.lineBufferPos]

/-- The `'\n'` branch of the loop: submit the line, and add the response to the queue. -/
def submitLine (R : Responder) (c : Connection) : Connection :=
  let c := c.store c.lineBufferPos 0
  { c with
    writeQueue := c.writeQueue ++ (c.responses R).map .new
    handed := c.handed ++ [(c.line, c.lineBufferPos)]
    lineCount := c.lineCount + 1
    lineBufferPos := 0 }

/-- The body of the loop in `read_cb`. -/
def readByte (R : Responder) (c : Connection) (b : UInt8) : Connection :=
  if b = newline then c.submitLine R
  else if c.lineBufferPos < maxLineBytes then
    { c.store c.lineBufferPos b with lineBufferPos := c.lineBufferPos + 1 }
  else c

/-- The result of `recv`; no bytes at the end of the file. -/
inductive Recv where
  | error
  | bytes (chunk : List UInt8)
  deriving DecidableEq

def Recv.chunk : Recv → List UInt8
  | .error => []
  | .bytes chunk => chunk

/-- `read_cb`. -/
def readCb (R : Responder) (c : Connection) : Recv → Connection
  | .error => { c with readClosed := true }
  | .bytes [] => { c with readClosed := true }
  | .bytes (b :: chunk) => (b :: chunk).foldl (readByte R) c

/-! ## Writing -/

/-- The result of `write`. -/
inductive Write where
  | error
  | accepted (n : ℕ)
  deriving DecidableEq

/-- `write_cb`. -/
def writeCb (c : Connection) (result : Write) : Connection :=
  match c.writeQueue, result with
  | [], _ => c
  | _ :: _, .error => { c with writeQueue := [], writeClosed := true }
  | buffer :: queue, .accepted n =>
    let buffer' := { buffer with pos := buffer.pos + n }
    { c with
      written := c.written ++ buffer.dpos.take n
      writeQueue := if buffer'.nbytes = 0 then queue else buffer' :: queue }

/-! ## Events -/

/-- The events `callback` registers for. -/
def mask (c : Connection) : Mask where
  read := ¬ (c.readClosed ∨ (¬ c.writeClosed ∧ 32 < c.writeQueue.length))
  write := ¬ (c.writeQueue = [] ∨ c.writeClosed)

/-- The end of `callback`: is this connection fully closed? -/
def settle (c : Connection) : Connection :=
  if c.readClosed ∧ (c.writeClosed ∨ c.writeQueue = []) then { c with deleted := true }
  else { c with events := c.mask }

/-- The reading part of `callback`. -/
def readPart (R : Responder) (c : Connection) (read : Option Recv) : Connection :=
  read.elim c (c.readCb R)

/-- `callback`, for an event without `EV_ERROR`: what is read and what is written, if the
event allows it. -/
def callback (R : Responder) (c : Connection) (read : Option Recv) (write : Option Write) :
    Connection :=
  let c := c.readPart R read
  (write.elim c c.writeCb).settle

/-- `check`, called every 30 seconds. -/
def check (c : Connection) : Connection :=
  if c.hasSeenActivity then { c with hasSeenActivity := false } else { c with deleted := true }

/-- What the event loop does with a connection. -/
inductive Event where
  | io (read : Option Recv) (write : Option Write)
  /-- `EV_ERROR`: nothing happens. -/
  | invalid
  | check
  deriving DecidableEq

/-- One event. -/
def step (R : Responder) (c : Connection) : Event → Connection
  | .io read write => c.callback R read write
  | .invalid => c
  | .check => c.check

/-- The bytes that are read in an event. -/
def Event.received : Event → List UInt8
  | .io read _ => read.elim [] Recv.chunk
  | .invalid => []
  | .check => []

end Connection

/-- The bytes received in a run. -/
def received (es : List Connection.Event) : List UInt8 := es.flatMap Connection.Event.received

/-! ## Framing -/

/-- A line cut to its first `MAX_LINE_BYTES` bytes, and its length. -/
def cut (line : List UInt8) : List UInt8 × ℕ :=
  (line.take maxLineBytes, (line.take maxLineBytes).length)

namespace Connection

variable (R : Responder) {c : Connection} {s : List UInt8}

/-- The line state of a connection that has received the stream `s`. -/
structure Framed (c : Connection) (s : List UInt8) : Prop where
  handed : c.handed = (Lines.terminated newline s).map cut
  line : c.line = (Lines.unterminated newline s).take maxLineBytes
  pos : c.lineBufferPos = c.line.length
  lineCount : c.lineCount = (Lines.terminated newline s).length
  overrun : c.overrun = false

theorem framed_new (isLocal : Bool) : Framed (new isLocal) [] where
  handed := by simp [new]
  line := by simp [new, Connection.line]
  pos := by simp [new, Connection.line]
  lineCount := by simp [new]
  overrun := rfl

theorem Framed.pos_le (h : Framed c s) : c.lineBufferPos ≤ maxLineBytes := by
  rw [h.pos, h.line]
  exact List.length_take_le ..

theorem store_of_le {i : ℕ} (hi : i ≤ maxLineBytes) (b : UInt8) :
    ∃ h : i < maxLineBytes + 2, c.store i b = { c with lineBuffer := c.lineBuffer.set i b h } := by
  have h : i < maxLineBytes + 2 := by omega
  exact ⟨h, dif_pos h⟩

/-- A write behind the line leaves the line as it is. -/
theorem line_store (hpos : c.lineBufferPos ≤ maxLineBytes) (b : UInt8) :
    (c.store c.lineBufferPos b).line = c.line := by
  obtain ⟨hlt, hstore⟩ := store_of_le (c := c) hpos b
  simp [hstore, Connection.line, Vector.toList_set, List.take_set_of_le]

/-- The line state looks at nothing but these fields. -/
theorem Framed.congr {c' : Connection} (h : Framed c s) (hhanded : c'.handed = c.handed)
    (hbuffer : c'.lineBuffer = c.lineBuffer) (hpos : c'.lineBufferPos = c.lineBufferPos)
    (hcount : c'.lineCount = c.lineCount) (hoverrun : c'.overrun = c.overrun) : Framed c' s := by
  have hline : c'.line = c.line := by rw [Connection.line, Connection.line, hbuffer, hpos]
  exact
    { handed := hhanded.trans h.handed
      line := hline.trans h.line
      pos := by rw [hpos, hline, h.pos]
      lineCount := hcount.trans h.lineCount
      overrun := hoverrun.trans h.overrun }

/-- A newline hands the line on. -/
theorem Framed.submitLine (h : Framed c s) : Framed (c.submitLine R) (s ++ [newline]) := by
  obtain ⟨hlt, hstore⟩ := store_of_le (c := c) h.pos_le 0
  have hcut : (c.line, c.lineBufferPos) = cut (Lines.unterminated newline s) := by
    rw [cut, ← h.line, ← h.pos]
  constructor
  · show (c.store c.lineBufferPos 0).handed ++ [((c.store c.lineBufferPos 0).line,
      (c.store c.lineBufferPos 0).lineBufferPos)] = _
    rw [line_store h.pos_le, Lines.terminated_snoc_sep, List.map_append, ← h.handed,
      List.map_singleton,
      ← hcut, hstore]
  · rw [Lines.unterminated_snoc_sep]
    simp [Connection.submitLine, Connection.line]
  · simp [Connection.submitLine, Connection.line]
  · show (c.store c.lineBufferPos 0).lineCount + 1 = _
    rw [Lines.terminated_snoc_sep, List.length_append, ← h.lineCount, hstore]
    rfl
  · show (c.store c.lineBufferPos 0).overrun = false
    rw [hstore]
    exact h.overrun

/-- Another byte is added to the line while there is room. -/
theorem Framed.fill (h : Framed c s) (hpos : c.lineBufferPos < maxLineBytes) {b : UInt8}
    (hb : b ≠ newline) :
    Framed { c.store c.lineBufferPos b with lineBufferPos := c.lineBufferPos + 1 } (s ++ [b]) := by
  obtain ⟨hlt, hstore⟩ := store_of_le (c := c) hpos.le b
  have hline : (c.lineBuffer.set c.lineBufferPos b hlt).toList.take (c.lineBufferPos + 1) =
      c.line ++ [b] := by
    rw [Vector.toList_set, List.take_add_one, List.take_set_of_le le_rfl,
      List.getElem?_set_self (by simpa using hlt)]
    rfl
  have hroom : (Lines.unterminated newline s).length < maxLineBytes := by
    have hlen := h.pos
    rw [h.line, List.length_take] at hlen
    omega
  have hall : (Lines.unterminated newline s).take maxLineBytes = Lines.unterminated newline s :=
    List.take_of_length_le hroom.le
  rw [hstore]
  constructor
  · rw [Lines.terminated_snoc_of_ne hb]
    exact h.handed
  · rw [Lines.unterminated_snoc_of_ne hb, List.take_of_length_le (by simpa using hroom)]
    exact hline.trans (by rw [h.line, hall])
  · show c.lineBufferPos + 1 = List.length (List.take _ _)
    rw [hline, List.length_append, ← h.pos]
    rfl
  · rw [Lines.terminated_snoc_of_ne hb]
    exact h.lineCount
  · exact h.overrun

/-- What does not fit is dropped. -/
theorem Framed.drop (h : Framed c s) (hpos : ¬ c.lineBufferPos < maxLineBytes) {b : UInt8}
    (hb : b ≠ newline) : Framed c (s ++ [b]) := by
  have hfull : maxLineBytes ≤ (Lines.unterminated newline s).length := by
    have hlen := h.pos
    rw [h.line, List.length_take] at hlen
    omega
  constructor
  · rw [Lines.terminated_snoc_of_ne hb]
    exact h.handed
  · rw [Lines.unterminated_snoc_of_ne hb, List.take_append_of_le_length hfull]
    exact h.line
  · exact h.pos
  · rw [Lines.terminated_snoc_of_ne hb]
    exact h.lineCount
  · exact h.overrun

theorem Framed.readByte (h : Framed c s) (b : UInt8) : Framed (c.readByte R b) (s ++ [b]) := by
  unfold Connection.readByte
  split_ifs with hb hpos
  · rw [hb]
    exact h.submitLine R
  · exact h.fill hpos hb
  · exact h.drop hpos hb

/-- The loop of `read_cb`. -/
theorem Framed.foldl (h : Framed c s) (chunk : List UInt8) :
    Framed (chunk.foldl (Connection.readByte R) c) (s ++ chunk) := by
  induction chunk generalizing c s with
  | nil => simpa using h
  | cons b chunk ih =>
    rw [List.foldl_cons, List.append_cons]
    exact ih (h.readByte R b)

theorem Framed.readPart (h : Framed c s) (read : Option Recv) (write : Option Write) :
    Framed (c.readPart R read) (s ++ (Event.io read write).received) := by
  match read with
  | none => simpa [Connection.readPart, Event.received] using h
  | some .error =>
    show Framed _ (s ++ [])
    rw [List.append_nil]
    exact h.congr rfl rfl rfl rfl rfl
  | some (.bytes []) =>
    show Framed _ (s ++ [])
    rw [List.append_nil]
    exact h.congr rfl rfl rfl rfl rfl
  | some (.bytes (b :: chunk)) => exact h.foldl R (b :: chunk)

theorem Framed.writeCb (h : Framed c s) (result : Write) : Framed (c.writeCb result) s := by
  unfold Connection.writeCb
  split
  · exact h
  · exact h.congr rfl rfl rfl rfl rfl
  · exact h.congr rfl rfl rfl rfl rfl

theorem Framed.settle (h : Framed c s) : Framed c.settle s := by
  unfold Connection.settle
  split
  · exact h.congr rfl rfl rfl rfl rfl
  · exact h.congr rfl rfl rfl rfl rfl

/-- **Every event keeps the line state.** -/
theorem Framed.step (h : Framed c s) (e : Event) : Framed (c.step R e) (s ++ e.received) := by
  match e with
  | .io read write =>
    have hread := h.readPart R read write
    cases write with
    | none => exact hread.settle
    | some result => exact (hread.writeCb result).settle
  | .invalid => simpa [Event.received, Connection.step] using h
  | .check =>
    rw [Event.received, List.append_nil]
    show Framed c.check s
    unfold check
    split
    · exact h.congr rfl rfl rfl rfl rfl
    · exact h.congr rfl rfl rfl rfl rfl

end Connection

/-- The line state after any events. -/
theorem framed_exec (R : Responder) (isLocal : Bool) (es : List Connection.Event) :
    (exec (Connection.step R) (.new isLocal) es).Framed (received es) :=
  Along.invariant_log (P := fun _ _ => True) (l := []) (fun _ e _ h _ => h.step R e)
    (Connection.framed_new isLocal) (along_true _ es)

/-- **Framing does not depend on chunks.**  After any events, with the stream split in any
way, what was handed on are the lines of the stream that are ended by a newline, each cut to
its first `MAX_LINE_BYTES` bytes; the position never exceeds `MAX_LINE_BYTES`, and all writes
to the buffer were in bounds. -/
theorem framing (R : Responder) (isLocal : Bool) (es : List Connection.Event) :
    (exec (Connection.step R) (.new isLocal) es).handed =
        (Lines.terminated newline (received es)).map cut ∧
      (exec (Connection.step R) (.new isLocal) es).lineBufferPos ≤ maxLineBytes ∧
      (exec (Connection.step R) (.new isLocal) es).overrun = false :=
  have h := framed_exec R isLocal es
  ⟨h.handed, h.pos_le, h.overrun⟩

end Gameserver.Submission
