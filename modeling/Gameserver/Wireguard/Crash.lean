import Gameserver.Wireguard.KeyStore

/-!
# The key store and crashes

`Invariant` says, for every point of `put_keys`, which of the ledger's mappings the disk holds.
It is kept by every step, except by a crash after `os.remove` and before `os.replace`: there
the only complete file is the temporary one, which `KeyStore.__init__` does not look at, and
the next store is empty (`lost_in_the_gap`).
-/

namespace Gameserver.Wireguard

open Json (Text)
open Machine

variable {path : Path} {s : State} {e : Event}

/-- A store opened from this disk has these keys. -/
def OnDisk (path : Path) (disk : Disk) (keys : Keys) : Prop :=
  disk path = some (.file keys.dump) ∨ disk path = none ∧ keys = Keys.empty

theorem OnDisk.init {disk : Disk} {keys : Keys} (h : OnDisk path disk keys) :
    KeyStore.init disk path = .ok keys := by
  rcases h with hfile | ⟨hnone, rfl⟩
  · rw [KeyStore.init, hfile]
    dsimp only
    rw [Keys.load_dump]
  · rw [KeyStore.init, hnone]

/-- Only the key store's own path matters. -/
theorem OnDisk.of_eq {disk disk' : Disk} {keys : Keys} (h : OnDisk path disk keys)
    (heq : disk' path = disk path) : OnDisk path disk' keys := by
  rwa [OnDisk, heq]

/-- Writing to the temporary file leaves the key store's file alone. -/
theorem OnDisk.set_tmp {disk : Disk} {keys : Keys} (h : OnDisk path disk keys)
    (hpath : tmpFile path ≠ path) (node : Option Node) :
    OnDisk path (disk.set (tmpFile path) node) keys :=
  h.of_eq (disk.set_of_ne (Ne.symm hpath) node)

/-- What the disk holds at each point of a call. -/
def Invariant (path : Path) (s : State) : Prop :=
  match s.world.process with
  | .down => ∃ keys, OnDisk path s.world.disk keys ∧
      (keys = s.ledger.stored ∨ s.ledger.pending = some keys)
  | .idle keys => OnDisk path s.world.disk keys ∧ keys = s.ledger.stored ∧ s.ledger.pending = none
  | .writing keys _ => OnDisk path s.world.disk s.ledger.stored ∧ s.ledger.pending = some keys
  | .removing keys => OnDisk path s.world.disk s.ledger.stored ∧ s.ledger.pending = some keys ∧
      s.world.disk (tmpFile path) = some (.file keys.dump)
  | .replacing keys removed => (removed = false → OnDisk path s.world.disk s.ledger.stored) ∧
      s.ledger.pending = some keys ∧ s.world.disk (tmpFile path) = some (.file keys.dump)

/-- What stands after a crash before the removal: the mapping of the calls that returned. -/
theorem invariant_down {disk : Disk} {ledger : Ledger} (h : OnDisk path disk ledger.stored) :
    Invariant path ⟨⟨disk, .down⟩, ledger⟩ :=
  ⟨ledger.stored, h, Or.inl rfl⟩

/-- The process does not die between `os.remove` and `os.replace`. -/
def NoCrashInGap (s : State) (e : Event) : Prop :=
  ∀ kept, e = .crash kept → ∀ keys, s.world.process ≠ .replacing keys true

theorem invariant_step_init (h : Invariant path s) : Invariant path (s.step path .init) := by
  obtain ⟨⟨disk, process⟩, ledger⟩ := s
  cases process with
  | down =>
    obtain ⟨keys, hdisk, -⟩ := h
    simp only [State.step, World.step, Ledger.step, hdisk.init]
    exact ⟨hdisk, rfl, rfl⟩
  | idle | writing | removing | replacing => exact h

theorem invariant_step_put (hpath : tmpFile path ≠ path) {teamId : ℤ} {keyPair : KeyPair}
    (h : Invariant path s) : Invariant path (s.step path (.put teamId keyPair)) := by
  obtain ⟨⟨disk, process⟩, ledger⟩ := s
  cases process with
  | idle keys =>
    have hdisk : OnDisk path disk ledger.stored := h.2.1 ▸ h.1
    simp only [State.step, World.step, Ledger.step]
    -- the temporary file cannot be opened, or it is emptied
    split
    · exact invariant_down hdisk
    · exact invariant_down hdisk
    · exact ⟨hdisk.set_tmp hpath _, rfl⟩
  | down | writing | removing | replacing => exact h

theorem invariant_step_write (hpath : tmpFile path ≠ path) {count : ℕ} (h : Invariant path s) :
    Invariant path (s.step path (.write count)) := by
  obtain ⟨⟨disk, process⟩, ledger⟩ := s
  cases process with
  | writing keys written => exact ⟨h.1.set_tmp hpath _, h.2⟩
  | down | idle | removing | replacing => exact h

theorem invariant_step_fsync (hpath : tmpFile path ≠ path) (h : Invariant path s) :
    Invariant path (s.step path .fsync) := by
  obtain ⟨⟨disk, process⟩, ledger⟩ := s
  cases process with
  | writing keys written => exact ⟨h.1.set_tmp hpath _, h.2, disk.set_self _ _⟩
  | down | idle | removing | replacing => exact h

theorem invariant_step_remove (hpath : tmpFile path ≠ path) (h : Invariant path s) :
    Invariant path (s.step path .remove) := by
  obtain ⟨⟨disk, process⟩, ledger⟩ := s
  cases process with
  | removing keys =>
    obtain ⟨hdisk, hpending, htmp⟩ := h
    simp only [State.step, World.step, Ledger.step]
    split
    · exact invariant_down hdisk
    · exact ⟨fun hfalse => Bool.noConfusion hfalse, hpending, (disk.set_of_ne hpath _).trans htmp⟩
    · exact ⟨fun _ => hdisk, hpending, htmp⟩
  | down | idle | writing | replacing => exact h

theorem invariant_step_replace (hpath : tmpFile path ≠ path) (h : Invariant path s) :
    Invariant path (s.step path .replace) := by
  obtain ⟨⟨disk, process⟩, ledger⟩ := s
  cases process with
  | replacing keys removed =>
    obtain ⟨-, -, htmp⟩ := h
    simp only [State.step, World.step, Ledger.step, show disk (tmpFile path) = _ from htmp]
    refine ⟨OnDisk.set_tmp (Or.inl ?_) hpath _, rfl, rfl⟩
    exact disk.set_self path _
  | down | idle | writing | removing => exact h

theorem invariant_step_crash (hpath : tmpFile path ≠ path) {kept : ℕ} (h : Invariant path s)
    (hgap : NoCrashInGap s (.crash kept)) : Invariant path (s.step path (.crash kept)) := by
  obtain ⟨⟨disk, process⟩, ledger⟩ := s
  cases process with
  | down => exact h
  | idle keys => exact ⟨keys, h.1, Or.inl h.2.1⟩
  | writing keys written => exact invariant_down (h.1.set_tmp hpath _)
  | removing keys => exact invariant_down h.1
  | replacing keys removed =>
    cases removed with
    | false => exact invariant_down (h.1 rfl)
    | true => exact absurd rfl (hgap kept rfl keys)

/-- Every step outside the gap keeps the invariant. -/
theorem invariant_step (hpath : tmpFile path ≠ path) (h : Invariant path s)
    (hgap : NoCrashInGap s e) : Invariant path (s.step path e) := by
  cases e with
  | init => exact invariant_step_init h
  | put teamId keyPair => exact invariant_step_put hpath h
  | write count => exact invariant_step_write hpath h
  | fsync => exact invariant_step_fsync hpath h
  | remove => exact invariant_step_remove hpath h
  | replace => exact invariant_step_replace hpath h
  | crash kept => exact invariant_step_crash hpath h hgap

/-- Where the process is down, the invariant is what opening needs. -/
theorem Invariant.loads (h : Invariant path s) (hdown : s.world.process = .down) :
    s.Loads path := by
  rw [Invariant, hdown] at h
  obtain ⟨keys, hdisk, hkeys⟩ := h
  exact ⟨keys, hdisk.init, hkeys⟩

/-! ## What has been stored -/

/-- A call stores a key pair for this team. -/
def Puts (teamId : ℤ) : Event → Prop
  | .put other _ => str other = str teamId
  | _ => False

/-- Both mappings of the ledger have this value for the team. -/
def Remembers (teamId : ℤ) (value : List Text) (s : State) : Prop :=
  s.ledger.stored.entries.lookup (str teamId) = some value ∧
    ∀ keys, s.ledger.pending = some keys → keys.entries.lookup (str teamId) = some value

/-- Calls for other teams, crashes and openings keep a team's value. -/
theorem remembers_step {teamId : ℤ} {value : List Text} (h : Invariant path s)
    (hvalue : Remembers teamId value s) (hputs : ¬ Puts teamId e) :
    Remembers teamId value (s.step path e) := by
  obtain ⟨⟨disk, process⟩, ledger⟩ := s
  cases e with
  | init =>
    cases process with
    | down =>
      obtain ⟨keys, hdisk, hkeys⟩ := h
      simp only [State.step, World.step, Ledger.step, hdisk.init]
      refine ⟨?_, fun _ hnone => by cases hnone⟩
      rcases hkeys with rfl | hpending
      · exact hvalue.1
      · exact hvalue.2 keys hpending
    | idle | writing | removing | replacing => exact hvalue
  | put other keyPair =>
    cases process with
    | idle keys =>
      obtain rfl : keys = ledger.stored := h.2.1
      refine ⟨hvalue.1, fun keys' hkeys' => ?_⟩
      obtain rfl := Option.some.inj hkeys'
      exact (Keys.lookup_putKeys_of_ne _ keyPair (Ne.symm hputs)).trans hvalue.1
    | down | writing | removing | replacing => exact hvalue
  | replace =>
    cases process with
    | replacing keys removed =>
      obtain ⟨-, hpending, htmp⟩ := h
      simp only [State.step, World.step, Ledger.step, show disk (tmpFile path) = _ from htmp]
      exact ⟨hvalue.2 keys hpending, fun _ hnone => by cases hnone⟩
    | down | idle | writing | removing => exact hvalue
  | write | fsync | remove | crash => exact hvalue

/-! ## Runs -/

/-- No process is running, and the calls that returned have stored this mapping. -/
def start (disk : Disk) (stored : Keys) : State := ⟨⟨disk, .down⟩, ⟨stored, none⟩⟩

/-- Opening a store never loses a mapping. -/
def Survives (path : Path) (s : State) (e : Event) : Prop :=
  e = .init → s.world.process = .down → s.Loads path

/-- A key pair a store has is still there when only other teams' pairs have been stored since,
whatever crashes and openings there were. -/
def NeverLost (path : Path) (s : State) (later : List Event) : Prop :=
  ∀ keys teamId keyPair, s.world.process = .idle keys →
    keys.getKeys teamId = .ok (some keyPair) → (∀ e ∈ later, ¬ Puts teamId e) →
    ∀ keys', (exec (State.step path) s later).world.process = .idle keys' →
      keys'.getKeys teamId = .ok (some keyPair)

theorem getKeys_eq_some {keys : Keys} {teamId : ℤ} {keyPair : KeyPair} :
    keys.getKeys teamId = .ok (some keyPair) ↔
      keys.entries.lookup (str teamId) = some [keyPair.publicKey, keyPair.privateKey] := by
  obtain ⟨publicKey, privateKey⟩ := keyPair
  rw [Keys.getKeys]
  constructor
  · intro h
    split at h <;> simp_all
  · intro h
    rw [h]

theorem neverLost (hpath : tmpFile path ≠ path) {later : List Event} (h : Invariant path s)
    (hgap : Along (State.step path) NoCrashInGap s later) : NeverLost path s later := by
  intro keys teamId keyPair hidle hkeys hputs keys' hidle'
  rw [getKeys_eq_some] at hkeys ⊢
  have hstart : Remembers teamId [keyPair.publicKey, keyPair.privateKey] s := by
    rw [Invariant, hidle] at h
    refine ⟨h.2.1 ▸ hkeys, fun _ hpending => ?_⟩
    rw [h.2.2] at hpending
    cases hpending
  -- the two invariants go through the run together
  have hrun : ∀ (later : List Event) (s : State), Invariant path s →
      Remembers teamId [keyPair.publicKey, keyPair.privateKey] s → (∀ e ∈ later, ¬ Puts teamId e) →
      Along (State.step path) NoCrashInGap s later →
      Invariant path (exec (State.step path) s later) ∧
        Remembers teamId [keyPair.publicKey, keyPair.privateKey]
          (exec (State.step path) s later) := by
    intro later
    induction later with
    | nil => exact fun _ h hvalue _ _ => ⟨h, hvalue⟩
    | cons e later ih =>
      intro s h hvalue hputs hgap
      exact ih _ (invariant_step hpath h hgap.1)
        (remembers_step h hvalue (hputs e List.mem_cons_self))
        (fun e' he' => hputs e' (List.mem_cons_of_mem e he')) hgap.2
  obtain ⟨hinv, hvalue⟩ := hrun later s h hstart hputs hgap
  rw [Invariant, hidle'] at hinv
  rw [hinv.2.1]
  exact hvalue.1

/-- **A key store survives every crash outside the gap.**  If the temporary file has a name of
its own and the process never dies between the removal of the old file and the replacement, a
store opened after a crash has the mapping before or after the interrupted call, and no key
pair that a store had is lost. -/
theorem keyStore_survives (hpath : tmpFile path ≠ path) (disk : Disk) (stored : Keys)
    (hdisk : OnDisk path disk stored) (es : List Event)
    (hgap : Along (State.step path) NoCrashInGap (start disk stored) es) :
    Along (State.step path) (Survives path) (start disk stored) es ∧
      ∀ earlier later, es = earlier ++ later →
        NeverLost path (exec (State.step path) (start disk stored) earlier) later := by
  have hstart : Invariant path (start disk stored) := ⟨stored, hdisk, Or.inl rfl⟩
  have hstep : ∀ s e, Invariant path s → NoCrashInGap s e → Invariant path (s.step path e) :=
    fun _ _ => invariant_step hpath
  have hsurvives : ∀ s e, Invariant path s → NoCrashInGap s e → Survives path s e := by
    intro s e h _ _ hdown
    exact h.loads hdown
  refine ⟨Along.mono_inv hstep hsurvives hstart hgap, ?_⟩
  rintro earlier later rfl
  rw [along_append] at hgap
  exact neverLost hpath (Along.invariant hstep hstart hgap.1) hgap.2

/-- The first call, up to the moment where the old file would be removed, and a crash. -/
theorem keyStore_survives_first_call :
    tmpFile ⟨[], ['k']⟩ ≠ ⟨[], ['k']⟩ ∧
      Along (State.step ⟨[], ['k']⟩) (Survives ⟨[], ['k']⟩) (start (fun _ => none) Keys.empty)
        [.init, .put 7 ⟨['p'], ['s']⟩, .write 1, .fsync, .crash 0, .init] :=
  ⟨by decide,
    (@keyStore_survives ⟨[], ['k']⟩ (by decide) (fun _ => none) Keys.empty
      (Or.inr ⟨rfl, rfl⟩) [.init, .put 7 ⟨['p'], ['s']⟩, .write 1, .fsync, .crash 0, .init]
      (by simp [NoCrashInGap, State.step, World.step, start, KeyStore.init])).1⟩

/-- A second call dies between the removal and the replacement: the store opened then is empty,
and the first team's key pair is gone. -/
theorem lost_in_the_gap :
    ¬ ∀ (path : Path) (disk : Disk) (stored : Keys), tmpFile path ≠ path →
      OnDisk path disk stored → ∀ es,
        Along (State.step path) (Survives path) (start disk stored) es := by
  intro h
  have hrun := h ⟨[], ['k']⟩ (fun _ => none) Keys.empty (by decide) (Or.inr ⟨rfl, rfl⟩)
    [.init, .put 7 ⟨['p'], ['s']⟩, .fsync, .remove, .replace,
      .put 8 ⟨['q'], ['t']⟩, .fsync, .remove, .crash 0, .init]
  obtain ⟨-, -, -, -, -, -, -, -, -, hlast, -⟩ := hrun
  obtain ⟨keys, hinit, hkeys⟩ := hlast rfl rfl
  obtain rfl : Keys.empty = keys := Except.ok.inj hinit
  rcases hkeys with hstored | hpending
  · exact absurd (congrArg (fun keys => keys.entries.length) hstored) (by decide)
  · exact absurd (congrArg (fun keys => keys.entries.length) (Option.some.inj hpending)) (by decide)

end Gameserver.Wireguard
