import Gameserver.Wireguard.Crash

/-!
# The router and the web page agree on the keys

`InterfaceManager` of `wireguard_sync/__init__.py` makes a key pair for every team, publishes the
public key on the web page, and gives the private key to the interface.  Any number of
`fetch_and_sync` runs at a time; the process can die at any point and be started again.  A
`set_pubk` that is on its way is still carried out then, an `ack_interface` is not.

* `Router` — the process with its key store, the web page, the messages between them, and the
  interfaces of the kernel.
* `fetchAndSync`, `Router.step` — the code between two points where it waits.
* `Agreement` — what holds at every point; one `agreement_*` lemma for each kind of step.
* `keys_agree` — **keys that have been published are never lost or replaced, and an interface
  that was reported as synced has the private key that belongs to them**, but for crashes at two
  points (`lost_in_the_gap`, `unkeyed_after_crash`).
-/

namespace Gameserver.Wireguard

open Json (Text)
open Machine

/-! ## The parties -/

/-- A run of `fetch_and_sync`, by what it waits for. -/
inductive Fetch where
  /-- `get_interface` -/
  | fetching (id : ℤ)
  /-- `get_interface` has been answered -/
  | fetched (id : ℤ) (publicKey : Option Text)
  /-- `set_pubk` -/
  | publishing (id : ℤ) (keyPair : KeyPair)
  /-- nothing: it is about to `sync` -/
  | syncing (id : ℤ) (keyPair : KeyPair)
  /-- `ack_interface` -/
  | acking (id : ℤ) (keyPair : KeyPair)
  deriving DecidableEq

/-- A call that does not let the other runs go on. -/
inductive Blocking where
  | putKeys (id : ℤ) (keyPair : KeyPair)
  /-- `initialize_interface`, with the new interface in place -/
  | initializing (id : ℤ) (keyPair : KeyPair)
  deriving DecidableEq

/-- The steps of `put_keys` after the temporary file has been opened. -/
inductive PutStep where
  | write (count : ℕ)
  | fsync
  | remove
  | replace
  deriving DecidableEq

def PutStep.event : PutStep → Event
  | .write count => .write count
  | .fsync => .fsync
  | .remove => .remove
  | .replace => .replace

/-- The process and what it talks to. -/
structure Router where
  store : State
  blocking : Option Blocking
  fetches : List Fetch
  /-- The public keys of the web page's interfaces. -/
  publicKeys : ℤ → Option Text
  /-- `set_pubk` on its way, and its answers. -/
  requests : List (ℤ × Text)
  answers : List (ℤ × Text)
  /-- The private keys of the kernel's interfaces; a new interface has none. -/
  interfaces : ℤ → Option (Option Text)
  /-- The interfaces that were reported as synced. -/
  acked : List ℤ
  /-- An assertion of `fetch_and_sync` has failed, or there was no private key. -/
  failed : Bool

/-- The truth value of a public key: the empty text is false. -/
def nonEmpty (publicKey : Option Text) : Option Text := publicKey.filter (· ≠ [])

namespace Router

/-- The process dies.  What it waits for is gone, also the answer to an `ack_interface` on its way;
the page keeps the `set_pubk` requests. -/
def stop (path : Path) (r : Router) (kept : ℕ) : Router :=
  { r with
    store := r.store.step path (.crash kept)
    blocking := none
    fetches := []
    answers := [] }

/-- The `AssertionError` and the `ValueError` of `fetch_and_sync`, which nobody catches. -/
def fail (path : Path) (r : Router) : Router := { r.stop path 0 with failed := true }

/-- Goes on after a step of `put_keys`.  If it has raised, the process ends at once. -/
def putting (r : Router) (id : ℤ) (keyPair : KeyPair) : Router :=
  match r.store.world.process with
  | .idle _ => { r with blocking := none, fetches := r.fetches ++ [.publishing id keyPair] }
  | .down => { r with blocking := none, fetches := [], answers := [] }
  | _ => { r with blocking := some (.putKeys id keyPair) }

/-- The keys, when a run of `fetch_and_sync` can go on. -/
def free (r : Router) : Option Keys :=
  match r.blocking, r.store.world.process with
  | none, .idle keys => some keys
  | _, _ => none

/-- One run waits for something else. -/
def move (r : Router) (fetch next : Fetch) : Router :=
  { r with fetches := r.fetches.erase fetch ++ [next] }

/-- `fetch_and_sync` after `get_interface`. -/
def fetchAndSync (path : Path) (r : Router) (keys : Keys) (id : ℤ) (publicKey : Option Text)
    (generated : KeyPair) : Router :=
  match keys.getKeys id, nonEmpty publicKey with
  | .error _, _ => r.stop path 0
  | .ok (some keyPair), some apiPubKey =>
    if keyPair.publicKey = apiPubKey then r.move (.fetched id publicKey) (.syncing id keyPair)
    else r.fail path
  | .ok (some keyPair), none => r.move (.fetched id publicKey) (.publishing id keyPair)
  | .ok none, some _ => r.fail path
  | .ok none, none =>
    { r with
      store := r.store.step path (.put id generated)
      fetches := r.fetches.erase (.fetched id publicKey) }.putting id generated

/-- What can happen next. -/
inductive Move where
  /-- a new process opens the key store -/
  | start
  /-- a run of `fetch_and_sync` begins -/
  | spawn (id : ℤ)
  /-- the web page answers `get_interface` -/
  | serveInterface (id : ℤ)
  /-- the answer arrives; the key pair is what `generate_key_pair` would return -/
  | resume (id : ℤ) (publicKey : Option Text) (generated : KeyPair)
  | putKeys (step : PutStep)
  /-- `set_pubk` is sent, for the first time or again -/
  | sendPublicKey (id : ℤ) (keyPair : KeyPair)
  /-- the web page carries out `set_pubk` -/
  | servePublicKey (id : ℤ) (publicKey : Text)
  /-- the answer to `set_pubk` arrives -/
  | published (id : ℤ) (keyPair : KeyPair)
  /-- a run gives up after its retries -/
  | apiError (fetch : Fetch)
  /-- `sync`, and `initialize_interface` up to the private key -/
  | sync (id : ℤ) (keyPair : KeyPair)
  /-- `initialize_interface` sets the private key -/
  | setPrivateKey
  /-- the web page carries out `ack_interface` -/
  | serveAck (id : ℤ) (keyPair : KeyPair)
  | crash (kept : ℕ)

/-- One step. -/
def step (path : Path) (r : Router) : Move → Router
  | .start => if r.blocking = none then { r with store := r.store.step path .init } else r
  | .spawn id =>
    if r.free.isSome then { r with fetches := r.fetches ++ [.fetching id] } else r
  | .serveInterface id =>
    if .fetching id ∈ r.fetches then r.move (.fetching id) (.fetched id (r.publicKeys id)) else r
  | .resume id publicKey generated =>
    match r.free with
    | some keys =>
      if .fetched id publicKey ∈ r.fetches then r.fetchAndSync path keys id publicKey generated
      else r
    | none => r
  | .putKeys step =>
    match r.blocking with
    | some (.putKeys id keyPair) =>
      { r with store := r.store.step path step.event }.putting id keyPair
    | _ => r
  | .sendPublicKey id keyPair =>
    if r.free.isSome ∧ .publishing id keyPair ∈ r.fetches then
      { r with requests := r.requests ++ [(id, keyPair.publicKey)] }
    else r
  | .servePublicKey id publicKey =>
    if (id, publicKey) ∈ r.requests then
      { r with
        publicKeys := Function.update r.publicKeys id (some publicKey)
        requests := r.requests.erase (id, publicKey)
        answers := r.answers ++ [(id, publicKey)] }
    else r
  | .published id keyPair =>
    if r.free.isSome ∧ .publishing id keyPair ∈ r.fetches ∧ (id, keyPair.publicKey) ∈ r.answers then
      r.move (.publishing id keyPair) (.syncing id keyPair)
    else r
  | .apiError fetch => if r.free.isSome then { r with fetches := r.fetches.erase fetch } else r
  | .sync id keyPair =>
    if r.free.isSome ∧ .syncing id keyPair ∈ r.fetches then
      if r.interfaces id = none then
        { r with
          blocking := some (.initializing id keyPair)
          fetches := r.fetches.erase (.syncing id keyPair)
          interfaces := Function.update r.interfaces id (some none) }
      else r.move (.syncing id keyPair) (.acking id keyPair)
    else r
  | .setPrivateKey =>
    match r.blocking with
    | some (.initializing id keyPair) =>
      { r with
        blocking := none
        fetches := r.fetches ++ [.syncing id keyPair]
        interfaces := Function.update r.interfaces id (some (some keyPair.privateKey)) }
    | _ => r
  | .serveAck id keyPair =>
    if .acking id keyPair ∈ r.fetches then
      { r with fetches := r.fetches.erase (.acking id keyPair), acked := r.acked ++ [id] }
    else r
  | .crash kept => r.stop path kept

end Router

/-! ## What holds -/

/-- The store has this key pair for the team, and a call under way does not change it. -/
def Holds (s : State) (id : ℤ) (publicKey privateKey : Text) : Prop :=
  Remembers id [publicKey, privateKey] s

/-- What a run of `fetch_and_sync` knows. -/
def Router.Knows (r : Router) : Fetch → Prop
  | .fetching _ => True
  | .fetched id publicKey => ∀ a, nonEmpty publicKey = some a → r.publicKeys id = some a
  | .publishing id keyPair => Holds r.store id keyPair.publicKey keyPair.privateKey
  | .syncing id keyPair => Holds r.store id keyPair.publicKey keyPair.privateKey ∧
      r.publicKeys id = some keyPair.publicKey
  | .acking id keyPair => (Holds r.store id keyPair.publicKey keyPair.privateKey ∧
      r.publicKeys id = some keyPair.publicKey) ∧ (r.interfaces id).isSome

/-- Where the process stands in a call that blocks. -/
def Router.BlockingOk (r : Router) : Prop :=
  match r.blocking with
  | none => ∀ keys written removed, r.store.world.process ≠ .writing keys written ∧
      r.store.world.process ≠ .removing keys ∧ r.store.world.process ≠ .replacing keys removed
  | some (.putKeys id keyPair) => (∀ keys, r.store.world.process ≠ .idle keys) ∧
      ∀ keys, r.store.ledger.pending = some keys →
        keys.entries.lookup (str id) = some [keyPair.publicKey, keyPair.privateKey]
  | some (.initializing id keyPair) => (∃ keys, r.store.world.process = .idle keys) ∧
      Holds r.store id keyPair.publicKey keyPair.privateKey ∧
      r.publicKeys id = some keyPair.publicKey ∧ r.interfaces id = some none

/-- All parties agree with the key store. -/
structure Router.Agrees (r : Router) : Prop where
  published : ∀ id a, nonEmpty (r.publicKeys id) = some a → ∃ b, Holds r.store id a b
  requested : ∀ q ∈ r.requests, ∃ b, Holds r.store q.1 q.2 b
  answered : ∀ q ∈ r.answers, r.publicKeys q.1 = some q.2 ∧ ∃ b, Holds r.store q.1 q.2 b
  fetches : ∀ fetch ∈ r.fetches, r.Knows fetch
  interfaces : ∀ id b, r.interfaces id = some (some b) → ∃ a, Holds r.store id a b
  acked : ∀ id ∈ r.acked, (∃ a b, Holds r.store id a b ∧ r.publicKeys id = some a) ∧
    (r.interfaces id).isSome
  failed : r.failed = false

/-- What holds at every point. -/
structure Agreement (path : Path) (r : Router) : Prop where
  store : Invariant path r.store
  agrees : r.Agrees
  blocking : r.BlockingOk

section Steps

variable {path : Path} {r : Router} {id : ℤ} {a b a' b' : Text} {keyPair : KeyPair}

theorem nonEmpty_eq_some {publicKey : Option Text} :
    nonEmpty publicKey = some a ↔ publicKey = some a ∧ a ≠ [] := by
  simp [nonEmpty, Option.filter_eq_some_iff]

/-- A team has one key pair. -/
theorem Holds.unique {s : State} (h : Holds s id a b) (h' : Holds s id a' b') :
    a = a' ∧ b = b' := by
  have hvalue : some [a, b] = some [a', b'] := h.1.symm.trans h'.1
  simpa using hvalue

/-- What `get_keys` returns. -/
theorem Holds.getKeys {s : State} (hs : Invariant path s) {keys : Keys}
    (hidle : s.world.process = .idle keys) (h : Holds s id a b) :
    keys.getKeys id = .ok (some ⟨a, b⟩) := by
  rw [Invariant, hidle] at hs
  rw [getKeys_eq_some, hs.2.1]
  exact h.1

theorem holds_of_getKeys {s : State} (hs : Invariant path s) {keys : Keys}
    (hidle : s.world.process = .idle keys) (h : keys.getKeys id = .ok (some keyPair)) :
    Holds s id keyPair.publicKey keyPair.privateKey := by
  rw [Invariant, hidle] at hs
  rw [getKeys_eq_some] at h
  refine ⟨hs.2.1 ▸ h, fun _ hpending => ?_⟩
  rw [hs.2.2] at hpending
  cases hpending

/-- A key store step after which all that was known still holds. -/
theorem Router.Agrees.withStore {s' : State} (h : r.Agrees)
    (hs : ∀ id a b, Holds r.store id a b → Holds s' id a b) :
    Router.Agrees { r with store := s' } where
  published id a hkey := (h.published id a hkey).imp fun b => hs id a b
  requested q hq := (h.requested q hq).imp fun b => hs q.1 q.2 b
  answered q hq := ⟨(h.answered q hq).1, (h.answered q hq).2.imp fun b => hs q.1 q.2 b⟩
  fetches fetch hfetch := by
    have hknows := h.fetches fetch hfetch
    cases fetch with
    | fetching id => trivial
    | fetched id publicKey => exact hknows
    | publishing id keyPair => exact hs _ _ _ hknows
    | syncing id keyPair => exact ⟨hs _ _ _ hknows.1, hknows.2⟩
    | acking id keyPair => exact ⟨⟨hs _ _ _ hknows.1.1, hknows.1.2⟩, hknows.2⟩
  interfaces id b hb := (h.interfaces id b hb).imp fun a => hs id a b
  acked id hid := by
    obtain ⟨⟨a, b, hholds, hkey⟩, hsome⟩ := h.acked id hid
    exact ⟨⟨a, b, hs id a b hholds, hkey⟩, hsome⟩
  failed := h.failed

/-- Runs that go on know what they need. -/
theorem Router.Agrees.withFetches {blocking : Option Blocking} {fetches : List Fetch} (h : r.Agrees)
    (hfetches : ∀ fetch ∈ fetches, fetch ∈ r.fetches ∨ r.Knows fetch) :
    Router.Agrees { r with blocking := blocking, fetches := fetches } where
  published := h.published
  requested := h.requested
  answered := h.answered
  fetches fetch hfetch := (hfetches fetch hfetch).elim (h.fetches fetch) fun hknows => hknows
  interfaces := h.interfaces
  acked := h.acked
  failed := h.failed

theorem Router.Agrees.move (h : r.Agrees) {fetch next : Fetch} (hnext : r.Knows next) :
    (r.move fetch next).Agrees :=
  h.withFetches fun other hother => by
    rcases List.mem_append.1 hother with hmem | hmem
    · exact .inl (List.mem_of_mem_erase hmem)
    · obtain rfl := List.mem_singleton.1 hmem
      exact .inr hnext

theorem Router.Agrees.snoc {blocking : Option Blocking} (h : r.Agrees) {next : Fetch}
    (hnext : r.Knows next) :
    Router.Agrees { r with blocking := blocking, fetches := r.fetches ++ [next] } :=
  h.withFetches fun other hother => by
    rcases List.mem_append.1 hother with hmem | hmem
    · exact .inl hmem
    · obtain rfl := List.mem_singleton.1 hmem
      exact .inr hnext

theorem Router.Agrees.erase {blocking : Option Blocking} (h : r.Agrees) (fetch : Fetch) :
    Router.Agrees { r with blocking := blocking, fetches := r.fetches.erase fetch } :=
  h.withFetches fun _ hother => .inl (List.mem_of_mem_erase hother)

/-- A process that has died has no runs and gets no answers. -/
theorem Router.Agrees.stopped (h : r.Agrees) :
    Router.Agrees { r with blocking := none, fetches := [], answers := [] } where
  published := h.published
  requested := h.requested
  answered := by simp
  fetches := by simp
  interfaces := h.interfaces
  acked := h.acked
  failed := h.failed

/-! ### The key store -/

/-- A step of the key store, unless it stores new keys. -/
theorem Agreement.storeStep (h : Agreement path r) {e : Event} (hputs : ∀ id, ¬ Puts id e) :
    Router.Agrees { r with store := r.store.step path e } :=
  h.agrees.withStore fun id _ _ hholds => remembers_step h.store hholds (hputs id)

theorem not_puts_putStep (step : PutStep) (id : ℤ) : ¬ Puts id step.event := by
  cases step <;> exact fun hputs => hputs

/-- A step of `put_keys` is the last one, or it is not. -/
theorem putStep_cases (path : Path) (step : PutStep) (s : State) :
    (∃ keys removed, s.world.process = .replacing keys removed ∧
        (s.step path step.event).ledger = ⟨keys, none⟩) ∨
      ((s.step path step.event).ledger = s.ledger ∧
        ∀ keys, (s.step path step.event).world.process = .idle keys →
          s.world.process = .idle keys) := by
  obtain ⟨⟨disk, process⟩, ledger⟩ := s
  cases step with
  | write count =>
    refine .inr ⟨rfl, fun keys hidle => ?_⟩
    cases process <;> simp_all [PutStep.event, State.step, World.step]
  | fsync =>
    refine .inr ⟨rfl, fun keys hidle => ?_⟩
    cases process <;> simp_all [PutStep.event, State.step, World.step]
  | remove =>
    refine .inr ⟨rfl, fun keys hidle => ?_⟩
    cases process with
    | removing keys' =>
      simp only [PutStep.event, State.step, World.step] at hidle
      split at hidle <;> simp at hidle
    | _ => exact hidle
  | replace =>
    cases process with
    | replacing keys removed =>
      cases htmp : disk (tmpFile path) with
      | none => exact .inr (by simp [PutStep.event, State.step, World.step, Ledger.step, htmp])
      | some node =>
        exact .inl ⟨keys, removed, rfl, by simp [PutStep.event, State.step, Ledger.step, htmp]⟩
    | _ => exact .inr ⟨rfl, fun keys hidle => hidle⟩

/-- After a step of `put_keys` that may have raised. -/
theorem agreement_putting (hs : Invariant path r.store) (h : r.Agrees)
    (hidle : ∀ keys, r.store.world.process = .idle keys →
      Holds r.store id keyPair.publicKey keyPair.privateKey)
    (hpending : ∀ keys, r.store.ledger.pending = some keys →
      keys.entries.lookup (str id) = some [keyPair.publicKey, keyPair.privateKey]) :
    Agreement path (r.putting id keyPair) := by
  rw [Router.putting]
  split
  · next keys hprocess =>
    exact ⟨hs, h.snoc (hidle keys hprocess), by simp [Router.BlockingOk, hprocess]⟩
  · next hprocess => exact ⟨hs, h.stopped, by simp [Router.BlockingOk, hprocess]⟩
  · next hnotidle hnotdown => exact ⟨hs, { h with }, hnotidle, hpending⟩

/-! ### The steps of the router -/

/-- The process does not die between `os.remove` and `os.replace`. -/
def Router.NoCrashInGap (r : Router) (move : Router.Move) : Prop :=
  ∀ kept, move = .crash kept → ∀ keys, r.store.world.process ≠ .replacing keys true

theorem agreement_stop (hpath : tmpFile path ≠ path) (h : Agreement path r) (kept : ℕ)
    (hgap : ∀ keys, r.store.world.process ≠ .replacing keys true) :
    Agreement path (r.stop path kept) where
  store := invariant_step_crash hpath h.store fun _ _ => hgap
  agrees := (h.storeStep (e := .crash kept) fun _ hputs => hputs).stopped
  blocking := by
    have hdown : (r.store.step path (.crash kept)).world.process = .down := by
      rw [State.step, World.step]
      split <;> rfl
    simp [Router.BlockingOk, Router.stop, hdown]

theorem agreement_start (h : Agreement path r) : Agreement path (r.step path .start) := by
  rw [Router.step]
  split
  · next hblocking =>
    refine ⟨invariant_step_init h.store, h.storeStep fun _ hputs => hputs, ?_⟩
    have hnone := h.blocking
    simp only [Router.BlockingOk, hblocking] at hnone ⊢
    simp only [State.step, World.step]
    split
    · simp
    · exact hnone
  · exact h

theorem agreement_putKeys (hpath : tmpFile path ≠ path) (h : Agreement path r) (step : PutStep) :
    Agreement path (r.step path (.putKeys step)) := by
  rw [Router.step]
  split
  · next id keyPair hblocking =>
    have hput := h.blocking
    simp only [Router.BlockingOk, hblocking] at hput
    obtain ⟨hnotidle, hpending⟩ := hput
    have hstore : Invariant path (r.store.step path step.event) :=
      invariant_step hpath h.store fun kept hcrash => by cases step <;> cases hcrash
    have hagrees := h.storeStep (not_puts_putStep step)
    rcases putStep_cases path step r.store with ⟨keys, removed, hreplacing, hledger⟩ |
      ⟨hledger, hidle⟩
    · -- the last step: what was pending is stored
      have hinv := h.store
      rw [Invariant, hreplacing] at hinv
      have hvalue := hpending keys hinv.2.1
      refine agreement_putting hstore hagrees (fun _ _ => ?_) fun keys' hkeys' => ?_
      · refine ⟨by rw [hledger]; exact hvalue, fun keys' hkeys' => ?_⟩
        rw [hledger] at hkeys'
        cases hkeys'
      · rw [hledger] at hkeys'
        cases hkeys'
    · refine agreement_putting hstore hagrees (fun keys hprocess => ?_) fun keys hkeys => ?_
      · exact absurd (hidle keys hprocess) (hnotidle keys)
      · rw [hledger] at hkeys
        exact hpending keys hkeys
  · exact h

theorem free_eq_some {keys : Keys} :
    r.free = some keys ↔ r.blocking = none ∧ r.store.world.process = .idle keys := by
  rw [Router.free]
  split
  · next hblocking hidle => simp [hblocking, hidle]
  · next hnot =>
    refine iff_of_false (by simp) fun hfree => ?_
    exact hnot keys hfree.1 hfree.2

/-- Going on in a process that does not block. -/
theorem Agreement.withAgrees {r' : Router} (h : Agreement path r) (hagrees : r'.Agrees)
    (hstore : r'.store = r.store) (hnone : r.blocking = none) (hblocking : r'.blocking = none) :
    Agreement path r' where
  store := hstore ▸ h.store
  agrees := hagrees
  blocking := by
    have hidle := h.blocking
    simp only [Router.BlockingOk, hnone] at hidle
    simpa only [Router.BlockingOk, hblocking, hstore] using hidle

/-- **The checks of `fetch_and_sync` never fail.** -/
theorem agreement_fetchAndSync (hpath : tmpFile path ≠ path) (h : Agreement path r) {keys : Keys}
    (hfree : r.free = some keys) {publicKey : Option Text}
    (hfetched : .fetched id publicKey ∈ r.fetches) (generated : KeyPair) :
    Agreement path (r.fetchAndSync path keys id publicKey generated) := by
  obtain ⟨hnone, hidle⟩ := free_eq_some.1 hfree
  have hgap : ∀ keys, r.store.world.process ≠ .replacing keys true := by simp [hidle]
  have hknown := h.agrees.fetches _ hfetched
  rw [Router.fetchAndSync]
  split
  · exact agreement_stop hpath h 0 hgap
  · next keyPair a hkeys ha =>
    -- the web page's key is the store's
    have hkey := hknown a ha
    obtain ⟨b, hholds⟩ := h.agrees.published id a
      (nonEmpty_eq_some.2 ⟨hkey, (nonEmpty_eq_some.1 ha).2⟩)
    have hown := holds_of_getKeys h.store hidle hkeys
    obtain rfl := (hown.unique hholds).1
    rw [if_pos rfl]
    exact h.withAgrees (h.agrees.move ⟨hown, hkey⟩) rfl hnone hnone
  · next keyPair hkeys hnothing =>
    exact h.withAgrees (h.agrees.move (holds_of_getKeys h.store hidle hkeys)) rfl hnone hnone
  · next a hkeys ha =>
    obtain ⟨b, hholds⟩ := h.agrees.published id a
      (nonEmpty_eq_some.2 ⟨hknown a ha, (nonEmpty_eq_some.1 ha).2⟩)
    rw [hholds.getKeys h.store hidle] at hkeys
    cases hkeys
  · next hkeys hnothing =>
    have hputs : ∀ id' a b, Holds r.store id' a b → ¬ Puts id' (.put id generated) := by
      intro id' a b hholds hsame
      have hlookup := hholds.getKeys h.store hidle
      rw [Keys.getKeys, ← show str id = str id' from hsame] at hlookup
      rw [Keys.getKeys, hlookup] at hkeys
      cases hkeys
    refine agreement_putting (invariant_step_put hpath h.store) ?_ ?_ ?_
    · exact (h.agrees.withStore fun id' a b hholds =>
        remembers_step h.store hholds (hputs id' a b hholds)).erase _
    · intro keys' hprocess
      simp only [State.step, World.step, hidle] at hprocess
      split at hprocess <;> simp at hprocess
    · intro keys' hpending
      simp only [State.step, Ledger.step, hidle, Option.some_inj] at hpending
      rw [← hpending, Keys.putKeys, Keys.set, lookup_assign, if_pos rfl]

theorem agreement_resume (hpath : tmpFile path ≠ path) (h : Agreement path r)
    (publicKey : Option Text) (generated : KeyPair) :
    Agreement path (r.step path (.resume id publicKey generated)) := by
  rw [Router.step]
  split
  · next keys hfree =>
    split
    · next hfetched => exact agreement_fetchAndSync hpath h hfree hfetched generated
    · exact h
  · exact h

/-- A public key that the store has is only replaced by itself. -/
theorem Router.Agrees.serve (h : r.Agrees) {publicKey : Text}
    (hrequest : (id, publicKey) ∈ r.requests) {other : ℤ} (hkey : r.publicKeys other = some a)
    (hholds : Holds r.store other a b) :
    Function.update r.publicKeys id (some publicKey) other = some a := by
  by_cases hid : other = id
  · subst hid
    obtain ⟨b', hown⟩ := h.requested _ hrequest
    have hsame : publicKey = a := (hown.unique hholds).1
    rw [Function.update_self, hsame]
  · rw [Function.update_of_ne hid, hkey]

theorem Router.Agrees.servePublicKey (h : r.Agrees) {publicKey : Text}
    (hrequest : (id, publicKey) ∈ r.requests) :
    Router.Agrees { r with
      publicKeys := Function.update r.publicKeys id (some publicKey)
      requests := r.requests.erase (id, publicKey)
      answers := r.answers ++ [(id, publicKey)] } where
  published other a hkey := by
    dsimp only at hkey
    by_cases hid : other = id
    · subst hid
      simp only [Function.update_self, nonEmpty_eq_some, Option.some_inj] at hkey
      obtain ⟨rfl, -⟩ := hkey
      exact h.requested _ hrequest
    · rw [Function.update_of_ne hid] at hkey
      exact h.published other a hkey
  requested q hq := h.requested q (List.mem_of_mem_erase hq)
  answered q hq := by
    rcases List.mem_append.1 hq with hold | hnew
    · obtain ⟨hkey, b, hholds⟩ := h.answered q hold
      exact ⟨h.serve hrequest hkey hholds, b, hholds⟩
    · obtain rfl := List.mem_singleton.1 hnew
      exact ⟨Function.update_self .., h.requested _ hrequest⟩
  fetches fetch hfetch := by
    have hknows := h.fetches fetch hfetch
    cases fetch with
    | fetching other => trivial
    | fetched other publicKey' =>
      intro a ha
      have hkey := hknows a ha
      obtain ⟨b, hholds⟩ := h.published other a
        (nonEmpty_eq_some.2 ⟨hkey, (nonEmpty_eq_some.1 ha).2⟩)
      exact h.serve hrequest hkey hholds
    | publishing other keyPair => exact hknows
    | syncing other keyPair => exact ⟨hknows.1, h.serve hrequest hknows.2 hknows.1⟩
    | acking other keyPair =>
      exact ⟨⟨hknows.1.1, h.serve hrequest hknows.1.2 hknows.1.1⟩, hknows.2⟩
  interfaces := h.interfaces
  acked other hother := by
    obtain ⟨⟨a, b, hholds, hkey⟩, hsome⟩ := h.acked other hother
    exact ⟨⟨a, b, hholds, h.serve hrequest hkey hholds⟩, hsome⟩
  failed := h.failed

theorem agreement_servePublicKey (h : Agreement path r) (publicKey : Text) :
    Agreement path (r.step path (.servePublicKey id publicKey)) := by
  rw [Router.step]
  split
  · next hrequest =>
    refine ⟨h.store, h.agrees.servePublicKey hrequest, ?_⟩
    have hold := h.blocking
    cases hblocking : r.blocking with
    | none => simpa only [Router.BlockingOk, hblocking] using hold
    | some call =>
      cases call with
      | putKeys other keyPair => simpa only [Router.BlockingOk, hblocking] using hold
      | initializing other keyPair =>
        simp only [Router.BlockingOk, hblocking] at hold ⊢
        exact ⟨hold.1, hold.2.1, h.agrees.serve hrequest hold.2.2.1 hold.2.1, hold.2.2.2⟩
  · exact h

/-- New interfaces and new private keys. -/
theorem Router.Agrees.withInterface {blocking : Option Blocking} {privateKey : Option Text}
    (h : r.Agrees) (hkey : ∀ b, privateKey = some b → ∃ a, Holds r.store id a b) :
    Router.Agrees { r with
      blocking := blocking
      interfaces := Function.update r.interfaces id (some privateKey) } where
  published := h.published
  requested := h.requested
  answered := h.answered
  fetches fetch hfetch := by
    have hknows := h.fetches fetch hfetch
    cases fetch with
    | acking other keyPair =>
      refine ⟨hknows.1, ?_⟩
      by_cases hid : other = id
      · simp [hid]
      · simpa [hid] using hknows.2
    | _ => exact hknows
  interfaces other b hb := by
    dsimp only at hb
    by_cases hid : other = id
    · subst hid
      rw [Function.update_self, Option.some_inj] at hb
      exact hkey b hb
    · rw [Function.update_of_ne hid] at hb
      exact h.interfaces other b hb
  acked other hother := by
    obtain ⟨hkeys, hsome⟩ := h.acked other hother
    refine ⟨hkeys, ?_⟩
    by_cases hid : other = id
    · simp [hid]
    · simpa [hid] using hsome
  failed := h.failed

theorem agreement_sync (h : Agreement path r) :
    Agreement path (r.step path (.sync id keyPair)) := by
  rw [Router.step]
  split
  · next hsync =>
    obtain ⟨keys, hfree⟩ := Option.isSome_iff_exists.1 hsync.1
    obtain ⟨hnone, hidle⟩ := free_eq_some.1 hfree
    have hknows := h.agrees.fetches _ hsync.2
    split
    · next hnew =>
      refine ⟨h.store, ?_, ⟨keys, hidle⟩, hknows.1, hknows.2, Function.update_self ..⟩
      have herased : Router.Agrees { r with fetches := r.fetches.erase (.syncing id keyPair) } :=
        h.agrees.erase _
      exact herased.withInterface (by simp)
    · next hold =>
      refine h.withAgrees (h.agrees.move ⟨hknows, ?_⟩) rfl hnone hnone
      exact Option.isSome_iff_ne_none.2 hold
  · exact h

theorem agreement_setPrivateKey (h : Agreement path r) :
    Agreement path (r.step path .setPrivateKey) := by
  rw [Router.step]
  split
  · next id keyPair hblocking =>
    have hold := h.blocking
    simp only [Router.BlockingOk, hblocking] at hold
    obtain ⟨⟨keys, hidle⟩, hholds, hkey, -⟩ := hold
    have hknows : r.Knows (.syncing id keyPair) := ⟨hholds, hkey⟩
    have hgoes : Router.Agrees { r with fetches := r.fetches ++ [.syncing id keyPair] } :=
      h.agrees.snoc hknows
    refine ⟨h.store, hgoes.withInterface fun b hb => ⟨keyPair.publicKey, ?_⟩,
      by simp [Router.BlockingOk, hidle]⟩
    obtain rfl := Option.some_inj.1 hb
    exact hholds
  · exact h

/-- **Every step keeps the agreement**, but for a crash in the gap of `put_keys`. -/
theorem agreement_step (hpath : tmpFile path ≠ path) (h : Agreement path r) (move : Router.Move)
    (hgap : r.NoCrashInGap move) : Agreement path (r.step path move) := by
  cases move with
  | start => exact agreement_start h
  | spawn id =>
    rw [Router.step]
    split
    · next hfree =>
      obtain ⟨keys, hfree⟩ := Option.isSome_iff_exists.1 hfree
      have hnone := (free_eq_some.1 hfree).1
      exact h.withAgrees (h.agrees.snoc trivial) rfl hnone hnone
    · exact h
  | serveInterface id =>
    rw [Router.step]
    split
    · have hknows : r.Knows (.fetched id (r.publicKeys id)) := fun a ha => (nonEmpty_eq_some.1 ha).1
      exact ⟨h.store, h.agrees.move hknows, h.blocking⟩
    · exact h
  | resume id publicKey generated => exact agreement_resume hpath h publicKey generated
  | putKeys step => exact agreement_putKeys hpath h step
  | sendPublicKey id keyPair =>
    rw [Router.step]
    split
    · next hsend =>
      have hknows := h.agrees.fetches _ hsend.2
      refine ⟨h.store, { h.agrees with requested := fun q hq => ?_ }, h.blocking⟩
      rcases List.mem_append.1 hq with hold | hnew
      · exact h.agrees.requested q hold
      · obtain rfl := List.mem_singleton.1 hnew
        exact ⟨keyPair.privateKey, hknows⟩
    · exact h
  | servePublicKey id publicKey => exact agreement_servePublicKey h publicKey
  | published id keyPair =>
    rw [Router.step]
    split
    · next hpublished =>
      obtain ⟨keys, hfree⟩ := Option.isSome_iff_exists.1 hpublished.1
      have hnone := (free_eq_some.1 hfree).1
      have hkey := (h.agrees.answered _ hpublished.2.2).1
      have hholds := h.agrees.fetches _ hpublished.2.1
      exact h.withAgrees (h.agrees.move ⟨hholds, hkey⟩) rfl hnone hnone
    · exact h
  | apiError fetch =>
    rw [Router.step]
    split
    · next hfree =>
      obtain ⟨keys, hfree⟩ := Option.isSome_iff_exists.1 hfree
      have hnone := (free_eq_some.1 hfree).1
      exact h.withAgrees (h.agrees.erase fetch) rfl hnone hnone
    · exact h
  | sync id keyPair => exact agreement_sync h
  | setPrivateKey => exact agreement_setPrivateKey h
  | serveAck id keyPair =>
    rw [Router.step]
    split
    · next hack =>
      obtain ⟨⟨hholds, hkey⟩, hsome⟩ := h.agrees.fetches _ hack
      have herased : Router.Agrees { r with fetches := r.fetches.erase (.acking id keyPair) } :=
        h.agrees.erase _
      refine ⟨h.store, { herased with acked := fun other hother => ?_ }, h.blocking⟩
      rcases List.mem_append.1 hother with hold | hnew
      · exact h.agrees.acked other hold
      · obtain rfl := List.mem_singleton.1 hnew
        exact ⟨⟨_, _, hholds, hkey⟩, hsome⟩
    · exact h
  | crash kept => exact agreement_stop hpath h kept (hgap kept rfl)

/-! ### Private keys of the interfaces -/

/-- The process does not die in `initialize_interface`. -/
def Router.NoCrashWhileInitializing (r : Router) (move : Router.Move) : Prop :=
  ∀ kept, move = .crash kept → ∀ id keyPair, r.blocking ≠ some (.initializing id keyPair)

/-- Only `initialize_interface` sees an interface without a private key, and before it is
reported. -/
def Router.Keyed (r : Router) : Prop :=
  ∀ id, r.interfaces id = some none →
    (∃ keyPair, r.blocking = some (.initializing id keyPair)) ∧ id ∉ r.acked ∧
      ∀ keyPair, .acking id keyPair ∉ r.fetches

theorem Router.Keyed.of_not_initializing {r' : Router} (h : r.Keyed)
    (hnot : ∀ id keyPair, r.blocking ≠ some (.initializing id keyPair))
    (hsame : r'.interfaces = r.interfaces) : r'.Keyed := by
  intro id hnone
  rw [hsame] at hnone
  obtain ⟨⟨keyPair, hblocking⟩, -⟩ := h id hnone
  exact absurd hblocking (hnot id keyPair)

theorem Router.not_initializing_of_free (hfree : r.free.isSome) (id : ℤ) (keyPair : KeyPair) :
    r.blocking ≠ some (.initializing id keyPair) := by
  obtain ⟨keys, hfree⟩ := Option.isSome_iff_exists.1 hfree
  rw [(free_eq_some.1 hfree).1]
  simp

@[simp] theorem Router.putting_interfaces (r : Router) (id : ℤ) (keyPair : KeyPair) :
    (r.putting id keyPair).interfaces = r.interfaces := by
  rw [Router.putting]
  split <;> rfl

@[simp] theorem Router.fetchAndSync_interfaces (path : Path) (r : Router) (keys : Keys) (id : ℤ)
    (publicKey : Option Text) (generated : KeyPair) :
    (r.fetchAndSync path keys id publicKey generated).interfaces = r.interfaces := by
  rw [Router.fetchAndSync]
  split
  · rfl
  · split <;> rfl
  · rfl
  · rfl
  · simp

@[simp] theorem Router.putting_publicKeys (r : Router) (id : ℤ) (keyPair : KeyPair) :
    (r.putting id keyPair).publicKeys = r.publicKeys := by
  rw [Router.putting]
  split <;> rfl

@[simp] theorem Router.fetchAndSync_publicKeys (path : Path) (r : Router) (keys : Keys) (id : ℤ)
    (publicKey : Option Text) (generated : KeyPair) :
    (r.fetchAndSync path keys id publicKey generated).publicKeys = r.publicKeys := by
  rw [Router.fetchAndSync]
  split
  · rfl
  · split <;> rfl
  · rfl
  · rfl
  · simp

theorem keyed_sync (hagree : Agreement path r) (h : r.Keyed) :
    (r.step path (.sync id keyPair)).Keyed := by
  rw [Router.step]
  split
  · next hsync =>
    have hnot := Router.not_initializing_of_free hsync.1
    split
    · next hnew =>
      intro other hnone
      dsimp only at hnone
      by_cases hid : other = id
      · subst hid
        refine ⟨⟨keyPair, rfl⟩, fun hacked => ?_, fun keyPair' hacking => ?_⟩
        · have hsome := (hagree.agrees.acked other hacked).2
          simp [hnew] at hsome
        · have hsome := (hagree.agrees.fetches _ (List.mem_of_mem_erase hacking)).2
          simp [hnew] at hsome
      · rw [Function.update_of_ne hid] at hnone
        obtain ⟨⟨keyPair', hblocking⟩, -⟩ := h other hnone
        exact absurd hblocking (hnot other keyPair')
    · exact h.of_not_initializing hnot rfl
  · exact h

theorem keyed_step (hagree : Agreement path r) (h : r.Keyed) (move : Router.Move)
    (hcrash : r.NoCrashWhileInitializing move) : (r.step path move).Keyed := by
  cases move with
  | start | sendPublicKey | servePublicKey =>
    rw [Router.step]
    split <;> exact h
  | spawn | apiError =>
    rw [Router.step]
    split
    · next hfree => exact h.of_not_initializing (Router.not_initializing_of_free hfree) rfl
    · exact h
  | serveInterface id =>
    rw [Router.step]
    split
    · intro other hnone
      obtain ⟨hblocking, hacked, hacking⟩ := h other hnone
      refine ⟨hblocking, hacked, fun keyPair hmem => ?_⟩
      rcases List.mem_append.1 hmem with hold | hnew
      · exact hacking keyPair (List.mem_of_mem_erase hold)
      · simp at hnew
    · exact h
  | resume id publicKey generated =>
    rw [Router.step]
    split
    · next keys hfree =>
      split
      · exact h.of_not_initializing
          (Router.not_initializing_of_free (Option.isSome_of_eq_some hfree)) (by simp)
      · exact h
    · exact h
  | putKeys step =>
    rw [Router.step]
    split
    · next hblocking => exact h.of_not_initializing (by simp [hblocking]) (by simp)
    · exact h
  | published id keyPair =>
    rw [Router.step]
    split
    · next hpub => exact h.of_not_initializing (Router.not_initializing_of_free hpub.1) rfl
    · exact h
  | sync id keyPair => exact keyed_sync hagree h
  | setPrivateKey =>
    rw [Router.step]
    split
    · next id keyPair hblocking =>
      intro other hnone
      dsimp only at hnone
      by_cases hid : other = id
      · simp [hid] at hnone
      · rw [Function.update_of_ne hid] at hnone
        obtain ⟨⟨keyPair', hother⟩, -⟩ := h other hnone
        rw [hblocking] at hother
        simp only [Option.some_inj, Blocking.initializing.injEq] at hother
        exact absurd hother.1.symm hid
    · exact h
  | serveAck id keyPair =>
    rw [Router.step]
    split
    · next hack =>
      intro other hnone
      obtain ⟨hblocking, hacked, hacking⟩ := h other hnone
      refine ⟨hblocking, fun hmem => ?_, fun keyPair' hmem =>
        hacking keyPair' (List.mem_of_mem_erase hmem)⟩
      rcases List.mem_append.1 hmem with hold | hnew
      · exact hacked hold
      · obtain rfl := List.mem_singleton.1 hnew
        exact hacking keyPair hack
    · exact h
  | crash kept => exact h.of_not_initializing (hcrash kept rfl) rfl

/-! ### Runs -/

/-- The process is not running, and nothing is on its way. -/
def Router.start (disk : Disk) (stored : Keys) (publicKeys : ℤ → Option Text)
    (interfaces : ℤ → Option (Option Text)) : Router where
  store := Wireguard.start disk stored
  blocking := none
  fetches := []
  publicKeys := publicKeys
  requests := []
  answers := []
  interfaces := interfaces
  acked := []
  failed := false

/-- What the web page and the kernel have from earlier comes from the store. -/
structure FromStore (stored : Keys) (publicKeys : ℤ → Option Text)
    (interfaces : ℤ → Option (Option Text)) : Prop where
  published : ∀ id a, nonEmpty (publicKeys id) = some a →
    ∃ b, stored.entries.lookup (str id) = some [a, b]
  interfaces : ∀ id b, interfaces id = some (some b) →
    ∃ a, stored.entries.lookup (str id) = some [a, b]

theorem agreement_init {disk : Disk} {stored : Keys} {publicKeys : ℤ → Option Text}
    {interfaces : ℤ → Option (Option Text)} (hdisk : OnDisk path disk stored)
    (hfrom : FromStore stored publicKeys interfaces) :
    Agreement path (.start disk stored publicKeys interfaces) where
  store := ⟨stored, hdisk, .inl rfl⟩
  agrees :=
    { published := fun id a hkey => (hfrom.published id a hkey).imp fun b hb =>
        ⟨hb, fun _ hpending => by cases hpending⟩
      requested := by simp [Router.start]
      answered := by simp [Router.start]
      fetches := by simp [Router.start]
      interfaces := fun id b hb => (hfrom.interfaces id b hb).imp fun a ha =>
        ⟨ha, fun _ hpending => by cases hpending⟩
      acked := by simp [Router.start]
      failed := rfl }
  blocking := by simp [Router.BlockingOk, Router.start, Wireguard.start]

/-- A published key is not replaced. -/
def Router.KeepsPublished (path : Path) (r : Router) (move : Router.Move) : Prop :=
  ∀ id a, nonEmpty (r.publicKeys id) = some a → (r.step path move).publicKeys id = some a

theorem keepsPublished (h : Agreement path r) (move : Router.Move) :
    r.KeepsPublished path move := by
  intro id a hkey
  have hsame := (nonEmpty_eq_some.1 hkey).1
  cases move with
  | servePublicKey other publicKey =>
    rw [Router.step]
    split
    · next hrequest =>
      obtain ⟨b, hholds⟩ := h.agrees.published id a hkey
      exact h.agrees.serve hrequest hsame hholds
    · exact hsame
  | resume other publicKey generated =>
    rw [Router.step]
    split
    · split <;> simpa using hsame
    · exact hsame
  | putKeys step =>
    rw [Router.step]
    split <;> simpa using hsame
  | sync other keyPair =>
    rw [Router.step]
    split
    · split <;> exact hsame
    · exact hsame
  | crash kept => exact hsame
  | _ =>
    rw [Router.step]
    split <;> exact hsame

variable {disk : Disk} {stored : Keys} {publicKeys : ℤ → Option Text}
  {interfaces : ℤ → Option (Option Text)} {moves : List Router.Move}

/-- **The router and the web page agree on the keys**, whatever runs at the same time and however
often the process dies, if it does not die between the removal of the key store's file and its
replacement.  The checks of `fetch_and_sync` never fail; a public key that is on the web page
stays there, and the store has the private key; and unless the process dies while it initialises
an interface, an interface that was reported as synced has the private key of its public key. -/
theorem keys_agree (hpath : tmpFile path ≠ path) (hdisk : OnDisk path disk stored)
    (hfrom : FromStore stored publicKeys interfaces)
    (hgap : Along (Router.step path) Router.NoCrashInGap
      (.start disk stored publicKeys interfaces) moves) :
    let r := exec (Router.step path) (.start disk stored publicKeys interfaces) moves
    r.failed = false ∧
      Along (Router.step path) (Router.KeepsPublished path)
        (.start disk stored publicKeys interfaces) moves ∧
      (∀ id a, nonEmpty (r.publicKeys id) = some a → ∃ b, Holds r.store id a b) ∧
      (∀ id ∈ r.acked, ∃ a b, Holds r.store id a b ∧ r.publicKeys id = some a) ∧
      ((∀ id, interfaces id ≠ some none) → Along (Router.step path) Router.NoCrashWhileInitializing
          (.start disk stored publicKeys interfaces) moves →
        ∀ id ∈ r.acked, ∃ a b, Holds r.store id a b ∧ r.publicKeys id = some a ∧
          r.interfaces id = some (some b)) := by
  intro r
  have hstep := fun (r : Router) move (h : Agreement path r) => agreement_step hpath h move
  have hstart := agreement_init hdisk hfrom
  have hrun : Agreement path r := Along.invariant hstep hstart hgap
  refine ⟨hrun.agrees.failed, ?_, hrun.agrees.published,
    fun id hid => (hrun.agrees.acked id hid).1, ?_⟩
  · exact Along.mono_inv hstep (fun r move h _ => keepsPublished h move) hstart hgap
  · intro hinterfaces hcrash id hid
    have hkeyed : Agreement path r ∧ r.Keyed := Along.invariant
      (fun r move (h : Agreement path r ∧ r.Keyed) hmove =>
        ⟨hstep r move h.1 hmove.1, keyed_step h.1 h.2 move hmove.2⟩)
      ⟨hstart, fun id hid => absurd hid (hinterfaces id)⟩ (along_and.2 ⟨hgap, hcrash⟩)
    obtain ⟨⟨a, b, hholds, hkey⟩, hsome⟩ := hrun.agrees.acked id hid
    obtain ⟨privateKey, hprivate⟩ := Option.isSome_iff_exists.1 hsome
    cases privateKey with
    | none => exact absurd hid (hkeyed.2 id hprivate).2.1
    | some b' =>
      obtain ⟨a', hholds'⟩ := hrun.agrees.interfaces id b' hprivate
      obtain ⟨rfl, rfl⟩ := hholds.unique hholds'
      exact ⟨a, b, hholds, hkey, hprivate⟩

end Steps

/-- The process dies when the public key is on its way, and is started again. -/
def demoMoves : List Router.Move :=
  [.start, .spawn 7, .serveInterface 7, .resume 7 none ⟨['p'], ['s']⟩, .putKeys .fsync,
    .putKeys .remove, .putKeys .replace, .sendPublicKey 7 ⟨['p'], ['s']⟩, .crash 0,
    .servePublicKey 7 ['p'], .start, .spawn 7, .serveInterface 7,
    .resume 7 (some ['p']) ⟨['q'], ['t']⟩, .sync 7 ⟨['p'], ['s']⟩, .setPrivateKey,
    .sync 7 ⟨['p'], ['s']⟩, .serveAck 7 ⟨['p'], ['s']⟩]

/-- The second process finds the key pair of the first one. -/
theorem keys_agree_demoMoves :
    let r := exec (Router.step ⟨[], ['k']⟩)
      (.start (fun _ => none) Keys.empty (fun _ => none) (fun _ => none)) demoMoves
    r.acked = [7] ∧ ∃ a b, Holds r.store 7 a b ∧ r.publicKeys 7 = some a ∧
      r.interfaces 7 = some (some b) := by
  have hacked : (exec (Router.step ⟨[], ['k']⟩) (.start (fun _ => none) Keys.empty
      (fun _ => none) (fun _ => none)) demoMoves).acked = [7] := by
    decide
  have hgap : Along (Router.step ⟨[], ['k']⟩) Router.NoCrashInGap
      (.start (fun _ => none) Keys.empty (fun _ => none) (fun _ => none)) demoMoves := by
    simp only [demoMoves, along_cons, along_nil, and_true]
    and_intros <;> rintro kept ⟨⟩
    rintro keys ⟨⟩
  have hcrash : Along (Router.step ⟨[], ['k']⟩) Router.NoCrashWhileInitializing
      (.start (fun _ => none) Keys.empty (fun _ => none) (fun _ => none)) demoMoves := by
    simp only [demoMoves, along_cons, along_nil, and_true]
    and_intros <;> rintro kept ⟨⟩
    rintro id keyPair ⟨⟩
  have hagree := keys_agree (by decide) (.inr ⟨rfl, rfl⟩) ⟨by simp [nonEmpty], by simp⟩ hgap
  exact ⟨hacked, hagree.2.2.2.2 (by simp) hcrash 7 (hacked ▸ List.mem_singleton_self 7)⟩

/-- A process that dies in `initialize_interface` leaves an interface without a private key.  The
next one finds the interface there and reports it as synced. -/
theorem unkeyed_after_crash :
    let r := exec (Router.step ⟨[], ['k']⟩)
      (.start (fun _ => none) Keys.empty (fun _ => none) (fun _ => none))
      [.start, .spawn 7, .serveInterface 7, .resume 7 none ⟨['p'], ['s']⟩, .putKeys .fsync,
        .putKeys .remove, .putKeys .replace, .sendPublicKey 7 ⟨['p'], ['s']⟩,
        .servePublicKey 7 ['p'], .published 7 ⟨['p'], ['s']⟩, .sync 7 ⟨['p'], ['s']⟩, .crash 0,
        .start, .spawn 7, .serveInterface 7, .resume 7 (some ['p']) ⟨['q'], ['t']⟩,
        .sync 7 ⟨['p'], ['s']⟩, .serveAck 7 ⟨['p'], ['s']⟩]
    r.failed = false ∧ r.acked = [7] ∧ r.interfaces 7 = some none := by
  decide

end Gameserver.Wireguard
