import Gameserver.Lib.Json
import Gameserver.Lib.Machine

/-!
# The WireGuard key store

`KeyStore` keeps the key pairs of the teams in memory and in one JSON file.  `put_keys` writes
a temporary file, removes the old file and moves the temporary one into its place; each of
these steps changes the disk, and the process can crash between any two of them.

* `Keys` — the mapping, a dictionary whose keys are distinct by construction.
* `Disk`, `Path.withSuffix` — the files a store can see, and the temporary file's name.
* `KeyStore.init`, `step` — opening a store, and the steps of `put_keys`.
* `Ledger` — what a store is for: the mapping stored last, and that of a call under way.
-/

namespace Gameserver.Wireguard

open Json (Text)

/-! ## Keys -/

/-- `KeyPair` -/
structure KeyPair where
  publicKey : Text
  privateKey : Text
deriving DecidableEq, Repr

/-- `d[key] = value`: a key keeps its place, a new key comes last. -/
def assign {α : Type} : List (Text × α) → Text → α → List (Text × α)
  | [], key, value => [(key, value)]
  | e :: es, key, value =>
    if e.1 = key then (key, value) :: es else e :: assign es key value

theorem mem_map_assign {α : Type} {es : List (Text × α)} {key k : Text} {value : α} :
    k ∈ (assign es key value).map Prod.fst ↔ k = key ∨ k ∈ es.map Prod.fst := by
  induction es with
  | nil => simp [assign]
  | cons e es ih =>
    rw [assign]
    split_ifs with he
    · subst he
      simp
    · rw [List.map_cons, List.mem_cons, ih, List.map_cons, List.mem_cons]
      tauto

theorem nodup_assign {α : Type} {es : List (Text × α)} (h : (es.map Prod.fst).Nodup) (key : Text)
    (value : α) : ((assign es key value).map Prod.fst).Nodup := by
  induction es with
  | nil => exact List.nodup_singleton key
  | cons e es ih =>
    rw [List.map_cons, List.nodup_cons] at h
    rw [assign]
    split_ifs with he
    · subst he
      exact List.nodup_cons.mpr h
    · rw [List.map_cons, List.nodup_cons, mem_map_assign]
      exact ⟨not_or.mpr ⟨he, h.1⟩, ih h.2⟩

/-- Assigning to a new key appends. -/
theorem assign_of_notMem {α : Type} {es : List (Text × α)} {key : Text}
    (h : key ∉ es.map Prod.fst) (value : α) : assign es key value = es ++ [(key, value)] := by
  induction es with
  | nil => rfl
  | cons e es ih =>
    rw [List.map_cons, List.mem_cons, not_or] at h
    rw [assign, if_neg (Ne.symm h.1), ih h.2]
    rfl

theorem lookup_cons {α : Type} (es : List (Text × α)) (key k : Text) (value : α) :
    ((key, value) :: es).lookup k = if k = key then some value else es.lookup k := by
  rw [List.lookup_cons]
  by_cases hk : k = key
  · rw [hk, if_pos rfl, beq_self_eq_true]
  · rw [if_neg hk, beq_false_of_ne hk]

theorem lookup_assign {α : Type} (es : List (Text × α)) (key k : Text) (value : α) :
    (assign es key value).lookup k = if k = key then some value else es.lookup k := by
  induction es with
  | nil => exact lookup_cons [] key k value
  | cons e es ih =>
    obtain ⟨k', v'⟩ := e
    rw [assign]
    by_cases he : k' = key
    · rw [if_pos he, lookup_cons, lookup_cons, he]
      split_ifs <;> rfl
    · rw [if_neg he, lookup_cons, lookup_cons, ih]
      split_ifs with hk' hk
      · exact absurd (hk'.symm.trans hk) he
      · rfl
      · rfl
      · rfl

/-- `self._keys`: a dictionary from `str(team_id)` to the two keys. -/
structure Keys where
  entries : List (Text × List Text)
  nodup : (entries.map Prod.fst).Nodup
deriving DecidableEq

/-- The empty dictionary. -/
def Keys.empty : Keys := ⟨[], List.nodup_nil⟩

/-- `self._keys[key] = value` -/
def Keys.set (keys : Keys) (key : Text) (value : List Text) : Keys :=
  ⟨assign keys.entries key value, nodup_assign keys.nodup key value⟩

/-- The dictionary of an object's members: a later member with the same name wins. -/
def Keys.ofMembers (members : List (Text × List Text)) : Keys :=
  members.foldl (fun keys e => keys.set e.1 e.2) Keys.empty

theorem Keys.foldl_set_entries (members : List (Text × List Text)) (keys : Keys)
    (h : ((keys.entries ++ members).map Prod.fst).Nodup) :
    (members.foldl (fun keys e => keys.set e.1 e.2) keys).entries = keys.entries ++ members := by
  induction members generalizing keys with
  | nil => exact (List.append_nil _).symm
  | cons e members ih =>
    have hnew : e.1 ∉ keys.entries.map Prod.fst := by
      rw [List.map_append, List.map_cons] at h
      exact fun hmem => (List.nodup_append.mp h).2.2 _ hmem _ List.mem_cons_self rfl
    have hset : (keys.set e.1 e.2).entries = keys.entries ++ [e] := assign_of_notMem hnew e.2
    have happend : (keys.set e.1 e.2).entries ++ members = keys.entries ++ e :: members := by
      rw [hset, List.append_assoc]
      rfl
    rw [List.foldl_cons, ih _ (by rwa [happend]), happend]

/-- The members of a dictionary give the dictionary back. -/
theorem Keys.ofMembers_entries (keys : Keys) : Keys.ofMembers keys.entries = keys := by
  have hentries : (Keys.ofMembers keys.entries).entries = keys.entries :=
    Keys.foldl_set_entries keys.entries Keys.empty keys.nodup
  cases keys
  exact (Keys.mk.injEq _ _ _ _).mpr hentries

/-- The file's JSON: an object of lists of strings. -/
def Keys.codec : Json.Codec (List (Text × List Text)) := Json.object (Json.array Json.string)

/-- `json.dump(self._keys, tmp)` -/
def Keys.dump (keys : Keys) : Text := Json.dumps Keys.codec keys.entries

/-- `json.load(f)` -/
def Keys.load (text : Text) : Option Keys := (Json.loads Keys.codec text).map Keys.ofMembers

theorem Keys.load_dump (keys : Keys) : Keys.load keys.dump = some keys := by
  rw [Keys.load, Keys.dump, Json.loads_dumps, Option.map_some, Keys.ofMembers_entries]

/-- `str(team_id)` -/
def str (teamId : ℤ) : Text := (toString teamId).toList

/-- `KeyStore.get_keys`: `KeyPair(*keys)` raises unless there are two. -/
def Keys.getKeys (keys : Keys) (teamId : ℤ) : Except String (Option KeyPair) :=
  match keys.entries.lookup (str teamId) with
  | some [publicKey, privateKey] => .ok (some ⟨publicKey, privateKey⟩)
  | some [] => .ok none
  | some _ => .error "TypeError"
  | none => .ok none

/-- `self._keys[str(team_id)] = [*key_pair]` -/
def Keys.putKeys (keys : Keys) (teamId : ℤ) (keyPair : KeyPair) : Keys :=
  keys.set (str teamId) [keyPair.publicKey, keyPair.privateKey]

/-- Another team's entry is left alone. -/
theorem Keys.lookup_putKeys_of_ne (keys : Keys) {teamId other : ℤ} (keyPair : KeyPair)
    (h : str other ≠ str teamId) :
    (keys.putKeys teamId keyPair).entries.lookup (str other) = keys.entries.lookup (str other) :=
  (lookup_assign keys.entries _ _ _).trans (if_neg h)

/-! ## Files -/

/-- A path: the directory with its slash, and the file's name. -/
structure Path where
  parent : Text
  name : Text
deriving DecidableEq, Repr

/-- `name.rfind('.')` -/
def rfind (name : Text) : Option ℕ :=
  (List.range name.length).reverse.find? fun i => name[i]? = some '.'

/-- `Path.suffix`: the last dot and what follows it, if there is something on both sides. -/
def Path.suffix (path : Path) : Text :=
  match rfind path.name with
  | some i => if 0 < i ∧ i < path.name.length - 1 then path.name.drop i else []
  | none => []

/-- `Path.with_suffix` -/
def Path.withSuffix (path : Path) (suffix : Text) : Path :=
  { path with name := path.name.take (path.name.length - path.suffix.length) ++ suffix }

/-- What stands at a path. -/
inductive Node where
  | file (content : Text)
  | directory
  | other
deriving DecidableEq, Repr

/-- The disk. -/
abbrev Disk := Path → Option Node

/-- Change what stands at one path. -/
def Disk.set (disk : Disk) (path : Path) (node : Option Node) : Disk :=
  Function.update disk path node

@[simp] theorem Disk.set_self (disk : Disk) (path : Path) (node : Option Node) :
    disk.set path node path = node := Function.update_self ..

theorem Disk.set_of_ne (disk : Disk) {path other : Path} (h : other ≠ path) (node : Option Node) :
    disk.set path node other = disk other := Function.update_of_ne h ..

/-- `tmp_file = self._path.with_suffix(".tmp")` -/
def tmpFile (path : Path) : Path := path.withSuffix ".tmp".toList

example : tmpFile ⟨"/opt/".toList, "keystore.json".toList⟩ =
    ⟨"/opt/".toList, "keystore.tmp".toList⟩ := by decide

/-! ## The store -/

/-- What opening a store raises. -/
inductive Failure where
  | configuration (message : Text)
  | json
deriving DecidableEq, Repr

/-- `KeyStore.__init__` -/
def KeyStore.init (disk : Disk) (path : Path) : Except Failure Keys :=
  match disk path with
  | some (.file text) =>
    match Keys.load text with
    | some keys => .ok keys
    | none => .error .json
  | some .directory => .error (.configuration
      ("Key store path: ".toList ++ path.parent ++ path.name ++ " is a directory".toList))
  | some .other => .error (.configuration
      ("Key store path: ".toList ++ path.parent ++ path.name ++ " is neither dir nor file?".toList))
  | none => .ok Keys.empty

/-- Where the process stands. -/
inductive Process where
  /-- not running -/
  | down
  /-- between two calls -/
  | idle (keys : Keys)
  /-- the temporary file is open, and `written` is what it has got so far -/
  | writing (keys : Keys) (written : Text)
  /-- the temporary file is complete -/
  | removing (keys : Keys)
  /-- before `os.replace`; `removed` says whether there was a file to remove -/
  | replacing (keys : Keys) (removed : Bool)
deriving DecidableEq

/-- A disk and the process that works on it. -/
structure World where
  disk : Disk
  process : Process

/-- One step of the process, or its end. -/
inductive Event where
  /-- a new process opens the store -/
  | init
  /-- `put_keys` up to the opening of the temporary file -/
  | put (teamId : ℤ) (keyPair : KeyPair)
  /-- `count` further characters get to the temporary file -/
  | write (count : ℕ)
  /-- the rest gets there, `flush` and `fsync` -/
  | fsync
  /-- `if self._path.exists(): os.remove(self._path)` -/
  | remove
  /-- `os.replace(tmp_file, self._path)` -/
  | replace
  /-- the process dies; of a file not yet synced, `kept` characters survive -/
  | crash (kept : ℕ)
deriving DecidableEq, Repr

/-- One step.  An exception ends the process, as it does in `main`. -/
def World.step (path : Path) (w : World) : Event → World
  | .init =>
    match w.process, KeyStore.init w.disk path with
    | .down, .ok keys => { w with process := .idle keys }
    | _, _ => w
  | .put teamId keyPair =>
    match w.process with
    | .idle keys =>
      match w.disk (tmpFile path) with
      | some .directory | some .other => { w with process := .down }
      | _ =>
        ⟨w.disk.set (tmpFile path) (some (.file [])),
          .writing (keys.putKeys teamId keyPair) []⟩
    | _ => w
  | .write count =>
    match w.process with
    | .writing keys written =>
      let written := keys.dump.take (written.length + count)
      ⟨w.disk.set (tmpFile path) (some (.file written)), .writing keys written⟩
    | _ => w
  | .fsync =>
    match w.process with
    | .writing keys _ => ⟨w.disk.set (tmpFile path) (some (.file keys.dump)), .removing keys⟩
    | _ => w
  | .remove =>
    match w.process with
    | .removing keys =>
      match w.disk path with
      | some .directory => { w with process := .down }
      | some _ => ⟨w.disk.set path none, .replacing keys true⟩
      | none => { w with process := .replacing keys false }
    | _ => w
  | .replace =>
    match w.process with
    | .replacing keys _ =>
      match w.disk (tmpFile path) with
      | some node => ⟨(w.disk.set path (some node)).set (tmpFile path) none, .idle keys⟩
      | none => { w with process := .down }
    | _ => w
  | .crash kept =>
    match w.process with
    | .writing _ written => ⟨w.disk.set (tmpFile path) (some (.file (written.take kept))), .down⟩
    | _ => { w with process := .down }

/-! ## What a store is for -/

/-- The mapping stored last, and the mapping a call under way, or interrupted, is storing. -/
structure Ledger where
  stored : Keys
  pending : Option Keys
deriving DecidableEq

/-- The ledger's side of a step. -/
def Ledger.step (path : Path) (ledger : Ledger) (w : World) : Event → Ledger
  | .init =>
    match w.process, KeyStore.init w.disk path with
    | .down, .ok keys => ⟨keys, none⟩
    | _, _ => ledger
  | .put teamId keyPair =>
    match w.process with
    | .idle keys => { ledger with pending := some (keys.putKeys teamId keyPair) }
    | _ => ledger
  | .replace =>
    match w.process, w.disk (tmpFile path) with
    | .replacing keys _, some _ => ⟨keys, none⟩
    | _, _ => ledger
  | _ => ledger

/-- A world and its ledger. -/
structure State where
  world : World
  ledger : Ledger

/-- Both take the step. -/
def State.step (path : Path) (s : State) (e : Event) : State :=
  ⟨s.world.step path e, s.ledger.step path s.world e⟩

/-- A store opened now loads one of the two mappings of the ledger. -/
def State.Loads (path : Path) (s : State) : Prop :=
  ∃ keys, KeyStore.init s.world.disk path = .ok keys ∧
    (keys = s.ledger.stored ∨ s.ledger.pending = some keys)

end Gameserver.Wireguard
