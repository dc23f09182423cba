import Gameserver.Lib.Machine
import Gameserver.Packages.RoundTrip

/-!
# The package loader, step by step

`PackageLoader.ensure_package_exists` as a machine whose steps are the operations of
`load_package_to_folder` on the file system: the process can die between any two of them and
in the middle of one.

* `Op`, `Op.run`, `Op.part` — an operation, and what it has done when it is cut short.
* `rowOps` — the operations of one turn of the loop.
* `World`, `Event`, `World.step` — the database, the disk and the call under way; the lock lets
  one call run at a time.
* `reaches_load` — a call that nothing interrupts does what `loadPackageToFolder` says.

The path of the LFS folder is taken to be absolute: a link made with a relative one would dangle.
Names are Unicode texts.
-/

namespace Gameserver.Packages

open Json (Text)
open FileSystem
open Machine

/-! ## Operations -/

/-- The operations on the file system. -/
inductive Op where
  | makeDirs (location : List Name)
  | write (location : List Name) (content : Bytes)
  | writeLfs (hash : Text) (content : Bytes)
  | symlink (location : List Name) (hash : Text)
  | chmod (hash : Text)

/-- What an operation does; `none` where it raises.  Modes are not kept: a file of the LFS
folder is not opened for writing again. -/
def Op.run : Op → LocalDisk × Lfs → Option (LocalDisk × Lfs)
  | .makeDirs location, (disk, lfs) =>
    (FileSystem.makeDirs disk location).map fun disk => (disk, lfs)
  | .write location content, (disk, lfs) =>
    (FileSystem.write disk location content).map fun disk => (disk, lfs)
  | .writeLfs hash content, (disk, lfs) => some (disk, (hash, content) :: lfs)
  | .symlink location hash, (disk, lfs) =>
    (FileSystem.symlink disk location hash).map fun disk => (disk, lfs)
  | .chmod _, state => some state

/-- What an operation has done when the process dies in it: some of the folders, some of the
bytes.  The others happen at once. -/
def Op.part (n : ℕ) : Op → Option Op
  | .makeDirs location => some (.makeDirs (location.take n))
  | .write location content => some (.write location (content.extract 0 n))
  | .writeLfs hash content => some (.writeLfs hash (content.extract 0 n))
  | .symlink _ _ | .chmod _ => none

/-- The operations of one turn of the loop over the rows; `none` where the query for the file
raises. -/
def rowOps (db : Db) (useLfs : Bool) (base : List Name) (lfs : Lfs) (row : Row) :
    Option (List Op) :=
  let location := resolve base row.path
  match row.fileHash with
  | none => some [.makeDirs location]
  | some hash =>
    if hash = [] then some [.makeDirs location]
    else if useLfs ∧ (lfs.content hash).isSome then some [.symlink location hash]
    else
      (db.content hash).map fun content =>
        if useLfs ∧ content.size > lfsThreshold then
          [.writeLfs hash content, .symlink location hash, .chmod hash]
        else [.write location content]

/-! ## The machine -/

/-- What the loader runs with. -/
structure Setup where
  md5 : Bytes → Text
  orderBy : List Row → List Row
  /-- `config.CHECKER_PACKAGES_PATH` -/
  root : List Name
  /-- whether there is a `config.CHECKER_PACKAGES_LFS` -/
  useLfs : Bool

/-- A call of `ensure_package_exists`.  While it runs: what the turn still does, and the rows
that are left; `none` before they are queried. -/
inductive Call where
  | idle
  | loading (package : Text) (ops : List Op) (todo : Option (List Row))
  | returned (package : Text)
  | raised (package : Text)

structure World where
  db : Db
  disk : LocalDisk
  lfs : Lfs
  call : Call

inductive LoadEvent where
  | moveFolder (path : Text) (tree : Tree)
  | moveFiles (files : List (Name × Bytes))
  | call (package : Text)
  | step
  | crash (part : Option ℕ)

variable (c : Setup)

/-- The folder of a package. -/
def Setup.folder (package : Text) : List Name := c.root ++ [package]

/-- Its temporary folder. -/
def Setup.base (package : Text) : List Name := c.root ++ [tmpName package]

/-- `PackageLoader.ensure_package_exists`; another call waits for the lock. -/
def World.ensurePackageExists (w : World) (package : Text) : World :=
  match w.call with
  | .loading .. => w
  | _ =>
    if (get w.disk (c.folder package)).isSome then { w with call := .returned package }
    else { w with call := .loading package [.makeDirs (c.base package)] none }

/-- The next step of the call. -/
def World.advance (w : World) : World :=
  match w.call with
  | .loading package (op :: ops) todo =>
    match op.run (w.disk, w.lfs) with
    | some (disk, lfs) => { w with disk := disk, lfs := lfs, call := .loading package ops todo }
    | none => { w with call := .raised package }
  | .loading package [] none =>
    { w with call := .loading package [] (some (c.orderBy (w.db.rows package))) }
  | .loading package [] (some (row :: todo)) =>
    match rowOps w.db c.useLfs (c.base package) w.lfs row with
    | some ops => { w with call := .loading package ops (some todo) }
    | none => { w with call := .raised package }
  | .loading package [] (some []) =>
    match rename w.disk (c.base package) (c.folder package) with
    | some disk => { w with disk := disk, call := .returned package }
    | none => { w with call := .raised package }
  | _ => w

/-- The process dies: before its next operation, or when that is done in part. -/
def World.crash (w : World) (part : Option ℕ) : World :=
  match w.call with
  | .loading _ ops _ =>
    match part.bind fun n => (ops.head?.bind (Op.part n)).bind fun op => op.run (w.disk, w.lfs) with
    | some (disk, lfs) => { w with disk := disk, lfs := lfs, call := .idle }
    | none => { w with call := .idle }
  | _ => w

def World.step (w : World) : LoadEvent → World
  | .moveFolder path tree => { w with db := (moveFolderToPackage c.md5 w.db path tree.folder).1 }
  | .moveFiles files => { w with db := (moveSingleFilesToPackage c.md5 w.db files).1 }
  | .call package => w.ensurePackageExists c package
  | .step => w.advance c
  | .crash part => w.crash part

/-- An empty database, and the folder for packages, which is empty. -/
def World.start : World where
  db := ⟨[], []⟩
  disk := c.root.inits.map fun q => (q, .folder)
  lfs := []
  call := .idle

/-! ## Uninterrupted calls -/

variable {c}

/-- Steps of the call alone lead from one state to the other. -/
def Reaches (c : Setup) (w w' : World) : Prop :=
  ∃ n, exec (World.step c) w (List.replicate n .step) = w'

theorem Reaches.refl (w : World) : Reaches c w w := ⟨0, rfl⟩

theorem Reaches.head {w w' : World} (h : Reaches c (w.advance c) w') : Reaches c w w' := by
  obtain ⟨n, h⟩ := h
  exact ⟨n + 1, h⟩

theorem Reaches.trans {w w' w'' : World} (h : Reaches c w w') (h' : Reaches c w' w'') :
    Reaches c w w'' := by
  obtain ⟨m, rfl⟩ := h
  obtain ⟨n, rfl⟩ := h'
  exact ⟨m + n, by rw [List.replicate_add, exec_append]⟩

/-- Run some operations. -/
def runOps : LocalDisk × Lfs → List Op → Except Lfs (LocalDisk × Lfs)
  | state, [] => .ok state
  | state, op :: ops =>
    match op.run state with
    | some state => runOps state ops
    | none => .error state.2

variable {db : Db} {disk : LocalDisk} {lfs : Lfs} {package : Text} {todo : List Row}

theorem runOps_singleton {op : Op} {found : Option LocalDisk}
    (h : op.run (disk, lfs) = found.map fun disk => (disk, lfs)) :
    runOps (disk, lfs) [op] = place lfs found := by
  rw [runOps, h]
  cases found <;> rfl

/-- One turn of the loop is the operations of its row. -/
theorem loadRow_eq (db : Db) (useLfs : Bool) (base : List Name) (row : Row) :
    loadRow db useLfs base (disk, lfs) row =
      match rowOps db useLfs base lfs row with
      | some ops => runOps (disk, lfs) ops
      | none => .error lfs := by
  rw [loadRow, rowOps]
  cases row.fileHash with
  | none => exact (runOps_singleton rfl).symm
  | some hash =>
    dsimp only
    split_ifs with hempty hfound
    · exact (runOps_singleton rfl).symm
    · exact (runOps_singleton rfl).symm
    · cases hcontent : db.content hash with
      | none => rfl
      | some content =>
        rw [Option.map_some]
        dsimp only
        split_ifs with hlarge
        · simp only [runOps, Op.run]
          cases symlink disk (resolve base row.path) hash <;> rfl
        · exact (runOps_singleton rfl).symm

/-- The state in which a call ends, or where the rest of it begins. -/
def Ends (c : Setup) (db : Db) (package : Text) (w : World) (call : Call) :
    Except Lfs (LocalDisk × Lfs) → Prop
  | .ok (disk, lfs) => Reaches c w ⟨db, disk, lfs, call⟩
  | .error lfs => ∃ disk, Reaches c w ⟨db, disk, lfs, .raised package⟩

theorem Ends.of_reaches {w w' : World} {call : Call} {result : Except Lfs (LocalDisk × Lfs)}
    (h : Reaches c w w') (h' : Ends c db package w' call result) :
    Ends c db package w call result := by
  cases result with
  | ok state => exact h.trans h'
  | error lfs =>
    obtain ⟨disk, h'⟩ := h'
    exact ⟨disk, h.trans h'⟩

/-- One stretch of a call after another. -/
theorem Ends.bind {w : World} {call call' : Call} {result : Except Lfs (LocalDisk × Lfs)}
    {k : LocalDisk × Lfs → Except Lfs (LocalDisk × Lfs)} (h : Ends c db package w call result)
    (hk : ∀ disk lfs, Ends c db package ⟨db, disk, lfs, call⟩ call' (k (disk, lfs))) :
    Ends c db package w call' (result >>= k) := by
  cases result with
  | ok state => exact Ends.of_reaches h (hk state.1 state.2)
  | error lfs => exact h

theorem ends_runOps (ops : List Op) (todo : Option (List Row)) (disk : LocalDisk) (lfs : Lfs) :
    Ends c db package ⟨db, disk, lfs, .loading package ops todo⟩ (.loading package [] todo)
      (runOps (disk, lfs) ops) := by
  induction ops generalizing disk lfs with
  | nil => exact Reaches.refl _
  | cons op ops ih =>
    rw [runOps]
    cases hop : op.run (disk, lfs) with
    | none =>
      refine ⟨disk, Reaches.head ?_⟩
      simp only [World.advance, hop]
      exact Reaches.refl _
    | some state =>
      refine Ends.of_reaches (Reaches.head ?_) (ih state.1 state.2)
      simp only [World.advance, hop]
      exact Reaches.refl _

theorem ends_rows (todo : List Row) (disk : LocalDisk) (lfs : Lfs) :
    Ends c db package ⟨db, disk, lfs, .loading package [] (some todo)⟩
      (.loading package [] (some []))
      (todo.foldlM (loadRow db c.useLfs (c.base package)) (disk, lfs)) := by
  induction todo generalizing disk lfs with
  | nil => exact Reaches.refl _
  | cons row todo ih =>
    rw [List.foldlM_cons]
    suffices hturn : Ends c db package ⟨db, disk, lfs, .loading package [] (some (row :: todo))⟩
        (.loading package [] (some todo))
        (loadRow db c.useLfs (c.base package) (disk, lfs) row) from hturn.bind ih
    rw [loadRow_eq]
    cases hops : rowOps db c.useLfs (c.base package) lfs row with
    | none =>
      refine ⟨disk, Reaches.head ?_⟩
      simp only [World.advance, hops]
      exact Reaches.refl _
    | some ops =>
      refine Ends.of_reaches (Reaches.head ?_) (ends_runOps ops (some todo) disk lfs)
      simp only [World.advance, hops]
      exact Reaches.refl _

/-- **A call that nothing interrupts** ends as `loadPackageToFolder` does. -/
theorem reaches_load {w : World} (hcall : ∀ package ops todo, w.call ≠ .loading package ops todo)
    (package : Text) :
    match loadPackageToFolder c.orderBy w.db package w.disk c.root package c.useLfs w.lfs with
    | .ok (_, disk, lfs) =>
      Reaches c (w.step c (.call package)) ⟨w.db, disk, lfs, .returned package⟩
    | .error lfs =>
      ∃ disk, Reaches c (w.step c (.call package)) ⟨w.db, disk, lfs, .raised package⟩ := by
  obtain ⟨db, disk, lfs, call⟩ := w
  have hstep : World.step c ⟨db, disk, lfs, call⟩ (.call package) =
      if (get disk (c.folder package)).isSome then ⟨db, disk, lfs, .returned package⟩
      else ⟨db, disk, lfs, .loading package [.makeDirs (c.base package)] none⟩ := by
    cases call with
    | loading other ops todo => exact absurd rfl (hcall other ops todo)
    | idle | returned | raised => rfl
  rw [hstep]
  by_cases hfolder : (get disk (c.folder package)).isSome
  · rw [if_pos hfolder, loadPackageToFolder]
    dsimp only
    rw [if_pos (show (get disk (c.root ++ [package])).isSome = true from hfolder)]
    exact Reaches.refl _
  · have hvacant : get disk (c.root ++ [package]) = none := by simpa [Setup.folder] using hfolder
    have hends : Ends c db package
        ⟨db, disk, lfs, .loading package [.makeDirs (c.base package)] none⟩ (.returned package)
        (place lfs (makeDirs disk (c.base package)) >>= fun s =>
          (c.orderBy (db.rows package)).foldlM (loadRow db c.useLfs (c.base package)) s >>=
          fun s => place s.2 (rename s.1 (c.base package) (c.folder package))) := by
      have hdirs : place lfs (makeDirs disk (c.base package)) =
          runOps (disk, lfs) [.makeDirs (c.base package)] := by
        simp only [runOps, Op.run]
        cases makeDirs disk (c.base package) <;> rfl
      rw [hdirs]
      refine Ends.bind (ends_runOps _ none disk lfs) fun disk lfs => ?_
      refine Ends.bind (Ends.of_reaches (Reaches.head (Reaches.refl _)) (ends_rows _ disk lfs))
        fun disk lfs => ?_
      cases hrename : rename disk (c.base package) (c.folder package) with
      | none =>
        refine ⟨disk, Reaches.head ?_⟩
        simp only [World.advance, hrename]
        exact Reaches.refl _
      | some disk' =>
        refine Reaches.head ?_
        simp only [World.advance, hrename]
        exact Reaches.refl _
    -- what is returned in the end is the flag that the package was loaded
    have hload : loadPackageToFolder c.orderBy db package disk c.root package c.useLfs lfs =
        (place lfs (makeDirs disk (c.base package)) >>= fun s =>
          (c.orderBy (db.rows package)).foldlM (loadRow db c.useLfs (c.base package)) s >>=
          fun s => place s.2 (rename s.1 (c.base package) (c.folder package))) >>=
          fun s => .ok (true, s) := by
      rw [load_eq hvacant]
      simp only [bind_assoc]
      rfl
    rw [if_neg hfolder, hload]
    revert hends
    generalize (place lfs (makeDirs disk (c.base package)) >>= fun s =>
      (c.orderBy (db.rows package)).foldlM (loadRow db c.useLfs (c.base package)) s >>=
      fun s => place s.2 (rename s.1 (c.base package) (c.folder package))) = result
    intro hends
    cases result with
    | ok state => exact hends
    | error lfs => exact hends

end Gameserver.Packages
