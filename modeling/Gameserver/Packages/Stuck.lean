import Gameserver.Packages.Crash

/-!
# Calls that fail for good

A link that stands in the temporary folder makes `os.symlink` raise in every later call
(`Blocked`), and a file that is cut short in the LFS folder is linked as if it were whole
(`Shortened`).

* `Loads` — a call returns, and the files are right.
-/

namespace Gameserver.Packages

open Json (Text)
open FileSystem
open Machine

variable {c : Setup} {w w' : World} {package : Text} {disk disk' : LocalDisk} {lfs lfs' : Lfs}
  {db : Db} {t : Folder} {location p : List Name} {hash : Text} {row : Row}

/-- Every file of the package has the content that the database has for its hash. -/
def FilesRight (c : Setup) (w : World) (package : Text) : Prop :=
  ∀ row ∈ w.db.rows package, ∀ hash, row.fileHash = some hash →
    ∃ content, w.db.content hash = some content ∧
      view w.disk w.lfs (resolve (c.folder package) row.path) = some (.file content)

/-- A call for the package returns, and the files are right. -/
def Loads (c : Setup) (w : World) (package : Text) : Prop :=
  ∃ w', Reaches c (w.step c (.call package)) w' ∧ w'.call = .returned package ∧
    FilesRight c w' package

/-- Any package can be loaded. -/
def Retriable (c : Setup) (w : World) : Prop :=
  ∀ package, Stored c.md5 w.db package → Loads c w package

/-- What the steps of a call keep. -/
theorem Reaches.invariant {Inv : World → Prop} (hstep : ∀ w, Inv w → Inv (w.advance c))
    (h : Reaches c w w') (hw : Inv w) : Inv w' := by
  obtain ⟨n, rfl⟩ := h
  induction n generalizing w with
  | zero => exact hw
  | succ n ih => exact ih (hstep w hw)

/-! ## What stays on the disk -/

/-- The operation creates something at the location. -/
def Op.Creates (location : List Name) : Op → Prop
  | .write other _ => other = location
  | .symlink other _ => other = location
  | .makeDirs _ | .writeLfs _ _ | .chmod _ => False

/-- It raises where a link stands. -/
theorem Op.run_eq_none {op : Op} (hop : op.Creates location) {link : Text}
    (hlink : get disk location = some (.link link)) : op.run (disk, lfs) = none := by
  cases op with
  | write other content =>
    obtain rfl : other = location := hop
    rw [Op.run, FileSystem.write, hlink]
    cases get disk other.dropLast with
    | none => rfl
    | some item => cases item <;> rfl
  | symlink other target =>
    obtain rfl : other = location := hop
    rw [Op.run, FileSystem.symlink, hlink]
    cases get disk other.dropLast with
    | none => rfl
    | some item => cases item <;> rfl
  | makeDirs | writeLfs | chmod => exact hop.elim

/-- A link stays. -/
theorem Op.run_link {op : Op} {link : Text} (h : op.run (disk, lfs) = some (disk', lfs'))
    (hlink : get disk location = some (.link link)) :
    get disk' location = some (.link link) := by
  by_cases hop : op.Creates location
  · rw [Op.run_eq_none hop hlink] at h
    cases h
  · cases op with
    | makeDirs other =>
      obtain ⟨disk₁, hdirs, heq⟩ := Option.map_eq_some_iff.mp h
      obtain ⟨rfl, rfl⟩ := Prod.mk.inj heq
      rw [get_makeDirs hdirs, if_neg, hlink]
      intro hway
      rcases folderOr_of_makeDirs hdirs hway with hnone | hfolder
      · rw [hlink] at hnone
        cases hnone
      · rw [hlink] at hfolder
        cases hfolder
    | write other content =>
      obtain ⟨disk₁, hwrite, heq⟩ := Option.map_eq_some_iff.mp h
      obtain ⟨rfl, rfl⟩ := Prod.mk.inj heq
      rw [write_eq hwrite, get_put, if_neg (Ne.symm hop), hlink]
    | symlink other target =>
      obtain ⟨disk₁, hsymlink, heq⟩ := Option.map_eq_some_iff.mp h
      obtain ⟨rfl, rfl⟩ := Prod.mk.inj heq
      rw [symlink_eq hsymlink, get_put, if_neg (Ne.symm hop), hlink]
    | writeLfs | chmod =>
      obtain ⟨rfl, -⟩ := Prod.mk.inj (Option.some.inj h)
      exact hlink

/-- A file of the LFS folder stays, unless it is written again. -/
theorem Op.run_lfs {op : Op} (h : op.run (disk, lfs) = some (disk', lfs'))
    (hop : ∀ content, op ≠ .writeLfs hash content) : lfs'.content hash = lfs.content hash := by
  cases op with
  | makeDirs | write | symlink =>
    obtain ⟨disk₁, -, heq⟩ := Option.map_eq_some_iff.mp h
    obtain ⟨-, rfl⟩ := Prod.mk.inj heq
    rfl
  | writeLfs other content =>
    obtain ⟨-, rfl⟩ := Prod.mk.inj (Option.some.inj h)
    have hne : other ≠ hash := by
      rintro rfl
      exact hop content rfl
    rw [Lfs.content, List.find?_cons_of_neg (by simpa using hne)]
    rfl
  | chmod other =>
    obtain ⟨-, rfl⟩ := Prod.mk.inj (Option.some.inj h)
    rfl

/-! ## Calls that do not return, or return too little -/

/-- The row of a file, and where it goes. -/
structure FileRow (c : Setup) (db : Db) (package : Text) (row : Row) (location : List Name)
    (hash : Text) : Prop where
  mem : row ∈ c.orderBy (db.rows package)
  resolve_eq : resolve (c.base package) row.path = location
  fileHash : row.fileHash = some hash
  ne_empty : hash ≠ []

/-- The row is still to come, or an operation of its turn. -/
def Ahead (row : Row) (wanted : Op → Prop) (ops : List Op) (todo : Option (List Row)) : Prop :=
  (∃ op ∈ ops, wanted op) ∨ todo = none ∨ ∃ rows, todo = some rows ∧ row ∈ rows

theorem Ahead.of_cons {wanted : Op → Prop} {op : Op} {ops : List Op} {todo : Option (List Row)}
    (h : Ahead row wanted (op :: ops) todo) : wanted op ∨ Ahead row wanted ops todo := by
  rcases h with ⟨op', hmem, hwanted⟩ | hlater
  · rcases List.mem_cons.mp hmem with rfl | hrest
    · exact .inl hwanted
    · exact .inr (.inl ⟨op', hrest, hwanted⟩)
  · exact .inr (.inr hlater)

theorem not_ahead_nil {wanted : Op → Prop} : ¬ Ahead row wanted [] (some []) := by
  rintro (⟨op, hmem, -⟩ | hnone | ⟨rows, hrows, hmem⟩)
  · cases hmem
  · cases hnone
  · obtain rfl := Option.some.inj hrows
    cases hmem

/-- After the query, the rows are to come. -/
theorem FileRow.ahead (h : FileRow c db package row location hash) (wanted : Op → Prop) :
    Ahead row wanted [] (some (c.orderBy (db.rows package))) :=
  .inr (.inr ⟨_, rfl, h.mem⟩)

/-- A row is taken up. -/
theorem Ahead.nextRow {wanted : Op → Prop} {row' : Row} {ops : List Op} {todo : List Row}
    (h : Ahead row wanted [] (some (row' :: todo)))
    (hops : row' = row → ∃ op ∈ ops, wanted op) : Ahead row wanted ops (some todo) := by
  rcases h with ⟨op, hmem, -⟩ | hnone | ⟨rows, hrows, hmem⟩
  · cases hmem
  · cases hnone
  · obtain rfl := Option.some.inj hrows
    rcases List.mem_cons.mp hmem with heq | hrest
    · exact .inl (hops heq.symm)
    · exact .inr (.inr ⟨todo, rfl, hrest⟩)

theorem FileRow.creates (h : FileRow c db package row location hash) {ops : List Op}
    (hops : rowOps db c.useLfs (c.base package) lfs row = some ops) :
    ∃ op ∈ ops, op.Creates location := by
  rw [rowOps, h.fileHash, h.resolve_eq] at hops
  dsimp only at hops
  rw [if_neg h.ne_empty] at hops
  split_ifs at hops
  · obtain rfl := Option.some.inj hops
    exact ⟨_, List.mem_cons_self, rfl⟩
  · obtain ⟨content, -, rfl⟩ := Option.map_eq_some_iff.mp hops
    split_ifs
    · exact ⟨.symlink location hash, by simp, rfl⟩
    · exact ⟨_, List.mem_cons_self, rfl⟩

/-- A link stands where the call is still to create something. -/
structure Blocked (c : Setup) (package : Text) (row : Row) (location : List Name) (hash : Text)
    (w : World) : Prop where
  fileRow : FileRow c w.db package row location hash
  link : ∃ link, get w.disk location = some (.link link)
  call : w.call = .raised package ∨ ∃ ops todo, w.call = .loading package ops todo ∧
    Ahead row (Op.Creates location) ops todo

theorem Blocked.advance (h : Blocked c package row location hash w) :
    Blocked c package row location hash (w.advance c) := by
  obtain ⟨db, disk, lfs, call⟩ := w
  obtain ⟨hrow, ⟨link, hlink⟩, hcall⟩ := h
  rcases hcall with hraised | ⟨ops, todo, hloading, hahead⟩
  · obtain rfl : call = _ := hraised
    exact ⟨hrow, ⟨link, hlink⟩, .inl rfl⟩
  · obtain rfl : call = _ := hloading
    cases ops with
    | cons op ops =>
      simp only [World.advance]
      split
      · rename_i disk' lfs' hrun
        rcases hahead.of_cons with hcreates | hlater
        · rw [Op.run_eq_none hcreates hlink] at hrun
          cases hrun
        · exact ⟨hrow, ⟨link, Op.run_link hrun hlink⟩, .inr ⟨ops, todo, rfl, hlater⟩⟩
      · exact ⟨hrow, ⟨link, hlink⟩, .inl rfl⟩
    | nil =>
      cases todo with
      | none => exact ⟨hrow, ⟨link, hlink⟩, .inr ⟨[], _, rfl, hrow.ahead _⟩⟩
      | some todo =>
        cases todo with
        | nil => exact absurd hahead not_ahead_nil
        | cons row' todo =>
          simp only [World.advance]
          split
          · rename_i ops hops
            refine ⟨hrow, ⟨link, hlink⟩, .inr ⟨ops, _, rfl, hahead.nextRow ?_⟩⟩
            rintro rfl
            exact hrow.creates hops
          · exact ⟨hrow, ⟨link, hlink⟩, .inl rfl⟩

theorem Blocked.not_loads (h : Blocked c package row location hash (w.step c (.call package))) :
    ¬ Loads c w package := by
  rintro ⟨w', hreaches, hreturned, -⟩
  have hblocked := hreaches.invariant (fun _ h => h.advance) h
  rcases hblocked.call with hraised | ⟨ops, todo, hloading, -⟩
  · rw [hraised] at hreturned
    cases hreturned
  · rw [hloading] at hreturned
    cases hreturned

/-- With a file in the LFS folder, its row is linked. -/
theorem FileRow.links (h : FileRow c db package row location hash) (huse : c.useLfs = true)
    {cut : Bytes} (hcut : lfs.content hash = some cut) {ops : List Op}
    (hops : rowOps db c.useLfs (c.base package) lfs row = some ops) :
    ops = [.symlink location hash] := by
  rw [rowOps, h.fileHash, h.resolve_eq] at hops
  dsimp only at hops
  rw [if_neg h.ne_empty, if_pos ⟨huse, by rw [hcut]; rfl⟩] at hops
  exact (Option.some.inj hops).symm

/-- It is not written again. -/
theorem not_writeLfs_of_rowOps (huse : c.useLfs = true) {cut : Bytes}
    (hcut : lfs.content hash = some cut) {ops : List Op} {base : List Name}
    (hops : rowOps db c.useLfs base lfs row = some ops) :
    ∀ op ∈ ops, ∀ content, op ≠ .writeLfs hash content := by
  intro op hop content heq
  subst heq
  rw [rowOps] at hops
  split at hops
  · obtain rfl := Option.some.inj hops
    simp at hop
  · rename_i other _
    split_ifs at hops with hempty hfound
    · obtain rfl := Option.some.inj hops
      simp at hop
    · obtain rfl := Option.some.inj hops
      simp at hop
    · obtain ⟨content', -, rfl⟩ := Option.map_eq_some_iff.mp hops
      split_ifs at hop
      · have hsame : hash = other ∧ content = content' := by simpa using hop
        exact hfound ⟨huse, by rw [← hsame.1, hcut]; rfl⟩
      · simp at hop

/-- A file of the LFS folder is cut short, and the call links it or has linked it. -/
structure Shortened (c : Setup) (package : Text) (row : Row) (p : List Name) (hash : Text)
    (cut : Bytes) (w : World) : Prop where
  fileRow : FileRow c w.db package row (c.base package ++ p) hash
  useLfs : c.useLfs = true
  found : w.lfs.content hash = some cut
  short : ∀ content, w.db.content hash = some content → content ≠ cut
  call : w.call = .raised package ∨
    (∃ ops todo, w.call = .loading package ops todo ∧
      (∀ op ∈ ops, ∀ content, op ≠ .writeLfs hash content) ∧
      (get w.disk (c.base package ++ p) = some (.link hash) ∨
        Ahead row (fun op => op = .symlink (c.base package ++ p) hash) ops todo)) ∨
    w.call = .returned package ∧ get w.disk (c.folder package ++ p) = some (.link hash)

theorem Shortened.advance {cut : Bytes} (h : Shortened c package row p hash cut w) :
    Shortened c package row p hash cut (w.advance c) := by
  obtain ⟨db, disk, lfs, call⟩ := w
  obtain ⟨hrow, huse, hcut, hshort, hcall⟩ := h
  rcases hcall with hraised | ⟨ops, todo, hloading, hwrites, hahead⟩ | ⟨hreturned, hlink⟩
  · obtain rfl : call = _ := hraised
    exact ⟨hrow, huse, hcut, hshort, .inl rfl⟩
  · obtain rfl : call = _ := hloading
    cases ops with
    | cons op ops =>
      simp only [World.advance]
      split
      · rename_i disk' lfs' hrun
        refine ⟨hrow, huse, ?_, hshort, .inr (.inl ⟨ops, todo, rfl, ?_, ?_⟩)⟩
        · exact (Op.run_lfs hrun (hwrites op List.mem_cons_self)).trans hcut
        · exact fun op' hop' => hwrites op' (List.mem_cons_of_mem op hop')
        · rcases hahead with hlink | hahead
          · exact .inl (Op.run_link hrun hlink)
          · rcases hahead.of_cons with rfl | hlater
            · obtain ⟨disk₁, hsymlink, heq⟩ := Option.map_eq_some_iff.mp hrun
              obtain ⟨rfl, rfl⟩ := Prod.mk.inj heq
              exact .inl (by rw [symlink_eq hsymlink, get_put, if_pos rfl])
            · exact .inr hlater
      · exact ⟨hrow, huse, hcut, hshort, .inl rfl⟩
    | nil =>
      cases todo with
      | none =>
        exact ⟨hrow, huse, hcut, hshort, .inr (.inl ⟨[], _, rfl, hwrites,
          .inr (hrow.ahead _)⟩)⟩
      | some todo =>
        cases todo with
        | nil =>
          have hlink := hahead.resolve_right not_ahead_nil
          simp only [World.advance]
          split
          · rename_i disk' hrename
            exact ⟨hrow, huse, hcut, hshort, .inr (.inr ⟨rfl, (get_rename hrename p).trans hlink⟩)⟩
          · exact ⟨hrow, huse, hcut, hshort, .inl rfl⟩
        | cons row' todo =>
          simp only [World.advance]
          split
          · rename_i ops hops
            refine ⟨hrow, huse, hcut, hshort, .inr (.inl ⟨ops, _, rfl,
              not_writeLfs_of_rowOps huse hcut hops, hahead.imp_right fun h => h.nextRow ?_⟩)⟩
            rintro rfl
            exact ⟨_, by rw [hrow.links huse hcut hops]; exact List.mem_cons_self, rfl⟩
          · exact ⟨hrow, huse, hcut, hshort, .inl rfl⟩
  · obtain rfl : call = _ := hreturned
    exact ⟨hrow, huse, hcut, hshort, .inr (.inr ⟨rfl, hlink⟩)⟩

theorem Shortened.not_loads (hc : c.Valid) {cut : Bytes}
    (h : Shortened c package row p hash cut (w.step c (.call package)))
    (hresolve : resolve (c.folder package) row.path = c.folder package ++ p) :
    ¬ Loads c w package := by
  rintro ⟨w', hreaches, hreturned, hright⟩
  have hshortened := hreaches.invariant (fun _ h => h.advance) h
  have hlink : get w'.disk (c.folder package ++ p) = some (.link hash) := by
    rcases hshortened.call with hraised | ⟨ops, todo, hloading, -⟩ | ⟨-, hlink⟩
    · rw [hraised] at hreturned
      cases hreturned
    · rw [hloading] at hreturned
      cases hreturned
    · exact hlink
  have hmem := (hc.orderBy.perm _).mem_iff.mp hshortened.fileRow.mem
  obtain ⟨content, hcontent, hview⟩ := hright row hmem hash hshortened.fileRow.fileHash
  rw [hresolve, view, hlink] at hview
  dsimp only at hview
  rw [hshortened.found] at hview
  exact hshortened.short content hcontent (Node.file.inj (Option.some.inj hview)).symm

end Gameserver.Packages
