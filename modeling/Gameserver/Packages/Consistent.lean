import Gameserver.Packages.Listing

/-!
# What holds of every store

Whatever has been uploaded and loaded, the rows of a package hash to the package's identifier,
every file that a row names is there, and contents stand under their own hashes
(`Store.Consistent`, `consistent_exec`).  With a hash that is free of collisions, a package
keeps the rows it was uploaded with (`Holds`).
-/

namespace Gameserver.Packages

open Json (Text)
open Machine

variable {md5 : Bytes → Text} {path : Text} {db : Db} {f : Folder}

/-- The file information of a row. -/
def Row.information (r : Row) : Text × Text := (r.path, r.fileHash.getD dirText)

/-- The identifier of a package with these rows. -/
def idOf (md5 : Bytes → Text) (rows : List Row) : Text :=
  packageId md5 (rows.map Row.information)

/-- What a hash is relied on for: no collisions, and no hash that looks like a folder. -/
structure CollisionFree (md5 : Bytes → Text) : Prop where
  injective : Function.Injective md5
  ne_dir : ∀ data, md5 data ≠ dirText
  ne_empty : ∀ data, md5 data ≠ []

/-- A database in which hashes mean what they say. -/
structure Db.Consistent (md5 : Bytes → Text) (db : Db) : Prop where
  /-- contents stand under their hashes -/
  files : ∀ e ∈ db.files, e.1 = md5 e.2
  /-- the files that rows name are there -/
  stored : ∀ e ∈ db.filesystem, ∀ hash, e.2.fileHash = some hash →
    ∃ content, db.content hash = some content
  /-- packages are named after their rows -/
  identified : ∀ package, db.rows package ≠ [] → idOf md5 (db.rows package) = package
  /-- the unique constraint -/
  nodup : (db.filesystem.map fun e => (e.1, e.2.path)).Nodup

/-! ## Files -/

theorem Lfs.hash_of_content {lfs : Lfs} (h : ∀ e ∈ lfs, e.1 = md5 e.2) {hash : Text}
    {content : Bytes} (hcontent : lfs.content hash = some content) : hash = md5 content := by
  obtain ⟨e, hfind, rfl⟩ := Option.map_eq_some_iff.mp hcontent
  have hhash : e.1 = hash := by simpa using List.find?_some hfind
  rw [← hhash]
  exact h e (List.mem_of_find?_eq_some hfind)

/-- The database looks its files up as the LFS folder does. -/
theorem Db.hash_of_content (h : ∀ e ∈ db.files, e.1 = md5 e.2) {hash : Text} {content : Bytes}
    (hcontent : db.content hash = some content) : hash = md5 content :=
  Lfs.hash_of_content h hcontent

/-- More files do not hide a file. -/
theorem Db.content_mono {filesystem : List (Text × Row)} {files more : List (Text × Bytes)}
    {hash : Text} {content : Bytes} (h : Db.content ⟨filesystem, files⟩ hash = some content) :
    Db.content ⟨filesystem, files ++ more⟩ hash = some content := by
  obtain ⟨e, hfind, rfl⟩ := Option.map_eq_some_iff.mp h
  show ((files ++ more).find? _).map Prod.snd = _
  rw [List.find?_append, show files.find? _ = _ from hfind]
  rfl

theorem storeFile_spec (h : db.Consistent md5) (data : Bytes) :
    (storeFileInDatabase md5 db data).2 = md5 data ∧
      (storeFileInDatabase md5 db data).1.Consistent md5 ∧
      (storeFileInDatabase md5 db data).1.filesystem = db.filesystem ∧
      (∃ content, (storeFileInDatabase md5 db data).1.content (md5 data) = some content) ∧
      ∀ hash content, db.content hash = some content →
        (storeFileInDatabase md5 db data).1.content hash = some content := by
  rw [storeFileInDatabase]
  split_ifs with hnew
  · refine ⟨rfl, ⟨?_, ?_, h.identified, h.nodup⟩, rfl, ?_, fun _ _ => Db.content_mono⟩
    · intro e he
      rcases List.mem_append.mp he with hold | hlast
      · exact h.files e hold
      · rw [List.mem_singleton.mp hlast]
    · intro e he hash hhash
      obtain ⟨content, hcontent⟩ := h.stored e he hash hhash
      exact ⟨content, Db.content_mono hcontent⟩
    · have hnone : db.files.find? (fun e => e.1 = md5 data) = none := by
        simpa [Db.content] using hnew
      refine ⟨data, ?_⟩
      show ((db.files ++ [(md5 data, data)]).find? fun e => e.1 = md5 data).map Prod.snd = _
      rw [List.find?_append, hnone]
      simp
  · refine ⟨rfl, h, rfl, Option.isSome_iff_exists.mp ?_, fun _ _ hc => hc⟩
    rwa [Option.isNone_iff_eq_none, ← ne_eq, Option.ne_none_iff_isSome] at hnew

/-! ## Uploads -/

/-- What the loop keeps. -/
structure Upload.Good (md5 : Bytes → Text) (filesystem : List (Text × Row)) (u : Upload) :
    Prop where
  consistent : u.db.Consistent md5
  filesystem_eq : u.db.filesystem = filesystem
  information_eq : u.information = u.filesystem.map Row.information
  stored : ∀ r ∈ u.filesystem, ∀ hash, r.fileHash = some hash →
    ∃ content, u.db.content hash = some content

variable {u : Upload} {filesystem : List (Text × Row)}

/-- One more folder. -/
theorem Upload.Good.addDir (h : u.Good md5 filesystem) (root : Text) (dir : Name) :
    (Packages.addDir path root u dir).Good md5 filesystem := by
  refine ⟨h.consistent, h.filesystem_eq, ?_, fun r hr => ?_⟩
  · show u.information ++ [_] = (u.filesystem ++ [_]).map Row.information
    rw [h.information_eq, List.map_append]
    rfl
  · rcases List.mem_append.mp hr with hold | hlast
    · exact h.stored r hold
    · obtain rfl := List.mem_singleton.mp hlast
      intro hash hhash
      cases hhash

/-- One more file, under any path. -/
theorem Upload.Good.add (h : u.Good md5 filesystem) (path : Text) (data : Bytes) :
    Upload.Good md5 filesystem
      ⟨(storeFileInDatabase md5 u.db data).1,
        u.filesystem ++ [⟨path, some (storeFileInDatabase md5 u.db data).2⟩],
        u.information ++ [(path, (storeFileInDatabase md5 u.db data).2)]⟩ := by
  obtain ⟨hhash, hconsistent, hfilesystem, hdata, hmono⟩ := storeFile_spec h.consistent data
  refine ⟨hconsistent, hfilesystem.trans h.filesystem_eq, ?_, fun r hr hash hr' => ?_⟩
  · show u.information ++ [_] = (u.filesystem ++ [_]).map Row.information
    rw [h.information_eq, List.map_append]
    rfl
  · rcases List.mem_append.mp hr with hold | hlast
    · obtain ⟨content, hcontent⟩ := h.stored r hold hash hr'
      exact ⟨content, hmono hash content hcontent⟩
    · obtain rfl := List.mem_singleton.mp hlast
      obtain rfl := Option.some.inj hr'
      rw [hhash]
      exact hdata

theorem Upload.Good.addFile (h : u.Good md5 filesystem) (root : Text) (file : Name × Bytes) :
    (Packages.addFile md5 path root u file).Good md5 filesystem := by
  rw [Packages.addFile]
  split_ifs
  · exact h
  · exact h.add _ file.2

/-- What each turn of a loop keeps, the loop keeps. -/
theorem foldl_keeps {S T : Type} {P : S → Prop} {step : S → T → S} (h : ∀ s t, P s → P (step s t))
    (ts : List T) {s : S} (hs : P s) : P (ts.foldl step s) :=
  exec_invariant P h hs ts

theorem uploadFolder_good (h : db.Consistent md5) (path : Text) (f : Folder) :
    (uploadFolder md5 db path f).Good md5 db.filesystem := by
  refine foldl_keeps (fun u v hu => ?_) (walk path f) ⟨h, rfl, rfl, fun r hr => nomatch hr⟩
  exact foldl_keeps (fun u file hu => hu.addFile v.1 file) v.2.2
    (foldl_keeps (fun u dir hu => hu.addDir v.1 dir) _ hu)

theorem uploadFiles_good (h : db.Consistent md5) (files : List (Name × Bytes)) :
    (files.foldl (addSingleFile md5) ⟨db, [], []⟩).Good md5 db.filesystem :=
  foldl_keeps (fun _ file hu => hu.add file.1 file.2) files ⟨h, rfl, rfl, fun _ hr => nomatch hr⟩

/-! ## The rows of an upload -/

theorem foldl_addDir_filesystem (root : Text) (dirs : List Name) (u : Upload) :
    (dirs.foldl (addDir path root) u).filesystem =
      u.filesystem ++ dirs.map fun dir => rowAt md5 path root ([dir], .dir) := by
  induction dirs generalizing u with
  | nil => exact (List.append_nil _).symm
  | cons dir dirs ih =>
    rw [List.foldl_cons, ih]
    show u.filesystem ++ [_] ++ _ = _
    rw [List.append_assoc]
    rfl

theorem addFile_filesystem (root : Text) (u : Upload) (file : Name × Bytes) :
    (addFile md5 path root u file).filesystem = u.filesystem ++
      if isIgnored file.1 then [] else [rowAt md5 path root ([file.1], .file file.2)] := by
  have hhash : (storeFileInDatabase md5 u.db file.2).2 = md5 file.2 := by
    rw [storeFileInDatabase]
    split_ifs <;> rfl
  rw [addFile]
  split_ifs with hname
  · exact (List.append_nil _).symm
  · show u.filesystem ++ [⟨_, some (storeFileInDatabase md5 u.db file.2).2⟩] = _
    rw [hhash]
    rfl

theorem foldl_addFile_filesystem (root : Text) (files : List (Name × Bytes)) (u : Upload) :
    (files.foldl (addFile md5 path root) u).filesystem =
      u.filesystem ++ (files.filter fun file => !isIgnored file.1).map
        fun file => rowAt md5 path root ([file.1], .file file.2) := by
  induction files generalizing u with
  | nil => exact (List.append_nil _).symm
  | cons file files ih =>
    rw [List.foldl_cons, ih, addFile_filesystem, List.append_assoc, List.filter_cons]
    by_cases hname : isIgnored file.1 <;> simp [hname]

theorem visit_filesystem (u : Upload) (v : Visit) :
    (visit md5 path u v).filesystem = u.filesystem ++ visitRows md5 path v := by
  show (v.2.2.foldl (addFile md5 path v.1) _).filesystem = _
  rw [foldl_addFile_filesystem, foldl_addDir_filesystem, List.append_assoc]
  rfl

theorem foldl_visit_filesystem (vs : List Visit) (u : Upload) :
    (vs.foldl (visit md5 path) u).filesystem = u.filesystem ++ vs.flatMap (visitRows md5 path) := by
  induction vs generalizing u with
  | nil => exact (List.append_nil _).symm
  | cons v vs ih =>
    rw [List.foldl_cons, ih, visit_filesystem, List.append_assoc, List.flatMap_cons]

/-- An upload has the rows of the folder's listing. -/
theorem uploadFolder_filesystem (hpath : path ≠ []) (hf : f.Valid) :
    (uploadFolder md5 db path f).filesystem.Perm (listing md5 path f) := by
  rw [uploadFolder, foldl_visit_filesystem]
  exact walk_flatMap_visitRows hpath hf

/-! ## Identifiers -/

theorem encode_injective : Function.Injective encode := fun _ _ h =>
  String.ofList_injective (String.toByteArray_inj.mp h)

/-- Equal identifiers come from equal information. -/
theorem information_perm (hmd5 : CollisionFree md5) {a b : List (Text × Text)}
    (h : packageId md5 a = packageId md5 b) : a.Perm b := by
  have hsort : sortByPath a = sortByPath b :=
    Json.dumps_injective informationCodec (encode_injective (hmd5.injective h))
  have ha : (sortByPath a).Perm a := List.mergeSort_perm a _
  rw [hsort] at ha
  exact ha.symm.trans (List.mergeSort_perm b _)

/-- Sorting by a text leaves a list in the order of these texts. -/
theorem pairwise_mergeSort_key {α : Type} (key : α → Text) (l : List α) :
    (l.mergeSort fun x y => decide (key x ≤ key y)).Pairwise fun x y => key x ≤ key y := by
  have hsorted : (l.mergeSort fun x y => decide (key x ≤ key y)).Pairwise
      fun x y => decide (key x ≤ key y) = true := by
    refine List.pairwise_mergeSort (fun x y z hxy hyz => ?_) (fun x y => ?_) l
    · rw [decide_eq_true_eq] at *
      exact le_trans hxy hyz
    · rw [Bool.or_eq_true, decide_eq_true_eq, decide_eq_true_eq]
      exact le_total (key x) (key y)
  exact hsorted.imp fun h => of_decide_eq_true h

theorem pairwise_sortByPath (a : List (Text × Text)) :
    (sortByPath a).Pairwise fun x y => x.1 ≤ y.1 := pairwise_mergeSort_key Prod.fst a

/-- The order in which a folder is walked does not matter when no path comes twice. -/
theorem packageId_of_perm {a b : List (Text × Text)} (h : a.Perm b)
    (hnodup : (a.map Prod.fst).Nodup) : packageId md5 a = packageId md5 b := by
  have hsort : sortByPath a = sortByPath b := by
    refine List.Perm.eq_of_pairwise (fun x y hx hy hxy hyx => ?_) (pairwise_sortByPath a)
      (pairwise_sortByPath b)
      ((List.mergeSort_perm a _).trans (h.trans (List.mergeSort_perm b _).symm))
    have hxa : x ∈ a := (List.mergeSort_perm a _).mem_iff.mp hx
    have hya : y ∈ a := h.mem_iff.mpr ((List.mergeSort_perm b _).mem_iff.mp hy)
    exact List.inj_on_of_nodup_map hnodup hxa hya (le_antisymm hxy hyx)
  rw [packageId, packageId, hsort]

/-- A row whose hash, if any, is the hash of something. -/
def Row.Hashed (md5 : Bytes → Text) (r : Row) : Prop :=
  ∀ hash, r.fileHash = some hash → ∃ content, hash = md5 content

/-- Equal identifiers come from equal rows. -/
theorem perm_of_idOf (hmd5 : CollisionFree md5) {rows rows' : List Row}
    (hrows : ∀ r ∈ rows, r.Hashed md5) (hrows' : ∀ r ∈ rows', r.Hashed md5)
    (h : idOf md5 rows = idOf md5 rows') : rows.Perm rows' := by
  have hperm := information_perm hmd5 h
  -- the information of a hashed row can be read back
  let back : Text × Text → Row := fun e => ⟨e.1, if e.2 = dirText then none else some e.2⟩
  have hback : ∀ rows : List Row, (∀ r ∈ rows, r.Hashed md5) →
      (rows.map Row.information).map back = rows := by
    intro rows hrows
    rw [List.map_map]
    conv_rhs => rw [← List.map_id rows]
    refine List.map_congr_left fun r hr => ?_
    obtain ⟨path, hash⟩ := r
    cases hash with
    | none => rfl
    | some hash =>
      obtain ⟨content, rfl⟩ := hrows _ hr hash rfl
      show Row.mk path (if md5 content = dirText then none else some (md5 content)) = _
      rw [if_neg (hmd5.ne_dir content)]
      rfl
  rw [← hback rows hrows, ← hback rows' hrows']
  exact hperm.map back

/-! ## Packages -/

theorem mem_rows {package : Text} {r : Row} :
    r ∈ db.rows package ↔ (package, r) ∈ db.filesystem := by
  simp [Db.rows]

theorem Db.Consistent.hashed (h : db.Consistent md5) {package : Text} :
    ∀ r ∈ db.rows package, r.Hashed md5 := by
  intro r hr hash hhash
  obtain ⟨content, hcontent⟩ := h.stored _ (mem_rows.mp hr) hash hhash
  exact ⟨content, Db.hash_of_content h.files hcontent⟩

theorem Upload.Good.hashed (h : u.Good md5 filesystem) : ∀ r ∈ u.filesystem, r.Hashed md5 := by
  intro r hr hash hhash
  obtain ⟨content, hcontent⟩ := h.stored r hr hash hhash
  exact ⟨content, Db.hash_of_content h.consistent.files hcontent⟩

theorem addAll_eq {package : Text} {rows : List Row} {db' : Db}
    (h : db.addAll package rows = some db') :
    db' = { db with filesystem := db.filesystem ++ rows.map (Prod.mk package) } ∧
      (db'.filesystem.map fun e => (e.1, e.2.path)).Nodup := by
  rw [Db.addAll] at h
  split_ifs at h with hnodup
  obtain rfl := Option.some.inj h
  exact ⟨rfl, hnodup⟩

theorem rows_append (db : Db) (package : Text) (rows : List Row) (other : Text) :
    Db.rows { db with filesystem := db.filesystem ++ rows.map (Prod.mk package) } other =
      db.rows other ++ if package = other then rows else [] := by
  rw [Db.rows, List.filter_append, List.map_append]
  congr 1
  split_ifs with hpackage
  · subst hpackage
    rw [List.filter_eq_self.mpr (by simp), List.map_map]
    exact List.map_id rows
  · rw [List.filter_eq_nil_iff.mpr (by simp [hpackage])]
    rfl

/-- How an upload ends. -/
theorem finish_cases (md5 : Bytes → Text) (u : Upload) :
    (u.db.rows (packageId md5 u.information) ≠ [] ∧
      finish md5 u = (u.db, .ok (packageId md5 u.information, false))) ∨
    (u.db.rows (packageId md5 u.information) = [] ∧ finish md5 u = (u.db, .error .integrity)) ∨
    ∃ db, u.db.rows (packageId md5 u.information) = [] ∧
      u.db.addAll (packageId md5 u.information) u.filesystem = some db ∧
      finish md5 u = (db, .ok (packageId md5 u.information, true)) := by
  rw [finish]
  split_ifs with hexists
  · exact Or.inl ⟨List.length_pos_iff.mp hexists, rfl⟩
  · have hnone : u.db.rows (packageId md5 u.information) = [] := by
      rwa [not_lt, Nat.le_zero, List.length_eq_zero_iff] at hexists
    cases hadd : u.db.addAll (packageId md5 u.information) u.filesystem with
    | none => exact Or.inr (Or.inl ⟨hnone, rfl⟩)
    | some db => exact Or.inr (Or.inr ⟨db, hnone, rfl, rfl⟩)

theorem Upload.Good.id_eq (h : u.Good md5 filesystem) :
    packageId md5 u.information = idOf md5 u.filesystem := by
  rw [idOf, h.information_eq]

theorem finish_consistent (h : u.Good md5 filesystem) : (finish md5 u).1.Consistent md5 := by
  obtain ⟨-, heq⟩ | ⟨-, heq⟩ | ⟨db, hnone, hadd, heq⟩ := finish_cases md5 u
  · rw [heq]
    exact h.consistent
  · rw [heq]
    exact h.consistent
  · rw [heq]
    obtain ⟨rfl, hnodup⟩ := addAll_eq hadd
    refine ⟨h.consistent.files, fun e he hash hhash => ?_, fun package hrows => ?_, hnodup⟩
    · rcases List.mem_append.mp he with hold | hnew
      · exact h.consistent.stored e hold hash hhash
      · obtain ⟨r, hr, rfl⟩ := List.mem_map.mp hnew
        exact h.stored r hr hash hhash
    · rw [rows_append] at hrows ⊢
      split_ifs at hrows ⊢ with hpackage
      · subst hpackage
        rw [hnone, List.nil_append, ← h.id_eq]
      · rw [List.append_nil] at hrows ⊢
        exact h.consistent.identified package hrows

/-- A package has these rows. -/
structure Holds (md5 : Bytes → Text) (db : Db) (package : Text) (rows : List Row) : Prop where
  id_eq : idOf md5 rows = package
  hashed : ∀ r ∈ rows, r.Hashed md5
  perm : (db.rows package).Perm rows

/-- An upload that returns a package has put its rows there. -/
theorem finish_holds (hmd5 : CollisionFree md5) (h : u.Good md5 filesystem) {package : Text}
    {isNew : Bool} (hok : (finish md5 u).2 = .ok (package, isNew)) :
    Holds md5 (finish md5 u).1 package u.filesystem := by
  obtain ⟨hrows, heq⟩ | ⟨-, heq⟩ | ⟨db, hnone, hadd, heq⟩ := finish_cases md5 u
  · rw [heq] at hok ⊢
    obtain ⟨rfl, -⟩ := Prod.mk.inj (Except.ok.inj hok)
    have hid := h.consistent.identified _ hrows
    exact ⟨h.id_eq.symm, h.hashed,
      perm_of_idOf hmd5 h.consistent.hashed h.hashed (hid.trans h.id_eq)⟩
  · rw [heq] at hok
    cases hok
  · rw [heq] at hok ⊢
    obtain ⟨rfl, -⟩ := Prod.mk.inj (Except.ok.inj hok)
    obtain ⟨rfl, -⟩ := addAll_eq hadd
    refine ⟨h.id_eq.symm, h.hashed, ?_⟩
    rw [rows_append, if_pos rfl, hnone]
    exact List.Perm.refl _

/-- A package keeps its rows when another upload ends. -/
theorem Holds.finish (hmd5 : CollisionFree md5) (h : u.Good md5 filesystem) {package : Text}
    {rows : List Row} (hholds : Holds md5 u.db package rows) :
    Holds md5 (Packages.finish md5 u).1 package rows := by
  obtain ⟨-, heq⟩ | ⟨-, heq⟩ | ⟨db, hnone, hadd, heq⟩ := finish_cases md5 u
  · rwa [heq]
  · rwa [heq]
  · rw [heq]
    obtain ⟨rfl, -⟩ := addAll_eq hadd
    refine ⟨hholds.id_eq, hholds.hashed, ?_⟩
    rw [rows_append]
    split_ifs with hpackage
    · -- the package that is new has the same rows: both are empty
      subst hpackage
      have hempty : rows = [] := by
        have hperm := hholds.perm
        rw [hnone] at hperm
        exact hperm.symm.eq_nil
      have hnew : u.filesystem.Perm rows :=
        perm_of_idOf hmd5 h.hashed hholds.hashed (h.id_eq.symm.trans hholds.id_eq.symm)
      rw [hempty] at hnew ⊢
      rw [hnone, hnew.eq_nil]
      exact List.Perm.refl _
    · rw [List.append_nil]
      exact hholds.perm

/-! ## Loading -/

/-- A property of the LFS folder that a call leaves behind. -/
def Leaves {α : Type} (lfsOf : α → Lfs) (P : Lfs → Prop) : Except Lfs α → Prop
  | .ok a => P (lfsOf a)
  | .error lfs => P lfs

theorem Leaves.bind {α β : Type} {lfsOf : α → Lfs} {lfsOf' : β → Lfs} {P : Lfs → Prop}
    {x : Except Lfs α} {k : α → Except Lfs β} (h : Leaves lfsOf P x)
    (hk : ∀ a, P (lfsOf a) → Leaves lfsOf' P (k a)) : Leaves lfsOf' P (x >>= k) := by
  cases x with
  | error lfs => exact h
  | ok a => exact hk a h

theorem leaves_place {P : Lfs → Prop} {lfs : Lfs} (h : P lfs) (disk : Option LocalDisk) :
    Leaves Prod.snd P (place lfs disk) := by
  cases disk <;> exact h

/-- The files of an LFS folder stand under their hashes. -/
def Lfs.Consistent (md5 : Bytes → Text) (lfs : Lfs) : Prop := ∀ e ∈ lfs, e.1 = md5 e.2

theorem leaves_loadRow (hdb : db.Consistent md5) {useLfs : Bool} {base : List Name}
    {state : LocalDisk × Lfs} (hlfs : state.2.Consistent md5) (r : Row) :
    Leaves Prod.snd (Lfs.Consistent md5) (loadRow db useLfs base state r) := by
  obtain ⟨disk, lfs⟩ := state
  rw [loadRow]
  cases r.fileHash with
  | none => exact leaves_place hlfs _
  | some hash =>
    dsimp only
    split_ifs with hempty hlink
    · exact leaves_place hlfs _
    · exact leaves_place hlfs _
    · cases hcontent : db.content hash with
      | none => exact hlfs
      | some content =>
        dsimp only
        split_ifs
        · refine leaves_place (fun e he => ?_) _
          rcases List.mem_cons.mp he with rfl | hold
          · exact Db.hash_of_content hdb.files hcontent
          · exact hlfs e hold
        · exact leaves_place hlfs _

theorem leaves_foldlM_loadRow (hdb : db.Consistent md5) {useLfs : Bool} {base : List Name}
    (rows : List Row) {state : LocalDisk × Lfs} (hlfs : state.2.Consistent md5) :
    Leaves Prod.snd (Lfs.Consistent md5) (rows.foldlM (loadRow db useLfs base) state) := by
  induction rows generalizing state with
  | nil => exact hlfs
  | cons r rows ih =>
    rw [List.foldlM_cons]
    exact (leaves_loadRow hdb hlfs r).bind fun _ h => ih h

theorem leaves_load (hdb : db.Consistent md5) {orderBy : List Row → List Row} {package : Text}
    {disk : LocalDisk} {parent : List Name} {name : Name} {useLfs : Bool} {lfs : Lfs}
    (hlfs : lfs.Consistent md5) :
    Leaves (fun r => r.2.2) (Lfs.Consistent md5)
      (loadPackageToFolder orderBy db package disk parent name useLfs lfs) := by
  rw [loadPackageToFolder]
  split_ifs
  · exact hlfs
  · refine (leaves_place hlfs _).bind fun a ha => ?_
    refine (leaves_foldlM_loadRow hdb _ ha).bind fun b hb => ?_
    exact (leaves_place hb _).bind fun _ hc => hc

/-! ## Runs -/

/-- The invariant of the store. -/
structure Store.Consistent (md5 : Bytes → Text) (s : Store) : Prop where
  db : s.db.Consistent md5
  lfs : s.lfs.Consistent md5

theorem Store.consistent_empty : Store.empty.Consistent md5 :=
  ⟨⟨fun _ he => (nomatch he), fun _ he => (nomatch he), fun _ hrows => absurd rfl hrows,
    List.nodup_nil⟩, fun _ he => (nomatch he)⟩

variable {orderBy : List Row → List Row} {s : Store}

theorem Store.step_load_db (s : Store) (package : Text) (disk : LocalDisk) (parent : List Name)
    (name : Name) (useLfs : Bool) :
    (s.step md5 orderBy (.load package disk parent name useLfs)).db = s.db := by
  rw [Store.step]
  split <;> rfl

theorem Store.Consistent.step (h : s.Consistent md5) (e : Event) :
    (s.step md5 orderBy e).Consistent md5 := by
  cases e with
  | moveFolder path tree => exact ⟨finish_consistent (uploadFolder_good h.db path _), h.lfs⟩
  | moveFiles files => exact ⟨finish_consistent (uploadFiles_good h.db files), h.lfs⟩
  | load package disk parent name useLfs =>
    refine ⟨by rw [Store.step_load_db]; exact h.db, ?_⟩
    have hleaves : Leaves (fun r => r.2.2) (Lfs.Consistent md5)
        (loadPackageToFolder orderBy s.db package disk parent name useLfs s.lfs) :=
      leaves_load h.db h.lfs
    rw [Store.step]
    cases hload : loadPackageToFolder orderBy s.db package disk parent name useLfs s.lfs with
    | ok r =>
      rw [hload] at hleaves
      exact hleaves
    | error lfs =>
      rw [hload] at hleaves
      exact hleaves

/-- Every store that comes about is consistent. -/
theorem consistent_exec (es : List Event) :
    (exec (Store.step md5 orderBy) Store.empty es).Consistent md5 :=
  exec_invariant _ (fun _ e h => h.step e) Store.consistent_empty es

theorem Holds.of_filesystem_eq {db' : Db} {package : Text} {rows : List Row}
    (h : Holds md5 db package rows) (heq : db'.filesystem = db.filesystem) :
    Holds md5 db' package rows :=
  ⟨h.id_eq, h.hashed, by rw [Db.rows, heq]; exact h.perm⟩

theorem Holds.step (hmd5 : CollisionFree md5) (hs : s.Consistent md5) {package : Text}
    {rows : List Row} (h : Holds md5 s.db package rows) (e : Event) :
    Holds md5 (s.step md5 orderBy e).db package rows := by
  cases e with
  | moveFolder path tree =>
    have hgood := uploadFolder_good hs.db path tree.folder
    exact (h.of_filesystem_eq hgood.filesystem_eq).finish hmd5 hgood
  | moveFiles files =>
    have hgood := uploadFiles_good hs.db files
    exact (h.of_filesystem_eq hgood.filesystem_eq).finish hmd5 hgood
  | load package disk parent name useLfs =>
    rw [Store.step_load_db]
    exact h

/-- A package keeps its rows, whatever else is uploaded and loaded. -/
theorem holds_exec (hmd5 : CollisionFree md5) (hs : s.Consistent md5) {package : Text}
    {rows : List Row} (h : Holds md5 s.db package rows) (es : List Event) :
    (exec (Store.step md5 orderBy) s es).Consistent md5 ∧
      Holds md5 (exec (Store.step md5 orderBy) s es).db package rows :=
  exec_invariant (fun s : Store => s.Consistent md5 ∧ Holds md5 s.db package rows)
    (fun _ e h => ⟨h.1.step e, h.2.step hmd5 h.1 e⟩) ⟨hs, h⟩ es

end Gameserver.Packages
