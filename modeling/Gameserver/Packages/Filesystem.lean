import Gameserver.Packages.Folder
import Gameserver.Lib.Machine

/-!
# The package store

`DBFilesystem`: folders are uploaded into packages, one row for each entry, with the contents
of the files stored once under their MD5 hash; packages are loaded into folders, with large
files linked from the LFS folder if there is one.

* `walk`, `Upload`, `uploadFolder` — the listing of a folder, in the order of `os.walk`.
* `packageId`, `moveFolderToPackage`, `moveSingleFilesToPackage` — storing.
* `loadPackageToFolder` — loading.
* `Store.step` — the store under all of these.

MD5 and the collation of the database are parameters.  The LFS folder lies apart from the
folders that are loaded into, and its path is absolute: a relative one would leave dangling links.
Names are Unicode texts.
-/

namespace Gameserver.Packages

open Json (Text)
open FileSystem

/-- A row of `CheckerFilesystem`; no hash means a folder. -/
structure Row where
  path : Text
  fileHash : Option Text
deriving DecidableEq, Repr

/-- The tables `checker_filesystem`, each row after its package, and `checker_files`. -/
structure Db where
  filesystem : List (Text × Row)
  files : List (Text × Bytes)
deriving DecidableEq

/-- `CheckerFilesystem.query.filter(CheckerFilesystem.package == package)` -/
def Db.rows (db : Db) (package : Text) : List Row :=
  (db.filesystem.filter fun e => e.1 = package).map Prod.snd

/-- `CheckerFile.query.filter(CheckerFile.file_hash == hash)` -/
def Db.content (db : Db) (hash : Text) : Option Bytes :=
  (db.files.find? fun e => e.1 = hash).map Prod.snd

/-- `session.add_all(rows)` and `session.commit()`, with the unique constraint on package and
path. -/
def Db.addAll (db : Db) (package : Text) (rows : List Row) : Option Db :=
  let filesystem := db.filesystem ++ rows.map (Prod.mk package)
  if (filesystem.map fun e => (e.1, e.2.path)).Nodup then some { db with filesystem := filesystem }
  else none

/-- What an upload raises. -/
inductive Failure where
  | integrity
deriving DecidableEq, Repr

variable (md5 : Bytes → Text)

/-- `DBFilesystem.store_file_in_database` -/
def storeFileInDatabase (db : Db) (data : Bytes) : Db × Text :=
  let hash := md5 data
  if (db.content hash).isNone then ({ db with files := db.files ++ [(hash, data)] }, hash)
  else (db, hash)

/-! ## Listing a folder -/

/-- The folders in a folder, in order. -/
def Folder.subdirs : Folder → List Name
  | .nil => []
  | .file _ _ rest => rest.subdirs
  | .dir name _ rest => name :: rest.subdirs

/-- The files in a folder, in order. -/
def Folder.files : Folder → List (Name × Bytes)
  | .nil => []
  | .file name content rest => (name, content) :: rest.files
  | .dir _ _ rest => rest.files

/-- `os.path.join(root, name)` -/
def join (root : Text) (name : Name) : Text :=
  if root = [] ∨ root.getLast? = some '/' then root ++ name else root ++ '/' :: name

/-- What `os.walk` yields: a root, its folders and its files. -/
abbrev Visit := Text × List Name × List (Name × Bytes)

/-- `os.walk` below a root; the loop removes the ignored folders from those still to be
visited. -/
def walkDirs (root : Text) : Folder → List Visit
  | .nil => []
  | .file _ _ rest => walkDirs root rest
  | .dir name inner rest =>
    (if isIgnored name then []
      else (join root name, inner.subdirs, inner.files) :: walkDirs (join root name) inner) ++
      walkDirs root rest

/-- `os.walk(folder)` -/
def walk (path : Text) (f : Folder) : List Visit :=
  (path, f.subdirs, f.files) :: walkDirs path f

/-- `name if root == folder else root[len(folder) + 1:] + '/' + name` -/
def cutPath (path root : Text) (name : Name) : Text :=
  if root = path then name else root.drop (path.length + 1) ++ '/' :: name

/-- The loop's variables. -/
structure Upload where
  db : Db
  filesystem : List Row
  information : List (Text × Text)

/-- The text that stands for a folder in the file information. -/
def dirText : Text := "dir".toList

/-- Add a folder. -/
def addDir (path root : Text) (u : Upload) (dir : Name) : Upload :=
  let path := cutPath path root dir
  { u with
    filesystem := u.filesystem ++ [⟨path, none⟩]
    information := u.information ++ [(path, dirText)] }

/-- Add a file. -/
def addFile (path root : Text) (u : Upload) (file : Name × Bytes) : Upload :=
  if isIgnored file.1 then u
  else
    let path := cutPath path root file.1
    let (db, hash) := storeFileInDatabase md5 u.db file.2
    { db := db
      filesystem := u.filesystem ++ [⟨path, some hash⟩]
      information := u.information ++ [(path, hash)] }

/-- One turn of the loop over `os.walk`. -/
def visit (path : Text) (u : Upload) (v : Visit) : Upload :=
  let (root, subdirs, files) := v
  let u := (subdirs.filter fun dir => !isIgnored dir).foldl (addDir path root) u
  files.foldl (addFile md5 path root) u

/-- The loop over `os.walk`. -/
def uploadFolder (db : Db) (path : Text) (f : Folder) : Upload :=
  (walk path f).foldl (visit md5 path) ⟨db, [], []⟩

/-! ## Storing -/

/-- `file_information.sort(key=lambda x: x[0])` -/
def sortByPath (information : List (Text × Text)) : List (Text × Text) :=
  information.mergeSort fun a b => a.1 ≤ b.1

/-- `text.encode('utf8')` -/
def encode (text : Text) : Bytes := (String.ofList text).toUTF8

/-- The JSON of the file information. -/
def informationCodec : Json.Codec (List (Text × Text)) :=
  Json.array (Json.pair Json.string Json.string)

/-- The package's identifier. -/
def packageId (information : List (Text × Text)) : Text :=
  md5 (encode (Json.dumps informationCodec (sortByPath information)))

/-- The end of both uploads: a package that exists is left alone. -/
def finish (u : Upload) : Db × Except Failure (Text × Bool) :=
  let package := packageId md5 u.information
  if (u.db.rows package).length > 0 then (u.db, .ok (package, false))
  else
    match u.db.addAll package u.filesystem with
    | some db => (db, .ok (package, true))
    | none => (u.db, .error .integrity)

/-- `DBFilesystem.move_folder_to_package` -/
def moveFolderToPackage (db : Db) (path : Text) (f : Folder) :
    Db × Except Failure (Text × Bool) :=
  finish md5 (uploadFolder md5 db path f)

/-- Add a single file. -/
def addSingleFile (u : Upload) (file : Name × Bytes) : Upload :=
  let (db, hash) := storeFileInDatabase md5 u.db file.2
  { db := db
    filesystem := u.filesystem ++ [⟨file.1, some hash⟩]
    information := u.information ++ [(file.1, hash)] }

/-- `DBFilesystem.move_single_files_to_package` -/
def moveSingleFilesToPackage (db : Db) (files : List (Name × Bytes)) :
    Db × Except Failure (Text × Bool) :=
  finish md5 (files.foldl (addSingleFile md5) ⟨db, [], []⟩)

/-! ## Loading -/

/-- The disk that is loaded to; links lead to the hashes of the LFS folder. -/
abbrev LocalDisk := Disk Name Bytes Text

/-- The files of the LFS folder, by their hash. -/
abbrev Lfs := List (Text × Bytes)

/-- What the LFS folder holds. -/
def Lfs.content (lfs : Lfs) (hash : Text) : Option Bytes :=
  (lfs.find? fun e => e.1 = hash).map Prod.snd

/-- Files above this size go to the LFS folder. -/
def lfsThreshold : ℕ := 500000

/-- The end of a call on the disk; where it raises, what is in the LFS folder stays there. -/
def place (lfs : Lfs) : Option LocalDisk → Except Lfs (LocalDisk × Lfs)
  | some disk => .ok (disk, lfs)
  | none => .error lfs

/-- One turn of the loop over the rows. -/
def loadRow (db : Db) (useLfs : Bool) (base : List Name) (state : LocalDisk × Lfs) (row : Row) :
    Except Lfs (LocalDisk × Lfs) :=
  let (disk, lfs) := state
  let location := resolve base row.path
  match row.fileHash with
  | none => place lfs (makeDirs disk location)
  | some hash =>
    if hash = [] then place lfs (makeDirs disk location)
    else if useLfs ∧ (lfs.content hash).isSome then place lfs (symlink disk location hash)
    else
      match db.content hash with
      | none => .error lfs
      | some content =>
        if useLfs ∧ content.size > lfsThreshold then
          place ((hash, content) :: lfs) (symlink disk location hash)
        else place lfs (write disk location content)

/-- `Path(str(folder) + '.tmp')` -/
def tmpName (name : Name) : Name := name ++ ".tmp".toList

/-- `DBFilesystem.load_package_to_folder`, for the folder `name` in `parent`. -/
def loadPackageToFolder (orderBy : List Row → List Row) (db : Db) (package : Text)
    (disk : LocalDisk) (parent : List Name) (name : Name) (useLfs : Bool) (lfs : Lfs) :
    Except Lfs (Bool × LocalDisk × Lfs) :=
  if (get disk (parent ++ [name])).isSome then .ok (false, disk, lfs)
  else do
    let base := parent ++ [tmpName name]
    let (disk, lfs) ← place lfs (makeDirs disk base)
    let (disk, lfs) ← (orderBy (db.rows package)).foldlM (loadRow db useLfs base) (disk, lfs)
    let (disk, lfs) ← place lfs (rename disk base (parent ++ [name]))
    return (true, disk, lfs)

/-! ## The store -/

/-- The database and an LFS folder. -/
structure Store where
  db : Db
  lfs : Lfs

/-- The store at the beginning. -/
def Store.empty : Store := ⟨⟨[], []⟩, []⟩

/-- What is done with the store. -/
inductive Event where
  | moveFolder (path : Text) (tree : Tree)
  | moveFiles (files : List (Name × Bytes))
  | load (package : Text) (disk : LocalDisk) (parent : List Name) (name : Name) (useLfs : Bool)

/-- One call. -/
def Store.step (orderBy : List Row → List Row) (s : Store) : Event → Store
  | .moveFolder path tree => { s with db := (moveFolderToPackage md5 s.db path tree.folder).1 }
  | .moveFiles files => { s with db := (moveSingleFilesToPackage md5 s.db files).1 }
  | .load package disk parent name useLfs =>
    match loadPackageToFolder orderBy s.db package disk parent name useLfs s.lfs with
    | .ok (_, _, lfs) | .error lfs => { s with lfs := lfs }

end Gameserver.Packages
