import Gameserver.Packages.Filesystem

/-!
# What an upload lists

The rows of an upload are, up to their order, one for each entry that is not ignored
(`uploadFolder_filesystem`).  The path of a row is the entry's path below the folder, except
that a folder string that ends in a slash takes one character too many from every entry that
does not stand directly in the folder (`rowPath`).
-/

namespace Gameserver.Packages

open Json (Text)

variable {md5 : Bytes → Text} {path root : Text} {db : Db} {f : Folder} {e : Entry}

/-! ## Rows -/

/-- The hash of what stands at a path. -/
def Node.hash (md5 : Bytes → Text) : Node → Option Text
  | .dir => none
  | .file content => some (md5 content)

/-- The path of a row, as the roots of `os.walk` give it. -/
def cutPaths (path root : Text) : List Name → Text
  | [] => []
  | [name] => cutPath path root name
  | name :: next :: p => cutPaths path (join root name) (next :: p)

/-- The row of an entry of the folder at `root`. -/
def rowAt (md5 : Bytes → Text) (path root : Text) (e : Entry) : Row :=
  ⟨cutPaths path root e.1, e.2.hash md5⟩

/-- The rows of one turn of the loop. -/
def visitRows (md5 : Bytes → Text) (path : Text) (v : Visit) : List Row :=
  ((v.2.1.filter fun dir => !isIgnored dir).map fun dir => rowAt md5 path v.1 ([dir], .dir)) ++
    (v.2.2.filter fun file => !isIgnored file.1).map fun file =>
      rowAt md5 path v.1 ([file.1], .file file.2)

/-- An element added to the end of either part of a list. -/
theorem perm_middle_append {α : Type} (a : α) (xs ys zs : List α) :
    (xs ++ a :: ys ++ zs).Perm (a :: (xs ++ ys ++ zs)) := by
  rw [List.append_assoc, List.append_assoc]
  exact List.perm_middle

/-- All turns at and below a root give one row for each entry that is not ignored. -/
theorem walk_rows (f : Folder) (root : Text) :
    (visitRows md5 path (root, f.subdirs, f.files) ++
        (walkDirs root f).flatMap (visitRows md5 path)).Perm
      (f.prune.entries.map (rowAt md5 path root)) := by
  induction f generalizing root with
  | nil => exact List.Perm.refl []
  | file name content rest ih =>
    rw [Folder.prune]
    by_cases hname : isIgnored name
    · have hvisit : visitRows md5 path (root, (Folder.file name content rest).subdirs,
          (Folder.file name content rest).files) =
          visitRows md5 path (root, rest.subdirs, rest.files) := by
        simp [visitRows, Folder.subdirs, Folder.files, hname]
      rw [if_pos hname, hvisit]
      exact ih root
    · have hvisit : visitRows md5 path (root, (Folder.file name content rest).subdirs,
          (Folder.file name content rest).files) =
          ((rest.subdirs.filter fun dir => !isIgnored dir).map
              fun dir => rowAt md5 path root ([dir], .dir)) ++
            rowAt md5 path root ([name], .file content) ::
            (rest.files.filter fun file => !isIgnored file.1).map
              fun file => rowAt md5 path root ([file.1], .file file.2) := by
        simp [visitRows, Folder.subdirs, Folder.files, hname]
      rw [if_neg hname, hvisit, Folder.entries, List.map_cons]
      exact (perm_middle_append _ _ _ _).trans ((ih root).cons _)
  | dir name inner rest ihInner ih =>
    rw [Folder.prune]
    by_cases hname : isIgnored name
    · have hvisit : visitRows md5 path (root, (Folder.dir name inner rest).subdirs,
          (Folder.dir name inner rest).files) =
          visitRows md5 path (root, rest.subdirs, rest.files) := by
        simp [visitRows, Folder.subdirs, Folder.files, hname]
      rw [if_pos hname, hvisit, walkDirs, if_pos hname, List.nil_append]
      exact ih root
    · have hvisit : visitRows md5 path (root, (Folder.dir name inner rest).subdirs,
          (Folder.dir name inner rest).files) =
          rowAt md5 path root ([name], .dir) ::
            visitRows md5 path (root, rest.subdirs, rest.files) := by
        simp [visitRows, Folder.subdirs, Folder.files, hname]
      have hbelow : inner.prune.entries.map (rowAt md5 path (join root name)) =
          (inner.prune.entries.map (Entry.below name)).map (rowAt md5 path root) := by
        rw [List.map_map]
        refine List.map_congr_left fun e he => ?_
        obtain ⟨m, tail, hpath, -⟩ := Folder.head_of_mem_entries he
        show rowAt md5 path (join root name) e = rowAt md5 path root (name :: e.1, e.2)
        rw [rowAt, rowAt, hpath]
        rfl
      rw [if_neg hname, hvisit, walkDirs, if_neg hname, Folder.entries, List.map_cons,
        List.map_append, ← hbelow, List.flatMap_append, List.flatMap_cons, List.cons_append]
      refine List.Perm.cons _ (List.Perm.trans ?_ ((ihInner (join root name)).append (ih root)))
      rw [← List.append_assoc, ← List.append_assoc, ← List.append_assoc]
      refine List.Perm.append_right _ ?_
      rw [List.append_assoc]
      exact List.perm_append_comm

/-! ## Paths of rows -/

/-- The path of a row: the entry's path, with the first character gone where the folder's
string ends in a slash and the entry is not directly in the folder. -/
def rowPath (path : Text) (p : List Name) : Text :=
  if path.getLast? = some '/' ∧ 2 ≤ p.length then (joined p).drop 1 else joined p

theorem joined_singleton (name : Name) : joined [name] = name := by
  simp [joined, List.intercalate]

/-- Below a root that is the folder's string and something more. -/
theorem cutPaths_append {p : List Name} (hp : ∀ name ∈ p, ValidName name) (hne : p ≠ [])
    {tail : Text} (htail : tail ≠ []) (hslash : tail.getLast? ≠ some '/') :
    cutPaths path (path ++ tail) p = tail.drop 1 ++ '/' :: joined p := by
  induction p generalizing tail with
  | nil => exact absurd rfl hne
  | cons name p ih =>
    have hroot : path ++ tail ≠ path := by simpa using htail
    have hname := hp name List.mem_cons_self
    have hdrop : (path ++ tail).drop (path.length + 1) = tail.drop 1 := by
      rw [← List.drop_drop, List.drop_left]
    cases p with
    | nil =>
      rw [cutPaths, cutPath, if_neg hroot, joined_singleton, hdrop]
    | cons next p =>
      have hjoin : join (path ++ tail) name = path ++ (tail ++ '/' :: name) := by
        have hlast : ¬ ((path ++ tail) = [] ∨ (path ++ tail).getLast? = some '/') := by
          rw [List.getLast?_append_of_ne_nil _ htail]
          simp [htail, hslash]
        rw [join, if_neg hlast, List.append_assoc]
      have hlast : (tail ++ '/' :: name).getLast? ≠ some '/' := by
        rw [List.getLast?_append_of_ne_nil _ (by simp), List.getLast?_cons,
          List.getLast?_eq_getLast_of_ne_nil hname.1]
        intro heq
        have hmem := List.getLast_mem hname.1
        rw [show name.getLast hname.1 = '/' by simpa using heq] at hmem
        exact hname.2.2.2.1 hmem
      rw [cutPaths, hjoin, ih (fun m hm => hp m (List.mem_cons_of_mem name hm)) (by simp)
        (by simp) hlast, joined_cons_cons, List.drop_append_of_le_length
        (List.length_pos_iff.mpr htail), List.append_assoc]
      rfl

/-- The paths of the rows of a folder. -/
theorem cutPaths_eq_rowPath (hpath : path ≠ []) {p : List Name}
    (hp : ∀ name ∈ p, ValidName name) (hne : p ≠ []) : cutPaths path path p = rowPath path p := by
  cases p with
  | nil => exact absurd rfl hne
  | cons name p =>
    have hname := hp name List.mem_cons_self
    cases p with
    | nil =>
      rw [cutPaths, cutPath, if_pos rfl, rowPath, if_neg (by simp), joined_singleton]
    | cons next p =>
      have hrest : ∀ m ∈ next :: p, ValidName m := fun m hm => hp m (List.mem_cons_of_mem name hm)
      have hlast : name.getLast? ≠ some '/' := fun heq =>
        hname.2.2.2.1 (List.mem_of_getLast? heq)
      rw [cutPaths, rowPath, join]
      by_cases hslash : path.getLast? = some '/'
      · rw [if_pos (Or.inr hslash), if_pos ⟨hslash, by simp⟩,
          cutPaths_append hrest (by simp) hname.1 hlast, joined_cons_cons,
          List.drop_append_of_le_length (List.length_pos_iff.mpr hname.1)]
      · have hcons : ('/' :: name).getLast? ≠ some '/' := by
          rwa [List.getLast?_cons_of_ne_nil hname.1]
        rw [if_neg (by tauto), if_neg (by tauto),
          cutPaths_append hrest (by simp) (by simp) hcons, joined_cons_cons]
        rfl

/-- The row of an entry. -/
def row (md5 : Bytes → Text) (path : Text) (e : Entry) : Row := ⟨rowPath path e.1, e.2.hash md5⟩

/-- The rows of a folder, in the order of the tree. -/
def listing (md5 : Bytes → Text) (path : Text) (f : Folder) : List Row :=
  f.prune.entries.map (row md5 path)

theorem walk_flatMap_visitRows (hpath : path ≠ []) (hf : f.Valid) :
    ((walk path f).flatMap (visitRows md5 path)).Perm (listing md5 path f) := by
  have hrows : f.prune.entries.map (rowAt md5 path path) = listing md5 path f := by
    refine List.map_congr_left fun e he => ?_
    obtain ⟨name, tail, hcons, -⟩ := Folder.head_of_mem_entries he
    rw [rowAt, row, cutPaths_eq_rowPath hpath (Folder.validName_of_mem_entries hf.prune he)]
    rw [hcons]
    exact List.cons_ne_nil name tail
  rw [walk, List.flatMap_cons, ← hrows]
  exact walk_rows f path

end Gameserver.Packages
