import Mathlib.Data.List.Basic
import Mathlib.Data.List.Infix
import Mathlib.Tactic.Tauto

/-!
# A small file system

Folders, files and symbolic links at locations, which are the lists of names from the root.

* `Disk`, `get`, `put` — what stands where; the entry written last counts.
* `makeDirs`, `write`, `symlink`, `rename` — the operations, `none` where the operating system
  refuses.
* one lemma for each operation about what `get` says afterwards (`get_makeDirs`, `get_create`,
  `get_rename`), and one about when it succeeds.
-/

namespace FileSystem

variable {Name Content Target : Type}

/-- What stands at a location. -/
inductive Item (Content Target : Type) where
  | folder
  | file (content : Content)
  | link (target : Target)
deriving DecidableEq, Repr

/-- A disk, as the entries written to it; the newest is first. -/
abbrev Disk (Name Content Target : Type) := List (List Name × Item Content Target)

variable [DecidableEq Name]

/-- What stands at a location. -/
def get : Disk Name Content Target → List Name → Option (Item Content Target)
  | [], _ => none
  | (q, item) :: disk, p => if p = q then some item else get disk p

/-- Write an entry. -/
def put (disk : Disk Name Content Target) (p : List Name) (item : Item Content Target) :
    Disk Name Content Target :=
  (p, item) :: disk

variable {disk disk' : Disk Name Content Target} {p q source target : List Name}
  {item : Item Content Target} {content : Content}

@[simp] theorem get_put : get (put disk p item) q = if q = p then some item else get disk q := rfl

theorem get_append (first second : Disk Name Content Target) (p : List Name) :
    get (first ++ second) p = (get first p).or (get second p) := by
  induction first with
  | nil => rfl
  | cons e first ih =>
    obtain ⟨q, item⟩ := e
    show (if p = q then some item else get (first ++ second) p) =
      Option.or (if p = q then some item else get first p) (get second p)
    split_ifs with hq
    · rfl
    · exact ih

theorem get_eq_none_of_forall (h : ∀ e ∈ disk, e.1 ≠ p) : get disk p = none := by
  induction disk with
  | nil => rfl
  | cons e disk ih =>
    have hne : p ≠ e.1 := Ne.symm (h e List.mem_cons_self)
    exact (if_neg hne).trans (ih fun e' he' => h e' (List.mem_cons_of_mem e he'))

/-! ## Folders -/

/-- A folder can stand here: nothing else does. -/
def FolderOr (disk : Disk Name Content Target) (p : List Name) : Prop :=
  get disk p = none ∨ get disk p = some .folder

instance (found : Option (Item Content Target)) : Decidable (found = some .folder) :=
  match found with
  | some .folder => isTrue rfl
  | none | some (.file _) | some (.link _) => isFalse nofun

instance (disk : Disk Name Content Target) (p : List Name) : Decidable (FolderOr disk p) :=
  inferInstanceAs (Decidable (_ ∨ _))

/-- Create a folder and those it is in; folders that exist are kept. -/
def makeDirs (disk : Disk Name Content Target) (p : List Name) :
    Option (Disk Name Content Target) :=
  if ∀ q ∈ p.inits, FolderOr disk q then
    some (p.inits.foldl (fun disk q => put disk q .folder) disk)
  else none

theorem get_foldl_put (ps : List (List Name)) (disk : Disk Name Content Target) (q : List Name) :
    get (ps.foldl (fun disk q => put disk q .folder) disk) q =
      if q ∈ ps then some .folder else get disk q := by
  induction ps generalizing disk with
  | nil => rfl
  | cons p ps ih =>
    rw [List.foldl_cons, ih]
    by_cases hps : q ∈ ps
    · rw [if_pos hps, if_pos (List.mem_cons_of_mem p hps)]
    · rw [if_neg hps, get_put]
      by_cases hp : q = p
      · rw [if_pos hp, if_pos (by rw [hp]; exact List.mem_cons_self)]
      · rw [if_neg hp, if_neg (by rw [List.mem_cons]; tauto)]

/-- After `makeDirs`, folders stand on the way to the location, and nothing else has changed. -/
theorem get_makeDirs (h : makeDirs disk p = some disk') (q : List Name) :
    get disk' q = if q <+: p then some .folder else get disk q := by
  rw [makeDirs] at h
  split_ifs at h
  obtain rfl := Option.some.inj h
  rw [get_foldl_put]
  simp only [List.mem_inits]

theorem makeDirs_of_forall (h : ∀ q, q <+: p → FolderOr disk q) :
    ∃ disk', makeDirs disk p = some disk' :=
  ⟨_, if_pos fun q hq => h q ((List.mem_inits q p).mp hq)⟩

theorem folderOr_of_makeDirs (h : makeDirs disk p = some disk') (hq : q <+: p) :
    FolderOr disk q := by
  rw [makeDirs] at h
  split_ifs at h with hall
  exact hall q ((List.mem_inits q p).mpr hq)

/-! ## Files and links -/

/-- Write a file, in a folder that exists; a link is not written through. -/
def write (disk : Disk Name Content Target) (p : List Name) (content : Content) :
    Option (Disk Name Content Target) :=
  match get disk p.dropLast, get disk p with
  | some .folder, none | some .folder, some (.file _) => some (put disk p (.file content))
  | _, _ => none

/-- Create a link, in a folder that exists, where nothing stands. -/
def symlink (disk : Disk Name Content Target) (p : List Name) (target : Target) :
    Option (Disk Name Content Target) :=
  match get disk p.dropLast, get disk p with
  | some .folder, none => some (put disk p (.link target))
  | _, _ => none

theorem write_eq (h : write disk p content = some disk') : disk' = put disk p (.file content) := by
  rw [write] at h
  split at h <;> first | exact (Option.some.inj h).symm | cases h

theorem symlink_eq {link : Target} (h : symlink disk p link = some disk') :
    disk' = put disk p (.link link) := by
  rw [symlink] at h
  split at h <;> first | exact (Option.some.inj h).symm | cases h

theorem write_of_vacant (hparent : get disk p.dropLast = some .folder) (hp : get disk p = none)
    (content : Content) : write disk p content = some (put disk p (.file content)) := by
  rw [write, hparent, hp]

theorem symlink_of_vacant (hparent : get disk p.dropLast = some .folder) (hp : get disk p = none)
    (link : Target) : symlink disk p link = some (put disk p (.link link)) := by
  rw [symlink, hparent, hp]

/-! ## Taking away -/

theorem get_filter (keep : List Name → Prop) [DecidablePred keep]
    (disk : Disk Name Content Target) (q : List Name) :
    get (disk.filter fun e => keep e.1) q = if keep q then get disk q else none := by
  induction disk with
  | nil => simp [get]
  | cons e disk ih =>
    obtain ⟨r, item⟩ := e
    by_cases hr : keep r
    · rw [List.filter_cons_of_pos (by simpa using hr)]
      show (if q = r then _ else get (disk.filter fun e => keep e.1) q) =
        if keep q then (if q = r then _ else get disk q) else none
      rw [ih]
      by_cases hq : q = r
      · subst hq
        simp [hr]
      · simp [hq]
    · rw [List.filter_cons_of_neg (by simpa using hr), ih]
      show _ = if keep q then (if q = r then _ else get disk q) else none
      by_cases hq : q = r
      · subst hq
        simp [hr]
      · simp [hq]

/-- The disk without a folder and what is in it. -/
def without (disk : Disk Name Content Target) (p : List Name) : Disk Name Content Target :=
  disk.filter fun e => ¬ p <+: e.1

theorem get_without (disk : Disk Name Content Target) (p q : List Name) :
    get (without disk p) q = if p <+: q then none else get disk q := by
  rw [without, get_filter (fun r => ¬ p <+: r)]
  by_cases hq : p <+: q <;> simp [hq]

/-! ## Renaming -/

/-- Nothing stands here, or an empty folder. -/
def Vacant (disk : Disk Name Content Target) (p : List Name) : Prop :=
  get disk p = none ∨ get disk p = some .folder ∧ ∀ e ∈ disk, p <+: e.1 → e.1 = p

instance (disk : Disk Name Content Target) (p : List Name) : Decidable (Vacant disk p) :=
  inferInstanceAs (Decidable (_ ∨ _))

/-- The entries below `source`, at their new locations. -/
def moved (disk : Disk Name Content Target) (source target : List Name) :
    Disk Name Content Target :=
  disk.filterMap fun e =>
    if source <+: e.1 then some (target ++ e.1.drop source.length, e.2) else none

/-- Rename a folder. -/
def rename (disk : Disk Name Content Target) (source target : List Name) :
    Option (Disk Name Content Target) :=
  if get disk source = some .folder ∧ get disk target.dropLast = some .folder ∧
      ¬ source <+: target ∧ Vacant disk target then
    some (moved disk source target ++
      disk.filter fun e => ¬ source <+: e.1 ∧ ¬ target <+: e.1)
  else none

theorem get_moved (disk : Disk Name Content Target) (source target r : List Name) :
    get (moved disk source target) (target ++ r) = get disk (source ++ r) := by
  induction disk with
  | nil => rfl
  | cons e disk ih =>
    obtain ⟨q, item⟩ := e
    by_cases hsource : source <+: q
    · obtain ⟨tail, rfl⟩ := hsource
      have hmoved : moved ((source ++ tail, item) :: disk) source target =
          (target ++ tail, item) :: moved disk source target := by
        rw [moved, List.filterMap_cons, if_pos (List.prefix_append source tail), List.drop_left]
        rfl
      rw [hmoved]
      show (if target ++ r = target ++ tail then _ else get (moved disk source target) _) =
        if source ++ r = source ++ tail then _ else get disk _
      simp only [ih, List.append_right_inj]
    · have hmoved : moved ((q, item) :: disk) source target = moved disk source target := by
        rw [moved, List.filterMap_cons, if_neg hsource]
        rfl
      have hne : source ++ r ≠ q := fun heq => hsource ⟨r, heq⟩
      rw [hmoved, ih]
      exact (if_neg hne).symm

/-- What stood below the old name stands below the new one. -/
theorem get_rename (h : rename disk source target = some disk') (r : List Name) :
    get disk' (target ++ r) = get disk (source ++ r) := by
  rw [rename] at h
  split_ifs at h
  obtain rfl := Option.some.inj h
  have hkept : get (disk.filter fun e => ¬ source <+: e.1 ∧ ¬ target <+: e.1) (target ++ r) =
      none := by
    refine get_eq_none_of_forall fun e he heq => ?_
    have hnot := (List.mem_filter.mp he).2
    simp only [decide_eq_true_eq] at hnot
    exact hnot.2 ⟨r, heq.symm⟩
  rw [get_append, get_moved, hkept, Option.or_none]

/-- What does not stand below the new name stays, unless it stood below the old one. -/
theorem get_rename_of_not_isPrefix (h : rename disk source target = some disk')
    (hq : ¬ target <+: q) : get disk' q = if source <+: q then none else get disk q := by
  rw [rename] at h
  split_ifs at h
  obtain rfl := Option.some.inj h
  have hmoved : get (moved disk source target) q = none := by
    refine get_eq_none_of_forall fun e he heq => ?_
    obtain ⟨e', -, hsome⟩ := List.mem_filterMap.mp he
    split_ifs at hsome
    obtain rfl := Option.some.inj hsome
    exact hq ⟨_, heq⟩
  rw [get_append, hmoved, Option.none_or, get_filter (fun r => ¬ source <+: r ∧ ¬ target <+: r)]
  by_cases hs : source <+: q <;> simp [hs, hq]

theorem rename_of_vacant (hsource : get disk source = some .folder)
    (hparent : get disk target.dropLast = some .folder) (hout : ¬ source <+: target)
    (hvacant : get disk target = none) : ∃ disk', rename disk source target = some disk' :=
  ⟨_, if_pos ⟨hsource, hparent, hout, Or.inl hvacant⟩⟩

end FileSystem
