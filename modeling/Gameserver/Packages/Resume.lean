import Gameserver.Packages.Loader

/-!
# Loading over what an earlier call has left

A call that dies leaves its temporary folder behind, and the next one begins in it.

* `Leftover` — folders and small files of the package, in any state; no links.
* `Resumes` — a disk is one on which the call has begun afresh, and leftovers where nothing
  stands there.
* `Resumes.makeDirs`, `Resumes.put` — what is done to the one can be done to the other.
* `Resumes.standing` — when all rows have been worked through, no leftovers are left.
-/

namespace Gameserver.Packages

open Json (Text)
open FileSystem

variable {c : Setup} {t : Folder} {disk disk' clean clean' : LocalDisk} {lfs : Lfs}
  {base p : List Name} {name : Name} {done : List Row}

/-- Contents that go to the LFS folder. -/
def Big (c : Setup) (content : Bytes) : Prop := c.useLfs = true ∧ lfsThreshold < content.size

/-- What a call may leave where a node of the tree belongs. -/
def Rest (c : Setup) : Item Bytes Text → Node → Prop
  | .folder, node => node = .dir
  | .file _, node => ∃ content, node = .file content ∧ ¬ Big c content
  | .link _, _ => False

def Leftover (c : Setup) (t : Folder) (disk : LocalDisk) (base : List Name) : Prop :=
  ∀ p item, get disk (base ++ p) = some item → ∃ node, t.at p = some node ∧ Rest c item node

/-- Nothing stands at a location, and nothing below it. -/
def Nothing (disk : LocalDisk) (location : List Name) : Prop :=
  ∀ r, get disk (location ++ r) = none

theorem Rest.folder_of_dir {item : Item Bytes Text} (h : Rest c item .dir) : item = .folder := by
  cases item with
  | folder => rfl
  | file content =>
    obtain ⟨_, hfile, -⟩ := h
    cases hfile
  | link hash => exact h.elim

theorem Rest.file_of_small {item : Item Bytes Text} {content : Bytes}
    (h : Rest c item (.file content)) : ∃ written, item = .file written := by
  cases item with
  | folder => cases h
  | file written => exact ⟨written, rfl⟩
  | link hash => exact h.elim

theorem Rest.not_big {item : Item Bytes Text} {content : Bytes}
    (h : Rest c item (.file content)) : ¬ Big c content := by
  cases item with
  | folder => cases h
  | file written =>
    obtain ⟨content', hfile, hsmall⟩ := h
    cases hfile
    exact hsmall
  | link hash => exact h.elim

/-- The disk `disk` is `clean` with leftovers where nothing stands on `clean`. -/
structure Resumes (c : Setup) (t : Folder) (base : List Name) (clean disk : LocalDisk) : Prop where
  agree : ∀ q, get disk q = get clean q ∨
    get clean q = none ∧ ∃ p item node, q = base ++ p ∧ get disk q = some item ∧
      t.at p = some node ∧ Rest c item node
  small : ∀ p content, get clean (base ++ p) = some (.file content) → ¬ Big c content

theorem Leftover.resumes (h : Leftover c t disk base) :
    Resumes c t base (without disk base) disk := by
  constructor
  · intro q
    rw [get_without]
    by_cases hq : base <+: q
    · rw [if_pos hq]
      cases hitem : get disk q with
      | none => exact .inl rfl
      | some item =>
        obtain ⟨p, rfl⟩ := hq
        obtain ⟨node, hnode, hrest⟩ := h p item hitem
        exact .inr ⟨rfl, p, item, node, rfl, rfl, hnode, hrest⟩
    · rw [if_neg hq]
      exact .inl rfl
  · intro p content hfile
    rw [get_without, if_pos (List.prefix_append base p)] at hfile
    cases hfile

theorem Resumes.get_of_get (h : Resumes c t base clean disk) {q : List Name}
    {item : Item Bytes Text} (hq : get clean q = some item) : get disk q = some item := by
  rcases h.agree q with hsame | ⟨hnone, -⟩
  · rw [hsame, hq]
  · rw [hnone] at hq
    cases hq

/-- Outside the temporary folder the two are the same. -/
theorem Resumes.get_eq (h : Resumes c t base clean disk) {q : List Name} (hq : ¬ base <+: q) :
    get disk q = get clean q := by
  rcases h.agree q with hsame | ⟨-, p, _, _, rfl, -⟩
  · exact hsame
  · exact absurd (List.prefix_append base p) hq

/-- What stands where a node belongs is a leftover, or stands on `clean`. -/
theorem Resumes.get_cases (h : Resumes c t base clean disk) (p : List Name) :
    get disk (base ++ p) = get clean (base ++ p) ∨
      get clean (base ++ p) = none ∧ ∃ item node, get disk (base ++ p) = some item ∧
        t.at p = some node ∧ Rest c item node := by
  rcases h.agree (base ++ p) with hsame | ⟨hnone, p', item, node, heq, hitem, hnode, hrest⟩
  · exact .inl hsame
  · obtain rfl := List.append_cancel_left heq
    exact .inr ⟨hnone, item, node, hitem, hnode, hrest⟩

/-- A folder that can be created on `clean` can be created. -/
theorem Resumes.makeDirs (h : Resumes c t base clean disk) (hp : t.at p = some .dir)
    (hclean : makeDirs clean (base ++ p) = some clean') :
    ∃ disk', FileSystem.makeDirs disk (base ++ p) = some disk' ∧ Resumes c t base clean' disk' := by
  have hfolders : ∀ q, q <+: base ++ p → FolderOr disk q := by
    intro q hq
    have hfolder := folderOr_of_makeDirs hclean hq
    rcases h.agree q with hsame | ⟨-, p', item, node, rfl, hitem, hnode, hrest⟩
    · rwa [FolderOr, hsame]
    · have hdir := Folder.at_dir_of_isPrefix hp ((List.prefix_append_right_inj base).mp hq)
      obtain rfl := Option.some.inj (hnode.symm.trans hdir)
      exact .inr (hitem.trans (congrArg some hrest.folder_of_dir))
  obtain ⟨disk', hdirs⟩ := makeDirs_of_forall hfolders
  refine ⟨disk', hdirs, ?_, ?_⟩
  · intro q
    rw [get_makeDirs hdirs, get_makeDirs hclean]
    by_cases hq : q <+: base ++ p
    · rw [if_pos hq, if_pos hq]
      exact .inl rfl
    · rw [if_neg hq, if_neg hq]
      exact h.agree q
  · intro p' content hfile
    rw [get_makeDirs hclean] at hfile
    split_ifs at hfile with hway
    · cases hfile
    · exact h.small p' content hfile

theorem Resumes.put (h : Resumes c t base clean disk) (p : List Name) {item : Item Bytes Text}
    (hitem : ∀ content, item = .file content → ¬ Big c content) :
    Resumes c t base (put clean (base ++ p) item) (FileSystem.put disk (base ++ p) item) := by
  constructor
  · intro q
    rw [get_put, get_put]
    by_cases hq : q = base ++ p
    · rw [if_pos hq, if_pos hq]
      exact .inl rfl
    · rw [if_neg hq, if_neg hq]
      exact h.agree q
  · intro p' content hfile
    rw [get_put] at hfile
    split_ifs at hfile with hq
    · exact hitem content (Option.some.inj hfile)
    · exact h.small p' content hfile

/-- Where a link belongs there are no leftovers. -/
theorem Resumes.vacant_of_big (h : Resumes c t base clean disk) {content : Bytes}
    (hp : t.at p = some (.file content)) (hbig : Big c content)
    (hvacant : get clean (base ++ p) = none) : get disk (base ++ p) = none := by
  rcases h.get_cases p with hsame | ⟨-, item, node, -, hnode, hrest⟩
  · rw [hsame, hvacant]
  · obtain rfl := Option.some.inj (hnode.symm.trans hp)
    exact absurd hbig hrest.not_big

/-- Where a file belongs there is a file at most. -/
theorem Resumes.write (h : Resumes c t base clean disk) {content : Bytes}
    (hp : t.at p = some (.file content)) (hparent : get clean (base ++ p).dropLast = some .folder)
    (hvacant : get clean (base ++ p) = none) :
    FileSystem.write disk (base ++ p) content =
      some (FileSystem.put disk (base ++ p) (.file content)) := by
  rcases h.get_cases p with hsame | ⟨-, item, node, hitem, hnode, hrest⟩
  · exact write_of_vacant (h.get_of_get hparent) (hsame.trans hvacant) content
  · obtain rfl := Option.some.inj (hnode.symm.trans hp)
    obtain ⟨written, rfl⟩ := hrest.file_of_small
    rw [FileSystem.write, h.get_of_get hparent, hitem]

/-! ## The beginning and the end -/

/-- While the call has linked nothing, it has put leftovers only. -/
theorem Resumes.leftover {c : Setup} (h : Resumes c t (c.base name) clean disk)
    (hloaded : Loaded c.md5 t c.root name done clean lfs)
    (hlinks : ∀ p hash, get disk (c.base name ++ p) ≠ some (.link hash)) :
    Leftover c t disk (c.base name) := by
  intro p item hitem
  rcases h.get_cases p with hsame | ⟨-, item', node, hitem', hnode, hrest⟩
  · rw [hitem] at hsame
    by_cases hp : p = []
    · subst hp
      rw [List.append_nil, show get clean (c.base name) = some .folder from
        hloaded.dirs _ (List.prefix_refl _)] at hsame
      obtain rfl := Option.some.inj hsame
      exact ⟨.dir, Folder.at_nil t, rfl⟩
    · obtain ⟨node, hnode, hshows, -⟩ := hloaded.sound p item hp hsame.symm
      refine ⟨node, hnode, ?_⟩
      cases item with
      | folder => exact hshows
      | file content => exact ⟨content, hshows, h.small p content hsame.symm⟩
      | link hash => exact absurd hitem (hlinks p hash)
  · obtain rfl := Option.some.inj (hitem.symm.trans hitem')
    exact ⟨node, hnode, hrest⟩

theorem Resumes.standing {c : Setup} (h : Resumes c t (c.base name) clean disk)
    (hstanding : Standing lfs clean (c.base name) t) : Standing lfs disk (c.base name) t := by
  refine hstanding.transport (fun p => ?_) fun _ _ hc => hc
  rcases h.get_cases p with hsame | ⟨hnone, item, node, -, hnode, -⟩
  · exact hsame
  · exact absurd hnone (hstanding.complete p (by rw [hnode]; exact Option.some_ne_none _))

/-- Different names in the folder for packages. -/
theorem not_isPrefix_of_ne {root : List Name} {x y : Name} (h : x ≠ y) (r : List Name) :
    ¬ root ++ [x] <+: root ++ [y] ++ r := by
  rw [List.append_assoc, List.prefix_append_right_inj]
  exact fun hle => h (List.cons_prefix_cons.mp hle).1

/-- Creating folders on the way below a name changes nothing elsewhere. -/
theorem get_makeDirs_of_not_isPrefix {root q r : List Name} {x : Name}
    (hroot : ∀ q, q <+: root → get disk q = some .folder) (h : makeDirs disk r = some disk')
    (hr : r <+: root ++ [x] ++ p) (hq : ¬ root ++ [x] <+: q) : get disk' q = get disk q := by
  rw [get_makeDirs h]
  split_ifs with hle
  · rcases isPrefix_append_cases (hle.trans hr) with hup | ⟨p', -, rfl⟩
    · rcases List.prefix_concat_iff.mp hup with rfl | hparent
      · exact absurd (List.prefix_refl _) hq
      · exact (hroot q hparent).symm
    · exact absurd (List.prefix_append _ p') hq
  · rfl

end Gameserver.Packages
