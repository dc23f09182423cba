import Gameserver.Packages.Resume

/-!
# Where a call of the package loader stands

`Sound` says what holds of the database, the disk and the call after every step: packages are
loaded whole or not at all, and temporary folders hold leftovers only.

* `Turn`, `Progress`, `Busy` — where a call stands.
* `Sound.advance` — no step raises, and the call gets on.
-/

namespace Gameserver.Packages

open Json (Text)
open FileSystem
open Machine

variable {c : Setup} {t : Folder} {package : Text} {disk disk' : LocalDisk} {lfs lfs' : Lfs}
  {ops : List Op} {db db' : Db} {w : World}

/-- The hash is MD5 in hexadecimal digits, and the order puts folders before what is in them. -/
structure Setup.Valid (c : Setup) : Prop where
  md5 : CollisionFree c.md5
  hexdigest : ∀ data, ∀ digit ∈ c.md5 data, digit ∈ "0123456789abcdef".toList
  orderBy : ParentsFirst c.orderBy

/-- The package has the rows of a folder. -/
structure Packed (md5 : Bytes → Text) (db : Db) (package : Text) (t : Folder) : Prop where
  valid : t.Valid
  rows : (db.rows package).Perm (t.entries.map (wholeRow md5))
  id : idOf md5 (db.rows package) = package

def Stored (md5 : Bytes → Text) (db : Db) (package : Text) : Prop := ∃ t, Packed md5 db package t

/-! ## Names -/

theorem Packed.eq_md5 {md5 : Bytes → Text} (h : Packed md5 db package t) :
    ∃ data, package = md5 data :=
  ⟨_, h.id.symm⟩

/-- A temporary folder is no package. -/
theorem Setup.Valid.tmpName_ne_md5 (hc : c.Valid) (name : Name) (data : Bytes) :
    tmpName name ≠ c.md5 data := by
  intro h
  have hdot : '.' ∈ c.md5 data := by
    rw [← h, tmpName]
    simp
  exact absurd (hc.hexdigest data '.' hdot) (by decide)

theorem tmpName_injective : Function.Injective tmpName := fun _ _ h => List.append_cancel_right h

theorem Setup.folder_notMem_base (c : Setup) (package : Text) (r : List Name) :
    ¬ c.base package <+: c.folder package ++ r :=
  not_isPrefix_of_ne (tmpName_ne package) r

/-! ## Where a call stands -/

/-- What the turn still does, and the row that is done when it has. -/
inductive Turn (c : Setup) (t : Folder) (base : List Name) (lfs : Lfs) : List Op → List Row → Prop
  | between : Turn c t base lfs [] []
  | dir {p : List Name} (hp : (p, Node.dir) ∈ t.entries) :
      Turn c t base lfs [.makeDirs (base ++ p)] [wholeRow c.md5 (p, .dir)]
  | file {p : List Name} {content : Bytes} (hp : (p, Node.file content) ∈ t.entries)
      (hsmall : ¬ Big c content) :
      Turn c t base lfs [.write (base ++ p) content] [wholeRow c.md5 (p, .file content)]
  | store {p : List Name} {content : Bytes} (hp : (p, Node.file content) ∈ t.entries)
      (hbig : Big c content) (hnew : lfs.content (c.md5 content) = none) :
      Turn c t base lfs [.writeLfs (c.md5 content) content,
        .symlink (base ++ p) (c.md5 content), .chmod (c.md5 content)]
        [wholeRow c.md5 (p, .file content)]
  | link {p : List Name} {content : Bytes} {rest : List Op}
      (hp : (p, Node.file content) ∈ t.entries) (hbig : Big c content)
      (hfound : lfs.content (c.md5 content) = some content)
      (hrest : rest = [] ∨ rest = [.chmod (c.md5 content)]) :
      Turn c t base lfs (.symlink (base ++ p) (c.md5 content) :: rest)
        [wholeRow c.md5 (p, .file content)]
  | mode (hash : Text) : Turn c t base lfs [.chmod hash] []

/-- Rows have been worked through, one is at most under way, and others are left. -/
structure Progress (c : Setup) (t : Folder) (package : Text) (disk : LocalDisk) (lfs : Lfs)
    (ops : List Op) (todo : List Row) (clean : LocalDisk) (done next : List Row) : Prop where
  turn : Turn c t (c.base package) lfs ops next
  loaded : Loaded c.md5 t c.root package done clean lfs
  resumes : Resumes c t (c.base package) clean disk
  rows : (done ++ (next ++ todo)).Perm (t.entries.map (wholeRow c.md5))
  sorted : (done ++ (next ++ todo)).Pairwise fun a b => ¬ b.path ++ ['/'] <+: a.path

def Busy (c : Setup) (t : Folder) (package : Text) (disk : LocalDisk) (lfs : Lfs)
    (ops : List Op) : Option (List Row) → Prop
  | none =>
    ops = [.makeDirs (c.base package)] ∧ Nothing disk (c.folder package) ∧
        Leftover c t disk (c.base package) ∨
      ops = [] ∧ ∃ clean, Loaded c.md5 t c.root package [] clean lfs ∧
        Resumes c t (c.base package) clean disk
  | some todo => ∃ clean done next, Progress c t package disk lfs ops todo clean done next

/-- The folder of the package does not exist while it is loaded. -/
theorem Busy.nothing {todo : Option (List Row)} (h : Busy c t package disk lfs ops todo) :
    Nothing disk (c.folder package) := by
  have hclean : ∀ {clean done}, Loaded c.md5 t c.root package done clean lfs →
      Resumes c t (c.base package) clean disk → Nothing disk (c.folder package) := by
    intro clean done hloaded hresumes r
    rw [hresumes.get_eq (c.folder_notMem_base package r)]
    exact hloaded.vacant r
  cases todo with
  | none =>
    rcases h with ⟨-, hnothing, -⟩ | ⟨-, clean, hloaded, hresumes⟩
    · exact hnothing
    · exact hclean hloaded hresumes
  | some todo =>
    obtain ⟨clean, done, next, h⟩ := h
    exact hclean h.loaded h.resumes

/-- Without links, the temporary folder holds leftovers. -/
theorem Busy.leftover {todo : Option (List Row)} (h : Busy c t package disk lfs ops todo)
    (hlinks : ∀ p hash, get disk (c.base package ++ p) ≠ some (.link hash)) :
    Leftover c t disk (c.base package) := by
  cases todo with
  | none =>
    rcases h with ⟨-, -, hleftover⟩ | ⟨-, clean, hloaded, hresumes⟩
    · exact hleftover
    · exact hresumes.leftover hloaded hlinks
  | some todo =>
    obtain ⟨clean, done, next, h⟩ := h
    exact h.resumes.leftover h.loaded hlinks

/-! ## The invariant -/

/-- The files of the LFS folder are whole, and large. -/
structure Lfs.Sound (c : Setup) (lfs : Lfs) : Prop where
  consistent : lfs.Consistent c.md5
  big : ∀ e ∈ lfs, Big c e.2

/-- What is in the LFS folder stays there. -/
def Lfs.Kept (lfs lfs' : Lfs) : Prop :=
  ∀ hash content, lfs.content hash = some content → lfs'.content hash = some content

/-- A package's folder is complete, or not there. -/
def Whole (c : Setup) (t : Folder) (package : Text) (disk : LocalDisk) (lfs : Lfs) : Prop :=
  Nothing disk (c.folder package) ∨ Standing lfs disk (c.folder package) t

/-- A call loads the package. -/
def Call.Loads (call : Call) (package : Text) : Prop :=
  ∃ ops todo, call = .loading package ops todo

/-- What is said of the call under way. -/
def Call.Sound (c : Setup) (db : Db) (disk : LocalDisk) (lfs : Lfs) : Call → Prop
  | .idle => True
  | .loading package ops todo => ∃ t, Packed c.md5 db package t ∧ Busy c t package disk lfs ops todo
  | .returned package => Stored c.md5 db package ∧ get disk (c.folder package) ≠ none
  | .raised _ => False

structure Sound (c : Setup) (w : World) : Prop where
  db : w.db.Consistent c.md5
  root : ∀ q, q <+: c.root → get w.disk q = some .folder
  lfs : w.lfs.Sound c
  unknown : ∀ data, ¬ Stored c.md5 w.db (c.md5 data) →
    Nothing w.disk (c.folder (c.md5 data)) ∧ Nothing w.disk (c.base (c.md5 data))
  packages : ∀ package, Stored c.md5 w.db package → ∃ t, Packed c.md5 w.db package t ∧
    Whole c t package w.disk w.lfs ∧
      (¬ w.call.Loads package → Leftover c t w.disk (c.base package))
  call : w.call.Sound c w.db w.disk w.lfs

theorem Lfs.Sound.cons (hlfs : lfs.Sound c) {content : Bytes} (hbig : Big c content) :
    Lfs.Sound c ((c.md5 content, content) :: lfs) := by
  constructor
  · intro e he
    rcases List.mem_cons.mp he with rfl | hold
    · rfl
    · exact hlfs.consistent e hold
  · intro e he
    rcases List.mem_cons.mp he with rfl | hold
    · exact hbig
    · exact hlfs.big e hold

theorem Lfs.kept_cons {hash : Text} (hnew : lfs.content hash = none) (content : Bytes) :
    lfs.Kept ((hash, content) :: lfs) := by
  intro hash' content' hcontent'
  have hne : hash ≠ hash' := by
    rintro rfl
    rw [hnew] at hcontent'
    cases hcontent'
  rw [Lfs.content, List.find?_cons_of_neg (by simpa using hne)]
  exact hcontent'

theorem Nothing.leftover {base : List Name} (h : Nothing disk base) : Leftover c t disk base := by
  intro p item hitem
  rw [h p] at hitem
  cases hitem

theorem Leftover.of_get_eq {base : List Name} (h : Leftover c t disk base)
    (hget : ∀ p, get disk' (base ++ p) = get disk (base ++ p)) : Leftover c t disk' base :=
  fun p item hitem => h p item (by rw [← hget, hitem])

/-- A step of a call keeps what is said of all other packages. -/
theorem Sound.frame (hc : c.Valid) (h : Sound c w) (hp : Packed c.md5 w.db package t)
    {call : Call}
    (haway : ∀ q, ¬ c.base package <+: q → ¬ c.folder package <+: q →
      get disk' q = get w.disk q)
    (hlfs : lfs'.Sound c) (hkept : w.lfs.Kept lfs') (hwhole : Whole c t package disk' lfs')
    (hloads : ∀ other, w.call.Loads other → other = package)
    (hleftover : ¬ call.Loads package → Leftover c t disk' (c.base package))
    (hcall : call.Sound c w.db disk' lfs') :
    Sound c ⟨w.db, disk', lfs', call⟩ := by
  obtain ⟨data, hdata⟩ := hp.eq_md5
  have hother : ∀ other : Bytes, c.md5 other ≠ package → ∀ r,
      get disk' (c.folder (c.md5 other) ++ r) = get w.disk (c.folder (c.md5 other) ++ r) ∧
        get disk' (c.base (c.md5 other) ++ r) = get w.disk (c.base (c.md5 other) ++ r) := by
    intro other hne r
    constructor
    · apply haway
      · exact not_isPrefix_of_ne (hc.tmpName_ne_md5 package other) r
      · exact not_isPrefix_of_ne (Ne.symm hne) r
    · apply haway
      · exact not_isPrefix_of_ne (fun heq => hne (tmpName_injective heq).symm) r
      · refine not_isPrefix_of_ne ?_ r
        rw [hdata]
        exact (hc.tmpName_ne_md5 (c.md5 other) data).symm
  constructor
  · exact h.db
  · intro q hq
    have hshort : ∀ x : Name, ¬ c.root ++ [x] <+: q := by
      intro x hle
      have hlength := (hle.trans hq).length_le
      simp at hlength
    rw [haway q (hshort _) (hshort _)]
    exact h.root q hq
  · exact hlfs
  · intro other hstored
    have hne : c.md5 other ≠ package := by
      rintro rfl
      exact hstored ⟨t, hp⟩
    obtain ⟨hfolder, hbase⟩ := h.unknown other hstored
    exact ⟨fun r => (hother other hne r).1.trans (hfolder r),
      fun r => (hother other hne r).2.trans (hbase r)⟩
  · intro other hstored
    by_cases hne : other = package
    · subst hne
      exact ⟨t, hp, hwhole, hleftover⟩
    · obtain ⟨t', hp', hwhole', hleftover'⟩ := h.packages other hstored
      obtain ⟨data', rfl⟩ := hp'.eq_md5
      refine ⟨t', hp', ?_, fun _ => ?_⟩
      · rcases hwhole' with hnothing | hstanding
        · exact .inl fun r => ((hother data' hne r).1).trans (hnothing r)
        · exact .inr (hstanding.transport (fun r => (hother data' hne r).1) hkept)
      · have hidle : ¬ w.call.Loads (c.md5 data') := fun hload => hne (hloads _ hload)
        exact (hleftover' hidle).of_get_eq fun r => (hother data' hne r).2
  · exact hcall

/-- A step of a call that goes on. -/
theorem Sound.goesOn (hc : c.Valid) (h : Sound c w) (hp : Packed c.md5 w.db package t)
    {todo todo' : Option (List Row)} {ops' : List Op} (hcall : w.call = .loading package ops todo)
    (haway : ∀ q, ¬ c.base package <+: q → get disk' q = get w.disk q) (hlfs : lfs'.Sound c)
    (hkept : w.lfs.Kept lfs') (hbusy : Busy c t package disk' lfs' ops' todo') :
    Sound c ⟨w.db, disk', lfs', .loading package ops' todo'⟩ := by
  refine h.frame hc hp (fun q hq _ => haway q hq) hlfs hkept (.inl hbusy.nothing) ?_ ?_
    ⟨t, hp, hbusy⟩
  · rintro other ⟨_, _, heq⟩
    rw [hcall] at heq
    cases heq
    rfl
  · exact fun hidle => absurd ⟨_, _, rfl⟩ hidle

/-! ## The steps of a call -/

/-- The temporary folder is created, or is there already. -/
theorem exists_makeDirs_base (hroot : ∀ q, q <+: c.root → get disk q = some .folder)
    (hlfs : lfs.Consistent c.md5) (hnothing : Nothing disk (c.folder package))
    (hleftover : Leftover c t disk (c.base package)) :
    ∃ disk', makeDirs disk (c.base package) = some disk' ∧
      (∀ q, ¬ c.base package <+: q → get disk' q = get disk q) ∧
      Busy c t package disk' lfs [] none := by
  have hfresh : Fresh (without disk (c.base package)) c.root package := by
    constructor
    · intro q hq
      have hshort : ¬ c.base package <+: q := by
        intro hle
        have hlength := (hle.trans hq).length_le
        simp [Setup.base] at hlength
      rw [FolderOr, get_without, if_neg hshort]
      exact .inr (hroot q hq)
    · intro r
      rw [get_without]
      exact (if_neg (c.folder_notMem_base package r)).trans (hnothing r)
    · intro r
      rw [get_without]
      exact if_pos (List.prefix_append _ r)
  obtain ⟨clean, hclean, hloaded⟩ := loaded_start (t := t) hfresh hlfs
  have hclean' : makeDirs (without disk (c.base package)) (c.base package ++ []) = some clean := by
    rw [List.append_nil]
    exact hclean
  obtain ⟨disk', hdirs, hresumes⟩ := hleftover.resumes.makeDirs (Folder.at_nil t) hclean'
  refine ⟨disk', by rwa [List.append_nil] at hdirs, fun q hq => ?_,
    .inr ⟨rfl, clean, hloaded, hresumes⟩⟩
  exact get_makeDirs_of_not_isPrefix hroot hdirs (List.prefix_refl _) hq

variable {clean : LocalDisk} {todo done next : List Row} {op : Op}

/-- One operation of a turn. -/
theorem Progress.run (hroot : ∀ q, q <+: c.root → get disk q = some .folder)
    (hlfs : lfs.Sound c) (ht : t.Valid)
    (h : Progress c t package disk lfs (op :: ops) todo clean done next) :
    ∃ disk' lfs', op.run (disk, lfs) = some (disk', lfs') ∧
      (∀ q, ¬ c.base package <+: q → get disk' q = get disk q) ∧ lfs'.Sound c ∧ lfs.Kept lfs' ∧
      Busy c t package disk' lfs' ops (some todo) := by
  obtain ⟨hturn, hloaded, hresumes, hrows, hsorted⟩ := h
  have hsame : lfs.Kept lfs := fun _ _ hcontent => hcontent
  have hput : ∀ (p : List Name) (item : Item Bytes Text) (q : List Name),
      ¬ c.base package <+: q → get (put disk (c.base package ++ p) item) q = get disk q := by
    intro p item q hq
    rw [get_put, if_neg]
    rintro rfl
    exact hq (List.prefix_append _ p)
  cases hturn with
  | dir hp =>
    rename_i p
    obtain ⟨clean', hclean, hloaded'⟩ := loaded_dir ht hloaded hp
    obtain ⟨disk', hdirs, hresumes'⟩ := hresumes.makeDirs ((Folder.mem_entries ht).mp hp).2 hclean
    refine ⟨disk', lfs, by simp [Op.run, hdirs],
      fun q hq => get_makeDirs_of_not_isPrefix hroot hdirs (List.prefix_refl _) hq, hlfs, hsame,
      clean', _, [], .between, hloaded', hresumes', ?_, ?_⟩
    · simpa using hrows
    · simpa using hsorted
  | file hp hsmall =>
    rename_i p content
    obtain ⟨hparent, hvacant⟩ := loaded_place ht hloaded hp hrows hsorted
    have hwrite := hresumes.write ((Folder.mem_entries ht).mp hp).2 hparent hvacant
    have hloaded' :=
      loaded_put ht hloaded hp (show Shows lfs (.file content) (.file content) from rfl)
      hlfs.consistent hsame
    refine ⟨put disk (c.base package ++ p) (.file content), lfs, by simp [Op.run, hwrite],
      hput p _, hlfs, hsame, _, _, [], .between, hloaded', hresumes.put p ?_, ?_, ?_⟩
    · intro content' heq
      cases heq
      exact hsmall
    · simpa using hrows
    · simpa using hsorted
  | store hp hbig hnew =>
    rename_i p content
    have hkept := Lfs.kept_cons hnew content
    have hlfs' := hlfs.cons hbig
    refine ⟨disk, _, rfl, fun _ _ => rfl, hlfs', hkept, clean, done, _,
      .link hp hbig (by simp [Lfs.content]) (.inr rfl),
      hloaded.mono_lfs hlfs'.consistent hkept, hresumes, hrows, hsorted⟩
  | link hp hbig hfound hrest =>
    rename_i p content
    obtain ⟨hparent, hvacant⟩ := loaded_place ht hloaded hp hrows hsorted
    have hnone := hresumes.vacant_of_big ((Folder.mem_entries ht).mp hp).2 hbig hvacant
    have hlink : symlink disk (c.base package ++ p) (c.md5 content) =
        some (put disk (c.base package ++ p) (.link (c.md5 content))) :=
      symlink_of_vacant (hresumes.get_of_get hparent) hnone (c.md5 content)
    have hshows : Shows lfs (.link (c.md5 content)) (.file content) := ⟨content, hfound, rfl⟩
    have hloaded' := loaded_put ht hloaded hp hshows hlfs.consistent hsame
    have hturn' : Turn c t (c.base package) lfs ops [] := by
      rcases hrest with rfl | rfl
      · exact .between
      · exact .mode _
    refine ⟨put disk (c.base package ++ p) (.link (c.md5 content)), lfs,
      by simp [Op.run, hlink], hput p _, hlfs, hsame, _, _, [], hturn', hloaded',
      hresumes.put p (fun _ heq => by cases heq), ?_, ?_⟩
    · simpa using hrows
    · simpa using hsorted
  | mode hash =>
    exact ⟨disk, lfs, rfl, fun _ _ => rfl, hlfs, hsame, clean, done, [], .between, hloaded,
      hresumes, hrows, hsorted⟩

/-- The next row. -/
theorem Progress.nextRow (hc : c.Valid) (hdb : db.Consistent c.md5) (hlfs : lfs.Sound c)
    (hp : Packed c.md5 db package t) {row : Row}
    (h : Progress c t package disk lfs [] (row :: todo) clean done next) :
    ∃ ops, rowOps db c.useLfs (c.base package) lfs row = some ops ∧
      Busy c t package disk lfs ops (some todo) := by
  obtain ⟨hturn, hloaded, hresumes, hrows, hsorted⟩ := h
  cases hturn
  have hmem : row ∈ t.entries.map (wholeRow c.md5) :=
    hrows.mem_iff.mp (List.mem_append_right _ List.mem_cons_self)
  obtain ⟨⟨p, node⟩, he, rfl⟩ := List.mem_map.mp hmem
  have hresolve : resolve (c.base package) (wholeRow c.md5 (p, node)).path = c.base package ++ p :=
    resolve_wholeRow hp.valid he _
  cases node with
  | dir =>
    refine ⟨[.makeDirs (c.base package ++ p)], ?_, clean, done, _, .dir he, hloaded, hresumes,
      hrows, hsorted⟩
    rw [rowOps, hresolve]
    rfl
  | file content =>
    have hcontent := content_of_rows hc.md5 hdb hp.rows p content he
    have hfound : ∀ content', lfs.content (c.md5 content) = some content' →
        content' = content ∧ Big c content := by
      intro content' hcontent'
      obtain rfl := hc.md5.injective (Lfs.hash_of_content hlfs.consistent hcontent')
      obtain ⟨e, hfind, rfl⟩ := Option.map_eq_some_iff.mp hcontent'
      exact ⟨rfl, hlfs.big e (List.mem_of_find?_eq_some hfind)⟩
    rw [rowOps, hresolve]
    simp only [show (wholeRow c.md5 (p, .file content)).fileHash = some (c.md5 content) from rfl,
      if_neg (hc.md5.ne_empty content), hcontent, Option.map_some]
    by_cases hbig : Big c content
    · cases hlfsContent : lfs.content (c.md5 content) with
      | none =>
        refine ⟨_, ?_, clean, done, _, .store he hbig hlfsContent, hloaded, hresumes, hrows,
          hsorted⟩
        rw [if_neg (by simp),
          if_pos (show c.useLfs = true ∧ content.size > lfsThreshold from hbig)]
      | some content' =>
        obtain ⟨rfl, -⟩ := hfound content' hlfsContent
        refine ⟨_, ?_, clean, done, _, .link he hbig hlfsContent (.inl rfl), hloaded, hresumes,
          hrows, hsorted⟩
        rw [if_pos ⟨hbig.1, rfl⟩]
    · refine ⟨_, ?_, clean, done, _, .file he hbig, hloaded, hresumes, hrows, hsorted⟩
      rw [if_neg, if_neg (show ¬ (c.useLfs = true ∧ content.size > lfsThreshold) from hbig)]
      rintro ⟨-, hsome⟩
      obtain ⟨content', hcontent'⟩ := Option.isSome_iff_exists.mp hsome
      exact hbig (hfound content' hcontent').2

/-- The end: the tree stands in the package's folder. -/
theorem Progress.finish (hroot : ∀ q, q <+: c.root → get disk q = some .folder) (ht : t.Valid)
    (h : Progress c t package disk lfs [] [] clean done next) :
    ∃ disk', rename disk (c.base package) (c.folder package) = some disk' ∧
      (∀ q, ¬ c.base package <+: q → ¬ c.folder package <+: q → get disk' q = get disk q) ∧
      Nothing disk' (c.base package) ∧ Standing lfs disk' (c.folder package) t := by
  have hbusy : Busy c t package disk lfs [] (some []) := ⟨clean, done, next, h⟩
  have hnothing := hbusy.nothing
  obtain ⟨hturn, hloaded, hresumes, hrows, -⟩ := h
  cases hturn
  have hdone : ∀ e ∈ t.entries, wholeRow c.md5 e ∈ done := by
    intro e he
    have hmem := hrows.mem_iff.mpr (List.mem_map_of_mem (f := wholeRow c.md5) he)
    simpa using hmem
  have hstanding := hresumes.standing (hloaded.standing ht hdone)
  have hout : ∀ r, ¬ c.folder package <+: c.base package ++ r := fun r =>
    not_isPrefix_of_ne (tmpName_ne package).symm r
  obtain ⟨disk', hrename⟩ := rename_of_vacant
    (hresumes.get_of_get (hloaded.dirs (c.base package) (List.prefix_refl _)))
    (show get disk (c.folder package).dropLast = some .folder by
      rw [Setup.folder, List.dropLast_concat]
      exact hroot c.root (List.prefix_refl _))
    (show ¬ c.base package <+: c.folder package by
      have hnot := c.folder_notMem_base package []
      rwa [List.append_nil] at hnot)
    (show get disk (c.folder package) = none by
      have hnone := hnothing []
      rwa [List.append_nil] at hnone)
  refine ⟨disk', hrename, fun q hbase hfolder => ?_, fun r => ?_,
    hstanding.transport (get_rename hrename) fun _ _ hcontent => hcontent⟩
  · rw [get_rename_of_not_isPrefix hrename hfolder, if_neg hbase]
  · rw [get_rename_of_not_isPrefix hrename (hout r), if_pos (List.prefix_append _ r)]

/-- **No step raises**: every step of a call keeps the invariant. -/
theorem Sound.advance (hc : c.Valid) (h : Sound c w) : Sound c (w.advance c) := by
  obtain ⟨db, disk, lfs, call⟩ := w
  have hsame : lfs.Kept lfs := fun _ _ hcontent => hcontent
  cases call with
  | idle | returned | raised => exact h
  | loading package ops todo =>
    obtain ⟨t, hp, hbusy⟩ := h.call
    cases ops with
    | cons op ops =>
      cases todo with
      | none =>
        rcases hbusy with ⟨heq, hnothing, hleftover⟩ | ⟨heq, -⟩
        · obtain ⟨rfl, rfl⟩ := List.cons.inj heq
          obtain ⟨disk', hdirs, haway, hbusy'⟩ :=
            exists_makeDirs_base h.root h.lfs.consistent hnothing hleftover
          simp only [World.advance, Op.run, hdirs, Option.map_some]
          exact h.goesOn hc hp rfl haway h.lfs hsame hbusy'
        · cases heq
      | some todo =>
        obtain ⟨clean, done, next, hprogress⟩ := hbusy
        obtain ⟨disk', lfs', hrun, haway, hlfs', hkept, hbusy'⟩ :=
          hprogress.run h.root h.lfs hp.valid
        simp only [World.advance, hrun]
        exact h.goesOn hc hp rfl haway hlfs' hkept hbusy'
    | nil =>
      cases todo with
      | none =>
        rcases hbusy with ⟨heq, -⟩ | ⟨-, clean, hloaded, hresumes⟩
        · cases heq
        · refine h.goesOn hc hp rfl (fun _ _ => rfl) h.lfs hsame
            ⟨clean, [], [], .between, hloaded, hresumes, ?_, hc.orderBy.sorted (db.rows package)⟩
          exact (hc.orderBy.perm _).trans hp.rows
      | some todo =>
        obtain ⟨clean, done, next, hprogress⟩ := hbusy
        cases todo with
        | cons row todo =>
          obtain ⟨ops, hops, hbusy'⟩ := hprogress.nextRow hc h.db h.lfs hp
          simp only [World.advance, hops]
          exact h.goesOn hc hp rfl (fun _ _ => rfl) h.lfs hsame hbusy'
        | nil =>
          obtain ⟨disk', hrename, haway, hnothing, hstanding⟩ := hprogress.finish h.root hp.valid
          simp only [World.advance, hrename]
          refine h.frame hc hp haway h.lfs hsame (.inr hstanding) ?_ (fun _ => hnothing.leftover)
            ⟨⟨t, hp⟩, ?_⟩
          · rintro other ⟨_, _, heq⟩
            cases heq
            rfl
          · have hfolder :=
              hstanding.complete [] (by rw [Folder.at_nil]; exact Option.some_ne_none _)
            rwa [List.append_nil] at hfolder

end Gameserver.Packages
