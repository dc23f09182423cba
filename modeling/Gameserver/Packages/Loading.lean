import Gameserver.Packages.Consistent

/-!
# What a load puts on the disk

`Loaded` says what stands below the temporary folder while the rows are worked through; it is
kept by every row of a folder whose paths are whole, so that the load gives the folder back
(`load_plain`).  Nothing comes to stand anywhere but on the way to a row's location
(`exists_row_of_load`); a deepest entry whose path has lost a character is on no such way
(`load_cut`).
-/

namespace Gameserver.Packages

open Json (Text)
open FileSystem

variable {md5 : Bytes → Text} {orderBy : List Row → List Row} {db : Db} {t : Folder}
  {disk disk' : LocalDisk} {lfs lfs' : Lfs} {parent base : List Name} {name : Name}
  {useLfs : Bool} {package : Text}

/-- What the order of the database is relied on for: a folder's row comes before the rows of
what is in it. -/
structure ParentsFirst (orderBy : List Row → List Row) : Prop where
  perm : ∀ rows, (orderBy rows).Perm rows
  sorted : ∀ rows, (orderBy rows).Pairwise fun a b => ¬ b.path ++ ['/'] <+: a.path

/-- Neither the folder that is loaded into nor its temporary folder exists, and both can be
created. -/
structure Fresh (disk : LocalDisk) (parent : List Name) (name : Name) : Prop where
  parents : ∀ q, q <+: parent → FolderOr disk q
  vacant : ∀ r, get disk (parent ++ [name] ++ r) = none
  tmp : ∀ r, get disk (parent ++ [tmpName name] ++ r) = none

/-- What a reader sees at a location; links are followed. -/
def view (disk : LocalDisk) (lfs : Lfs) (location : List Name) : Option Node :=
  match get disk location with
  | some .folder => some .dir
  | some (.file content) => some (.file content)
  | some (.link hash) => (lfs.content hash).map .file
  | none => none

theorem tmpName_ne (name : Name) : tmpName name ≠ name := by
  intro h
  have hlength := congrArg List.length h
  rw [tmpName, List.length_append] at hlength
  have : ".tmp".toList.length = 4 := rfl
  omega

/-- Nothing below the folder lies on the way below its temporary folder. -/
theorem not_isPrefix_tmp (parent : List Name) (name : Name) (r p : List Name) :
    ¬ parent ++ [name] ++ r <+: parent ++ [tmpName name] ++ p := by
  rw [List.append_assoc, List.append_assoc, List.prefix_append_right_inj]
  exact fun h => tmpName_ne name (List.cons_prefix_cons.mp h).1.symm

/-- A location on the way below `base` is on the way to it, or below it. -/
theorem isPrefix_append_cases {q base p : List Name} (h : q <+: base ++ p) :
    q <+: base ∨ ∃ p', p' <+: p ∧ q = base ++ p' := by
  rcases List.prefix_or_prefix_of_prefix h (List.prefix_append base p) with hbase | ⟨p', rfl⟩
  · exact Or.inl hbase
  · exact Or.inr ⟨p', (List.prefix_append_right_inj base).mp h, rfl⟩

/-! ## Whole paths -/

/-- The row of an entry whose path is whole. -/
def wholeRow (md5 : Bytes → Text) (e : Entry) : Row := ⟨joined e.1, e.2.hash md5⟩

/-- What stands on the disk shows a node of the tree. -/
def Shows (lfs : Lfs) : Item Bytes Text → Node → Prop
  | .folder, node => node = .dir
  | .file content, node => node = .file content
  | .link hash, node => ∃ content, lfs.content hash = some content ∧ node = .file content

theorem Shows.folder_of_dir {item : Item Bytes Text} (h : Shows lfs item .dir) :
    item = .folder := by
  cases item with
  | folder => rfl
  | file content => cases h
  | link hash =>
    obtain ⟨_, -, heq⟩ := h
    cases heq

theorem Shows.view {location : List Name} {item : Item Bytes Text} {node : Node}
    (h : Shows lfs item node) (hget : get disk location = some item) :
    Packages.view disk lfs location = some node := by
  rw [Packages.view, hget]
  cases item with
  | folder => exact congrArg some (Eq.symm h)
  | file content => exact congrArg some (Eq.symm h)
  | link hash =>
    obtain ⟨content, hcontent, rfl⟩ := h
    exact congrArg (Option.map Node.file) hcontent

theorem Shows.mono {item : Item Bytes Text} {node : Node} (h : Shows lfs item node)
    (hlfs : ∀ hash content, lfs.content hash = some content → lfs'.content hash = some content) :
    Shows lfs' item node := by
  cases item with
  | folder => exact h
  | file content => exact h
  | link hash =>
    obtain ⟨content, hcontent, rfl⟩ := h
    exact ⟨content, hlfs hash content hcontent, rfl⟩

/-- What stands on the disk after the rows `done`. -/
structure Loaded (md5 : Bytes → Text) (t : Folder) (parent : List Name) (name : Name)
    (done : List Row) (disk : LocalDisk) (lfs : Lfs) : Prop where
  /-- the temporary folder is there -/
  dirs : ∀ q, q <+: parent ++ [tmpName name] → get disk q = some .folder
  /-- nothing wrong is there; files only from rows that have been worked through -/
  sound : ∀ p item, p ≠ [] → get disk (parent ++ [tmpName name] ++ p) = some item →
    ∃ node, t.at p = some node ∧ Shows lfs item node ∧
      (node ≠ .dir → wholeRow md5 (p, node) ∈ done)
  /-- nothing is missing -/
  complete : ∀ e ∈ t.entries, wholeRow md5 e ∈ done →
    get disk (parent ++ [tmpName name] ++ e.1) ≠ none
  vacant : ∀ r, get disk (parent ++ [name] ++ r) = none
  lfs : lfs.Consistent md5

variable {done : List Row} {p : List Name} {content : Bytes}

theorem wholeRow_path_inj (md5 : Bytes → Text) (ht : t.Valid) {e e' : Entry} (he : e ∈ t.entries)
    (he' : e' ∈ t.entries)
    (h : (wholeRow md5 e).path = (wholeRow md5 e').path) : e = e' := by
  have hne : ∀ e ∈ t.entries, e.1 ≠ [] := fun e he => ((Folder.mem_entries ht).mp he).1
  have hpath : e.1 = e'.1 := joined_injective (Folder.validName_of_mem_entries ht he) (hne e he)
    (Folder.validName_of_mem_entries ht he') (hne e' he') h
  exact List.inj_on_of_nodup_map (Folder.nodup_entries ht) he he' hpath

theorem nodup_wholeRows (ht : t.Valid) : (t.entries.map (wholeRow md5)).Nodup :=
  (List.Nodup.of_map Prod.fst (Folder.nodup_entries ht)).map_on
    fun _ he _ he' h => wholeRow_path_inj md5 ht he he' (congrArg Row.path h)

theorem loaded_start (hfresh : Fresh disk parent name) (hlfs : lfs.Consistent md5) :
    ∃ disk', makeDirs disk (parent ++ [tmpName name]) = some disk' ∧
      Loaded md5 t parent name [] disk' lfs := by
  have hfolders : ∀ q, q <+: parent ++ [tmpName name] → FolderOr disk q := by
    intro q hq
    rcases List.prefix_concat_iff.mp hq with rfl | hparent
    · exact Or.inl (by simpa using hfresh.tmp [])
    · exact hfresh.parents q hparent
  obtain ⟨disk', hdirs⟩ := makeDirs_of_forall hfolders
  have hget := get_makeDirs hdirs
  refine ⟨disk', hdirs, ⟨fun q hq => ?_, fun p item hne hitem => ?_, fun _ _ h =>
    absurd h List.not_mem_nil,
    fun r => ?_, hlfs⟩⟩
  · rw [hget, if_pos hq]
  · rw [hget, if_neg fun hprefix => hne (by simpa using hprefix.length_le), hfresh.tmp] at hitem
    cases hitem
  · rw [hget, if_neg fun hprefix => ?_, hfresh.vacant]
    have hnot := not_isPrefix_tmp parent name r []
    rw [List.append_nil] at hnot
    exact hnot hprefix

/-- A folder's row can be worked through. -/
theorem loaded_dir (ht : t.Valid) (h : Loaded md5 t parent name done disk lfs)
    (hp : (p, Node.dir) ∈ t.entries) :
    ∃ disk', makeDirs disk (parent ++ [tmpName name] ++ p) = some disk' ∧
      Loaded md5 t parent name (done ++ [wholeRow md5 (p, .dir)]) disk' lfs := by
  have hat := (Folder.mem_entries ht).mp hp
  have hbelow : ∀ p', p' <+: p → t.at p' = some .dir := fun p' hp' =>
    Folder.at_dir_of_isPrefix hat.2 hp'
  have hfolders : ∀ q, q <+: parent ++ [tmpName name] ++ p → FolderOr disk q := by
    intro q hq
    rcases isPrefix_append_cases hq with hbase | ⟨p', hp', rfl⟩
    · exact Or.inr (h.dirs q hbase)
    · by_cases hne : p' = []
      · subst hne
        exact Or.inr (h.dirs _ (by simp))
      · cases hitem : get disk (parent ++ [tmpName name] ++ p') with
        | none => exact Or.inl hitem
        | some item =>
          obtain ⟨node, hnode, hshows, -⟩ := h.sound p' item hne hitem
          obtain rfl := Option.some.inj (hnode.symm.trans (hbelow p' hp'))
          exact Or.inr (hitem.trans (congrArg some hshows.folder_of_dir))
  obtain ⟨disk', hdirs⟩ := makeDirs_of_forall hfolders
  have hget := get_makeDirs hdirs
  refine ⟨disk', hdirs, ⟨fun q hq => ?_, fun p' item hne hitem => ?_, fun e he hdone => ?_,
    fun r => ?_, h.lfs⟩⟩
  · rw [hget]
    split_ifs
    · rfl
    · exact h.dirs q hq
  · rw [hget] at hitem
    split_ifs at hitem with hprefix
    · obtain rfl := Option.some.inj hitem
      exact ⟨.dir, hbelow p' ((List.prefix_append_right_inj _).mp hprefix), rfl,
        fun hne => absurd rfl hne⟩
    · obtain ⟨node, hnode, hshows, hfile⟩ := h.sound p' item hne hitem
      exact ⟨node, hnode, hshows, fun hne => List.mem_append_left _ (hfile hne)⟩
  · rw [hget]
    split_ifs with hprefix
    · exact Option.some_ne_none _
    · rcases List.mem_append.mp hdone with hold | hlast
      · exact h.complete e he hold
      · have heq := wholeRow_path_inj md5 ht he hp
          (congrArg Row.path (List.mem_singleton.mp hlast))
        rw [heq] at hprefix
        exact absurd (List.prefix_refl _) hprefix
  · rw [hget, if_neg (not_isPrefix_tmp parent name r p), h.vacant]

/-- Something is put where a file of the tree stands. -/
theorem loaded_put (ht : t.Valid) (h : Loaded md5 t parent name done disk lfs)
    (hp : (p, Node.file content) ∈ t.entries) {item : Item Bytes Text}
    (hitem : Shows lfs' item (.file content)) (hlfs' : lfs'.Consistent md5)
    (hmono : ∀ hash content, lfs.content hash = some content →
      lfs'.content hash = some content) :
    Loaded md5 t parent name (done ++ [wholeRow md5 (p, .file content)])
      (put disk (parent ++ [tmpName name] ++ p) item) lfs' := by
  have hat := (Folder.mem_entries ht).mp hp
  refine ⟨fun q hq => ?_, fun p' item' hne hitem' => ?_, fun e he hdone => ?_, fun r => ?_, hlfs'⟩
  · rw [get_put, if_neg, h.dirs q hq]
    rintro rfl
    exact hat.1 (by simpa using hq.length_le)
  · rw [get_put] at hitem'
    split_ifs at hitem' with heq
    · obtain rfl := List.append_cancel_left heq
      obtain rfl := Option.some.inj hitem'
      exact ⟨_, hat.2, hitem, fun _ => List.mem_append_right _ (List.mem_singleton_self _)⟩
    · obtain ⟨node, hnode, hshows, hfile⟩ := h.sound p' item' hne hitem'
      exact ⟨node, hnode, hshows.mono hmono, fun hne => List.mem_append_left _ (hfile hne)⟩
  · rw [get_put]
    split_ifs with heq
    · exact Option.some_ne_none _
    · rcases List.mem_append.mp hdone with hold | hlast
      · exact h.complete e he hold
      · have hrow := wholeRow_path_inj md5 ht he hp
          (congrArg Row.path (List.mem_singleton.mp hlast))
        rw [hrow] at heq
        exact absurd rfl heq
  · rw [get_put, if_neg, h.vacant]
    intro heq
    refine not_isPrefix_tmp parent name r p ?_
    rw [heq]

/-- More files in the LFS folder hide nothing. -/
theorem Loaded.mono_lfs (h : Loaded md5 t parent name done disk lfs) (hlfs' : lfs'.Consistent md5)
    (hmono : ∀ hash content, lfs.content hash = some content →
      lfs'.content hash = some content) : Loaded md5 t parent name done disk lfs' := by
  refine ⟨h.dirs, fun p item hne hitem => ?_, h.complete, h.vacant, hlfs'⟩
  obtain ⟨node, hnode, hshows, hfile⟩ := h.sound p item hne hitem
  exact ⟨node, hnode, hshows.mono hmono, hfile⟩

theorem joined_concat {q : List Name} (hq : q ≠ []) (name : Name) :
    joined (q ++ [name]) = joined q ++ '/' :: name := by
  induction q with
  | nil => exact absurd rfl hq
  | cons m q ih =>
    cases q with
    | nil => rw [List.singleton_append, joined_cons_cons, joined_singleton, joined_singleton]
    | cons next q =>
      rw [List.cons_append, List.cons_append, joined_cons_cons, ← List.cons_append,
        ih (List.cons_ne_nil _ _), joined_cons_cons, List.append_assoc]
      rfl

/-- The folder a file goes to is there, and the file is not. -/
theorem loaded_place (ht : t.Valid) (h : Loaded md5 t parent name done disk lfs)
    (hp : (p, Node.file content) ∈ t.entries) {todo : List Row}
    (hrows : (done ++ wholeRow md5 (p, .file content) :: todo).Perm
      (t.entries.map (wholeRow md5)))
    (hsorted : (done ++ wholeRow md5 (p, .file content) :: todo).Pairwise
      fun a b => ¬ b.path ++ ['/'] <+: a.path) :
    get disk (parent ++ [tmpName name] ++ p).dropLast = some .folder ∧
      get disk (parent ++ [tmpName name] ++ p) = none := by
  have hat := (Folder.mem_entries ht).mp hp
  constructor
  · obtain ⟨q, m, rfl⟩ : ∃ q m, p = q ++ [m] :=
      ⟨_, _, (List.dropLast_append_getLast hat.1).symm⟩
    rw [← List.append_assoc, List.dropLast_concat]
    by_cases hq : q = []
    · subst hq
      exact h.dirs _ (by simp)
    · have hdir : t.at q = some .dir :=
        Folder.at_of_isPrefix (by rw [hat.2]; nofun) (List.prefix_append q [m]) (by simp)
      have hentry : (q, Node.dir) ∈ t.entries := (Folder.mem_entries ht).mpr ⟨hq, hdir⟩
      have hmem := hrows.mem_iff.mpr (List.mem_map_of_mem (f := wholeRow md5) hentry)
      have hdone : wholeRow md5 (q, .dir) ∈ done := by
        rcases List.mem_append.mp hmem with hdone | hmem
        · exact hdone
        · rcases List.mem_cons.mp hmem with heq | htodo
          · cases congrArg Row.fileHash heq
          · have hafter := (List.pairwise_cons.mp (List.pairwise_append.mp hsorted).2.1).1 _ htodo
            refine absurd ?_ hafter
            show joined q ++ ['/'] <+: joined (q ++ [m])
            rw [joined_concat hq]
            exact ⟨m, by simp⟩
      obtain ⟨item, hitem⟩ := Option.ne_none_iff_exists'.mp (h.complete _ hentry hdone)
      obtain ⟨node, hnode, hshows, -⟩ := h.sound q item hq hitem
      obtain rfl := Option.some.inj (hnode.symm.trans hdir)
      exact hitem.trans (congrArg some hshows.folder_of_dir)
  · cases hitem : get disk (parent ++ [tmpName name] ++ p) with
    | none => rfl
    | some item =>
      obtain ⟨node, hnode, -, hfile⟩ := h.sound p item hat.1 hitem
      obtain rfl := Option.some.inj (hnode.symm.trans hat.2)
      have hnodup := hrows.nodup_iff.mpr (nodup_wholeRows ht)
      have hnot := (List.nodup_append.mp hnodup).2.2 _ (hfile nofun) _ List.mem_cons_self
      exact absurd rfl hnot

theorem resolve_wholeRow (ht : t.Valid) {e : Entry} (he : e ∈ t.entries) (base : List Name) :
    resolve base (wholeRow md5 e).path = base ++ e.1 :=
  resolve_joined (Folder.validName_of_mem_entries ht he) ((Folder.mem_entries ht).mp he).1 base

/-- A file's row can be worked through: its content comes from the database or the LFS folder. -/
theorem loadRow_file (hmd5 : CollisionFree md5) (ht : t.Valid)
    (h : Loaded md5 t parent name done disk lfs) (hp : (p, Node.file content) ∈ t.entries)
    (hparent : get disk (parent ++ [tmpName name] ++ p).dropLast = some .folder)
    (hvacant : get disk (parent ++ [tmpName name] ++ p) = none)
    (hcontent : db.content (md5 content) = some content) :
    ∃ disk' lfs', loadRow db useLfs (parent ++ [tmpName name]) (disk, lfs)
        (wholeRow md5 (p, .file content)) = .ok (disk', lfs') ∧
      Loaded md5 t parent name (done ++ [wholeRow md5 (p, .file content)]) disk' lfs' := by
  have hresolve : resolve (parent ++ [tmpName name]) (wholeRow md5 (p, .file content)).path =
      parent ++ [tmpName name] ++ p := resolve_wholeRow ht hp (parent ++ [tmpName name])
  have hlink : ∀ lfs' : Lfs, lfs'.content (md5 content) = some content → lfs'.Consistent md5 →
      (∀ hash content, lfs.content hash = some content → lfs'.content hash = some content) →
      Loaded md5 t parent name (done ++ [wholeRow md5 (p, .file content)])
        (put disk (parent ++ [tmpName name] ++ p) (.link (md5 content))) lfs' := by
    intro lfs' hlfs' hconsistent hmono
    exact loaded_put ht h hp ⟨content, hlfs', rfl⟩ hconsistent hmono
  rw [loadRow]
  simp only [hresolve, show (wholeRow md5 (p, .file content)).fileHash =
    some (md5 content) from rfl,
    if_neg (hmd5.ne_empty content), hcontent]
  split_ifs with hfound hlarge
  · obtain ⟨content', hcontent'⟩ := Option.isSome_iff_exists.mp hfound.2
    obtain rfl := hmd5.injective (Lfs.hash_of_content h.lfs hcontent')
    rw [symlink_of_vacant hparent hvacant]
    exact ⟨_, _, rfl, hlink lfs hcontent' h.lfs fun _ _ hc => hc⟩
  · have hnew : ¬ (lfs.content (md5 content)).isSome := fun hsome => hfound ⟨hlarge.1, hsome⟩
    rw [symlink_of_vacant hparent hvacant]
    refine ⟨_, _, rfl, hlink ((md5 content, content) :: lfs) ?_ ?_ ?_⟩
    · simp [Lfs.content]
    · intro e he
      rcases List.mem_cons.mp he with rfl | hold
      · rfl
      · exact h.lfs e hold
    · intro hash content' hcontent'
      have hne : md5 content ≠ hash := by
        rintro rfl
        exact hnew (Option.isSome_iff_exists.mpr ⟨content', hcontent'⟩)
      rw [Lfs.content, List.find?_cons_of_neg (by simpa using hne)]
      exact hcontent'
  · rw [write_of_vacant hparent hvacant]
    exact ⟨_, _, rfl, loaded_put ht h hp rfl h.lfs fun _ _ hc => hc⟩

theorem loadRow_dir (ht : t.Valid) (h : Loaded md5 t parent name done disk lfs)
    (hp : (p, Node.dir) ∈ t.entries) :
    ∃ disk' lfs', loadRow db useLfs (parent ++ [tmpName name]) (disk, lfs)
        (wholeRow md5 (p, .dir)) = .ok (disk', lfs') ∧
      Loaded md5 t parent name (done ++ [wholeRow md5 (p, .dir)]) disk' lfs' := by
  obtain ⟨disk', hdirs, hloaded⟩ := loaded_dir ht h hp
  refine ⟨disk', lfs, ?_, hloaded⟩
  show place lfs (makeDirs disk (resolve _ (wholeRow md5 (p, .dir)).path)) = _
  rw [resolve_wholeRow ht hp, hdirs]
  rfl

/-- All rows can be worked through. -/
theorem loaded_rows (useLfs : Bool) (hmd5 : CollisionFree md5) (ht : t.Valid)
    (hcontent : ∀ p content, (p, Node.file content) ∈ t.entries →
      db.content (md5 content) = some content)
    (todo : List Row) (h : Loaded md5 t parent name done disk lfs)
    (hrows : (done ++ todo).Perm (t.entries.map (wholeRow md5)))
    (hsorted : (done ++ todo).Pairwise fun a b => ¬ b.path ++ ['/'] <+: a.path) :
    ∃ disk' lfs', todo.foldlM (loadRow db useLfs (parent ++ [tmpName name])) (disk, lfs) =
        .ok (disk', lfs') ∧
      Loaded md5 t parent name (done ++ todo) disk' lfs' := by
  induction todo generalizing done disk lfs with
  | nil => exact ⟨disk, lfs, rfl, by rwa [List.append_nil]⟩
  | cons r todo ih =>
    have hmem : r ∈ t.entries.map (wholeRow md5) :=
      hrows.mem_iff.mp (List.mem_append_right _ List.mem_cons_self)
    have hassoc : done ++ r :: todo = done ++ [r] ++ todo := by
      rw [List.append_assoc]
      rfl
    obtain ⟨⟨p, node⟩, he, rfl⟩ := List.mem_map.mp hmem
    obtain ⟨disk₁, lfs₁, hrow, hloaded⟩ : ∃ disk₁ lfs₁,
        loadRow db useLfs (parent ++ [tmpName name]) (disk, lfs) (wholeRow md5 (p, node)) =
          .ok (disk₁, lfs₁) ∧
        Loaded md5 t parent name (done ++ [wholeRow md5 (p, node)]) disk₁ lfs₁ := by
      cases node with
      | dir => exact loadRow_dir ht h he
      | file content =>
        obtain ⟨hparent, hvacant⟩ := loaded_place ht h he hrows hsorted
        exact loadRow_file hmd5 ht h he hparent hvacant (hcontent p content he)
    rw [hassoc] at hrows hsorted ⊢
    obtain ⟨disk', lfs', hrest, hdone⟩ := ih hloaded hrows hsorted
    refine ⟨disk', lfs', ?_, hdone⟩
    rw [List.foldlM_cons, hrow]
    exact hrest

/-- The tree stands at a location, and nothing else does. -/
structure Standing (lfs : Lfs) (disk : LocalDisk) (location : List Name) (t : Folder) : Prop where
  sound : ∀ p item, get disk (location ++ p) = some item →
    ∃ node, t.at p = some node ∧ Shows lfs item node
  complete : ∀ p, t.at p ≠ none → get disk (location ++ p) ≠ none

theorem Standing.view_eq {location : List Name} (h : Standing lfs disk location t)
    (p : List Name) : view disk lfs (location ++ p) = t.at p := by
  cases hitem : get disk (location ++ p) with
  | none =>
    rw [view, hitem]
    by_contra hne
    exact h.complete p (Ne.symm hne) hitem
  | some item =>
    obtain ⟨node, hnode, hshows⟩ := h.sound p item hitem
    rw [hnode]
    exact hshows.view hitem

/-- What stands elsewhere, or with more files in the LFS folder, stands as well. -/
theorem Standing.transport {location location' : List Name} (h : Standing lfs disk location t)
    (hget : ∀ p, get disk' (location' ++ p) = get disk (location ++ p))
    (hlfs : ∀ hash content, lfs.content hash = some content → lfs'.content hash = some content) :
    Standing lfs' disk' location' t := by
  constructor
  · intro p item hitem
    rw [hget] at hitem
    obtain ⟨node, hnode, hshows⟩ := h.sound p item hitem
    exact ⟨node, hnode, hshows.mono hlfs⟩
  · intro p hp
    rw [hget]
    exact h.complete p hp

/-- When all rows have been worked through, the tree stands in the temporary folder. -/
theorem Loaded.standing (ht : t.Valid) (h : Loaded md5 t parent name done disk lfs)
    (hdone : ∀ e ∈ t.entries, wholeRow md5 e ∈ done) :
    Standing lfs disk (parent ++ [tmpName name]) t := by
  constructor
  · intro p item hitem
    by_cases hp : p = []
    · subst hp
      rw [List.append_nil, h.dirs _ (List.prefix_refl _)] at hitem
      obtain rfl := Option.some.inj hitem
      exact ⟨.dir, Folder.at_nil t, rfl⟩
    · obtain ⟨node, hnode, hshows, -⟩ := h.sound p item hp hitem
      exact ⟨node, hnode, hshows⟩
  · intro p hat
    by_cases hp : p = []
    · subst hp
      rw [List.append_nil, h.dirs _ (List.prefix_refl _)]
      exact Option.some_ne_none _
    · obtain ⟨node, hnode⟩ := Option.ne_none_iff_exists'.mp hat
      have he := (Folder.mem_entries ht).mpr ⟨hp, hnode⟩
      exact h.complete _ he (hdone _ he)

/-- A load into a folder that does not exist. -/
theorem load_eq (hvacant : get disk (parent ++ [name]) = none) :
    loadPackageToFolder orderBy db package disk parent name useLfs lfs =
      (place lfs (makeDirs disk (parent ++ [tmpName name])) >>= fun s =>
        (orderBy (db.rows package)).foldlM (loadRow db useLfs (parent ++ [tmpName name])) s >>=
        fun s => place s.2 (rename s.1 (parent ++ [tmpName name]) (parent ++ [name])) >>=
        fun s => .ok (true, s)) := by
  rw [loadPackageToFolder, if_neg (by rw [hvacant]; exact Bool.false_ne_true)]
  rfl

/-- The files of a package's rows are in the database. -/
theorem content_of_rows (hmd5 : CollisionFree md5) (hdb : db.Consistent md5)
    (hrows : (db.rows package).Perm (t.entries.map (wholeRow md5))) (p : List Name)
    (content : Bytes) (he : (p, Node.file content) ∈ t.entries) :
    db.content (md5 content) = some content := by
  have hmem := hrows.mem_iff.mpr (List.mem_map_of_mem (f := wholeRow md5) he)
  obtain ⟨content', hcontent'⟩ := hdb.stored _ (mem_rows.mp hmem) (md5 content) rfl
  obtain rfl := hmd5.injective (Db.hash_of_content hdb.files hcontent')
  exact hcontent'

/-- **Loading gives the folder back**, when the rows of the package are those of the folder and
their paths are whole. -/
theorem load_plain (hmd5 : CollisionFree md5) (horder : ParentsFirst orderBy)
    (hdb : db.Consistent md5) (hlfs : lfs.Consistent md5) (ht : t.Valid)
    (hrows : (db.rows package).Perm (t.entries.map (wholeRow md5)))
    (hfresh : Fresh disk parent name) :
    ∃ disk' lfs', loadPackageToFolder orderBy db package disk parent name useLfs lfs =
        .ok (true, disk', lfs') ∧
      ∀ p, view disk' lfs' (parent ++ [name] ++ p) = t.at p := by
  have hcontent := content_of_rows hmd5 hdb hrows
  have hperm := (horder.perm (db.rows package)).trans hrows
  obtain ⟨disk₁, hdirs, hstart⟩ := loaded_start (t := t) hfresh hlfs
  obtain ⟨disk₂, lfs₂, hload, hdone⟩ := loaded_rows useLfs hmd5 ht hcontent
    (orderBy (db.rows package)) hstart hperm (horder.sorted (db.rows package))
  rw [List.nil_append] at hdone
  have hnone := hdone.vacant []
  rw [List.append_nil] at hnone
  obtain ⟨disk₃, hrename⟩ := rename_of_vacant
    (hdone.dirs (parent ++ [tmpName name]) (List.prefix_refl _))
    (show get disk₂ (parent ++ [name]).dropLast = some .folder by
      rw [List.dropLast_concat]
      exact hdone.dirs parent (List.prefix_append parent _))
    (fun hprefix => tmpName_ne name
      (List.cons_prefix_cons.mp ((List.prefix_append_right_inj parent).mp hprefix)).1)
    hnone
  refine ⟨disk₃, lfs₂, ?_, fun p => ?_⟩
  · have hvacant := hfresh.vacant []
    rw [List.append_nil] at hvacant
    rw [load_eq hvacant, hdirs]
    show (List.foldlM (loadRow db useLfs _) (disk₁, lfs) _ >>= _) = _
    rw [hload]
    show (place lfs₂ (rename disk₂ _ _) >>= _) = _
    rw [hrename]
    rfl
  · have hstanding := hdone.standing ht fun e he =>
      hperm.mem_iff.mpr (List.mem_map_of_mem (f := wholeRow md5) he)
    exact (hstanding.transport (get_rename hrename) fun _ _ hc => hc).view_eq p

/-! ## Where things come to stand -/

/-- A row puts something only on the way to its location. -/
theorem get_of_loadRow {r : Row} {q : List Name}
    (h : loadRow db useLfs base (disk, lfs) r = .ok (disk', lfs')) (hq : get disk' q ≠ none) :
    get disk q ≠ none ∨ q <+: resolve base r.path := by
  have hplace : ∀ {lfs₁ : Lfs} {result : Option LocalDisk},
      place lfs₁ result = .ok (disk', lfs') → result = some disk' := by
    intro lfs₁ result hok
    cases result with
    | none => cases hok
    | some d => exact congrArg some (Prod.mk.inj (Except.ok.inj hok)).1
  have hdirs : makeDirs disk (resolve base r.path) = some disk' →
      get disk q ≠ none ∨ q <+: resolve base r.path := by
    intro hdirs
    rw [get_makeDirs hdirs] at hq
    split_ifs at hq with hprefix
    · exact Or.inr hprefix
    · exact Or.inl hq
  have hput : ∀ item, disk' = put disk (resolve base r.path) item →
      get disk q ≠ none ∨ q <+: resolve base r.path := by
    rintro item rfl
    rw [get_put] at hq
    split_ifs at hq with heq
    · exact Or.inr (heq ▸ List.prefix_refl _)
    · exact Or.inl hq
  rw [loadRow] at h
  cases hhash : r.fileHash with
  | none =>
    rw [hhash] at h
    exact hdirs (hplace h)
  | some hash =>
    rw [hhash] at h
    dsimp only at h
    split_ifs at h
    · exact hdirs (hplace h)
    · exact hput _ (symlink_eq (hplace h))
    · cases hcontent : db.content hash with
      | none =>
        rw [hcontent] at h
        cases h
      | some content =>
        rw [hcontent] at h
        dsimp only at h
        split_ifs at h
        · exact hput _ (symlink_eq (hplace h))
        · exact hput _ (write_eq (hplace h))

theorem get_of_foldlM_loadRow {rows : List Row} {q : List Name}
    (h : rows.foldlM (loadRow db useLfs base) (disk, lfs) = .ok (disk', lfs'))
    (hq : get disk' q ≠ none) : get disk q ≠ none ∨ ∃ r ∈ rows, q <+: resolve base r.path := by
  induction rows generalizing disk lfs with
  | nil =>
    obtain ⟨rfl, -⟩ := Prod.mk.inj (Except.ok.inj h)
    exact Or.inl hq
  | cons r rows ih =>
    rw [List.foldlM_cons] at h
    cases hrow : loadRow db useLfs base (disk, lfs) r with
    | error lfs₁ =>
      rw [hrow] at h
      cases h
    | ok state =>
      obtain ⟨disk₁, lfs₁⟩ := state
      rw [hrow] at h
      rcases ih h with hold | ⟨r', hr', hprefix⟩
      · rcases get_of_loadRow hrow hold with hold | hprefix
        · exact Or.inl hold
        · exact Or.inr ⟨r, List.mem_cons_self, hprefix⟩
      · exact Or.inr ⟨r', List.mem_cons_of_mem r hr', hprefix⟩

/-- After a load, what stands below the folder stands on the way to a row's location. -/
theorem exists_row_of_load (horder : ParentsFirst orderBy) (hfresh : Fresh disk parent name)
    (h : loadPackageToFolder orderBy db package disk parent name useLfs lfs =
      .ok (true, disk', lfs')) (hp : p ≠ [])
        (hview : view disk' lfs' (parent ++ [name] ++ p) ≠ none) :
    ∃ r ∈ db.rows package,
      parent ++ [tmpName name] ++ p <+: resolve (parent ++ [tmpName name]) r.path := by
  have hvacant := hfresh.vacant []
  rw [List.append_nil] at hvacant
  rw [load_eq hvacant] at h
  cases hdirs : makeDirs disk (parent ++ [tmpName name]) with
  | none =>
    rw [hdirs] at h
    cases h
  | some disk₁ =>
    rw [hdirs] at h
    replace h : (List.foldlM (loadRow db useLfs (parent ++ [tmpName name])) (disk₁, lfs)
      (orderBy (db.rows package)) >>= _) = _ := h
    cases hload : List.foldlM (loadRow db useLfs (parent ++ [tmpName name])) (disk₁, lfs)
        (orderBy (db.rows package)) with
    | error lfs₁ =>
      rw [hload] at h
      cases h
    | ok state =>
      obtain ⟨disk₂, lfs₂⟩ := state
      rw [hload] at h
      replace h : (place lfs₂ (rename disk₂ (parent ++ [tmpName name]) (parent ++ [name])) >>= _) =
        _ := h
      cases hrename : rename disk₂ (parent ++ [tmpName name]) (parent ++ [name]) with
      | none =>
        rw [hrename] at h
        cases h
      | some disk₃ =>
        rw [hrename] at h
        obtain rfl : disk₃ = disk' := (Prod.mk.inj (Prod.mk.inj (Except.ok.inj h)).2).1
        have hget : get disk₂ (parent ++ [tmpName name] ++ p) ≠ none := by
          rw [← get_rename hrename p]
          intro hnone
          rw [view, hnone] at hview
          exact hview rfl
        rcases get_of_foldlM_loadRow hload hget with hold | ⟨r, hr, hprefix⟩
        · rw [get_makeDirs hdirs, if_neg fun hprefix => hp (by simpa using hprefix.length_le),
            hfresh.tmp] at hold
          exact absurd rfl hold
        · exact ⟨r, (horder.perm _).mem_iff.mp hr, hprefix⟩

end Gameserver.Packages
