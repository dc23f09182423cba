import Gameserver.Packages.Loading

/-!
# Folders through packages and back

A folder whose rows have whole paths is given back by a load, and its package is named by its
contents (`package_round_trip_iff`).  The paths are whole unless the folder's string ends in a
slash and something stands deeper than directly in it; then the round trip always fails
(`not_roundTrips`).
-/

namespace Gameserver.Packages

open Json (Text)
open FileSystem
open Machine

variable {md5 : Bytes → Text} {orderBy : List Row → List Row} {path path' : Text}
  {tree tree' : Tree} {s s' : Store}

/-- Storing the folder returns a package, and every later load of it into a folder that does not
exist reproduces the folder without its ignored entries. -/
def RoundTrips (md5 : Bytes → Text) (orderBy : List Row → List Row) (s : Store) (path : Text)
    (tree : Tree) : Prop :=
  ∃ package isNew,
    (moveFolderToPackage md5 s.db path tree.folder).2 = .ok (package, isNew) ∧
    ∀ (later : List Event) (disk : LocalDisk) (parent : List Name) (name : Name) (useLfs : Bool),
      Fresh disk parent name →
      let s' := exec (Store.step md5 orderBy) (s.step md5 orderBy (.moveFolder path tree)) later
      ∃ disk' lfs', loadPackageToFolder orderBy s'.db package disk parent name useLfs s'.lfs =
          .ok (true, disk', lfs') ∧
        ∀ p, view disk' lfs' (parent ++ [name] ++ p) = tree.folder.prune.at p

/-- The folders are the same, ignored entries apart. -/
def SameFolder (tree tree' : Tree) : Prop :=
  ∀ p, tree.folder.prune.at p = tree'.folder.prune.at p

/-- Two uploads get one package exactly when the folders are the same. -/
def SameIds (md5 : Bytes → Text) (s s' : Store) (path path' : Text) (tree tree' : Tree) : Prop :=
  ∀ package package' isNew isNew',
    (moveFolderToPackage md5 s.db path tree.folder).2 = .ok (package, isNew) →
    (moveFolderToPackage md5 s'.db path' tree'.folder).2 = .ok (package', isNew') →
    (package = package' ↔ SameFolder tree tree')

/-- The paths of the rows are whole: the folder's string does not end in a slash, or everything
stands directly in the folder. -/
def Plain (path : Text) (f : Folder) : Prop :=
  path.getLast? = some '/' → ∀ e ∈ f.prune.entries, e.1.length < 2

/-! ## Whole paths -/

theorem listing_of_plain {f : Folder} (h : Plain path f) :
    listing md5 path f = f.prune.entries.map (wholeRow md5) := by
  refine List.map_congr_left fun e he => ?_
  rw [row, wholeRow, rowPath, if_neg]
  rintro ⟨hslash, hdeep⟩
  have := h hslash e he
  omega

theorem Node.hash_injective (hmd5 : CollisionFree md5) : Function.Injective (Node.hash md5) := by
  intro node node' h
  cases node with
  | dir =>
    cases node' with
    | dir => rfl
    | file => cases h
  | file content =>
    cases node' with
    | dir => cases h
    | file content' => exact congrArg Node.file (hmd5.injective (Option.some.inj h))

theorem mem_of_wholeRow_mem (hmd5 : CollisionFree md5) {t t' : Folder} (ht : t.Valid)
    (ht' : t'.Valid) {e : Entry} (he : e ∈ t.entries)
    (hmem : wholeRow md5 e ∈ t'.entries.map (wholeRow md5)) : e ∈ t'.entries := by
  obtain ⟨e', he', hrow⟩ := List.mem_map.mp hmem
  have hpath : e'.1 = e.1 :=
    joined_injective (Folder.validName_of_mem_entries ht' he') ((Folder.mem_entries ht').mp he').1
      (Folder.validName_of_mem_entries ht he) ((Folder.mem_entries ht).mp he).1
      (congrArg Row.path hrow)
  have hnode : e'.2 = e.2 := Node.hash_injective hmd5 (congrArg Row.fileHash hrow)
  rwa [show e = e' from (Prod.ext hpath hnode).symm]

/-- Folders with the same rows are the same. -/
theorem sameFolder_of_perm (hmd5 : CollisionFree md5)
    (h : (tree.folder.prune.entries.map (wholeRow md5)).Perm
      (tree'.folder.prune.entries.map (wholeRow md5))) : SameFolder tree tree' := by
  intro p
  by_cases hp : p = []
  · rw [hp, Folder.at_nil, Folder.at_nil]
  · refine Option.ext fun node => ?_
    have ht := tree.valid.prune
    have ht' := tree'.valid.prune
    constructor
    · intro hat
      have he := (Folder.mem_entries ht).mpr ⟨hp, hat⟩
      have hmem := h.mem_iff.mp (List.mem_map_of_mem (f := wholeRow md5) he)
      exact ((Folder.mem_entries ht').mp (mem_of_wholeRow_mem hmd5 ht ht' he hmem)).2
    · intro hat
      have he := (Folder.mem_entries ht').mpr ⟨hp, hat⟩
      have hmem := h.mem_iff.mpr (List.mem_map_of_mem (f := wholeRow md5) he)
      exact ((Folder.mem_entries ht).mp (mem_of_wholeRow_mem hmd5 ht' ht he hmem)).2

/-- The same folders have the same entries. -/
theorem SameFolder.perm (h : SameFolder tree tree') :
    tree.folder.prune.entries.Perm tree'.folder.prune.entries := by
  have ht := tree.valid.prune
  have ht' := tree'.valid.prune
  refine (List.perm_ext_iff_of_nodup (List.Nodup.of_map Prod.fst (Folder.nodup_entries ht))
    (List.Nodup.of_map Prod.fst (Folder.nodup_entries ht'))).mpr fun e => ?_
  obtain ⟨p, node⟩ := e
  rw [Folder.mem_entries ht, Folder.mem_entries ht', h p]

theorem nodup_wholePaths (tree : Tree) :
    ((tree.folder.prune.entries.map (wholeRow md5)).map Row.path).Nodup := by
  rw [List.map_map]
  refine (List.Nodup.of_map Prod.fst (Folder.nodup_entries tree.valid.prune)).map_on ?_
  exact fun e he e' he' h => wholeRow_path_inj md5 tree.valid.prune he he' h

/-! ## Uploads of plain folders -/

theorem addAll_of_nodup {db : Db} (h : db.Consistent md5) {package : Text} {rows : List Row}
    (hnew : db.rows package = []) (hrows : (rows.map Row.path).Nodup) :
    ∃ db', db.addAll package rows = some db' := by
  refine ⟨_, if_pos ?_⟩
  rw [List.map_append, List.map_map]
  refine List.nodup_append.mpr ⟨h.nodup, ?_, ?_⟩
  · have hmap : rows.map ((fun e : Text × Row => (e.1, e.2.path)) ∘ Prod.mk package) =
        (rows.map Row.path).map (Prod.mk package) := by
      rw [List.map_map]
      rfl
    rw [hmap]
    exact hrows.map fun _ _ h => (Prod.mk.inj h).2
  · intro key hold key' hkey' heq
    obtain ⟨e, he, rfl⟩ := List.mem_map.mp hold
    obtain ⟨r, -, rfl⟩ := List.mem_map.mp hkey'
    obtain ⟨rfl, -⟩ := Prod.mk.inj heq
    have hmem : e.2 ∈ db.rows e.1 := mem_rows.mpr he
    rw [hnew] at hmem
    cases hmem

/-- The package that an upload returns is named after its rows. -/
theorem finish_id {u : Upload} {filesystem : List (Text × Row)} (h : u.Good md5 filesystem)
    {package : Text} {isNew : Bool} (hok : (finish md5 u).2 = .ok (package, isNew)) :
    package = idOf md5 u.filesystem := by
  rw [← h.id_eq]
  obtain ⟨-, heq⟩ | ⟨-, heq⟩ | ⟨db, -, -, heq⟩ := finish_cases md5 u <;> rw [heq] at hok
  · exact (Prod.mk.inj (Except.ok.inj hok)).1.symm
  · cases hok
  · exact (Prod.mk.inj (Except.ok.inj hok)).1.symm

/-- The upload of a plain folder returns a package. -/
theorem move_of_plain (hs : s.Consistent md5) (hpath : path ≠ [])
    (hplain : Plain path tree.folder) :
    ∃ package isNew, (moveFolderToPackage md5 s.db path tree.folder).2 = .ok (package, isNew) := by
  have hgood := uploadFolder_good hs.db path tree.folder
  have hrows : (uploadFolder md5 s.db path tree.folder).filesystem.Perm
    (listing md5 path tree.folder) :=
    uploadFolder_filesystem hpath tree.valid
  rw [listing_of_plain hplain] at hrows
  have hnodup := (hrows.map Row.path).nodup_iff.mpr (nodup_wholePaths tree)
  rw [moveFolderToPackage]
  obtain ⟨-, heq⟩ | ⟨hnone, heq⟩ | ⟨db, -, -, heq⟩ :=
    finish_cases md5 (uploadFolder md5 s.db path tree.folder)
  · exact ⟨_, _, congrArg Prod.snd heq⟩
  · obtain ⟨db, hadd⟩ := addAll_of_nodup hgood.consistent hnone hnodup
    rw [finish, if_neg (by rw [hnone]; simp), hadd] at heq
    cases heq
  · exact ⟨_, _, congrArg Prod.snd heq⟩

/-- What a package holds after the upload, whatever comes later. -/
theorem holds_later (orderBy : List Row → List Row) (hmd5 : CollisionFree md5)
    (hs : s.Consistent md5) (hpath : path ≠ [])
    {package : Text} {isNew : Bool}
    (hok : (moveFolderToPackage md5 s.db path tree.folder).2 = .ok (package, isNew))
    (later : List Event) :
    (exec (Store.step md5 orderBy) (s.step md5 orderBy (.moveFolder path tree)) later).Consistent
        md5 ∧
      ((exec (Store.step md5 orderBy) (s.step md5 orderBy (.moveFolder path tree)) later).db.rows
        package).Perm (listing md5 path tree.folder) := by
  have hgood := uploadFolder_good hs.db path tree.folder
  have hholds : Holds md5 (s.step md5 orderBy (.moveFolder path tree)).db package
      (uploadFolder md5 s.db path tree.folder).filesystem := finish_holds hmd5 hgood hok
  obtain ⟨hconsistent, hrows⟩ := holds_exec hmd5 (hs.step (.moveFolder path tree)) hholds later
  exact ⟨hconsistent, hrows.perm.trans (uploadFolder_filesystem hpath tree.valid)⟩

theorem roundTrips_of_plain (hmd5 : CollisionFree md5) (horder : ParentsFirst orderBy)
    (hs : s.Consistent md5) (hpath : path ≠ []) (hplain : Plain path tree.folder) :
    RoundTrips md5 orderBy s path tree := by
  obtain ⟨package, isNew, hok⟩ := move_of_plain hs hpath hplain
  refine ⟨package, isNew, hok, fun later disk parent name useLfs hfresh => ?_⟩
  obtain ⟨hconsistent, hrows⟩ := holds_later orderBy hmd5 hs hpath hok later
  rw [listing_of_plain hplain] at hrows
  exact load_plain hmd5 horder hconsistent.db hconsistent.lfs tree.valid.prune hrows hfresh

theorem sameIds_of_plain (hmd5 : CollisionFree md5) (hs : s.Consistent md5)
    (hs' : s'.Consistent md5) (hpath : path ≠ []) (hpath' : path' ≠ [])
    (hplain : Plain path tree.folder) (hplain' : Plain path' tree'.folder) :
    SameIds md5 s s' path path' tree tree' := by
  intro package package' isNew isNew' hok hok'
  have hgood := uploadFolder_good hs.db path tree.folder
  have hgood' := uploadFolder_good hs'.db path' tree'.folder
  have hrows : (uploadFolder md5 s.db path tree.folder).filesystem.Perm
    (listing md5 path tree.folder) :=
    uploadFolder_filesystem hpath tree.valid
  have hrows' : (uploadFolder md5 s'.db path' tree'.folder).filesystem.Perm
      (listing md5 path' tree'.folder) := uploadFolder_filesystem hpath' tree'.valid
  rw [listing_of_plain hplain] at hrows
  rw [listing_of_plain hplain'] at hrows'
  rw [finish_id hgood hok, finish_id hgood' hok']
  constructor
  · intro hid
    have hperm := perm_of_idOf hmd5 hgood.hashed hgood'.hashed hid
    exact sameFolder_of_perm hmd5 (hrows.symm.trans (hperm.trans hrows'))
  · intro hsame
    have hperm := hrows.trans ((hsame.perm.map (wholeRow md5)).trans hrows'.symm)
    refine packageId_of_perm (hperm.map Row.information) ?_
    rw [List.map_map]
    exact (hrows.map Row.path).nodup_iff.mpr (nodup_wholePaths tree)

/-! ## Paths with a slash at the end -/

/-- The characters of a location, with a slash after each name. -/
def weight (location : List Name) : ℕ := (location.map fun name => name.length + 1).sum

theorem weight_append (p q : List Name) : weight (p ++ q) = weight p + weight q := by
  rw [weight, List.map_append, List.sum_append]
  rfl

theorem weight_le_of_isPrefix {p q : List Name} (h : p <+: q) : weight p ≤ weight q := by
  obtain ⟨r, rfl⟩ := h
  rw [weight_append]
  exact Nat.le_add_right _ _

theorem weight_follow_le (location : List Name) (component : Name) :
    weight (follow location component) ≤ weight location + (component.length + 1) := by
  rw [follow]
  split_ifs
  · exact Nat.le_add_right _ _
  · exact (weight_le_of_isPrefix (List.dropLast_prefix location)).trans (Nat.le_add_right _ _)
  · rw [weight_append]
    rfl

/-- The location of a row whose path has lost its first character is lighter than the entry. -/
theorem weight_resolve_cut {p : List Name} (hp : ∀ name ∈ p, ValidName name) (hdeep : 2 ≤ p.length)
    (base : List Name) : weight (resolve base ((joined p).drop 1)) < weight base + weight p := by
  obtain ⟨name, next, rest, rfl⟩ : ∃ name next rest, p = name :: next :: rest := by
    cases p with
    | nil => simp at hdeep
    | cons name p =>
      cases p with
      | nil => simp at hdeep
      | cons next rest => exact ⟨name, next, rest, rfl⟩
  have hname := hp name List.mem_cons_self
  have hrest : ∀ m ∈ next :: rest, ValidName m := fun m hm => hp m (List.mem_cons_of_mem name hm)
  have hpositive : 0 < name.length := List.length_pos_iff.mpr hname.1
  have hcut : (joined (name :: next :: rest)).drop 1 = joined (name.drop 1 :: next :: rest) := by
    rw [joined_cons_cons, joined_cons_cons, List.drop_append_of_le_length hpositive]
  have hsplit : (joined (name.drop 1 :: next :: rest)).splitOn '/' =
      name.drop 1 :: next :: rest := by
    refine List.splitOn_intercalate '/' (fun m hm => ?_) (List.cons_ne_nil _ _)
    rcases List.mem_cons.mp hm with rfl | hm
    · exact fun hslash => hname.2.2.2.1 (List.mem_of_mem_drop hslash)
    · exact (hrest m hm).2.2.2.1
  have hstart : ∀ start : List Name, weight start ≤ weight base →
      weight ((name.drop 1 :: next :: rest).foldl follow start) <
        weight base + weight (name :: next :: rest) := by
    intro start hle
    have hfollow := weight_follow_le start (name.drop 1)
    have hlength : (name.drop 1).length + 1 = name.length := by
      rw [List.length_drop]
      omega
    have hcons : weight (name :: next :: rest) = name.length + 1 + weight (next :: rest) := by
      simp [weight]
    rw [List.foldl_cons, foldl_follow hrest, weight_append, hcons]
    omega
  rw [hcut, resolve, hsplit]
  split_ifs
  · exact hstart [] (Nat.zero_le _)
  · exact hstart base le_rfl

/-- There is a heaviest entry among those that do not stand directly in the folder. -/
theorem exists_heaviest {f : Folder} {e : Entry} (he : e ∈ f.entries) (hdeep : 2 ≤ e.1.length) :
    ∃ e ∈ f.entries, 2 ≤ e.1.length ∧
      ∀ e' ∈ f.entries, 2 ≤ e'.1.length → weight e'.1 ≤ weight e.1 := by
  have hmem : e ∈ f.entries.filter fun e => 2 ≤ e.1.length :=
    List.mem_filter.mpr ⟨he, by simpa using hdeep⟩
  cases hmax : (f.entries.filter fun e => 2 ≤ e.1.length).argmax fun e => weight e.1 with
  | none =>
    rw [List.argmax_eq_none] at hmax
    rw [hmax] at hmem
    cases hmem
  | some e₁ =>
    have he₁ := List.mem_filter.mp (List.argmax_mem hmax)
    refine ⟨e₁, he₁.1, by simpa using he₁.2, fun e' he' hdeep' => ?_⟩
    have hmem' : e' ∈ f.entries.filter fun e => 2 ≤ e.1.length :=
      List.mem_filter.mpr ⟨he', by simpa using hdeep'⟩
    exact List.le_of_mem_argmax (f := fun e : Entry => weight e.1) hmem' hmax

/-- **A slash at the end breaks the round trip** of every folder with an entry that does not
stand directly in it: its heaviest such entry is on the way to no row's location. -/
theorem not_roundTrips (hmd5 : CollisionFree md5) (horder : ParentsFirst orderBy)
    (hs : s.Consistent md5) (hpath : path ≠ []) (hplain : ¬ Plain path tree.folder) :
    ¬ RoundTrips md5 orderBy s path tree := by
  rintro ⟨package, isNew, hok, htrip⟩
  have ht := tree.valid.prune
  rw [Plain] at hplain
  push Not at hplain
  obtain ⟨hslash, e, he, hdeep⟩ := hplain
  obtain ⟨⟨p, node⟩, hp, hpdeep, hmax⟩ := exists_heaviest he hdeep
  have hat := (Folder.mem_entries ht).mp hp
  have hfresh : Fresh [] [] ['x'] := ⟨fun _ _ => Or.inl rfl, fun _ => rfl, fun _ => rfl⟩
  obtain ⟨disk', lfs', hload, hview⟩ := htrip [] [] [] ['x'] false hfresh
  obtain ⟨r, hr, hprefix⟩ := exists_row_of_load horder hfresh hload hat.1
    (by rw [hview, hat.2]; nofun)
  obtain ⟨-, hrows⟩ := holds_later orderBy hmd5 hs hpath hok []
  obtain ⟨e', he', rfl⟩ := List.mem_map.mp (hrows.mem_iff.mp hr)
  have hvalid := Folder.validName_of_mem_entries ht he'
  by_cases hdeep' : 2 ≤ e'.1.length
  · have hcut : (row md5 path e').path = (joined e'.1).drop 1 := if_pos ⟨hslash, hdeep'⟩
    rw [hcut] at hprefix
    have hle := weight_le_of_isPrefix hprefix
    have hlt := weight_resolve_cut hvalid hdeep' ([] ++ [tmpName ['x']])
    rw [weight_append] at hle
    exact absurd (Nat.lt_of_add_lt_add_left (Nat.lt_of_le_of_lt hle hlt))
      (Nat.not_lt.mpr (hmax e' he' hdeep'))
  · have hwhole : (row md5 path e').path = joined e'.1 := if_neg fun h => hdeep' h.2
    rw [hwhole, resolve_joined hvalid ((Folder.mem_entries ht).mp he').1,
      List.prefix_append_right_inj] at hprefix
    have hle := hprefix.length_le
    exact hdeep' (hpdeep.trans hle)

/-! ## The round trip -/

/-- **The package store round-trips exactly the plain folders.**  Two uploads at any two moments
both give their folders back, with identifiers that are equal exactly when the folders are, if
and only if both folders are plain. -/
theorem package_round_trip_iff (hmd5 : CollisionFree md5) (horder : ParentsFirst orderBy)
    (es es' : List Event) (hpath : path ≠ []) (hpath' : path' ≠ []) (tree tree' : Tree) :
    (RoundTrips md5 orderBy (exec (Store.step md5 orderBy) Store.empty es) path tree ∧
      RoundTrips md5 orderBy (exec (Store.step md5 orderBy) Store.empty es') path' tree' ∧
      SameIds md5 (exec (Store.step md5 orderBy) Store.empty es)
        (exec (Store.step md5 orderBy) Store.empty es') path path' tree tree') ↔
    Plain path tree.folder ∧ Plain path' tree'.folder := by
  have hs : (exec (Store.step md5 orderBy) Store.empty es).Consistent md5 := consistent_exec es
  have hs' : (exec (Store.step md5 orderBy) Store.empty es').Consistent md5 := consistent_exec es'
  constructor
  · rintro ⟨htrip, htrip', -⟩
    constructor
    · by_contra hplain
      exact not_roundTrips hmd5 horder hs hpath hplain htrip
    · by_contra hplain
      exact not_roundTrips hmd5 horder hs' hpath' hplain htrip'
  · rintro ⟨hplain, hplain'⟩
    exact ⟨roundTrips_of_plain hmd5 horder hs hpath hplain,
      roundTrips_of_plain hmd5 horder hs' hpath' hplain',
      sameIds_of_plain hmd5 hs hs' hpath hpath' hplain hplain'⟩

/-- Ordering by code points puts folders before what is in them. -/
def byPath (rows : List Row) : List Row := rows.mergeSort fun a b => a.path ≤ b.path

theorem parentsFirst_byPath : ParentsFirst byPath := by
  refine ⟨fun rows => List.mergeSort_perm rows _, fun rows => ?_⟩
  refine (pairwise_mergeSort_key Row.path rows).imp fun {a b} hle hbelow => ?_
  have hlt : b.path ≤ a.path :=
    le_of_not_gt ((List.prefix_append b.path ['/']).trans hbelow).le
  have heq : a.path = b.path := le_antisymm hle hlt
  have hlength := hbelow.length_le
  rw [List.length_append, heq] at hlength
  exact absurd hlength (by simp)

/-- The hash of the content `x`. -/
def sampleHash : Text := "9dd4e461268c8034f5c8564e155c67a6".toList

/-- MD5 on the content `x` and on the listing of a folder `d` with a file `f` of that content;
on anything else, a text that tells the bytes. -/
def sampleMd5 (data : Bytes) : Text :=
  if data = encode ['x'] then sampleHash
  else if data = encode (Json.dumps informationCodec
    [("d".toList, dirText), ("d/f".toList, sampleHash)]) then
    "d4cda51a35790170e1e79ef4d8f0d509".toList
  else 'z' :: data.data.toList.map fun byte => Char.ofNat byte.toNat

theorem map_ofNat_injective :
    Function.Injective (List.map fun byte : UInt8 => Char.ofNat byte.toNat) := by
  refine List.map_injective_iff.mpr fun a b h => ?_
  have hvalid : ∀ byte : UInt8, (Char.ofNat byte.toNat).toNat = byte.toNat := by
    intro byte
    have hlt : byte.toNat < 256 := byte.toNat_lt
    rw [Char.toNat_ofNat, if_pos (Or.inl (by omega))]
  have hnat := congrArg Char.toNat h
  rw [hvalid, hvalid] at hnat
  exact UInt8.toNat_inj.mp hnat

theorem ne_cons {text tail : Text} {c : Char} (h : text.head? ≠ some c) : text ≠ c :: tail :=
  fun heq => h (heq ▸ rfl)

theorem collisionFree_sampleMd5 : CollisionFree sampleMd5 := by
  have hz : ∀ data, sampleMd5 data = sampleHash ∨
      sampleMd5 data = "d4cda51a35790170e1e79ef4d8f0d509".toList ∨
      ∃ tail, sampleMd5 data = 'z' :: tail := by
    intro data
    rw [sampleMd5]
    split_ifs
    · exact Or.inl rfl
    · exact Or.inr (Or.inl rfl)
    · exact Or.inr (Or.inr ⟨_, rfl⟩)
  refine ⟨fun a b h => ?_, fun data h => ?_, fun data h => ?_⟩
  · rw [sampleMd5, sampleMd5] at h
    split_ifs at h with ha hb hb' ha' hb hb' hb hb'
    · rw [ha, hb]
    · exact absurd h (by decide)
    · exact absurd h (ne_cons (by decide))
    · exact absurd h (by decide)
    · rw [ha', hb']
    · exact absurd h (ne_cons (by decide))
    · exact absurd h.symm (ne_cons (by decide))
    · exact absurd h.symm (ne_cons (by decide))
    · have hbytes := map_ofNat_injective (List.cons.inj h).2
      exact ByteArray.ext (Array.toList_inj.mp hbytes)
  · rcases hz data with heq | heq | ⟨tail, heq⟩ <;> rw [heq] at h
    · exact absurd h (by decide)
    · exact absurd h (by decide)
    · exact absurd h.symm (ne_cons (by decide))
  · rcases hz data with heq | heq | ⟨tail, heq⟩ <;> rw [heq] at h <;> cases h

/-- A folder `d` with a file `f`. -/
def sampleTree : Tree :=
  ⟨.dir ['d'] (.file ['f'] (encode ['x']) .nil) .nil,
    ⟨by decide, by decide, ⟨by decide, by decide, trivial⟩, trivial⟩⟩

/-- The folder comes back when its string has no slash at the end. -/
theorem package_round_trip_sample :
    RoundTrips sampleMd5 byPath (exec (Store.step sampleMd5 byPath) Store.empty [])
      "checkers".toList sampleTree :=
  ((@package_round_trip_iff sampleMd5 byPath "checkers".toList "checkers".toList
    collisionFree_sampleMd5 parentsFirst_byPath [] [] (by decide) (by decide) sampleTree
    sampleTree).mpr
      ⟨fun h => absurd h (by decide), fun h => absurd h (by decide)⟩).1

/-- With a slash at the end it does not. -/
theorem slash_not_round_trips :
    ¬ ∀ (md5 : Bytes → Text) (orderBy : List Row → List Row) (path : Text) (tree : Tree),
      CollisionFree md5 → ParentsFirst orderBy → path ≠ [] →
      RoundTrips md5 orderBy (exec (Store.step md5 orderBy) Store.empty []) path tree := by
  intro h
  have hempty : (exec (Store.step sampleMd5 byPath) Store.empty []).Consistent sampleMd5 :=
    consistent_exec []
  refine not_roundTrips collisionFree_sampleMd5 parentsFirst_byPath hempty (by decide)
    (fun hplain => ?_) (h sampleMd5 byPath "checkers/".toList sampleTree collisionFree_sampleMd5
      parentsFirst_byPath
      (by decide))
  have hdeep := hplain (by decide) ([['d'], ['f']], .file (encode ['x'])) (by decide)
  exact absurd hdeep (by decide)

end Gameserver.Packages
