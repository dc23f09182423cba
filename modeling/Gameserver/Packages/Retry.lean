import Gameserver.Lib.Strings
import Gameserver.Packages.Stuck

/-!
# Calls after a crash

After a harmless crash every stored package can be loaded (`Sound.loads`); after any other crash
the package that was loaded cannot.

* `retriable_iff` — a crash can be retried exactly if it is harmless.
-/

namespace Gameserver.Packages

open Json (Text)
open FileSystem
open Machine
open Strings

variable {c : Setup} {w w' : World} {package : Text} {disk disk' : LocalDisk} {lfs lfs' : Lfs}
  {db : Db} {t : Folder} {location p : List Name} {hash : Text} {row : Row}

/-! ## Calls return -/

theorem length_rowOps {useLfs : Bool} {base : List Name} {ops : List Op}
    (h : rowOps db useLfs base lfs row = some ops) : ops.length ≤ 3 := by
  rw [rowOps] at h
  split at h
  · obtain rfl := Option.some.inj h
    simp
  · split_ifs at h
    · obtain rfl := Option.some.inj h
      simp
    · obtain rfl := Option.some.inj h
      simp
    · obtain ⟨content, -, rfl⟩ := Option.map_eq_some_iff.mp h
      split_ifs <;> simp

/-- A step ends the call, or leaves less to do. -/
theorem advance_call {ops : List Op} {todo : List Row}
    (hcall : w.call = .loading package ops (some todo)) :
    (w.advance c).call = .raised package ∨ (w.advance c).call = .returned package ∨
      ∃ ops' todo', (w.advance c).call = .loading package ops' (some todo') ∧
        ops'.length + 4 * todo'.length < ops.length + 4 * todo.length := by
  obtain ⟨db, disk, lfs, call⟩ := w
  obtain rfl : call = _ := hcall
  cases ops with
  | cons op ops =>
    simp only [World.advance]
    split
    · exact .inr (.inr ⟨ops, todo, rfl, by simp⟩)
    · exact .inl rfl
  | nil =>
    cases todo with
    | cons row todo =>
      simp only [World.advance]
      split
      · rename_i ops hops
        have hlength := length_rowOps hops
        exact .inr (.inr ⟨ops, todo, rfl, by simp; omega⟩)
      · exact .inl rfl
    | nil =>
      simp only [World.advance]
      split
      · exact .inr (.inl rfl)
      · exact .inl rfl

theorem Sound.not_raised (h : Sound c w) (package : Text) : w.call ≠ .raised package := by
  intro hcall
  have hsound := h.call
  rw [hcall] at hsound
  exact hsound

/-- Enough steps return.  The induction is on what is left to do. -/
theorem Sound.exists_returned (hc : c.Valid) (n : ℕ) {ops : List Op} {todo : List Row}
    (h : Sound c w) (hcall : w.call = .loading package ops (some todo))
    (hn : ops.length + 4 * todo.length ≤ n) :
    ∃ w', Reaches c w w' ∧ Sound c w' ∧ w'.call = .returned package := by
  induction n generalizing w ops todo with
  | zero =>
    rcases advance_call (c := c) hcall with hraised | hreturned | ⟨_, _, -, hless⟩
    · exact absurd hraised ((h.advance hc).not_raised package)
    · exact ⟨_, Reaches.head (Reaches.refl _), h.advance hc, hreturned⟩
    · omega
  | succ n ih =>
    rcases advance_call (c := c) hcall with hraised | hreturned | ⟨_, _, hnext, hless⟩
    · exact absurd hraised ((h.advance hc).not_raised package)
    · exact ⟨_, Reaches.head (Reaches.refl _), h.advance hc, hreturned⟩
    · obtain ⟨w', hreaches, hsound, hreturned⟩ := ih (h.advance hc) hnext (by omega)
      exact ⟨w', hreaches.head, hsound, hreturned⟩

/-- When a call has returned, the files are right. -/
theorem Sound.filesRight (hc : c.Valid) (h : Sound c w) (hcall : w.call = .returned package) :
    FilesRight c w package := by
  have hreturned := h.call
  rw [hcall] at hreturned
  obtain ⟨t, hp, hwhole, -⟩ := h.packages package hreturned.1
  have hstanding : Standing w.lfs w.disk (c.folder package) t := by
    refine hwhole.resolve_left fun hnothing => hreturned.2 ?_
    have hnone := hnothing []
    rwa [List.append_nil] at hnone
  intro row hrow hash hhash
  obtain ⟨⟨p, node⟩, he, rfl⟩ := List.mem_map.mp (hp.rows.mem_iff.mp hrow)
  cases node with
  | dir => cases hhash
  | file content =>
    obtain rfl := Option.some.inj hhash
    refine ⟨content, content_of_rows hc.md5 h.db hp.rows p content he, ?_⟩
    rw [resolve_wholeRow hp.valid he, hstanding.view_eq]
    exact ((Folder.mem_entries hp.valid).mp he).2

/-- The first steps of a call: the temporary folder, and the query. -/
theorem advance_opening {op : Op} (hcall : w.call = .loading package [op] none)
    (hnext : ∀ package, (w.advance c).call ≠ .raised package) :
    ∃ todo, ((w.advance c).advance c).call = .loading package [] (some todo) := by
  obtain ⟨db, disk, lfs, call⟩ := w
  obtain rfl : call = _ := hcall
  simp only [World.advance] at hnext ⊢
  split at hnext
  · exact ⟨_, rfl⟩
  · exact absurd rfl (hnext package)

/-- **Any stored package can be loaded**, when no call is under way. -/
theorem Sound.loads (hc : c.Valid) (h : Sound c w) (hidle : ∀ package, ¬ w.call.Loads package)
    (hstored : Stored c.md5 w.db package) : Loads c w package := by
  have hsound : Sound c (w.step c (.call package)) := h.ensurePackageExists hstored
  obtain ⟨w', hreaches, hsound', hreturned⟩ : ∃ w', Reaches c (w.step c (.call package)) w' ∧
      Sound c w' ∧ w'.call = .returned package := by
    have hbegin : (w.step c (.call package)).call = .returned package ∨
        (w.step c (.call package)).call = .loading package [.makeDirs (c.base package)] none := by
      obtain ⟨db, disk, lfs, call⟩ := w
      cases call with
      | loading other ops todo => exact absurd ⟨ops, todo, rfl⟩ (hidle other)
      | idle | returned | raised =>
        simp only [World.step, World.ensurePackageExists]
        split_ifs
        · exact .inl rfl
        · exact .inr rfl
    rcases hbegin with hreturned | hloading
    · exact ⟨_, Reaches.refl _, hsound, hreturned⟩
    · obtain ⟨todo, hnext⟩ := advance_opening hloading (hsound.advance hc).not_raised
      obtain ⟨w', hreaches, hsound', hreturned⟩ :=
        ((hsound.advance hc).advance hc).exists_returned hc _ hnext le_rfl
      exact ⟨w', hreaches.head.head, hsound', hreturned⟩
  exact ⟨w', hreaches, hreturned, hsound'.filesRight hc hreturned⟩

/-! ## After a crash -/

theorem Packed.fileRow (hc : c.Valid) (hp : Packed c.md5 db package t) {content : Bytes}
    (he : (p, Node.file content) ∈ t.entries) :
    FileRow c db package (wholeRow c.md5 (p, .file content)) (c.base package ++ p)
      (c.md5 content) where
  mem := (hc.orderBy.perm _).mem_iff.mpr
    (hp.rows.mem_iff.mpr (List.mem_map_of_mem (f := wholeRow c.md5) he))
  resolve_eq := resolve_wholeRow hp.valid he _
  fileHash := rfl
  ne_empty := hc.md5.ne_empty content

/-- Links stand for files. -/
theorem Busy.file_of_link (ht : t.Valid) {ops : List Op} {todo : Option (List Row)} {link : Text}
    (h : Busy c t package disk lfs ops todo)
    (hlink : get disk (c.base package ++ p) = some (.link link)) :
    ∃ content, (p, Node.file content) ∈ t.entries := by
  have hfile : ∀ {clean done}, Loaded c.md5 t c.root package done clean lfs →
      Resumes c t (c.base package) clean disk →
      ∃ content, (p, Node.file content) ∈ t.entries := by
    intro clean done hloaded hresumes
    rcases hresumes.get_cases p with hsame | ⟨-, item, node, hitem, -, hrest⟩
    · rw [hlink] at hsame
      have hp : p ≠ [] := by
        rintro rfl
        rw [List.append_nil, show get clean (c.base package) = some .folder from
          hloaded.dirs _ (List.prefix_refl _)] at hsame
        cases hsame
      obtain ⟨node, hnode, ⟨content, -, rfl⟩, -⟩ := hloaded.sound p _ hp hsame.symm
      exact ⟨content, (Folder.mem_entries ht).mpr ⟨hp, hnode⟩⟩
    · obtain rfl := Option.some.inj (hlink.symm.trans hitem)
      exact hrest.elim
  cases todo with
  | none =>
    rcases h with ⟨-, -, hleftover⟩ | ⟨-, clean, hloaded, hresumes⟩
    · obtain ⟨node, -, hrest⟩ := hleftover p _ hlink
      exact hrest.elim
    · exact hfile hloaded hresumes
  | some todo =>
    obtain ⟨clean, done, next, h⟩ := h
    exact hfile h.loaded h.resumes

/-- What any crash leaves: links, and no folder of the package. -/
theorem crash_of_loading (h : Sound c w) {ops : List Op} {todo : Option (List Row)}
    (hcall : w.call = .loading package ops todo) (part : Option ℕ) :
    (w.crash part).call = .idle ∧ (w.crash part).db = w.db ∧
      get (w.crash part).disk (c.folder package) = none ∧
      ∀ q link, get w.disk q = some (.link link) →
        get (w.crash part).disk q = some (.link link) := by
  have hsound := h.call
  rw [hcall] at hsound
  obtain ⟨t, hp, hbusy⟩ := hsound
  have hnone := hbusy.nothing []
  rw [List.append_nil] at hnone
  rcases crash_cases w package ops todo hcall part with heq |
    ⟨n, op, rest, op', disk', lfs', rfl, rfl, hop', hrun, heq⟩
  · rw [heq]
    exact ⟨rfl, rfl, hnone, fun _ _ hlink => hlink⟩
  · rw [heq]
    refine ⟨rfl, rfl, ?_, fun q link hlink => Op.run_link hrun hlink⟩
    have hout := c.folder_notMem_base package []
    rw [List.append_nil] at hout
    exact (hbusy.get_of_part h.root hp.valid hop' hrun _ hout).trans hnone

theorem step_call_of_idle (hcall : w.call = .idle) (hnone : get w.disk (c.folder package) = none) :
    w.step c (.call package) =
      { w with call := .loading package [.makeDirs (c.base package)] none } := by
  simp only [World.step, World.ensurePackageExists, hcall, hnone]
  rfl

/-- A link in the temporary folder stops every later call. -/
theorem not_loads_of_link (hc : c.Valid) (h : Sound c w) {ops : List Op}
    {todo : Option (List Row)} (hcall : w.call = .loading package ops todo) {link : Text}
    (hlink : get w.disk (c.base package ++ p) = some (.link link)) (part : Option ℕ) :
    ¬ Loads c (w.crash part) package := by
  obtain ⟨hidle, hdb, hnone, hlinks⟩ := crash_of_loading h hcall part
  have hsound := h.call
  rw [hcall] at hsound
  obtain ⟨t, hp, hbusy⟩ := hsound
  obtain ⟨content, he⟩ := hbusy.file_of_link hp.valid hlink
  have hblocked : Blocked c package (wholeRow c.md5 (p, .file content)) (c.base package ++ p)
      (c.md5 content) ((w.crash part).step c (.call package)) := by
    rw [step_call_of_idle hidle hnone]
    refine ⟨?_, ⟨link, hlinks _ link hlink⟩, .inr ⟨_, _, rfl, .inr (.inl rfl)⟩⟩
    show FileRow c (w.crash part).db package _ _ _
    rw [hdb]
    exact hp.fileRow hc he
  exact hblocked.not_loads

/-- A file that is cut short in the LFS folder is linked by every later call. -/
theorem not_loads_of_cut (hc : c.Valid) (h : Sound c w) {content : Bytes} {rest : List Op}
    {todo : Option (List Row)} {n : ℕ}
    (hcall : w.call = .loading package (.writeLfs hash content :: rest) todo)
    (hn : n < content.size) : ¬ Loads c (w.crash (some n)) package := by
  obtain ⟨hidle, hdb, hnone, -⟩ := crash_of_loading h hcall (some n)
  have hsound := h.call
  rw [hcall] at hsound
  obtain ⟨t, hp, hbusy⟩ := hsound
  obtain ⟨p, he, hbig, rfl⟩ : ∃ p, (p, Node.file content) ∈ t.entries ∧ Big c content ∧
      hash = c.md5 content := by
    cases todo with
    | none =>
      rcases hbusy with ⟨heq, -⟩ | ⟨heq, -⟩
      · cases (List.cons.inj heq).1
      · cases heq
    | some todo =>
      obtain ⟨clean, done, next, hprogress⟩ := hbusy
      cases hprogress.turn with
      | store hp hbig hnew => exact ⟨_, hp, hbig, rfl⟩
  have hcrash : (w.crash (some n)).lfs = (c.md5 content, content.extract 0 n) :: w.lfs := by
    simp only [World.crash, hcall]
    rfl
  have hshortened : Shortened c package (wholeRow c.md5 (p, .file content)) p (c.md5 content)
      (content.extract 0 n) ((w.crash (some n)).step c (.call package)) := by
    rw [step_call_of_idle hidle hnone]
    refine ⟨?_, hbig.1, ?_, ?_, .inr (.inl ⟨_, _, rfl, ?_, .inr (.inr (.inl rfl))⟩)⟩
    · show FileRow c (w.crash (some n)).db package _ _ _
      rw [hdb]
      exact hp.fileRow hc he
    · show (w.crash (some n)).lfs.content (c.md5 content) = _
      rw [hcrash]
      simp [Lfs.content]
    · show ∀ content', (w.crash (some n)).db.content (c.md5 content) = some content' → _
      rw [hdb, content_of_rows hc.md5 h.db hp.rows p content he]
      intro content' hsame hcut
      obtain rfl := Option.some.inj hsame
      have hsize := congrArg ByteArray.size hcut
      rw [ByteArray.size_extract] at hsize
      omega
    · intro op hop content' heq
      rw [List.mem_singleton.mp hop] at heq
      cases heq
  exact hshortened.not_loads hc (resolve_wholeRow hp.valid he _)

/-- **A crash can be retried exactly if it is harmless**: after every run in which stored
packages are called for and all earlier crashes were harmless, any stored package can be loaded
after a crash of the call under way if and only if the call has linked nothing in its temporary
folder and no file in the LFS folder is cut short. -/
theorem retriable_iff (hc : c.Valid) {events : List LoadEvent}
    (h : Along (World.step c) (Fine c) (World.start c) events) (part : Option ℕ) :
    Retriable c ((exec (World.step c) (World.start c) events).step c (.crash part)) ↔
      Harmless c (exec (World.step c) (World.start c) events) part := by
  have hsound := sound_exec hc h
  set w := exec (World.step c) (World.start c) events
  constructor
  · intro hretriable package ops todo hcall
    have hcalled := hsound.call
    rw [hcall] at hcalled
    obtain ⟨t, hp, -⟩ := hcalled
    have hloads : Loads c (w.crash part) package := by
      refine hretriable package ⟨t, ?_⟩
      show Packed c.md5 (w.crash part).db package t
      rw [(crash_of_loading hsound hcall part).2.1]
      exact hp
    constructor
    · intro p link hlink
      exact not_loads_of_link hc hsound hcall hlink part hloads
    · rintro n hash content rest rfl rfl
      by_contra hn
      exact not_loads_of_cut hc hsound hcall (not_le.mp hn) hloads
  · intro hpart package hstored
    have hcrashed : Sound c (w.crash part) := hsound.crash hc hpart
    refine hcrashed.loads hc ?_ hstored
    rintro other ⟨ops, todo, hother⟩
    obtain ⟨db, disk, lfs, call⟩ := w
    cases call with
    | loading package ops' todo' =>
      have hidle := (crash_of_loading hsound rfl part).1
      cases hidle.symm.trans hother
    | idle | returned | raised => cases hother

/-! ## A package with one large file -/

/-- 500001 zero bytes. -/
@[irreducible] def blob : Bytes := ⟨Array.replicate 500001 0⟩

theorem size_blob : blob.size > lfsThreshold := by
  unfold blob lfsThreshold
  show 500000 < (Array.replicate 500001 (0 : UInt8)).size
  rw [Array.size_replicate]
  decide

/-- The MD5 of `blob`. -/
def blobHash : Text := "420339e670d109f57007dda5caf995df".toList

/-- MD5 on `blob` and on the listing of a folder that holds it; on anything else, digits that
tell the bytes. -/
def blobMd5 (data : Bytes) : Text :=
  if data = blob then blobHash
  else if data = encode (Json.dumps informationCodec [("blob".toList, blobHash)]) then
    "de7d6b23c46e202bf1524b45db52dfb6".toList
  else '0' :: hexlify data.data.toList

/-- Other contents have digests of other lengths. -/
theorem blobMd5_cases (data : Bytes) :
    data = blob ∧ blobMd5 data = blobHash ∨
      data = encode (Json.dumps informationCodec [("blob".toList, blobHash)]) ∧
        blobMd5 data = "de7d6b23c46e202bf1524b45db52dfb6".toList ∨
      blobMd5 data = '0' :: hexlify data.data.toList ∧ (blobMd5 data).length % 2 = 1 := by
  rw [blobMd5]
  split_ifs with hblob hlisting
  · exact .inl ⟨hblob, rfl⟩
  · exact .inr (.inl ⟨hlisting, rfl⟩)
  · refine .inr (.inr ⟨rfl, ?_⟩)
    rw [List.length_cons, length_hexlify]
    omega

theorem collisionFree_blobMd5 : CollisionFree blobMd5 := by
  constructor
  · intro a b h
    rcases blobMd5_cases a with ⟨ha, hda⟩ | ⟨ha, hda⟩ | ⟨hda, hla⟩ <;>
      rcases blobMd5_cases b with ⟨hb, hdb⟩ | ⟨hb, hdb⟩ | ⟨hdb, hlb⟩
    · rw [ha, hb]
    · rw [hda, hdb] at h
      exact absurd h (by decide)
    · rw [← h, hda] at hlb
      exact absurd hlb (by decide)
    · rw [hda, hdb] at h
      exact absurd h (by decide)
    · rw [ha, hb]
    · rw [← h, hda] at hlb
      exact absurd hlb (by decide)
    · rw [h, hdb] at hla
      exact absurd hla (by decide)
    · rw [h, hdb] at hla
      exact absurd hla (by decide)
    · rw [hda, hdb] at h
      have hbytes := hexlify_injective (List.cons.inj h).2
      exact ByteArray.ext (Array.toList_inj.mp hbytes)
  · intro data h
    rcases blobMd5_cases data with ⟨-, hd⟩ | ⟨-, hd⟩ | ⟨hd, -⟩
    · exact absurd (hd.symm.trans h) (by decide)
    · exact absurd (hd.symm.trans h) (by decide)
    · exact ne_cons (by decide) (h.symm.trans hd)
  · intro data h
    rcases blobMd5_cases data with ⟨-, hd⟩ | ⟨-, hd⟩ | ⟨-, hl⟩
    · exact absurd (hd.symm.trans h) (by decide)
    · exact absurd (hd.symm.trans h) (by decide)
    · rw [h] at hl
      exact absurd hl (by decide)

def blobSetup : Setup where
  md5 := blobMd5
  orderBy := byPath
  root := ["packages".toList]
  useLfs := true

theorem hex_blobHash : ∀ digit ∈ blobHash, digit ∈ "0123456789abcdef".toList := by
  unfold blobHash
  simp

theorem hex_blobMd5 (data : Bytes) :
    ∀ digit ∈ blobMd5 data, digit ∈ "0123456789abcdef".toList := by
  rcases blobMd5_cases data with ⟨-, hd⟩ | ⟨-, hd⟩ | ⟨hd, -⟩
  · rw [hd]
    exact hex_blobHash
  · rw [hd]
    simp
  · rw [hd]
    intro digit hdigit
    rcases List.mem_cons.mp hdigit with rfl | hbyte
    · decide
    · exact mem_hexlify hbyte

theorem valid_blobSetup : blobSetup.Valid :=
  ⟨collisionFree_blobMd5, hex_blobMd5, parentsFirst_byPath⟩

def blobTree : Tree :=
  ⟨.file "blob".toList blob .nil, by decide, List.not_mem_nil, trivial⟩

/-- The row of the file, and the package. -/
def blobRow : Row := wholeRow blobMd5 (["blob".toList], .file blob)

def blobPackage : Text := idOf blobMd5 [blobRow]

/-- The package is uploaded. -/
def blobWorld : World :=
  exec (World.step blobSetup) (World.start blobSetup) [.moveFolder "checkers".toList blobTree]

theorem prune_blobTree : blobTree.folder.prune = blobTree.folder := by
  rw [show blobTree.folder = .file "blob".toList blob .nil from rfl, Folder.prune,
    if_neg (by decide)]
  rfl

theorem packed_blobPackage : Packed blobMd5 blobWorld.db blobPackage blobTree.folder := by
  have hs : Store.empty.Consistent blobMd5 := Store.consistent_empty
  have hpath : "checkers".toList ≠ [] := by decide
  have hplain : Plain "checkers".toList blobTree.folder := fun h => absurd h (by decide)
  have hlisting : listing blobMd5 "checkers".toList blobTree.folder = [blobRow] := by
    rw [listing_of_plain hplain, prune_blobTree]
    rfl
  obtain ⟨package, isNew, hok⟩ : ∃ package isNew, (moveFolderToPackage blobMd5 Store.empty.db
      "checkers".toList blobTree.folder).2 = .ok (package, isNew) :=
    move_of_plain hs hpath hplain
  have hgood := uploadFolder_good hs.db "checkers".toList blobTree.folder
  have hrows : (uploadFolder blobMd5 Store.empty.db "checkers".toList blobTree.folder).filesystem =
      [blobRow] := by
    refine List.perm_singleton.mp ((uploadFolder_filesystem hpath blobTree.valid).trans ?_)
    rw [hlisting]
  obtain rfl : package = blobPackage := by
    rw [finish_id hgood hok, hrows]
    rfl
  have hperm := (finish_holds collisionFree_blobMd5 hgood hok).perm
  rw [hrows] at hperm
  have hworld : blobWorld.db =
      (moveFolderToPackage blobMd5 Store.empty.db "checkers".toList blobTree.folder).1 := by
    rw [blobWorld, exec_cons, exec_nil]
    rfl
  have hdb : blobWorld.db.rows blobPackage = [blobRow] := by
    rw [hworld, moveFolderToPackage]
    exact List.perm_singleton.mp hperm
  refine ⟨blobTree.valid, ?_, ?_⟩
  · rw [hdb]
    exact List.Perm.refl _
  · rw [hdb]
    rfl

/-! ## Crashes of its load -/

/-- After the first two steps of a call the rows are to come. -/
theorem exists_opened (hc : c.Valid) (h : Sound c w)
    (hcall : w.call = .loading package [.makeDirs (c.base package)] none) :
    ∃ disk, (w.advance c).advance c =
      ⟨w.db, disk, w.lfs, .loading package [] (some (c.orderBy (w.db.rows package)))⟩ := by
  have hnext := (h.advance hc).not_raised package
  obtain ⟨db, disk, lfs, call⟩ := w
  obtain rfl : call = _ := hcall
  simp only [World.advance, Op.run] at hnext ⊢
  cases hdirs : makeDirs disk (c.base package) with
  | none =>
    rw [hdirs] at hnext
    exact absurd rfl hnext
  | some disk' => exact ⟨disk', rfl⟩

/-- The steps after a package is called for. -/
theorem exec_opening (e : LoadEvent) (package : Text) (w : World) :
    exec (World.step c) w [e, .call package, .step, .step, .step] =
      ((((exec (World.step c) w [e]).step c (.call package)).advance c).advance c).advance c :=
  rfl

theorem exec_steps (w : World) :
    exec (World.step c) w [.step, .step] = (w.advance c).advance c := rfl

theorem advance_rows {row : Row} {ops : List Op}
    (hops : rowOps db c.useLfs (c.base package) lfs row = some ops) (todo : List Row) :
    World.advance c ⟨db, disk, lfs, .loading package [] (some (row :: todo))⟩ =
      ⟨db, disk, lfs, .loading package ops (some todo)⟩ := by
  simp only [World.advance, hops]

theorem advance_writeLfs (content : Bytes) (ops : List Op) (todo : Option (List Row)) :
    World.advance c ⟨db, disk, lfs, .loading package (.writeLfs hash content :: ops) todo⟩ =
      ⟨db, disk, (hash, content) :: lfs, .loading package ops todo⟩ := rfl

theorem advance_symlink {ops : List Op} {todo : Option (List Row)}
    (hnext : (World.advance c ⟨db, disk, lfs,
      .loading package (.symlink location hash :: ops) todo⟩).call ≠ .raised package) :
    World.advance c ⟨db, disk, lfs, .loading package (.symlink location hash :: ops) todo⟩ =
      ⟨db, put disk location (.link hash), lfs, .loading package ops todo⟩ := by
  simp only [World.advance, Op.run] at hnext ⊢
  cases hsymlink : symlink disk location hash with
  | none =>
    rw [hsymlink] at hnext
    exact absurd rfl hnext
  | some disk' =>
    obtain rfl := symlink_eq hsymlink
    rfl

/-- The call of the package, up to its first operation on the file. -/
def blobRun : List LoadEvent :=
  [.moveFolder "checkers".toList blobTree, .call blobPackage, .step, .step, .step]

theorem fine_blobRun : Along (World.step blobSetup) (Fine blobSetup)
    (World.start blobSetup) blobRun :=
  ⟨trivial, ⟨_, packed_blobPackage⟩, trivial, trivial, trivial, trivial⟩

/-- The call begins with the temporary folder. -/
theorem call_blobPackage : blobWorld.step blobSetup (.call blobPackage) =
    { blobWorld with
      call := .loading blobPackage [.makeDirs (blobSetup.base blobPackage)] none } := by
  have hnothing := nothing_start blobSetup blobPackage []
  rw [List.append_nil] at hnothing
  exact step_call_of_idle rfl hnothing

/-- The file is to be stored, and linked. -/
theorem rowOps_blobRow : rowOps blobWorld.db blobSetup.useLfs (blobSetup.base blobPackage)
    [] blobRow =
    some [.writeLfs (blobMd5 blob) blob,
      .symlink (blobSetup.base blobPackage ++ ["blob".toList]) (blobMd5 blob),
      .chmod (blobMd5 blob)] := by
  have hsound : Sound blobSetup blobWorld :=
    sound_exec valid_blobSetup (show Along (World.step blobSetup) (Fine blobSetup)
      (World.start blobSetup) [.moveFolder "checkers".toList blobTree] from ⟨trivial, trivial⟩)
  have hentry : (["blob".toList], Node.file blob) ∈ blobTree.folder.entries := List.mem_cons_self
  have hcontent : blobWorld.db.content (blobMd5 blob) = some blob :=
    content_of_rows collisionFree_blobMd5 hsound.db packed_blobPackage.rows _ _ hentry
  have hresolve : resolve (blobSetup.base blobPackage) blobRow.path =
      blobSetup.base blobPackage ++ ["blob".toList] :=
    resolve_wholeRow blobTree.valid hentry _
  rw [rowOps, hresolve]
  simp only [show blobRow.fileHash = some (blobMd5 blob) from rfl,
    if_neg (collisionFree_blobMd5.ne_empty blob)]
  rw [if_neg (by simp [Lfs.content]), hcontent, Option.map_some, if_pos ⟨rfl, size_blob⟩]

/-- The file is about to be written to the LFS folder. -/
theorem exec_blobRun : ∃ disk,
    exec (World.step blobSetup) (World.start blobSetup) blobRun =
      ⟨blobWorld.db, disk, [], .loading blobPackage [.writeLfs (blobMd5 blob) blob,
        .symlink (blobSetup.base blobPackage ++ ["blob".toList]) (blobMd5 blob),
        .chmod (blobMd5 blob)] (some [])⟩ := by
  have hsound : Sound blobSetup (blobWorld.step blobSetup (.call blobPackage)) :=
    (sound_exec valid_blobSetup (show Along (World.step blobSetup) (Fine blobSetup)
      (World.start blobSetup) [.moveFolder "checkers".toList blobTree] from
        ⟨trivial, trivial⟩)).ensurePackageExists ⟨_, packed_blobPackage⟩
  obtain ⟨disk, hopened⟩ := exists_opened valid_blobSetup hsound (by rw [call_blobPackage])
  have hrows : blobSetup.orderBy (blobWorld.db.rows blobPackage) = [blobRow] := by
    refine List.perm_singleton.mp ((parentsFirst_byPath.perm _).trans ?_)
    exact packed_blobPackage.rows
  have hdb : (blobWorld.step blobSetup (.call blobPackage)).db = blobWorld.db := by
    rw [call_blobPackage]
  have hlfs : (blobWorld.step blobSetup (.call blobPackage)).lfs = [] := by
    rw [call_blobPackage]
    rfl
  refine ⟨disk, (exec_opening _ blobPackage _).trans ?_⟩
  refine (congrArg (World.advance blobSetup) hopened).trans ?_
  rw [hdb, hlfs, hrows]
  exact advance_rows rowOps_blobRow []

/-- A crash while the temporary folder is created does no harm. -/
theorem retriable_before_base :
    Retriable blobSetup ((exec (World.step blobSetup) (World.start blobSetup)
      [.moveFolder "checkers".toList blobTree, .call blobPackage]).step blobSetup
        (.crash (some 1))) := by
  have hfine : Along (World.step blobSetup) (Fine blobSetup) (World.start blobSetup)
      [.moveFolder "checkers".toList blobTree, .call blobPackage] :=
    ⟨trivial, ⟨_, packed_blobPackage⟩, trivial⟩
  refine (retriable_iff valid_blobSetup hfine _).mpr ?_
  show Harmless blobSetup (blobWorld.step blobSetup (.call blobPackage)) (some 1)
  rw [call_blobPackage]
  intro package ops todo hcall
  obtain ⟨rfl, rfl, rfl⟩ := Call.loading.inj hcall
  constructor
  · intro p hash hlink
    cases (nothing_start blobSetup (tmpName blobPackage) p).symm.trans hlink
  · intro n hash content rest hpart hops
    cases (List.cons.inj hops).1

/-- A crash when the file of the LFS folder has been created and not written, and one when it
has been linked. -/
theorem not_retriable :
    ¬ Retriable blobSetup ((exec (World.step blobSetup) (World.start blobSetup) blobRun).step
        blobSetup (.crash (some 0))) ∧
      ¬ Retriable blobSetup ((exec (World.step blobSetup) (World.start blobSetup)
        (blobRun ++ [.step, .step])).step blobSetup (.crash none)) := by
  obtain ⟨disk, hrun⟩ := exec_blobRun
  have hsound := sound_exec valid_blobSetup fine_blobRun
  have hstored : Stored blobSetup.md5 blobWorld.db blobPackage := ⟨_, packed_blobPackage⟩
  rw [exec_append, hrun, exec_steps]
  rw [hrun] at hsound
  constructor
  · intro hretriable
    refine not_loads_of_cut valid_blobSetup hsound (n := 0) rfl ?_ (hretriable blobPackage hstored)
    exact (Nat.zero_le _).trans_lt size_blob
  · have hwritten := hsound.advance valid_blobSetup
    rw [advance_writeLfs] at hwritten ⊢
    have hlinked := hwritten.advance valid_blobSetup
    have hlink := advance_symlink (hlinked.not_raised blobPackage)
    rw [hlink] at hlinked ⊢
    intro hretriable
    have hget : get (put disk (blobSetup.base blobPackage ++ ["blob".toList])
        (.link (blobMd5 blob))) (blobSetup.base blobPackage ++ ["blob".toList]) =
          some (.link (blobMd5 blob)) := by
      rw [get_put, if_pos rfl]
    exact not_loads_of_link valid_blobSetup hlinked rfl hget none (hretriable blobPackage hstored)

end Gameserver.Packages
