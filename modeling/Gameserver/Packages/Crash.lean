import Gameserver.Packages.Progress

/-!
# Crashes of the package loader

`Sound` is kept by every step of every call, and by every crash that leaves neither a link in
the temporary folder nor a file cut short in the LFS folder.

* `Harmless` — such a crash.
* `sound_exec` — the invariant, over runs.
-/

namespace Gameserver.Packages

open Json (Text)
open FileSystem
open Machine

variable {c : Setup} {t : Folder} {package : Text} {disk disk' : LocalDisk} {lfs lfs' : Lfs}
  {ops : List Op} {db db' : Db} {w : World}

/-! ## The other events -/

/-- While nothing is loaded, the call may become another one. -/
theorem Sound.withCall (h : Sound c w) (hidle : ∀ package, ¬ w.call.Loads package) {call : Call}
    (hcall : call.Sound c w.db w.disk w.lfs) : Sound c { w with call := call } := by
  refine ⟨h.db, h.root, h.lfs, h.unknown, fun package hstored => ?_, hcall⟩
  obtain ⟨t, hp, hwhole, hleftover⟩ := h.packages package hstored
  exact ⟨t, hp, hwhole, fun _ => hleftover (hidle package)⟩

/-- A call of a stored package begins. -/
theorem Sound.ensurePackageExists (h : Sound c w) (hstored : Stored c.md5 w.db package) :
    Sound c (w.ensurePackageExists c package) := by
  have hbegin : (∀ package, ¬ w.call.Loads package) →
      Sound c (if (get w.disk (c.folder package)).isSome then { w with call := .returned package }
        else { w with call := .loading package [.makeDirs (c.base package)] none }) := by
    intro hidle
    split_ifs with hfolder
    · exact h.withCall hidle ⟨hstored, Option.isSome_iff_ne_none.mp hfolder⟩
    · obtain ⟨t, hp, hwhole, hleftover⟩ := h.packages package hstored
      refine h.withCall hidle ⟨t, hp, .inl ⟨rfl, ?_, hleftover (hidle package)⟩⟩
      rcases hwhole with hnothing | hstanding
      · exact hnothing
      · have hsome := hstanding.complete [] (by rw [Folder.at_nil]; exact Option.some_ne_none _)
        rw [List.append_nil] at hsome
        exact absurd (Option.isSome_iff_ne_none.mpr hsome) hfolder
  obtain ⟨db, disk, lfs, call⟩ := w
  cases call with
  | loading => exact h
  | idle | returned | raised => exact hbegin (by rintro _ ⟨_, _, heq⟩; cases heq)

/-- A package keeps its rows when another one is uploaded. -/
theorem Packed.step {orderBy : List Row → List Row} {md5 : Bytes → Text} (hmd5 : CollisionFree md5)
    (hdb : db.Consistent md5) (e : Event) (h : Packed md5 db package t) :
    Packed md5 (Store.step md5 orderBy ⟨db, []⟩ e).db package t := by
  have hs : Store.Consistent md5 ⟨db, []⟩ := ⟨hdb, fun _ he => by cases he⟩
  have hholds : Holds md5 db package (db.rows package) := ⟨h.id, hdb.hashed, List.Perm.refl _⟩
  have hperm : ((Store.step md5 orderBy ⟨db, []⟩ e).db.rows package).Perm (db.rows package) :=
    (hholds.step hmd5 hs e).perm
  refine ⟨h.valid, hperm.trans h.rows, ?_⟩
  by_cases hrows : (Store.step md5 orderBy ⟨db, []⟩ e).db.rows package = []
  · rw [hrows] at hperm ⊢
    rw [← hperm.symm.eq_nil, h.id]
  · exact (hs.step e).db.identified package hrows

theorem Sound.upload (hc : c.Valid) (h : Sound c w) (e : Event) :
    Sound c { w with db := (Store.step c.md5 c.orderBy ⟨w.db, []⟩ e).db } := by
  have hs : Store.Consistent c.md5 ⟨w.db, []⟩ := ⟨h.db, fun _ he => by cases he⟩
  have hpacked : ∀ {package t}, Packed c.md5 w.db package t →
      Packed c.md5 (Store.step c.md5 c.orderBy ⟨w.db, []⟩ e).db package t :=
    fun hp => hp.step hc.md5 h.db e
  have hstored : ∀ {package}, Stored c.md5 w.db package →
      Stored c.md5 (Store.step c.md5 c.orderBy ⟨w.db, []⟩ e).db package :=
    fun ⟨t, hp⟩ => ⟨t, hpacked hp⟩
  refine ⟨(hs.step e).db, h.root, h.lfs, fun data hnot => h.unknown data fun hold =>
    hnot (hstored hold), fun package hnew => ?_, ?_⟩
  · by_cases hold : Stored c.md5 w.db package
    · obtain ⟨t, hp, hrest⟩ := h.packages package hold
      exact ⟨t, hpacked hp, hrest⟩
    · obtain ⟨t, hp⟩ := hnew
      obtain ⟨data, rfl⟩ := hp.eq_md5
      obtain ⟨hfolder, hbase⟩ := h.unknown data hold
      exact ⟨t, hp, .inl hfolder, fun _ => hbase.leftover⟩
  · obtain ⟨db, disk, lfs, call⟩ := w
    have hcall := h.call
    cases call with
    | idle => trivial
    | loading package ops todo =>
      obtain ⟨t, hp, hbusy⟩ := hcall
      exact ⟨t, hpacked hp, hbusy⟩
    | returned package => exact ⟨hstored hcall.1, hcall.2⟩
    | raised package => exact hcall

/-! ## Crashes -/

/-- The crash leaves no link in the temporary folder, and no file cut short in the LFS folder. -/
def Harmless (c : Setup) (w : World) (part : Option ℕ) : Prop :=
  ∀ package ops todo, w.call = .loading package ops todo →
    (∀ p hash, get w.disk (c.base package ++ p) ≠ some (.link hash)) ∧
      ∀ n hash content rest, part = some n → ops = .writeLfs hash content :: rest →
        content.size ≤ n

theorem Leftover.makeDirs {base p q : List Name} (h : Leftover c t disk base)
    (hp : t.at p = some .dir) (hq : q <+: base ++ p)
    (hdirs : FileSystem.makeDirs disk q = some disk') : Leftover c t disk' base := by
  intro p' item hitem
  rw [get_makeDirs hdirs] at hitem
  split_ifs at hitem with hway
  · obtain rfl := Option.some.inj hitem
    have hle := (List.prefix_append_right_inj base).mp (hway.trans hq)
    exact ⟨.dir, Folder.at_dir_of_isPrefix hp hle, rfl⟩
  · exact h p' item hitem

theorem Leftover.put {base p : List Name} {content written : Bytes} (h : Leftover c t disk base)
    (hp : t.at p = some (.file content)) (hsmall : ¬ Big c content) :
    Leftover c t (put disk (base ++ p) (.file written)) base := by
  intro p' item hitem
  rw [get_put] at hitem
  split_ifs at hitem with heq
  · obtain rfl := List.append_cancel_left heq
    obtain rfl := Option.some.inj hitem
    exact ⟨_, hp, content, rfl, hsmall⟩
  · exact h p' item hitem

/-- What the next operation of a call can be. -/
theorem Busy.op_cases (ht : t.Valid) {todo : Option (List Row)}
    (h : Busy c t package disk lfs (op :: ops) todo) :
    (∃ p, op = .makeDirs (c.base package ++ p) ∧ t.at p = some .dir) ∨
      (∃ p content, op = .write (c.base package ++ p) content ∧ t.at p = some (.file content) ∧
        ¬ Big c content) ∨
      (∃ content, op = .writeLfs (c.md5 content) content ∧ Big c content ∧
        lfs.content (c.md5 content) = none) ∨
      ∀ n, op.part n = none := by
  cases todo with
  | none =>
    rcases h with ⟨heq, -⟩ | ⟨heq, -⟩
    · obtain ⟨rfl, -⟩ := List.cons.inj heq
      exact .inl ⟨[], by rw [List.append_nil], Folder.at_nil t⟩
    · cases heq
  | some todo =>
    obtain ⟨clean, done, next, h⟩ := h
    cases h.turn with
    | dir hp => exact .inl ⟨_, rfl, ((Folder.mem_entries ht).mp hp).2⟩
    | file hp hsmall => exact .inr (.inl ⟨_, _, rfl, ((Folder.mem_entries ht).mp hp).2, hsmall⟩)
    | store hp hbig hnew => exact .inr (.inr (.inl ⟨_, rfl, hbig, hnew⟩))
    | link | mode => exact .inr (.inr (.inr fun _ => rfl))

/-- An operation that is done in part changes the temporary folder only. -/
theorem Busy.get_of_part (hroot : ∀ q, q <+: c.root → get disk q = some .folder) (ht : t.Valid)
    {todo : Option (List Row)} (h : Busy c t package disk lfs (op :: ops) todo) {n : ℕ} {op' : Op}
    (hpart : op.part n = some op') (hrun : op'.run (disk, lfs) = some (disk', lfs')) :
    ∀ q, ¬ c.base package <+: q → get disk' q = get disk q := by
  intro q hq
  rcases h.op_cases ht with ⟨p, rfl, hp⟩ | ⟨p, content, rfl, hp, hsmall⟩ |
    ⟨content, rfl, hbig, hnew⟩ | hnone
  · cases hpart
    obtain ⟨disk₁, hdirs, heq⟩ := Option.map_eq_some_iff.mp hrun
    obtain ⟨rfl, rfl⟩ := Prod.mk.inj heq
    exact get_makeDirs_of_not_isPrefix hroot hdirs (List.take_prefix n _) hq
  · cases hpart
    obtain ⟨disk₁, hwrite, heq⟩ := Option.map_eq_some_iff.mp hrun
    obtain ⟨rfl, rfl⟩ := Prod.mk.inj heq
    rw [write_eq hwrite, get_put, if_neg]
    rintro rfl
    exact hq (List.prefix_append _ p)
  · cases hpart
    obtain ⟨rfl, rfl⟩ := Prod.mk.inj (Option.some.inj hrun)
    rfl
  · rw [hnone n] at hpart
    cases hpart

/-- It leaves leftovers, if it cuts no file of the LFS folder short. -/
theorem Busy.leftover_of_part (hlfs : lfs.Sound c) (ht : t.Valid) {todo : Option (List Row)}
    (h : Busy c t package disk lfs (op :: ops) todo)
    (hleftover : Leftover c t disk (c.base package)) {n : ℕ} {op' : Op}
    (hpart : op.part n = some op')
    (hwhole : ∀ hash content, op = .writeLfs hash content → content.size ≤ n)
    (hrun : op'.run (disk, lfs) = some (disk', lfs')) :
    lfs'.Sound c ∧ lfs.Kept lfs' ∧ Leftover c t disk' (c.base package) := by
  have hsame : lfs.Kept lfs := fun _ _ hcontent => hcontent
  rcases h.op_cases ht with ⟨p, rfl, hp⟩ | ⟨p, content, rfl, hp, hsmall⟩ |
    ⟨content, rfl, hbig, hnew⟩ | hnone
  · cases hpart
    obtain ⟨disk₁, hdirs, heq⟩ := Option.map_eq_some_iff.mp hrun
    obtain ⟨rfl, rfl⟩ := Prod.mk.inj heq
    exact ⟨hlfs, hsame, hleftover.makeDirs hp (List.take_prefix n _) hdirs⟩
  · cases hpart
    obtain ⟨disk₁, hwrite, heq⟩ := Option.map_eq_some_iff.mp hrun
    obtain ⟨rfl, rfl⟩ := Prod.mk.inj heq
    obtain rfl := write_eq hwrite
    exact ⟨hlfs, hsame, hleftover.put hp hsmall⟩
  · cases hpart
    have hextract : content.extract 0 n = content := by
      have hmax := ByteArray.extract_zero_max_size (a := content) (i := n)
      rwa [max_eq_left (hwhole _ content rfl)] at hmax
    rw [hextract] at hrun
    obtain ⟨rfl, rfl⟩ := Prod.mk.inj (Option.some.inj hrun)
    exact ⟨hlfs.cons hbig, Lfs.kept_cons hnew content, hleftover⟩
  · rw [hnone n] at hpart
    cases hpart

/-- What a crash leaves on the disk: what stood there, or what the next operation has done. -/
theorem crash_cases (w : World) (package : Text) (ops : List Op) (todo : Option (List Row))
    (hcall : w.call = .loading package ops todo) (part : Option ℕ) :
    w.crash part = { w with call := .idle } ∨
      ∃ n op rest op' disk' lfs', part = some n ∧ ops = op :: rest ∧ op.part n = some op' ∧
        op'.run (w.disk, w.lfs) = some (disk', lfs') ∧
            w.crash part = ⟨w.db, disk', lfs', .idle⟩ := by
  obtain ⟨db, disk, lfs, call⟩ := w
  obtain rfl := hcall
  simp only [World.crash]
  split
  · rename_i disk' lfs' hcut
    obtain ⟨n, rfl, hdone⟩ := Option.bind_eq_some_iff.mp hcut
    obtain ⟨op', hop', hrun⟩ := Option.bind_eq_some_iff.mp hdone
    obtain ⟨op, hop, hpart⟩ := Option.bind_eq_some_iff.mp hop'
    obtain ⟨rest, rfl⟩ : ∃ rest, ops = op :: rest := List.head?_eq_some_iff.mp hop
    exact .inr ⟨n, op, rest, op', disk', lfs', rfl, rfl, hpart, hrun, rfl⟩
  · exact .inl rfl

/-- **Harmless crashes** keep the invariant. -/
theorem Sound.crash (hc : c.Valid) (h : Sound c w) {part : Option ℕ} (hpart : Harmless c w part) :
    Sound c (w.crash part) := by
  obtain ⟨db, disk, lfs, call⟩ := w
  cases call with
  | idle | returned | raised => exact h
  | loading package ops todo =>
    obtain ⟨t, hp, hbusy⟩ := h.call
    obtain ⟨hlinks, hwhole⟩ := hpart package ops todo rfl
    have hloads : ∀ other, Call.Loads (.loading package ops todo) other → other = package := by
      rintro other ⟨_, _, heq⟩
      cases heq
      rfl
    have hleftover := hbusy.leftover hlinks
    have hdead : ∀ {disk' lfs'}, (∀ q, ¬ c.base package <+: q → get disk' q = get disk q) →
        lfs'.Sound c → lfs.Kept lfs' → Leftover c t disk' (c.base package) →
        Sound c ⟨db, disk', lfs', .idle⟩ := by
      intro disk' lfs' haway hlfs' hkept hleftover'
      refine h.frame hc hp (fun q hq _ => haway q hq) hlfs' hkept (.inl fun r => ?_) hloads
        (fun _ => hleftover') trivial
      rw [haway _ (c.folder_notMem_base package r)]
      exact hbusy.nothing r
    rcases crash_cases ⟨db, disk, lfs, .loading package ops todo⟩ package ops todo rfl
      part with heq |
      ⟨n, op, rest, op', disk', lfs', rfl, rfl, hop', hrun, heq⟩
    · rw [heq]
      exact hdead (fun _ _ => rfl) h.lfs (fun _ _ hcontent => hcontent) hleftover
    · obtain ⟨hlfs', hkept, hleftover'⟩ := hbusy.leftover_of_part h.lfs hp.valid hleftover hop'
        (fun hash content heq => hwhole n hash content rest rfl (by rw [heq])) hrun
      rw [heq]
      exact hdead (hbusy.get_of_part h.root hp.valid hop' hrun) hlfs' hkept hleftover'

/-! ## Runs -/

/-- Stored packages are called for, and crashes are harmless. -/
def Fine (c : Setup) (w : World) : LoadEvent → Prop
  | .call package => Stored c.md5 w.db package
  | .crash part => Harmless c w part
  | .moveFolder _ _ | .moveFiles _ | .step => True

theorem sound_step (hc : c.Valid) (h : Sound c w) {e : LoadEvent} (he : Fine c w e) :
    Sound c (w.step c e) := by
  cases e with
  | moveFolder path tree => exact h.upload hc (.moveFolder path tree)
  | moveFiles files => exact h.upload hc (.moveFiles files)
  | call package => exact h.ensurePackageExists he
  | step => exact h.advance hc
  | crash part => exact h.crash hc he

theorem get_start (c : Setup) (q : List Name) :
    get (World.start c).disk q = if q <+: c.root then some .folder else none := by
  have hfold : ∀ ps : List (List Name), get (ps.map fun q => (q, Item.folder)) q =
      if q ∈ ps then some (.folder : Item Bytes Text) else none := by
    intro ps
    induction ps with
    | nil => rfl
    | cons p ps ih =>
      show (if q = p then some Item.folder else get _ q) = _
      rw [ih]
      by_cases hq : q = p <;> simp [hq]
  rw [World.start, hfold]
  simp only [List.mem_inits]

theorem nothing_start (c : Setup) (x : Name) : Nothing (World.start c).disk (c.root ++ [x]) := by
  intro r
  rw [get_start, if_neg]
  intro hle
  have hlength := hle.length_le
  simp at hlength

theorem sound_start (c : Setup) : Sound c (World.start c) := by
  refine ⟨Store.consistent_empty.db, fun q hq => by rw [get_start, if_pos hq],
    ⟨fun _ he => (nomatch he), fun _ he => (nomatch he)⟩,
    fun _ _ => ⟨nothing_start c _, nothing_start c _⟩, fun package hstored => ?_, trivial⟩
  obtain ⟨t, hp⟩ := hstored
  exact ⟨t, hp, .inl (nothing_start c _), fun _ => (nothing_start c _).leftover⟩

/-- The invariant holds after every run in which stored packages are called for and crashes are
harmless. -/
theorem sound_exec (hc : c.Valid) {events : List LoadEvent}
    (h : Along (World.step c) (Fine c) (World.start c) events) :
    Sound c (exec (World.step c) (World.start c) events) := by
  have hstep : ∀ w e, Sound c w → Fine c w e → Sound c (w.step c e) :=
    fun _ _ hw he => sound_step hc hw he
  exact Along.invariant hstep (sound_start c) h

end Gameserver.Packages
