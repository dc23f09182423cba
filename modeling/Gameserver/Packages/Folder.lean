import Gameserver.Lib.Json
import Gameserver.Lib.FileSystem

/-!
# Folders

The folders that are uploaded into packages, as trees of names, and the paths of their entries.

* `Folder`, `Tree` — a folder's entries; in a `Tree` the names are valid and distinct.
* `Folder.at` — what stands at a relative path: two folders are the same when this is.
* `isIgnored`, `Folder.prune` — the names `DBFilesystem` skips, and the folder without them.
* `Folder.entries` — all entries with their paths, each once (`mem_entries`, `nodup_entries`).
* `joined`, `resolve` — paths as strings, and the location a string leads to.
-/

namespace Gameserver.Packages

open Json (Text)

/-- The name of an entry. -/
abbrev Name := Text

/-- The content of a file. -/
abbrev Bytes := ByteArray

/-- What stands at a path. -/
inductive Node where
  | dir
  | file (content : Bytes)
deriving DecidableEq

/-- A folder, entry by entry. -/
inductive Folder where
  | nil
  | file (name : Name) (content : Bytes) (rest : Folder)
  | dir (name : Name) (inner : Folder) (rest : Folder)
deriving DecidableEq

/-- The names of the entries. -/
def Folder.names : Folder → List Name
  | .nil => []
  | .file name _ rest => name :: rest.names
  | .dir name _ rest => name :: rest.names

/-- A name the operating system accepts. -/
def ValidName (name : Name) : Prop :=
  name ≠ [] ∧ name ≠ ['.'] ∧ name ≠ ['.', '.'] ∧ '/' ∉ name ∧ '\x00' ∉ name

instance (name : Name) : Decidable (ValidName name) := inferInstanceAs (Decidable (_ ∧ _))

/-- Names are valid, and distinct in each folder. -/
def Folder.Valid : Folder → Prop
  | .nil => True
  | .file name _ rest => ValidName name ∧ name ∉ rest.names ∧ rest.Valid
  | .dir name inner rest => ValidName name ∧ name ∉ rest.names ∧ inner.Valid ∧ rest.Valid

/-- A folder as it can stand on a disk. -/
structure Tree where
  folder : Folder
  valid : folder.Valid

/-- What stands at a relative path. -/
def Folder.at : Folder → List Name → Option Node
  | _, [] => some .dir
  | .nil, _ :: _ => none
  | .file name content rest, m :: p =>
    if m = name then (if p = [] then some (.file content) else none) else rest.at (m :: p)
  | .dir name inner rest, m :: p => if m = name then inner.at p else rest.at (m :: p)

@[simp] theorem Folder.at_nil (f : Folder) : f.at [] = some .dir := by cases f <;> rfl

/-! ## Ignored names -/

/-- A pattern of `ignore_patterns`: the whole name, or how it starts. -/
inductive Pattern where
  | whole (text : Text)
  | start (text : Text)

/-- `pattern.match(name)`: matching begins at the front, and `$` also stands before a last
newline. -/
def Pattern.match (name : Name) : Pattern → Bool
  | .whole text => name = text ∨ name = text ++ ['\n']
  | .start text => text <+: name

/-- `DBFilesystem.ignore_patterns` -/
def ignorePatterns : List Pattern :=
  [.whole "__pycache__".toList, .whole ".pyc".toList, .whole ".idea".toList, .start ".git".toList,
    .whole ".mypy_cache".toList, .whole "gamelib".toList]

/-- `DBFilesystem.is_ignored` -/
def isIgnored (name : Name) : Bool := ignorePatterns.any (Pattern.match name)

/-- The folder without the ignored entries. -/
def Folder.prune : Folder → Folder
  | .nil => .nil
  | .file name content rest =>
    if isIgnored name then rest.prune else .file name content rest.prune
  | .dir name inner rest =>
    if isIgnored name then rest.prune else .dir name inner.prune rest.prune

theorem Folder.mem_names_prune {f : Folder} {name : Name} (h : name ∈ f.prune.names) :
    name ∈ f.names := by
  induction f with
  | nil => exact h
  | file m content rest ih =>
    rw [prune] at h
    split_ifs at h
    · exact List.mem_cons_of_mem m (ih h)
    · rcases List.mem_cons.mp h with rfl | hrest
      · exact List.mem_cons_self
      · exact List.mem_cons_of_mem m (ih hrest)
  | dir m inner rest _ ih =>
    rw [prune] at h
    split_ifs at h
    · exact List.mem_cons_of_mem m (ih h)
    · rcases List.mem_cons.mp h with rfl | hrest
      · exact List.mem_cons_self
      · exact List.mem_cons_of_mem m (ih hrest)

theorem Folder.Valid.prune {f : Folder} (h : f.Valid) : f.prune.Valid := by
  induction f with
  | nil => trivial
  | file m content rest ih =>
    rw [Folder.prune]
    split_ifs
    · exact ih h.2.2
    · exact ⟨h.1, fun hmem => h.2.1 (mem_names_prune hmem), ih h.2.2⟩
  | dir m inner rest ihInner ih =>
    rw [Folder.prune]
    split_ifs
    · exact ih h.2.2.2
    · exact ⟨h.1, fun hmem => h.2.1 (mem_names_prune hmem), ihInner h.2.2.1, ih h.2.2.2⟩

/-! ## Entries -/

/-- An entry: its path and what stands there. -/
abbrev Entry := List Name × Node

/-- An entry of a folder, seen from the folder around it. -/
def Entry.below (name : Name) (e : Entry) : Entry := (name :: e.1, e.2)

/-- All entries of a folder. -/
def Folder.entries : Folder → List Entry
  | .nil => []
  | .file name content rest => ([name], .file content) :: rest.entries
  | .dir name inner rest =>
    ([name], .dir) :: (inner.entries.map (Entry.below name) ++ rest.entries)

/-- The first name of an entry's path is a name of the folder. -/
theorem Folder.head_of_mem_entries {f : Folder} {e : Entry} (h : e ∈ f.entries) :
    ∃ name tail, e.1 = name :: tail ∧ name ∈ f.names := by
  induction f with
  | nil => cases h
  | file m content rest ih =>
    rcases List.mem_cons.mp h with rfl | hrest
    · exact ⟨m, [], rfl, List.mem_cons_self⟩
    · obtain ⟨name, tail, hpath, hname⟩ := ih hrest
      exact ⟨name, tail, hpath, List.mem_cons_of_mem m hname⟩
  | dir m inner rest _ ih =>
    rcases List.mem_cons.mp h with rfl | h
    · exact ⟨m, [], rfl, List.mem_cons_self⟩
    · rcases List.mem_append.mp h with hinner | hrest
      · obtain ⟨e', -, rfl⟩ := List.mem_map.mp hinner
        exact ⟨m, e'.1, rfl, List.mem_cons_self⟩
      · obtain ⟨name, tail, hpath, hname⟩ := ih hrest
        exact ⟨name, tail, hpath, List.mem_cons_of_mem m hname⟩

theorem Folder.at_of_notMem_names {f : Folder} {name : Name} (h : name ∉ f.names)
    (p : List Name) : f.at (name :: p) = none := by
  induction f with
  | nil => rfl
  | file m content rest ih =>
    rw [names, List.mem_cons, not_or] at h
    rw [Folder.at, if_neg h.1, ih h.2]
  | dir m inner rest _ ih =>
    rw [names, List.mem_cons, not_or] at h
    rw [Folder.at, if_neg h.1, ih h.2]

theorem mem_map_below {entries : List Entry} {name m : Name} {p : List Name} {node : Node} :
    (m :: p, node) ∈ entries.map (Entry.below name) ↔ m = name ∧ (p, node) ∈ entries := by
  rw [List.mem_map]
  constructor
  · rintro ⟨⟨q, node'⟩, hmem, heq⟩
    obtain ⟨hpath, rfl⟩ := Prod.mk.inj heq
    obtain ⟨rfl, rfl⟩ := List.cons.inj hpath
    exact ⟨rfl, hmem⟩
  · rintro ⟨rfl, hmem⟩
    exact ⟨_, hmem, rfl⟩

/-- The entries are what stands at the paths other than the empty one. -/
theorem Folder.mem_entries {f : Folder} (hf : f.Valid) {p : List Name} {node : Node} :
    (p, node) ∈ f.entries ↔ p ≠ [] ∧ f.at p = some node := by
  induction f generalizing p with
  | nil =>
    cases p with
    | nil => simp [entries]
    | cons m p => simp [entries, Folder.at]
  | file name content rest ih =>
    rw [entries, List.mem_cons, ih hf.2.2]
    cases p with
    | nil => simp
    | cons m p =>
      rw [Folder.at]
      by_cases hm : m = name
      · subst hm
        rw [if_pos rfl, at_of_notMem_names hf.2.1]
        split_ifs with hp
        · simp [hp, eq_comm]
        · simp [hp]
      · rw [if_neg hm]
        simp [hm]
  | dir name inner rest ihInner ih =>
    rw [entries, List.mem_cons, List.mem_append, ih hf.2.2.2]
    cases p with
    | nil => simp [Entry.below]
    | cons m p =>
      rw [Folder.at, mem_map_below, ihInner hf.2.2.1]
      by_cases hm : m = name
      · subst hm
        rw [if_pos rfl, at_of_notMem_names hf.2.1]
        by_cases hp : p = []
        · subst hp
          simp [eq_comm]
        · simp [hp]
      · rw [if_neg hm]
        simp [hm]

/-- No path comes twice. -/
theorem Folder.nodup_entries {f : Folder} (hf : f.Valid) : (f.entries.map Prod.fst).Nodup := by
  induction f with
  | nil => exact List.nodup_nil
  | file name content rest ih =>
    rw [entries, List.map_cons, List.nodup_cons]
    refine ⟨fun hmem => ?_, ih hf.2.2⟩
    obtain ⟨e, he, hpath⟩ := List.mem_map.mp hmem
    obtain ⟨m, tail, hcons, hm⟩ := head_of_mem_entries he
    obtain rfl := (List.cons.inj (hcons.symm.trans hpath)).1
    exact hf.2.1 hm
  | dir name inner rest ihInner ih =>
    have hrest : ∀ e ∈ rest.entries, ∀ tail, e.1 ≠ name :: tail := by
      intro e he tail hpath
      obtain ⟨m, tail', hcons, hm⟩ := head_of_mem_entries he
      obtain rfl := (List.cons.inj (hcons.symm.trans hpath)).1
      exact hf.2.1 hm
    rw [entries, List.map_cons, List.nodup_cons, List.map_append, List.map_map]
    refine ⟨fun hmem => ?_, List.nodup_append.mpr ⟨?_, ih hf.2.2.2, ?_⟩⟩
    · rcases List.mem_append.mp hmem with hinner | hmem
      · obtain ⟨e, he, hpath⟩ := List.mem_map.mp hinner
        obtain ⟨m, tail, hcons, -⟩ := head_of_mem_entries he
        have hnil : e.1 = [] := (List.cons.inj hpath).2
        rw [hnil] at hcons
        cases hcons
      · obtain ⟨e, he, hpath⟩ := List.mem_map.mp hmem
        exact hrest e he [] hpath
    · have hmap : inner.entries.map (Prod.fst ∘ Entry.below name) =
          (inner.entries.map Prod.fst).map (List.cons name) := by
        rw [List.map_map]
        rfl
      rw [hmap]
      exact (ihInner hf.2.2.1).map fun _ _ h => (List.cons.inj h).2
    · intro p hinner q hmem heq
      obtain ⟨e, -, rfl⟩ := List.mem_map.mp hinner
      obtain ⟨e', he', rfl⟩ := List.mem_map.mp hmem
      exact hrest e' he' e.1 heq.symm

/-- An entry stands in a folder. -/
theorem Folder.at_of_isPrefix {f : Folder} {p q : List Name} (hp : f.at p ≠ none) (hq : q <+: p)
    (hne : q ≠ p) : f.at q = some .dir := by
  induction f generalizing p q with
  | nil =>
    cases q with
    | nil => rfl
    | cons m q =>
      obtain ⟨tail, rfl⟩ := hq
      exact absurd rfl hp
  | file name content rest ih =>
    cases q with
    | nil => rfl
    | cons m q =>
      obtain ⟨tail, rfl⟩ := hq
      rw [List.cons_append, Folder.at] at hp
      rw [Folder.at]
      by_cases hm : m = name
      · rw [if_pos hm] at hp
        have htail : q ++ tail = [] := by
          by_contra hnil
          exact hp (if_neg hnil)
        obtain ⟨rfl, rfl⟩ := List.append_eq_nil_iff.mp htail
        exact absurd (by simp) hne
      · rw [if_neg hm] at hp ⊢
        exact ih hp ⟨tail, rfl⟩ hne
  | dir name inner rest ihInner ih =>
    cases q with
    | nil => rfl
    | cons m q =>
      obtain ⟨tail, rfl⟩ := hq
      rw [List.cons_append, Folder.at] at hp
      rw [Folder.at]
      by_cases hm : m = name
      · rw [if_pos hm] at hp ⊢
        refine ihInner hp ⟨tail, rfl⟩ fun heq => hne ?_
        rw [List.cons_append, ← heq]
      · rw [if_neg hm] at hp ⊢
        exact ih hp ⟨tail, rfl⟩ hne

/-- On the way to a folder there are folders. -/
theorem Folder.at_dir_of_isPrefix {f : Folder} {p q : List Name} (hp : f.at p = some .dir)
    (hq : q <+: p) : f.at q = some .dir := by
  by_cases heq : q = p
  · rw [heq, hp]
  · exact at_of_isPrefix (by rw [hp]; nofun) hq heq

/-- The names on an entry's path are valid. -/
theorem Folder.validName_of_mem_entries {f : Folder} (hf : f.Valid) {e : Entry}
    (he : e ∈ f.entries) : ∀ name ∈ e.1, ValidName name := by
  induction f generalizing e with
  | nil => cases he
  | file m content rest ih =>
    rcases List.mem_cons.mp he with rfl | hrest
    · intro name hname
      obtain rfl := List.mem_singleton.mp hname
      exact hf.1
    · exact ih hf.2.2 hrest
  | dir m inner rest ihInner ih =>
    rcases List.mem_cons.mp he with rfl | he
    · intro name hname
      obtain rfl := List.mem_singleton.mp hname
      exact hf.1
    · rcases List.mem_append.mp he with hinner | hrest
      · obtain ⟨e', he', rfl⟩ := List.mem_map.mp hinner
        intro name hname
        rcases List.mem_cons.mp hname with rfl | htail
        · exact hf.1
        · exact ihInner hf.2.2.1 he' name htail
      · exact ih hf.2.2.2 hrest

/-! ## Paths as strings -/

/-- The names, with slashes between them. -/
def joined (p : List Name) : Text := ['/'].intercalate p

/-- Follow one component of a path: `.` and an empty one stay, `..` goes up. -/
def follow (location : List Name) (component : Name) : List Name :=
  if component = [] ∨ component = ['.'] then location
  else if component = ['.', '.'] then location.dropLast
  else location ++ [component]

/-- `base / path`: an absolute path starts at the root. -/
def resolve (base : List Name) (path : Text) : List Name :=
  (path.splitOn '/').foldl follow (if ['/'] <+: path then [] else base)

theorem splitOn_joined {p : List Name} (hp : ∀ name ∈ p, ValidName name) (hne : p ≠ []) :
    (joined p).splitOn '/' = p :=
  List.splitOn_intercalate '/' (fun name hname => (hp name hname).2.2.2.1) hne

/-- Different lists of names have different paths. -/
theorem joined_injective {p q : List Name} (hp : ∀ name ∈ p, ValidName name) (hpne : p ≠ [])
    (hq : ∀ name ∈ q, ValidName name) (hqne : q ≠ []) (h : joined p = joined q) : p = q := by
  rw [← splitOn_joined hp hpne, h, splitOn_joined hq hqne]

theorem foldl_follow {p : List Name} (hp : ∀ name ∈ p, ValidName name) (base : List Name) :
    p.foldl follow base = base ++ p := by
  induction p generalizing base with
  | nil => exact (List.append_nil base).symm
  | cons name p ih =>
    obtain ⟨hempty, hdot, hdots, -⟩ := hp name List.mem_cons_self
    have hfollow : follow base name = base ++ [name] := by
      rw [follow, if_neg (by tauto), if_neg hdots]
    rw [List.foldl_cons, hfollow, ih fun m hm => hp m (List.mem_cons_of_mem name hm),
      List.append_assoc]
    rfl

theorem joined_cons_cons (name next : Name) (p : List Name) :
    joined (name :: next :: p) = name ++ '/' :: joined (next :: p) := by
  simp [joined, List.intercalate]

/-- A path made of names leads below the base. -/
theorem resolve_joined {p : List Name} (hp : ∀ name ∈ p, ValidName name) (hne : p ≠ [])
    (base : List Name) : resolve base (joined p) = base ++ p := by
  have hrelative : ¬ ['/'] <+: joined p := by
    intro hslash
    cases p with
    | nil => exact hne rfl
    | cons name p =>
      obtain ⟨hempty, -, -, hname, -⟩ := hp name List.mem_cons_self
      obtain ⟨c, tail, rfl⟩ := List.exists_cons_of_ne_nil hempty
      have hhead : ∃ rest, joined ((c :: tail) :: p) = c :: rest := by
        cases p with
        | nil => exact ⟨tail, by simp [joined, List.intercalate]⟩
        | cons next p => exact ⟨_, joined_cons_cons _ next p⟩
      obtain ⟨rest, hrest⟩ := hhead
      rw [hrest] at hslash
      obtain rfl := (List.cons_prefix_cons.mp hslash).1
      exact hname List.mem_cons_self
  rw [resolve, if_neg hrelative, splitOn_joined hp hne, foldl_follow hp]

end Gameserver.Packages
