import Gameserver.Lib.Machine
import Gameserver.Scoring.Model

/-!
# First blood over whole runs

The first blood marks of `submitted_flags` are set batch by batch, in the transaction
that scores a tick (`compute_firstblood_incremental` of `scoring.py`), by an algorithm
with caches of its own.

* `Algorithm` — the interface of `FirstBloodAlgorithm`.
* `State`, `Event`, `step` — batches that are committed or rolled back, and resets of
  the caches, in any order.
* `Marked` — the marks are those of a specification `level`, which says what a flag is
  worth after all flags before it.
* `Algorithm.Correct` — what one batch has to do; `Algorithm.Correct.run` — **then every
  run leaves the marks of the specification**, whatever the batches and resets were.
-/

namespace Gameserver.FirstBlood

open Gameserver.Scoring

/-- What a session sees of `submitted_flags`: the rows, and `is_firstblood` by id. -/
structure FlagView where
  rows : List SubmittedFlag
  isFirstblood : ℕ → ℕ

/-- The dictionary `services`. -/
def serviceById (services : List Service) (id : ℕ) : Option Service :=
  services.find? fun service => service.id = id

/-- `FirstBloodAlgorithm`: its caches and `get_firstbloods`. -/
structure Algorithm (Cache : Type*) where
  /-- The caches after `reset_caches`. -/
  empty : Cache
  getFirstbloods : FlagView → Cache → List SubmittedFlag →
    Except PyError (List (SubmittedFlag × ℕ) × Cache)

/-- `_record_first_blood` for all results: update the rows with these ids. -/
def record (marks : ℕ → ℕ) (results : List (SubmittedFlag × ℕ)) : ℕ → ℕ :=
  results.foldl (fun marks r => Function.update marks r.1.id r.2) marks

/-! ## Runs -/

/-- The flags that are processed and saved, their marks, and the caches. -/
structure State (Cache : Type*) where
  processed : List SubmittedFlag
  marks : ℕ → ℕ
  cache : Cache

/-- What happens to the first blood marks. -/
inductive Event where
  /-- A batch is processed, on a table with these rows, and committed. -/
  | batch (flags rows : List SubmittedFlag)
  /-- Processing a batch ends in an error and is rolled back. -/
  | rollback
  /-- `reset_caches`, or a restart. -/
  | resetCaches

section Machine

variable {Cache : Type*} (alg : Algorithm Cache)

/-- Nothing is processed yet. -/
def State.initial : State Cache := ⟨[], fun _ => 0, alg.empty⟩

/-- One event.  A batch that raises is rolled back, too. -/
def step (s : State Cache) : Event → State Cache
  | .batch flags rows =>
    match alg.getFirstbloods ⟨rows, s.marks⟩ s.cache flags with
    | .ok (results, cache) =>
      { processed := s.processed ++ flags, marks := record s.marks results, cache := cache }
    | .error _ => { s with cache := alg.empty }
  | .rollback => { s with cache := alg.empty }
  | .resetCaches => { s with cache := alg.empty }

/-- Batches come in the order of the history; the table holds at least the flags
processed so far and those of the batch, and no flag from outside the history. -/
def InOrder (history : List SubmittedFlag) (s : State Cache) : Event → Prop
  | .batch flags rows =>
    s.processed ++ flags <+: history ∧ s.processed ++ flags ⊆ rows ∧ rows ⊆ history
  | .rollback => True
  | .resetCaches => True

instance (history : List SubmittedFlag) (s : State Cache) (e : Event) :
    Decidable (InOrder history s e) :=
  match e with
  | .batch flags rows =>
    inferInstanceAs (Decidable (s.processed ++ flags <+: history ∧ (∀ f ∈ s.processed ++ flags,
      f ∈ rows) ∧ ∀ f ∈ rows, f ∈ history))
  | .rollback => inferInstanceAs (Decidable True)
  | .resetCaches => inferInstanceAs (Decidable True)

end Machine

/-! ## The specification -/

section Spec

variable (level : List SubmittedFlag → SubmittedFlag → ℕ)

/-- The marks are those of the specification, and only processed flags have one. -/
structure Marked (processed : List SubmittedFlag) (marks : ℕ → ℕ) : Prop where
  level_eq : ∀ before f after, processed = before ++ f :: after → marks f.id = level before f
  none : ∀ id, (∀ f ∈ processed, f.id ≠ id) → marks id = 0

/-- What a batch that follows the flags `before` should return. -/
def levels (before : List SubmittedFlag) : List SubmittedFlag → List (SubmittedFlag × ℕ)
  | [] => []
  | f :: flags =>
    (if level before f = 0 then [] else [(f, level before f)]) ++ levels (before ++ [f]) flags

variable {level} {processed flags : List SubmittedFlag} {marks : ℕ → ℕ}

theorem Marked.empty : Marked level [] fun _ => 0 where
  level_eq before f after h := by simp at h
  none _ _ := rfl

/-- Saving the level of the next flag. -/
theorem Marked.snoc (h : Marked level processed marks) {f : SubmittedFlag}
    (hf : ∀ g ∈ processed, g.id ≠ f.id) :
    Marked level (processed ++ [f])
      (record marks (if level processed f = 0 then [] else [(f, level processed f)])) := by
  have hmarks : ∀ id,
      record marks (if level processed f = 0 then [] else [(f, level processed f)]) id =
        if id = f.id then level processed f else marks id := by
    intro id
    have hzero : marks f.id = 0 := h.none f.id hf
    by_cases hid : id = f.id
    · subst hid
      by_cases hlevel : level processed f = 0 <;> simp [record, hlevel, hzero]
    · by_cases hlevel : level processed f = 0 <;> simp [record, hlevel, hid]
  constructor
  · intro before g after heq
    rw [hmarks]
    rcases List.eq_nil_or_concat after with rfl | ⟨after, g', rfl⟩
    · obtain ⟨rfl, hg⟩ := List.append_inj' heq rfl
      obtain rfl : f = g := by simpa using hg
      simp
    · have heq' : processed ++ [f] = (before ++ g :: after) ++ [g'] := by simpa using heq
      obtain ⟨hprocessed, -⟩ := List.append_inj' heq' rfl
      have hmem : g ∈ processed := by simp [hprocessed]
      rw [if_neg (hf g hmem)]
      exact h.level_eq before g after hprocessed
  · intro id hid
    rw [hmarks, if_neg (hid f (by simp)).symm]
    exact h.none id fun g hg => hid g (by simp [hg])

theorem record_append (marks : ℕ → ℕ) (a b : List (SubmittedFlag × ℕ)) :
    record marks (a ++ b) = record (record marks a) b :=
  List.foldl_append

theorem levels_append (a b : List SubmittedFlag) :
    levels level processed (a ++ b) =
      levels level processed a ++ levels level (processed ++ a) b := by
  induction a generalizing processed with
  | nil => simp [levels]
  | cons f a ih => simp [levels, ih]

theorem levels_eq_nil
    (h : ∀ done f rest, flags = done ++ f :: rest → level (processed ++ done) f = 0) :
    levels level processed flags = [] := by
  induction flags generalizing processed with
  | nil => rfl
  | cons f flags ih =>
    have hf : level processed f = 0 := by simpa using h [] f flags rfl
    have hflags : levels level (processed ++ [f]) flags = [] := ih fun done g rest hsplit => by
      simpa using h (f :: done) g rest (by simp [hsplit])
    simp [levels, hf, hflags]

/-- The flags in it are those that have a level at their place. -/
theorem exists_mem_levels_iff {f : SubmittedFlag} :
    (∃ r ∈ levels level processed flags, r.1 = f) ↔
      ∃ first rest, flags = first ++ f :: rest ∧ level (processed ++ first) f ≠ 0 := by
  induction flags generalizing processed with
  | nil => simp [levels]
  | cons g flags ih =>
    simp only [levels, List.mem_append, or_and_right, exists_or, ih]
    constructor
    · rintro (⟨r, hr, rfl⟩ | ⟨first, rest, rfl, hlevel⟩)
      · split at hr
        · cases hr
        · next hlevel =>
          obtain rfl := List.mem_singleton.1 hr
          exact ⟨[], flags, rfl, by simpa using hlevel⟩
      · exact ⟨g :: first, rest, rfl, by simpa using hlevel⟩
    · rintro ⟨first, rest, hsplit, hlevel⟩
      cases first with
      | nil =>
        obtain ⟨rfl, -⟩ := List.cons.inj hsplit
        rw [List.append_nil] at hlevel
        exact .inl ⟨(g, level processed g), by simp [hlevel], rfl⟩
      | cons g' first =>
        obtain ⟨rfl, rfl⟩ := List.cons.inj hsplit
        exact .inr ⟨first, rest, rfl, by simpa using hlevel⟩

/-- A flag in it has a level at its place. -/
theorem exists_split_of_mem_levels {r : SubmittedFlag × ℕ} (h : r ∈ levels level processed flags) :
    ∃ first rest, flags = first ++ r.1 :: rest ∧ 0 < level (processed ++ first) r.1 := by
  obtain ⟨first, rest, hsplit, hlevel⟩ := exists_mem_levels_iff.1 ⟨r, h, rfl⟩
  exact ⟨first, rest, hsplit, Nat.pos_of_ne_zero hlevel⟩

theorem fst_mem_of_mem_levels {r : SubmittedFlag × ℕ} (h : r ∈ levels level processed flags) :
    r.1 ∈ flags := by
  obtain ⟨first, rest, rfl, -⟩ := exists_split_of_mem_levels h
  simp

theorem record_of_notMem {results : List (SubmittedFlag × ℕ)} {id : ℕ}
    (h : ∀ r ∈ results, r.1.id ≠ id) : record marks results id = marks id := by
  induction results generalizing marks with
  | nil => rfl
  | cons r results ih =>
    rw [record, List.foldl_cons, ← record, ih fun r' hr' => h r' (by simp [hr'])]
    exact Function.update_of_ne (h r (by simp)).symm _ _

/-- Saving what a batch should return keeps the marks right. -/
theorem Marked.append (h : Marked level processed marks)
    (hids : ((processed ++ flags).map SubmittedFlag.id).Nodup) :
    Marked level (processed ++ flags) (record marks (levels level processed flags)) := by
  induction flags generalizing processed marks with
  | nil => simpa [levels, record] using h
  | cons f flags ih =>
    have hf : ∀ g ∈ processed, g.id ≠ f.id := by
      intro g hg heq
      rw [List.map_append, List.map_cons] at hids
      exact (List.nodup_append.1 hids).2.2 g.id (List.mem_map_of_mem hg) f.id (by simp) heq
    have hsnoc := ih (h.snoc hf) (by simpa using hids)
    rw [levels, record_append]
    simpa using hsnoc

end Spec

/-! ## Correct algorithms -/

/-- What an algorithm has to do in one batch, on histories of a kind: return the levels of
the specification, and keep its caches right. -/
structure Algorithm.Correct {Cache : Type*} (alg : Algorithm Cache)
    (history : List SubmittedFlag) (level : List SubmittedFlag → SubmittedFlag → ℕ)
    (CacheOk : List SubmittedFlag → Cache → Prop) : Prop where
  initial : CacheOk [] alg.empty
  reset : ∀ processed cache, CacheOk processed cache → CacheOk processed alg.empty
  batch : ∀ processed flags rows marks cache results cache', processed ++ flags <+: history →
    processed ++ flags ⊆ rows → rows ⊆ history → Marked level processed marks →
    CacheOk processed cache → alg.getFirstbloods ⟨rows, marks⟩ cache flags = .ok (results, cache') →
    results = levels level processed flags ∧ CacheOk (processed ++ flags) cache'

namespace Algorithm.Correct

variable {Cache : Type*} {alg : Algorithm Cache} {history : List SubmittedFlag}
  {level : List SubmittedFlag → SubmittedFlag → ℕ} {CacheOk : List SubmittedFlag → Cache → Prop}

/-- What holds after every event. -/
structure Inv (history : List SubmittedFlag) (level : List SubmittedFlag → SubmittedFlag → ℕ)
    (CacheOk : List SubmittedFlag → Cache → Prop) (s : State Cache) : Prop where
  isPrefix : s.processed <+: history
  marked : Marked level s.processed s.marks
  cache : CacheOk s.processed s.cache

theorem inv_initial (h : alg.Correct history level CacheOk) :
    Inv history level CacheOk (State.initial alg) :=
  ⟨List.nil_prefix, Marked.empty, h.initial⟩

theorem inv_step (h : alg.Correct history level CacheOk)
    (hids : (history.map SubmittedFlag.id).Nodup) (s : State Cache) (e : Event)
    (hs : Inv history level CacheOk s) (he : InOrder history s e) :
    Inv history level CacheOk (step alg s e) := by
  cases e with
  | batch flags rows =>
    obtain ⟨hinit, hrows, hhistory⟩ := he
    cases hget : alg.getFirstbloods ⟨rows, s.marks⟩ s.cache flags with
    | ok r =>
      obtain ⟨results, cache⟩ := r
      obtain ⟨rfl, hcache⟩ :=
        h.batch _ _ _ _ _ _ _ hinit hrows hhistory hs.marked hs.cache hget
      simp only [step, hget]
      exact ⟨hinit, hs.marked.append (hids.sublist (hinit.sublist.map _)), hcache⟩
    | error err =>
      simp only [step, hget]
      exact ⟨hs.isPrefix, hs.marked, h.reset _ _ hs.cache⟩
  | rollback => exact ⟨hs.isPrefix, hs.marked, h.reset _ _ hs.cache⟩
  | resetCaches => exact ⟨hs.isPrefix, hs.marked, h.reset _ _ hs.cache⟩

/-- **Whatever the batches, the rollbacks and the resets were, the marks are those of the
specification**, and the caches are right. -/
theorem run (h : alg.Correct history level CacheOk) (hids : (history.map SubmittedFlag.id).Nodup)
    {es : List Event}
    (hes : Machine.Along (step alg) (InOrder history) (State.initial alg) es) :
    Inv history level CacheOk (Machine.exec (step alg) (State.initial alg) es) :=
  Machine.Along.invariant (h.inv_step hids) h.inv_initial hes

end Algorithm.Correct

end Gameserver.FirstBlood
