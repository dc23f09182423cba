import Mathlib

/-!
# Searching a common point of periodic intervals

A cursor stands at an interval `[pos, pos + size)` that repeats with a period.  The least
point that several of them have in common is found by moving every cursor that ends too
early, again and again.

* `Cursor`, `Cursor.Hits` — a cursor, and the points of its interval and of those after it.
* `Cursor.advance` — move past a bound.  The arithmetic may be limited: `none` if a value does
  not fit.
* `latest`, `earliestEnd` — the largest start and the smallest end.
* `common_advanceAll` — moving loses no common point that is not before the bound.
* `gap_advanceAll_lt` — what decreases in a search.
* `ComesTo`, `StopsBefore` — a search that gives up at a limit: points it still finds, and points
  before which it has given up, told from the starts and ends of the intervals.
* `stopsBefore_or_comesTo` — with at most two cursors, one or the other.
-/

namespace IntervalSearch

/-- An interval that is repeated with a period. -/
structure Cursor where
  pos : ℤ
  size : ℕ+
  period : ℕ+
  deriving DecidableEq

variable (fits : ℤ → Prop) [DecidablePred fits]

namespace Cursor

/-- The points of the interval and of its repetitions. -/
def Hits (c : Cursor) (x : ℤ) : Prop :=
  ∃ k : ℕ, c.pos + k * c.period ≤ x ∧ x < c.pos + k * c.period + c.size

/-- The next repetition. -/
def next (c : Cursor) : Cursor := { c with pos := c.pos + c.period }

/-- Move on until the end is after the bound. -/
def advance (c : Cursor) (bound : ℤ) : Option Cursor :=
  if ¬ fits (c.pos + c.size) then none
  else if c.pos + c.size ≤ bound then
    if fits c.period ∧ fits (c.pos + c.period) then c.next.advance bound else none
  else some c
termination_by (bound - c.pos).toNat
decreasing_by
  have hsize := c.size.pos
  have hperiod := c.period.pos
  simp only [next]
  omega

variable {fits} {c c' : Cursor} {x bound : ℤ}

theorem Hits.pos_le (h : c.Hits x) : c.pos ≤ x := by
  obtain ⟨k, hk, -⟩ := h
  have : (0 : ℤ) ≤ k * c.period := by positivity
  omega

theorem hits_of_mem (h : c.pos ≤ x) (h' : x < c.pos + c.size) : c.Hits x :=
  ⟨0, by simpa using h, by simpa using h'⟩

theorem hits_of_next (h : c.next.Hits x) : c.Hits x := by
  obtain ⟨k, hk, hk'⟩ := h
  refine ⟨k + 1, ?_, ?_⟩
  · push_cast [next, add_mul] at hk ⊢
    omega
  · push_cast [next, add_mul] at hk' ⊢
    omega

/-- A point at or after the end of the interval is in a repetition. -/
theorem Hits.next (h : c.Hits x) (hx : c.pos + c.size ≤ x) : c.next.Hits x := by
  obtain ⟨k, hk, hk'⟩ := h
  cases k with
  | zero => simp at hk'; omega
  | succ k =>
    refine ⟨k, ?_, ?_⟩
    · push_cast [Cursor.next, add_mul] at hk ⊢
      omega
    · push_cast [Cursor.next, add_mul] at hk' ⊢
      omega

/-- Where a cursor is after it has moved past a bound. -/
structure Advanced (c c' : Cursor) (bound : ℤ) : Prop where
  size_eq : c'.size = c.size
  period_eq : c'.period = c.period
  le : c.pos ≤ c'.pos
  lt_end : bound < c'.pos + c'.size
  of_hits : ∀ x, c'.Hits x → c.Hits x
  hits : ∀ x, bound ≤ x → c.Hits x → c'.Hits x
  moved : c.pos + c.size ≤ bound → c.pos < c'.pos
  pos_le : c'.pos = c.pos ∨ c'.pos + c.size ≤ bound + c.period

theorem advanced_of_advance (h : c.advance fits bound = some c') : Advanced c c' bound := by
  fun_induction c.advance fits bound with
  | case1 c hfit => cases h
  | case2 c hfit hle hfit' ih =>
    obtain ⟨hsize, hperiod, hpos, hend, hof, hhits, -, hbound⟩ := ih h
    have hpos' : c.pos + c.period ≤ c'.pos := hpos
    have := c.period.pos
    refine ⟨hsize, hperiod, by omega, hend, fun x hx => hits_of_next (hof x hx),
      fun x hx hhit => hhits x hx (hhit.next (by omega)), fun _ => by omega, Or.inr ?_⟩
    rcases hbound with heq | hle'
    · have heq' : c'.pos = c.pos + c.period := heq
      omega
    · exact hle'
  | case3 c hfit hle hfit' => cases h
  | case4 c hfit hle =>
    obtain rfl := Option.some.inj h
    exact ⟨rfl, rfl, le_rfl, by omega, fun _ h => h, fun _ _ h => h,
      fun hle' => absurd hle' hle, Or.inl rfl⟩

/-- A cursor moves on if all values on the way fit. -/
theorem exists_advance (top : ℤ) (hfits : ∀ y, c.pos ≤ y → y ≤ top → fits y)
    (hperiod : fits c.period) (htop : c.pos + c.size ≤ top)
    (hnext : ∀ k : ℕ, c.pos + k * c.period + c.size ≤ bound →
      c.pos + (k + 1 : ℕ) * c.period + c.size ≤ top) : ∃ c', c.advance fits bound = some c' := by
  have hsize : ∀ c : Cursor, (0 : ℤ) < c.size := fun c => by exact_mod_cast c.size.pos
  have hperiod' : ∀ c : Cursor, (0 : ℤ) < c.period := fun c => by exact_mod_cast c.period.pos
  fun_induction c.advance fits bound with
  | case1 c hfit => exact absurd (hfits _ (by have := hsize c; omega) htop) hfit
  | case2 c hfit hle hfit' ih =>
    have hone : c.pos + c.period + c.size ≤ top := by simpa using hnext 0 (by simpa using hle)
    refine ih (fun y hy => hfits y ?_) hperiod hone fun k hk => ?_
    · have : c.pos + c.period ≤ y := hy
      have := hperiod' c
      omega
    · have hk' := hnext (k + 1) (by push_cast [next, add_mul] at hk ⊢; omega)
      push_cast [next, add_mul] at hk' ⊢
      omega
  | case3 c hfit hle hfit' =>
    have hone : c.pos + c.period + c.size ≤ top := by simpa using hnext 0 (by simpa using hle)
    refine absurd ⟨hperiod, hfits _ ?_ ?_⟩ hfit'
    · have := hperiod' c
      omega
    · have := hsize c
      omega
  | case4 c hfit hle => exact ⟨c, rfl⟩

/-- Where a cursor is after it has moved past a bound, if all values fit. -/
def after (c : Cursor) (bound : ℤ) : Cursor :=
  { c with pos := c.pos + max 0 ((bound - c.pos - c.size) / c.period + 1) * c.period }

theorem after_of_lt (h : bound < c.pos + c.size) : c.after bound = c := by
  have hneg : (bound - c.pos - c.size) / (c.period : ℤ) < 0 :=
    Int.ediv_neg_of_neg_of_pos (by omega) (by exact_mod_cast c.period.pos)
  have hzero : max 0 ((bound - c.pos - c.size) / (c.period : ℤ) + 1) = 0 := by omega
  rw [after, hzero, zero_mul, add_zero]

theorem after_next (h : c.pos + c.size ≤ bound) : c.next.after bound = c.after bound := by
  have hpos : (0 : ℤ) < c.period := by exact_mod_cast c.period.pos
  have hnonneg : 0 ≤ (bound - c.pos - c.size) / (c.period : ℤ) :=
    Int.ediv_nonneg (by omega) hpos.le
  have hmoved : (bound - (c.pos + c.period) - c.size) / (c.period : ℤ) =
      (bound - c.pos - c.size) / (c.period : ℤ) - 1 := by
    rw [sub_add_eq_sub_sub, sub_right_comm, Int.sub_ediv_of_dvd _ dvd_rfl, Int.ediv_self hpos.ne']
  simp only [after, next, hmoved, Cursor.mk.injEq, and_true]
  rw [max_eq_right (by omega), max_eq_right (by omega)]
  ring

theorem advance_eq_after (h : c.advance fits bound = some c') : c' = c.after bound := by
  fun_induction c.advance fits bound with
  | case1 c hfit => cases h
  | case2 c hfit hle hfit' ih => rw [ih h, after_next hle]
  | case3 c hfit hle hfit' => cases h
  | case4 c hfit hle => rw [after_of_lt (by omega), Option.some.inj h]

/-! ### Repetitions -/

/-- The interval or one of its repetitions starts here. -/
def Starts (c : Cursor) (p : ℤ) : Prop := ∃ k : ℕ, p = c.pos + k * c.period

/-- One of them ends here.  An end before `low` counts as `low`. -/
def Ends (low : ℤ) (c : Cursor) (e : ℤ) : Prop := ∃ p, c.Starts p ∧ e = max low (p + c.size)

variable {p : ℤ}

theorem starts_pos : c.Starts c.pos := ⟨0, by simp⟩

theorem Starts.pos_le (h : c.Starts p) : c.pos ≤ p := by
  obtain ⟨k, rfl⟩ := h
  have : (0 : ℤ) ≤ k * c.period := by positivity
  omega

/-- Two starts are at least a period apart. -/
theorem Starts.period_le {q : ℤ} (hp : c.Starts p) (hq : c.Starts q) (hlt : q < p) :
    q + c.period ≤ p := by
  obtain ⟨k, rfl⟩ := hp
  obtain ⟨l, rfl⟩ := hq
  have hpos : (0 : ℤ) < c.period := by exact_mod_cast c.period.pos
  have hlt' : (l : ℤ) < k := lt_of_mul_lt_mul_right (by omega) hpos.le
  have hle : ((l : ℤ) + 1) * c.period ≤ k * c.period :=
    mul_le_mul_of_nonneg_right (by omega) hpos.le
  rw [add_mul, one_mul] at hle
  omega

/-- A repetition that is not the first one starts a period after another. -/
theorem Starts.pred (h : c.Starts p) (hlt : c.pos < p) : c.Starts (p - c.period) := by
  obtain ⟨k, rfl⟩ := h
  cases k with
  | zero => simp at hlt
  | succ k => exact ⟨k, by push_cast; ring⟩

/-- Moving past a bound leaves the repetitions that end after it. -/
theorem starts_after : (c.after bound).Starts p ↔ c.Starts p ∧ bound < p + c.size := by
  have hpos : (0 : ℤ) < c.period := by exact_mod_cast c.period.pos
  have hmem : ∀ k : ℤ, (bound - c.pos - c.size) / (c.period : ℤ) + 1 ≤ k ↔
      bound < c.pos + k * c.period + c.size := by
    intro k
    rw [Int.add_one_le_iff, Int.ediv_lt_iff_lt_mul hpos]
    constructor <;> intro h <;> linarith
  constructor
  · rintro ⟨k, rfl⟩
    have hsum : (c.after bound).pos + k * (c.after bound).period =
        c.pos + (max 0 ((bound - c.pos - c.size) / (c.period : ℤ) + 1) + k) * c.period := by
      simp only [after]
      ring
    rw [hsum]
    refine ⟨⟨(max 0 ((bound - c.pos - c.size) / (c.period : ℤ) + 1) + k).toNat, ?_⟩, ?_⟩
    · rw [Int.toNat_of_nonneg (by omega)]
    · exact (hmem _).1 (by omega)
  · rintro ⟨⟨k, rfl⟩, hlt⟩
    have hle := (hmem k).2 hlt
    refine ⟨(k - max 0 ((bound - c.pos - c.size) / (c.period : ℤ) + 1)).toNat, ?_⟩
    rw [Int.toNat_of_nonneg (by omega)]
    simp only [after]
    ring

/-- Ends after the bound are kept. -/
theorem ends_after {low e : ℤ} (hlow : low ≤ bound) :
    (c.after bound).Ends low e ↔ c.Ends low e ∧ bound < e := by
  constructor
  · rintro ⟨p, hp, rfl⟩
    obtain ⟨hstarts, hlt⟩ := starts_after.1 hp
    exact ⟨⟨p, hstarts, rfl⟩, lt_max_of_lt_right hlt⟩
  · rintro ⟨⟨p, hp, rfl⟩, hlt⟩
    have hend : bound < p + c.size := (lt_max_iff.1 hlt).resolve_left (not_lt.2 hlow)
    exact ⟨p, starts_after.2 ⟨hp, hend⟩, rfl⟩

end Cursor

/-! ## Several cursors -/

/-- Move all cursors past a bound. -/
def advanceAll (cs : List Cursor) (bound : ℤ) : Option (List Cursor) :=
  cs.mapM fun c => c.advance fits bound

/-- The points that all cursors have in common. -/
def Common (cs : List Cursor) (x : ℤ) : Prop := ∀ c ∈ cs, c.Hits x

/-- The largest start, or `low`. -/
def latest (low : ℤ) (cs : List Cursor) : ℤ := cs.foldl (fun s c => max s c.pos) low

/-- The smallest end, or `high`. -/
def earliestEnd (high : ℤ) (cs : List Cursor) : ℤ :=
  cs.foldl (fun s c => min s (c.pos + c.size)) high

variable {fits} {cs cs' : List Cursor} {x bound low high : ℤ}

theorem latest_le_iff : latest low cs ≤ x ↔ low ≤ x ∧ ∀ c ∈ cs, c.pos ≤ x := by
  induction cs generalizing low with
  | nil => simp [latest]
  | cons c cs ih =>
    have hcons : latest low (c :: cs) = latest (max low c.pos) cs := rfl
    rw [hcons, ih]
    simp [and_assoc]

theorem lt_earliestEnd_iff :
    x < earliestEnd high cs ↔ x < high ∧ ∀ c ∈ cs, x < c.pos + c.size := by
  induction cs generalizing high with
  | nil => simp [earliestEnd]
  | cons c cs ih =>
    have hcons : earliestEnd high (c :: cs) = earliestEnd (min high (c.pos + c.size)) cs := rfl
    rw [hcons, ih]
    simp [and_assoc]

/-- The largest start is `low` or the start of an interval. -/
theorem latest_eq (low : ℤ) (cs : List Cursor) :
    latest low cs = low ∨ ∃ c ∈ cs, c.pos = latest low cs := by
  induction cs generalizing low with
  | nil => exact .inl rfl
  | cons c cs ih =>
    have hcons : latest low (c :: cs) = latest (max low c.pos) cs := rfl
    rw [hcons]
    rcases ih (max low c.pos) with heq | ⟨d, hd, heq⟩
    · rcases max_choice low c.pos with hmax | hmax
      · exact .inl (heq.trans hmax)
      · exact .inr ⟨c, by simp, (heq.trans hmax).symm⟩
    · exact .inr ⟨d, by simp [hd], heq⟩

theorem low_le_latest : low ≤ latest low cs := (latest_le_iff.1 le_rfl).1

theorem pos_le_latest {c : Cursor} (hc : c ∈ cs) : c.pos ≤ latest low cs :=
  (latest_le_iff.1 le_rfl).2 c hc

/-- No common point is before the largest start. -/
theorem latest_le_of_common (hlow : low ≤ x) (h : Common cs x) : latest low cs ≤ x :=
  latest_le_iff.2 ⟨hlow, fun c hc => (h c hc).pos_le⟩

/-- If no interval ends before the largest start, that is a common point. -/
theorem common_latest (h : latest low cs < earliestEnd high cs) : Common cs (latest low cs) :=
  fun _ hc => Cursor.hits_of_mem (pos_le_latest hc) ((lt_earliestEnd_iff.1 h).2 _ hc)

theorem advanceAll_cons_eq_some_iff {c : Cursor} : advanceAll fits (c :: cs) bound = some cs' ↔
    ∃ c' rest, c.advance fits bound = some c' ∧ advanceAll fits cs bound = some rest ∧
      c' :: rest = cs' := by
  simp [advanceAll, List.mapM_cons, Option.bind_eq_some_iff]

theorem advanceAll_eq_some (h : advanceAll fits cs bound = some cs') :
    List.Forall₂ (fun c c' => Cursor.Advanced c c' bound) cs cs' := by
  induction cs generalizing cs' with
  | nil =>
    obtain rfl : [] = cs' := Option.some.inj h
    exact .nil
  | cons c cs ih =>
    obtain ⟨c', rest, hc', hrest, rfl⟩ := advanceAll_cons_eq_some_iff.1 h
    exact .cons (Cursor.advanced_of_advance hc') (ih hrest)

theorem advanceAll_eq_map (h : advanceAll fits cs bound = some cs') :
    cs' = cs.map fun c => c.after bound := by
  induction cs generalizing cs' with
  | nil => exact (Option.some.inj h).symm
  | cons c cs ih =>
    obtain ⟨c', rest, hc', hrest, rfl⟩ := advanceAll_cons_eq_some_iff.1 h
    rw [List.map_cons, ← Cursor.advance_eq_after hc', ← ih hrest]

theorem exists_advanceAll (h : ∀ c ∈ cs, ∃ c', c.advance fits bound = some c') :
    ∃ cs', advanceAll fits cs bound = some cs' := by
  induction cs with
  | nil => exact ⟨[], rfl⟩
  | cons c cs ih =>
    obtain ⟨c', hc'⟩ := h c (by simp)
    obtain ⟨rest, hrest⟩ := ih fun c hc => h c (by simp [hc])
    exact ⟨c' :: rest, advanceAll_cons_eq_some_iff.2 ⟨c', rest, hc', hrest, rfl⟩⟩

/-- Moving finds no new common points. -/
theorem common_of_advanceAll (h : advanceAll fits cs bound = some cs') (hx : Common cs' x) :
    Common cs x := by
  have hadv := advanceAll_eq_some h
  clear h
  induction hadv with
  | nil => simp [Common]
  | cons hc _ ih =>
    obtain ⟨hhit, hrest⟩ := List.forall_mem_cons.1 hx
    exact List.forall_mem_cons.2 ⟨hc.of_hits x hhit, ih hrest⟩

/-- Moving past a bound keeps the common points from the bound on. -/
theorem common_advanceAll (h : advanceAll fits cs bound = some cs') (hbound : bound ≤ x)
    (hx : Common cs x) : Common cs' x := by
  have hadv := advanceAll_eq_some h
  clear h
  induction hadv with
  | nil => simp [Common]
  | cons hc _ ih =>
    obtain ⟨hhit, hrest⟩ := List.forall_mem_cons.1 hx
    exact List.forall_mem_cons.2 ⟨hc.hits x hbound hhit, ih hrest⟩

/-- What holds of every cursor wherever it moves holds after moving. -/
theorem forall_advanceAll {P : Cursor → Prop} (h : advanceAll fits cs bound = some cs')
    (hP : ∀ c c', Cursor.Advanced c c' bound → P c → P c') (hcs : ∀ c ∈ cs, P c) :
    ∀ c ∈ cs', P c := by
  have hadv := advanceAll_eq_some h
  clear h
  induction hadv with
  | nil => simp
  | cons hc _ ih =>
    obtain ⟨hhead, hrest⟩ := List.forall_mem_cons.1 hcs
    exact List.forall_mem_cons.2 ⟨hP _ _ hc hhead, ih hrest⟩

/-- How far the cursors are from a limit. -/
def gap (limit : ℤ) (cs : List Cursor) : ℕ := (cs.map fun c => (limit - c.pos).toNat).sum

theorem gap_le (h : List.Forall₂ (fun c c' => Cursor.Advanced c c' bound) cs cs') (limit : ℤ) :
    gap limit cs' ≤ gap limit cs := by
  induction h with
  | nil => exact le_rfl
  | cons hc _ ih =>
    have hle := hc.le
    simp only [gap, List.map_cons, List.sum_cons] at ih ⊢
    omega

/-- A search makes progress: if an interval ends at or before the bound, which is below the
limit, then moving on brings the cursors closer to the limit. -/
theorem gap_advanceAll_lt {limit : ℤ} (h : advanceAll fits cs bound = some cs')
    (hlimit : bound < limit) {c : Cursor} (hc : c ∈ cs) (hend : c.pos + c.size ≤ bound) :
    gap limit cs' < gap limit cs := by
  have hadv := advanceAll_eq_some h
  clear h
  induction hadv with
  | nil => cases hc
  | cons hd hrest ih =>
    have hsize : (0 : ℤ) < c.size := by exact_mod_cast c.size.pos
    have hle := hd.le
    have hgap := gap_le hrest limit
    simp only [gap, List.map_cons, List.sum_cons] at ih hgap ⊢
    rcases List.mem_cons.1 hc with rfl | hc
    · have := hd.moved hend
      omega
    · have := ih hc
      omega

/-! ## A search with a limit -/

section Limit

/-- The last end that is not after the point. -/
def LastEnd (low : ℤ) (cs : List Cursor) (x e : ℤ) : Prop :=
  IsGreatest {e | (∃ c ∈ cs, c.Ends low e) ∧ e ≤ x} e

/-- The last end before the point is below the limit, and every interval that starts between the
limit and the point has a repetition that ends there. -/
def ComesTo (low limit : ℤ) (cs : List Cursor) (x : ℤ) : Prop :=
  ∀ e, LastEnd low cs x e → e < limit ∧
    ∀ c ∈ cs, ∀ p, c.Starts p → limit ≤ p → p ≤ x → c.Ends low e

/-- The last end before the point is not below the limit; or it is, some interval without an end
there starts between the limit and the point, and those that start between that end and the limit
have one. -/
def StopsBefore (low limit : ℤ) (cs : List Cursor) (x : ℤ) : Prop :=
  ∃ e, LastEnd low cs x e ∧ (limit ≤ e ∨
    (∃ c ∈ cs, (∃ p, c.Starts p ∧ limit ≤ p ∧ p ≤ x) ∧ ¬ c.Ends low e) ∧
    ∀ c ∈ cs, ∀ p, c.Starts p → e ≤ p → p < limit → c.Ends low e)

variable {limit e : ℤ}

theorem LastEnd.le (h : LastEnd low cs x e) {c : Cursor} (hc : c ∈ cs) {p : ℤ} (hp : c.Starts p)
    (hlow : low ≤ x) (hend : p + c.size ≤ x) : max low (p + c.size) ≤ e :=
  h.2 ⟨⟨c, hc, p, hp, rfl⟩, max_le hlow hend⟩

theorem LastEnd.low_le (h : LastEnd low cs x e) : low ≤ e := by
  obtain ⟨⟨⟨c, -, p, -, rfl⟩, -⟩, -⟩ := h
  exact le_max_left _ _

theorem exists_lastEnd {c : Cursor} (hc : c ∈ cs) (hlow : low ≤ x) (hend : c.pos + c.size ≤ x) :
    ∃ e, LastEnd low cs x e := by
  obtain ⟨e, he, hmax⟩ := Int.exists_greatest_of_bdd
    (P := fun e => (∃ c ∈ cs, c.Ends low e) ∧ e ≤ x) ⟨x, fun _ h => h.2⟩
    ⟨max low (c.pos + c.size), ⟨c, hc, c.pos, Cursor.starts_pos, rfl⟩, max_le hlow hend⟩
  exact ⟨e, he, fun z hz => hmax z hz⟩

/-- Moving past a bound keeps a last end that is after it. -/
theorem lastEnd_after (hlow : low ≤ bound) :
    LastEnd low (cs.map fun c => c.after bound) x e ↔ LastEnd low cs x e ∧ bound < e := by
  have hset : {e | (∃ c ∈ cs.map fun c => c.after bound, c.Ends low e) ∧ e ≤ x} =
      {e | ((∃ c ∈ cs, c.Ends low e) ∧ e ≤ x) ∧ bound < e} := by
    ext e
    simp only [List.mem_map, exists_exists_and_eq_and, Cursor.ends_after hlow, Set.mem_ofPred_eq]
    tauto
  rw [LastEnd, LastEnd, hset]
  constructor
  · rintro ⟨⟨he, hlt⟩, hmax⟩
    refine ⟨⟨he, fun z hz => ?_⟩, hlt⟩
    by_cases hz' : bound < z
    · exact hmax ⟨hz, hz'⟩
    · omega
  · rintro ⟨⟨he, hmax⟩, hlt⟩
    exact ⟨⟨he, hlt⟩, fun z hz => hmax hz.1⟩

theorem ComesTo.after (h : ComesTo low limit cs x) (hlow : low ≤ bound) :
    ComesTo low limit (cs.map fun c => c.after bound) x := by
  intro e he
  obtain ⟨he, hlt⟩ := (lastEnd_after hlow).1 he
  obtain ⟨hlimit, hall⟩ := h e he
  refine ⟨hlimit, List.forall_mem_map.2 fun c hc p hp hle hpx => ?_⟩
  exact (Cursor.ends_after hlow).2 ⟨hall c hc p (Cursor.starts_after.1 hp).1 hle hpx, hlt⟩

/-- A search that comes to a point has not given up before it. -/
theorem ComesTo.latest_lt (h : ComesTo low limit cs x) (hlow : low ≤ x)
    (hx : latest low cs ≤ x) {c : Cursor} (hc : c ∈ cs) (hend : c.pos + c.size ≤ x)
    (hlimit : low < limit) : latest low cs < limit := by
  obtain ⟨e, he⟩ := exists_lastEnd hc hlow hend
  obtain ⟨hlt, hall⟩ := h e he
  by_contra hle
  rcases latest_eq low cs with heq | ⟨d, hd, heq⟩
  · omega
  · -- the interval with the latest start would have an end before its first start
    obtain ⟨p, hp, rfl⟩ := hall d hd d.pos Cursor.starts_pos (by omega) (by omega)
    have := hp.pos_le
    have : (0 : ℤ) < d.size := by exact_mod_cast d.size.pos
    have := le_max_right low (p + d.size)
    omega

theorem StopsBefore.after (h : StopsBefore low limit cs x) (hlow : low ≤ bound)
    (hbound : bound < limit) (hlast : ∀ e, LastEnd low cs x e → bound < e) :
    StopsBefore low limit (cs.map fun c => c.after bound) x := by
  obtain ⟨e, he, hor⟩ := h
  have hlt := hlast e he
  refine ⟨e, (lastEnd_after hlow).2 ⟨he, hlt⟩, hor.imp_right ?_⟩
  rintro ⟨⟨c, hc, ⟨p, hp, hle, hpx⟩, hnot⟩, hall⟩
  refine ⟨⟨c.after bound, List.mem_map_of_mem hc, ⟨p, ?_, hle, hpx⟩, ?_⟩, ?_⟩
  · have : (0 : ℤ) < c.size := by exact_mod_cast c.size.pos
    exact Cursor.starts_after.2 ⟨hp, by omega⟩
  · exact fun hends => hnot ((Cursor.ends_after hlow).1 hends).1
  · refine List.forall_mem_map.2 fun d hd q hq hle' hlt' => ?_
    exact (Cursor.ends_after hlow).2 ⟨hall d hd q (Cursor.starts_after.1 hq).1 hle' hlt', hlt⟩

/-- While the latest start is below the limit, it is before the last end before the point. -/
theorem StopsBefore.latest_lt (h : StopsBefore low limit cs x)
    (hsize : ∀ c ∈ cs, (c.size : ℤ) ≤ c.period) (hlow : low ≤ x) (hlt : latest low cs < limit)
    (he : LastEnd low cs x e) : latest low cs < e := by
  obtain ⟨e', he', hor⟩ := h
  obtain rfl := he'.unique he
  rcases hor with hle | ⟨⟨c, hc, ⟨p, hp, hle, hpx⟩, hnot⟩, hall⟩
  · omega
  by_contra hge
  rcases latest_eq low cs with heq | ⟨d, hd, heq⟩
  · -- then the last end is `low`, and the repetition before `p` ends there
    have hpos : c.pos ≤ latest low cs := pos_le_latest hc
    have hpred := hp.pred (by omega)
    have hend : p - c.period + c.size ≤ x := by have := hsize c hc; omega
    have hle' := he.le hc hpred hlow hend
    have := he.low_le
    exact hnot ⟨_, hpred, by omega⟩
  · -- the interval with the latest start would have an end before its first start
    obtain ⟨q, hq, rfl⟩ := hall d hd d.pos Cursor.starts_pos (by omega) (by omega)
    have := hq.pos_le
    have : (0 : ℤ) < d.size := by exact_mod_cast d.size.pos
    have := le_max_right low (q + d.size)
    omega

/-- A point in the first intervals of all cursors has no end before it. -/
theorem not_stopsBefore (hx : ∀ c ∈ cs, x < c.pos + c.size) :
    ¬ StopsBefore low limit cs x := by
  rintro ⟨e, ⟨⟨⟨c, hc, p, hp, rfl⟩, hle⟩, -⟩, -⟩
  have := hx c hc
  have := hp.pos_le
  have := le_max_right low (p + c.size)
  omega

/-- **With at most two cursors, a search comes to a point or has stopped before it.** -/
theorem stopsBefore_or_comesTo (htwo : cs.length ≤ 2) (hsize : ∀ c ∈ cs, (c.size : ℤ) ≤ c.period)
    (hlow : low ≤ x) : StopsBefore low limit cs x ∨ ComesTo low limit cs x := by
  by_contra hnot
  rw [not_or] at hnot
  obtain ⟨hstops, hcomes⟩ := hnot
  refine hcomes fun e he => ?_
  have hlimit : e < limit := not_le.1 fun hle => hstops ⟨e, he, .inl hle⟩
  refine ⟨hlimit, fun c hc p hp hle hpx => by_contra fun hends => hstops ⟨e, he, .inr ?_⟩⟩
  refine ⟨⟨c, hc, ⟨p, hp, hle, hpx⟩, hends⟩, fun d hd q hq heq hlt => ?_⟩
  obtain ⟨f, hf, hfends⟩ := he.1.1
  have hfc : f ≠ c := fun h => hends (h ▸ hfends)
  by_cases hdc : d = c
  · -- the repetition of `c` that starts at `q` would end between `e` and the point
    subst hdc
    have hperiod := hp.period_le hq (by omega)
    have hend := he.le hd hq hlow (by have := hsize d hd; omega)
    have : (0 : ℤ) < d.size := by exact_mod_cast d.size.pos
    have := le_max_right low (q + d.size)
    omega
  · -- the other cursor is the one with the last end
    suffices hdf : d = f from hdf ▸ hfends
    match cs, htwo with
    | [a], _ =>
      simp only [List.mem_singleton] at hc hd
      exact absurd (hd.trans hc.symm) hdc
    | [a, b], _ =>
      simp only [List.mem_cons, List.not_mem_nil, or_false] at hc hd hf
      rcases hc with rfl | rfl <;> rcases hd with rfl | rfl <;> rcases hf with rfl | rfl <;>
        first | rfl | exact absurd rfl hdc | exact absurd rfl hfc

end Limit

end IntervalSearch
