import Mathlib.Data.List.NodupEquivFin
import Mathlib.Data.List.Perm.Basic
import Mathlib.Data.List.Range
import Mathlib.Logic.Equiv.Basic

/-!
# Rearranging the values of finitely many cells

A program that swaps the contents of two cells, or shuffles a list, loses no value and
doubles none.

* `swapCells` — the contents of two cells exchanged; `map_swapCells_perm`: the list of
  all contents is rearranged, nothing else.
* `shuffle` — a list in the order of given indices; `shuffle_perm`: an order that lists
  every index once gives a rearrangement.
* `slice` — the part of a list between two bounds that may count from the end.
* `foldl_eq_self` — a loop whose steps leave the state alone.
-/

namespace Rearrange

variable {ι α : Type*}

/-! ## Swaps -/

section Swaps

variable [DecidableEq ι]

/-- The cells `a` and `b` exchange their contents. -/
def swapCells (cells : ι → α) (a b : ι) : ι → α :=
  fun i => cells (Equiv.swap a b i)

variable {cells : ι → α} {a b : ι}

theorem swapCells_apply (cells : ι → α) (a b i : ι) :
    swapCells cells a b i = if i = a then cells b else if i = b then cells a else cells i := by
  rw [swapCells, Equiv.swap_apply_def]
  split_ifs <;> rfl

@[simp] theorem swapCells_self : swapCells cells a a = cells := by
  funext i
  simp [swapCells]

/-- Among the cells of a list, a swap of two of them rearranges the contents. -/
theorem map_swapCells_perm {l : List ι} (hl : l.Nodup) (ha : a ∈ l) (hb : b ∈ l) :
    (l.map (swapCells cells a b)).Perm (l.map cells) := by
  have hmap : l.map (swapCells cells a b) = (l.map (Equiv.swap a b)).map cells := by
    rw [List.map_map]
    rfl
  have hmem (i : ι) : i ∈ l.map (Equiv.swap a b) ↔ i ∈ l := by
    rw [List.mem_map]
    constructor
    · rintro ⟨j, hj, rfl⟩
      by_cases hja : j = a
      · simpa [hja] using hb
      by_cases hjb : j = b
      · simpa [hjb] using ha
      simpa [Equiv.swap_apply_of_ne_of_ne hja hjb] using hj
    · intro hi
      refine ⟨Equiv.swap a b i, ?_, Equiv.swap_apply_self a b i⟩
      by_cases hia : i = a
      · simpa [hia] using hb
      by_cases hib : i = b
      · simpa [hib] using ha
      simpa [Equiv.swap_apply_of_ne_of_ne hia hib] using hi
  rw [hmap]
  apply List.Perm.map
  exact (List.perm_ext_iff_of_nodup (hl.map (Equiv.swap a b).injective) hl).2 hmem

end Swaps

/-! ## Shuffles -/

/-- The elements of a list in the order of the given indices. -/
def shuffle (order : List ℕ) (l : List α) : List α :=
  order.filterMap fun i => l[i]?

theorem shuffle_range (l : List α) : shuffle (List.range l.length) l = l := by
  induction l using List.reverseRecOn with
  | nil => rfl
  | append_singleton l x ih =>
    have hprefix : (List.range l.length).filterMap (fun i => (l ++ [x])[i]?) =
        (List.range l.length).filterMap fun i => l[i]? := by
      apply List.filterMap_congr
      intro i hi
      rw [List.getElem?_append_left (List.mem_range.1 hi)]
    have hlast : (l ++ [x])[l.length]? = some x := by simp
    rw [shuffle, List.length_append, List.length_singleton, List.range_succ,
      List.filterMap_append, hprefix]
    simp only [List.filterMap_cons, hlast, List.filterMap_nil]
    rw [← shuffle, ih]

/-- An order that lists every index once rearranges the list. -/
theorem shuffle_perm {order : List ℕ} {l : List α} (h : order.Perm (List.range l.length)) :
    (shuffle order l).Perm l :=
  (h.filterMap _).trans (List.Perm.of_eq (shuffle_range l))

/-- A rearrangement of an image is the image of a rearrangement. -/
theorem exists_map_of_perm_map {β : Type*} {f : β → α} {l : List α} {l' : List β}
    (h : l.Perm (l'.map f)) : ∃ source : List β, l = source.map f ∧ source.Perm l' := by
  have hcomp := congrFun (congrFun (List.eq_map_comp_perm f) l) l'
  rw [← hcomp] at h
  exact h

/-! ## Slices -/

/-- Where a slice bound falls in a list of length `n`: a negative bound counts from the
end, and both ends are clamped. -/
def sliceBound (n : ℕ) (i : ℤ) : ℕ :=
  (if i < 0 then max (i + n) 0 else min i n).toNat

/-- `l[start:stop]`. -/
def slice (l : List α) (start stop : ℤ) : List α :=
  (l.take (sliceBound l.length stop)).drop (sliceBound l.length start)

theorem sliceBound_natCast {n i : ℕ} (h : i ≤ n) : sliceBound n i = i := by
  rw [sliceBound, if_neg (by omega)]
  omega

theorem sliceBound_neg {n i : ℕ} (hi : 0 < i) (h : i ≤ n) : sliceBound n (-i) = n - i := by
  rw [sliceBound, if_pos (by omega)]
  omega

section Slices

variable {l : List α} {c : ℕ}

/-- `l[:c]`. -/
theorem slice_front (h : c ≤ l.length) : slice l 0 c = l.take c := by
  have h0 : sliceBound l.length 0 = 0 := sliceBound_natCast (Nat.zero_le _)
  rw [slice, sliceBound_natCast h, h0, List.drop_zero]

/-- `l[-c:]`. -/
theorem slice_back (hc : 0 < c) (h : c ≤ l.length) :
    slice l (-c) l.length = l.drop (l.length - c) := by
  rw [slice, sliceBound_natCast le_rfl, sliceBound_neg hc h, List.take_length]

/-- `l[c:-c]`. -/
theorem slice_middle (hc : 0 < c) (h : c ≤ l.length) :
    slice l c (-c) = (l.take (l.length - c)).drop c := by
  rw [slice, sliceBound_natCast h, sliceBound_neg hc h]

end Slices

/-! ## Loops -/

/-- A loop whose steps leave the state alone. -/
theorem foldl_eq_self {σ : Type*} {step : σ → α → σ} {s : σ} {l : List α}
    (h : ∀ x ∈ l, step s x = s) : l.foldl step s = s := by
  induction l with
  | nil => rfl
  | cons x l ih =>
    rw [List.foldl_cons, h x List.mem_cons_self]
    exact ih fun y hy => h y (List.mem_cons_of_mem x hy)

end Rearrange
