import Mathlib.Algebra.BigOperators.Intervals
import Mathlib.Order.Monotone.Basic

/-!
# Charges whose earlier part is recomputed

Something is charged for in instalments.  The total due depends on a count that grows
over time and on a parameter of the moment; what was charged earlier is not stored but
recomputed, from the count of before and the parameter of now.

* `charged` — the sum of the instalments.
* `Consecutive` — two instalments without one between them.
* `recomputed_iff` — the recomputed part is what was charged, at every instalment, if and
  only if the parameters of consecutive instalments give the same cost.
* `charged_last` — then what has been charged in the end is the total due.
* `forall_consecutive_iff` — a property of consecutive instalments that is an equality holds
  between any two.
-/

namespace Recomputed

variable {P M : Type*} [AddCommGroup M] (cost : ℕ → P → M) (count : ℕ → ℕ) (param : ℕ → P)

/-- The instalment from one moment to the next. -/
def charge (t : ℕ) : M := cost (count (t + 1)) (param (t + 1)) - cost (count t) (param (t + 1))

/-- All instalments so far. -/
def charged (t : ℕ) : M := ∑ u ∈ Finset.range t, charge cost count param u

/-- Does the count grow? -/
def Grows (t : ℕ) : Prop := count t < count (t + 1)

instance (t : ℕ) : Decidable (Grows count t) := Nat.decLt _ _

/-- The count grows at both moments and not in between. -/
structure Consecutive (u v : ℕ) : Prop where
  lt : u < v
  first : Grows count u
  second : Grows count v
  between : ∀ w, u < w → w < v → ¬ Grows count w

variable {cost count param}

theorem charged_succ (t : ℕ) :
    charged cost count param (t + 1) = charged cost count param t + charge cost count param t :=
  Finset.sum_range_succ _ _

section Growth

variable (hmono : Monotone count)

include hmono

theorem count_succ_of_not_grows {t : ℕ} (h : ¬ Grows count t) : count (t + 1) = count t :=
  le_antisymm (not_lt.1 h) (hmono (Nat.le_succ t))

theorem charge_of_not_grows {t : ℕ} (h : ¬ Grows count t) : charge cost count param t = 0 := by
  rw [charge, count_succ_of_not_grows hmono h, sub_self]

theorem count_eq_of_not_grows {s t : ℕ} (hst : s ≤ t)
    (h : ∀ w, s ≤ w → w < t → ¬ Grows count w) : count t = count s := by
  induction t, hst using Nat.le_induction with
  | base => rfl
  | succ t hst ih =>
    rw [count_succ_of_not_grows hmono (h t hst (Nat.lt_succ_self t))]
    exact ih fun w hw hwt => h w hw (by omega)

theorem charged_eq_of_not_grows {s t : ℕ} (hst : s ≤ t)
    (h : ∀ w, s ≤ w → w < t → ¬ Grows count w) :
    charged cost count param t = charged cost count param s := by
  induction t, hst using Nat.le_induction with
  | base => rfl
  | succ t hst ih =>
    rw [charged_succ, charge_of_not_grows hmono (h t hst (Nat.lt_succ_self t)), add_zero]
    exact ih fun w hw hwt => h w hw (by omega)

/-- Between consecutive instalments the count and what has been charged stay. -/
theorem Consecutive.count_eq {u v : ℕ} (h : Consecutive count u v) : count v = count (u + 1) :=
  count_eq_of_not_grows hmono h.lt fun w hw hwv => h.between w hw hwv

theorem Consecutive.charged_eq {u v : ℕ} (h : Consecutive count u v) :
    charged cost count param v = charged cost count param (u + 1) :=
  charged_eq_of_not_grows hmono h.lt fun w hw hwv => h.between w hw hwv

/-- While nothing has been counted, nothing has been charged. -/
theorem charged_of_count_eq_zero {t : ℕ} (h : count t = 0) : charged cost count param t = 0 := by
  have hnot : ∀ w, 0 ≤ w → w < t → ¬ Grows count w := by
    intro w _ hwt hgrows
    have hle : count (w + 1) ≤ count t := hmono hwt
    rw [Grows] at hgrows
    omega
  rw [charged_eq_of_not_grows hmono (Nat.zero_le t) hnot]
  rfl

variable (hcount : count 0 = 0)

include hcount

/-- Something that has been counted was charged for in a last instalment. -/
theorem exists_last_instalment {t : ℕ} (hpos : 0 < count t) :
    ∃ u < t, Grows count u ∧ ∀ w, u < w → w < t → ¬ Grows count w := by
  induction t with
  | zero => omega
  | succ t ih =>
    by_cases hgrows : Grows count t
    · exact ⟨t, Nat.lt_succ_self t, hgrows, fun w hw hwt => by omega⟩
    · rw [count_succ_of_not_grows hmono hgrows] at hpos
      obtain ⟨u, hu, hgu, hlast⟩ := ih hpos
      refine ⟨u, by omega, hgu, fun w hw hwt => ?_⟩
      rcases Nat.lt_succ_iff_lt_or_eq.1 hwt with hlt | rfl
      · exact hlast w hw hlt
      · exact hgrows

theorem exists_consecutive {v : ℕ} (hv : Grows count v) (hpos : 0 < count v) :
    ∃ u, Consecutive count u v := by
  obtain ⟨u, hu, hgu, hlast⟩ := exists_last_instalment hmono hcount hpos
  exact ⟨u, hu, hgu, hv, hlast⟩

/-- An equality between any two consecutive instalments holds between any two. -/
theorem forall_consecutive_iff {Q : Type*} (value : ℕ → Q) (T : ℕ) :
    (∀ v < T, ∀ u, Consecutive count u v → value u = value v) ↔
      ∀ u < T, ∀ v < T, Grows count u → Grows count v → value u = value v := by
  constructor
  · intro h
    have hlt : ∀ v < T, ∀ u < v, Grows count u → Grows count v → value u = value v := by
      intro v
      induction v using Nat.strong_induction_on with
      | _ v ih =>
        intro hv u huv hgu hgv
        have hle : count (u + 1) ≤ count v := hmono huv
        obtain ⟨w, hw⟩ := exists_consecutive hmono hcount hgv
          ((Nat.zero_le _).trans_lt hgu |>.trans_le hle)
        rw [← h v hv w hw]
        -- the instalment before `v` is not earlier than `u`
        rcases lt_trichotomy u w with huw | rfl | hwu
        · exact ih w hw.lt (hw.lt.trans hv) u huw hgu hw.first
        · rfl
        · exact absurd hgu (hw.between u hwu huv)
    intro u hu v hv hgu hgv
    rcases lt_trichotomy u v with huv | rfl | hvu
    · exact hlt v hv u huv hgu hgv
    · rfl
    · exact (hlt u hu v hvu hgv hgu).symm
  · intro h v hv u huv
    exact h u (huv.lt.trans hv) v hv huv.first huv.second

end Growth

/-! ## Is what was charged the recomputed part? -/

variable (cost count param) in
/-- The recomputed part is what was charged, at every instalment but the first. -/
def IsRecomputed (T : ℕ) : Prop :=
  ∀ t < T, Grows count t → 0 < count t →
    cost (count t) (param (t + 1)) = charged cost count param t

variable (cost count param) in
/-- What the first of two consecutive instalments leaves uncharged. -/
def uncharged (u : ℕ) : M := if count u = 0 then cost 0 (param (u + 1)) else 0

section Iff

variable (hcount : count 0 = 0) (hmono : Monotone count)

include hmono

/-- What has been charged after an instalment, if the recomputed part was right so far. -/
theorem charged_after {T u : ℕ} (h : IsRecomputed cost count param T) (hu : u < T)
    (hgrows : Grows count u) :
    charged cost count param (u + 1) =
      cost (count (u + 1)) (param (u + 1)) - uncharged cost count param u := by
  rw [charged_succ, charge, uncharged]
  by_cases hzero : count u = 0
  · rw [if_pos hzero, charged_of_count_eq_zero hmono hzero, hzero, zero_add]
  · rw [if_neg hzero, ← h u hu hgrows (Nat.pos_of_ne_zero hzero), sub_zero, add_sub_cancel]

include hcount

/-- **The recomputed part is what was charged if and only if the parameters of consecutive
instalments give the same cost**, up to what the first one leaves uncharged. -/
theorem recomputed_iff (T : ℕ) :
    IsRecomputed cost count param T ↔
      ∀ v < T, ∀ u, Consecutive count u v →
        cost (count v) (param (v + 1)) =
          cost (count v) (param (u + 1)) - uncharged cost count param u := by
  constructor
  · intro h v hv u huv
    have hpos : 0 < count v := by
      rw [huv.count_eq hmono]
      exact (Nat.zero_le _).trans_lt huv.first
    rw [h v hv huv.second hpos, huv.charged_eq hmono,
      charged_after hmono h (huv.lt.trans hv) huv.first, huv.count_eq hmono]
  · intro h t
    -- by induction on the instalments: the one before `t` was right
    induction t using Nat.strong_induction_on with
    | _ t ih =>
      intro ht hgrows hpos
      obtain ⟨u, hu⟩ := exists_consecutive hmono hcount hgrows hpos
      have hbefore : IsRecomputed cost count param t := fun s hs => ih s hs (hs.trans ht)
      rw [h t ht u hu, hu.charged_eq hmono, charged_after hmono hbefore hu.lt hu.first,
        hu.count_eq hmono]

omit hcount in
/-- Then what has been charged in the end is the total due of the last instalment, but for
what that one leaves uncharged. -/
theorem charged_last {T t : ℕ} (h : IsRecomputed cost count param T) (ht : t < T)
    (hgrows : Grows count t) (hlast : ∀ u < T, t < u → ¬ Grows count u) :
    charged cost count param T =
      cost (count (t + 1)) (param (t + 1)) - uncharged cost count param t := by
  rw [charged_eq_of_not_grows hmono (show t + 1 ≤ T from ht) fun w hw hwT => hlast w hwT hw]
  exact charged_after hmono h ht hgrows

end Iff

end Recomputed
