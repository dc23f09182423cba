import Mathlib.Data.Set.Card

/-!
# How many parties are in a state

Any number of parties have a state each, and one of them moves at a time.

* `population p f` — how many parties are in a state with property `p`.
* `population_update` — what a move does to it.
* `FewBusy` — all but finitely many parties are at rest, before and after a move.
-/

namespace Parties

variable {ι α : Type*} {p : α → Prop} {f : ι → α} {rest : α}

/-- How many parties are in a state with this property. -/
noncomputable def population (p : α → Prop) (f : ι → α) : ℕ := {i | p (f i)}.ncard

/-- All but finitely many parties are at rest. -/
def FewBusy (rest : α) (f : ι → α) : Prop := {i | f i ≠ rest}.Finite

theorem fewBusy_const (rest : α) : FewBusy rest fun _ : ι => rest := by
  simp [FewBusy]

theorem FewBusy.finite (h : FewBusy rest f) (hrest : ¬ p rest) : {i | p (f i)}.Finite := by
  refine h.subset fun i hi heq => hrest ?_
  rw [← heq]
  exact hi

/-- Nobody is left in such a state, if all are at rest. -/
theorem population_eq_zero (h : ∀ i, f i = rest) (hrest : ¬ p rest) : population p f = 0 := by
  simp [population, h, hrest]

variable [DecidableEq ι]

theorem FewBusy.update (h : FewBusy rest f) (i : ι) (a : α) :
    FewBusy rest (Function.update f i a) := by
  refine (h.insert i).subset fun j hj => ?_
  by_cases hji : j = i
  · exact .inl hji
  · exact .inr (by simpa [Function.update_of_ne hji] using hj)

variable [DecidablePred p]

/-- One party, and all others. -/
theorem population_eq_add (hfin : {i | p (f i)}.Finite) (i : ι) :
    population p f = {j | j ≠ i ∧ p (f j)}.ncard + if p (f i) then 1 else 0 := by
  have hothers : {j | j ≠ i ∧ p (f j)}.Finite := hfin.subset fun j hj => hj.2
  by_cases hi : p (f i)
  · have hinsert : {j | p (f j)} = insert i {j | j ≠ i ∧ p (f j)} := by
      ext j
      by_cases hji : j = i <;> simp [hji, hi]
    rw [population, hinsert, Set.ncard_insert_of_notMem (by simp) hothers, if_pos hi]
  · have hsame : {j | p (f j)} = {j | j ≠ i ∧ p (f j)} := by
      ext j
      by_cases hji : j = i <;> simp [hji, hi]
    rw [population, hsame, if_neg hi, Nat.add_zero]

/-- **One party moves.** -/
theorem population_update (h : FewBusy rest f) (hrest : ¬ p rest) (i : ι) (a : α) :
    population p (Function.update f i a) + (if p (f i) then 1 else 0) =
      population p f + if p a then 1 else 0 := by
  have hothers : {j | j ≠ i ∧ p (Function.update f i a j)} = {j | j ≠ i ∧ p (f j)} := by
    ext j
    by_cases hji : j = i <;> simp [hji]
  rw [population_eq_add ((h.update i a).finite hrest) i, population_eq_add (h.finite hrest) i,
    hothers, Function.update_self]
  omega

end Parties
