import Mathlib.Data.List.Basic
import Mathlib.Data.List.Perm.Basic

/-!
# Operations whose order does not matter

Writers that work in parallel, and that repeat a write which may have failed, apply the same
operations in different orders and numbers.

* `foldl_eq_of_mem_iff` — operations that commute with each other, and that can be repeated, lead
  to a state that only depends on which operations there are.
-/

namespace Commuting

variable {S E : Type*} {f : S → E → S} {l l' : List E}

/-- The operations of a list commute with each other. -/
def Commute (f : S → E → S) (l : List E) : Prop :=
  ∀ a ∈ l, ∀ b ∈ l, ∀ s, f (f s a) b = f (f s b) a

/-- A second time, an operation of the list does nothing. -/
def Repeatable (f : S → E → S) (l : List E) : Prop := ∀ a ∈ l, ∀ s, f (f s a) a = f s a

theorem Commute.mono (h : Commute f l) (hsub : l' ⊆ l) : Commute f l' :=
  fun a ha b hb => h a (hsub ha) b (hsub hb)

theorem Repeatable.mono (h : Repeatable f l) (hsub : l' ⊆ l) : Repeatable f l' :=
  fun a ha => h a (hsub ha)

/-- An operation that comes later anyway need not come first. -/
theorem foldl_absorb (hcomm : Commute f l) (hrep : Repeatable f l) {a : E} (ha : a ∈ l) (s : S) :
    l.foldl f (f s a) = l.foldl f s := by
  induction l generalizing s with
  | nil => cases ha
  | cons b l ih =>
    rw [List.foldl_cons, List.foldl_cons]
    rcases List.mem_cons.mp ha with rfl | ha'
    · rw [hrep a ha]
    · rw [hcomm a ha b List.mem_cons_self]
      exact ih (hcomm.mono (List.subset_cons_self b l))
        (hrep.mono (List.subset_cons_self b l)) ha' _

theorem foldl_absorb_all (hcomm : Commute f l) (hrep : Repeatable f l) (hsub : l' ⊆ l) (s : S) :
    l.foldl f (l'.foldl f s) = l.foldl f s := by
  induction l' generalizing s with
  | nil => rfl
  | cons a l' ih =>
    rw [List.foldl_cons, ih (List.Subset.trans (List.subset_cons_self a l') hsub)]
    exact foldl_absorb hcomm hrep (hsub List.mem_cons_self) s

/-- **Only the set of the operations matters.** -/
theorem foldl_eq_of_mem_iff (hcomm : Commute f l) (hrep : Repeatable f l)
    (hmem : ∀ a, a ∈ l' ↔ a ∈ l) (s : S) : l'.foldl f s = l.foldl f s := by
  have hsub : l' ⊆ l := fun a ha => (hmem a).mp ha
  have hsub' : l ⊆ l' := fun a ha => (hmem a).mpr ha
  have hboth : Commute f (l' ++ l) := hcomm.mono (by simp [hsub])
  calc
    l'.foldl f s = l'.foldl f (l.foldl f s) :=
      (foldl_absorb_all (hcomm.mono hsub) (hrep.mono hsub) hsub' s).symm
    _ = (l ++ l').foldl f s := (List.foldl_append ..).symm
    _ = (l' ++ l).foldl f s :=
      (List.perm_append_comm.foldl_eq' (fun a ha b hb s => (hboth b hb a ha s).symm) s).symm
    _ = l.foldl f (l'.foldl f s) := List.foldl_append ..
    _ = l.foldl f s := foldl_absorb_all hcomm hrep hsub s

end Commuting
