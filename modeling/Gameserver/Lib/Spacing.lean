import Mathlib.Algebra.Order.Group.Defs
import Mathlib.Data.List.Chain
import Mathlib.Order.Lattice

/-!
# Events with a gap between them

Events come in at some times and are to go out in order, with a gap between any two of them.

* `Feasible` — times at which they can go out.
* `earliest` — every event goes out as soon as it can.
* `earliest_feasible`, `earliest_le` — **the earliest times are feasible, and no feasible times
  are earlier**.
* `length_nsmul_lt` — how many events a window can hold.
-/

namespace Spacing

variable {T : Type*} [LinearOrder T] [AddCommGroup T] [IsOrderedAddMonoid T]

/-- Times after those of the arrivals, with a gap between them; `last` is the time before. -/
structure Feasible (gap last : T) (arrivals times : List T) : Prop where
  arrived : List.Forall₂ (· ≤ ·) arrivals times
  spaced : List.IsChain (fun s t => s + gap ≤ t) (last :: times)

/-- Every event goes out as soon as it can. -/
def earliest (gap : T) : T → List T → List T
  | _, [] => []
  | last, arrival :: arrivals =>
    max arrival (last + gap) :: earliest gap (max arrival (last + gap)) arrivals

variable {gap last : T} {arrivals times : List T}

omit [IsOrderedAddMonoid T] in
theorem earliest_feasible (gap last : T) (arrivals : List T) :
    Feasible gap last arrivals (earliest gap last arrivals) := by
  induction arrivals generalizing last with
  | nil => exact ⟨.nil, .singleton last⟩
  | cons arrival arrivals ih =>
    have hrest := ih (max arrival (last + gap))
    exact ⟨.cons (le_max_left _ _) hrest.arrived, .cons_cons (le_max_right _ _) hrest.spaced⟩

/-- The earliest times after an earlier start. -/
theorem earliest_le_of_le {last' : T} (hlast : last ≤ last')
    (h : Feasible gap last' arrivals times) :
    List.Forall₂ (· ≤ ·) (earliest gap last arrivals) times := by
  obtain ⟨harrived, hspaced⟩ := h
  induction harrived generalizing last last' with
  | nil => exact .nil
  | cons harrival hrest ih =>
    rw [List.isChain_cons_cons] at hspaced
    have hgap := (add_le_add_left hlast gap).trans hspaced.1
    have hfirst := max_le harrival hgap
    exact .cons hfirst (ih hfirst hspaced.2)

/-- **No feasible times are earlier.** -/
theorem earliest_le (h : Feasible gap last arrivals times) :
    List.Forall₂ (· ≤ ·) (earliest gap last arrivals) times :=
  earliest_le_of_le le_rfl h

/-! ## The load of a window -/

/-- The last time is as far from the first as the gaps in between. -/
theorem exists_nsmul_le {first : T}
    (h : (first :: times).Pairwise fun s t => s + gap ≤ t) :
    ∃ t ∈ first :: times, first + times.length • gap ≤ t := by
  induction times generalizing first with
  | nil => exact ⟨first, List.mem_singleton_self first, by simp⟩
  | cons second times ih =>
    obtain ⟨hfirst, hrest⟩ := List.pairwise_cons.1 h
    obtain ⟨t, ht, hle⟩ := ih hrest
    refine ⟨t, List.mem_cons_of_mem first ht, ?_⟩
    calc first + (second :: times).length • gap
        = first + gap + times.length • gap := by
          rw [List.length_cons, succ_nsmul', add_assoc]
      _ ≤ second + times.length • gap := by
          gcongr
          exact hfirst second List.mem_cons_self
      _ ≤ t := hle

/-- **Events in a window** are at most one more than gaps fit into it. -/
theorem length_nsmul_lt {window : T} (h : times.Pairwise fun s t => s + gap ≤ t)
    (hwindow : ∀ s ∈ times, ∀ t ∈ times, t < s + window) (hne : times ≠ []) :
    times.length • gap < window + gap := by
  cases times with
  | nil => exact absurd rfl hne
  | cons first times =>
    obtain ⟨t, ht, hle⟩ := exists_nsmul_le h
    have hlt := hle.trans_lt (hwindow first List.mem_cons_self t ht)
    rw [List.length_cons, succ_nsmul]
    gcongr
    exact (add_lt_add_iff_left first).1 hlt

end Spacing
