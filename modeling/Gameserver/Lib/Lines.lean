import Mathlib.Data.List.Basic

/-!
# The lines of a stream

A stream is read one element at a time; an element `sep` ends a line.

* `terminated` — the lines that have been ended.
* `unterminated` — what has come after the last separator.
* `terminated_snoc_sep`, `terminated_snoc_of_ne`, … — what one more element does to them.
-/

namespace Lines

variable {α : Type*} [BEq α]

/-- The lines that end with a separator. -/
def terminated (sep : α) (s : List α) : List (List α) := (s.splitOn sep).dropLast

/-- What follows the last separator. -/
def unterminated (sep : α) (s : List α) : List α :=
  (s.splitOn sep).getLast (List.splitOn_ne_nil sep s)

@[simp] theorem terminated_nil (sep : α) : terminated sep [] = [] := by
  simp [terminated, List.splitOn_nil]

@[simp] theorem unterminated_nil (sep : α) : unterminated sep [] = [] := by
  simp [unterminated, List.splitOn_nil]

theorem terminated_append_unterminated (sep : α) (s : List α) :
    terminated sep s ++ [unterminated sep s] = s.splitOn sep :=
  List.dropLast_append_getLast _

variable [LawfulBEq α] {sep x : α}

theorem splitOn_snoc_sep (s : List α) : (s ++ [sep]).splitOn sep = s.splitOn sep ++ [[]] := by
  rw [List.splitOn_append_cons_self, List.splitOn_nil]

/-- An element that is no separator goes to the last piece. -/
theorem exists_splitOn_snoc (h : x ≠ sep) (s : List α) :
    ∃ pieces last, s.splitOn sep = pieces ++ [last] ∧
      (s ++ [x]).splitOn sep = pieces ++ [last ++ [x]] := by
  induction s with
  | nil =>
    refine ⟨[], [], by rw [List.splitOn_nil]; rfl, ?_⟩
    exact List.splitOn_eq_singleton (by simpa using h.symm)
  | cons y s ih =>
    obtain ⟨pieces, last, hs, hsx⟩ := ih
    rw [List.cons_append, List.splitOn_cons_eq_if_modifyHead, List.splitOn_cons_eq_if_modifyHead,
      hs, hsx]
    by_cases hy : (y == sep) = true
    · exact ⟨[] :: pieces, last, by simp [hy], by simp [hy]⟩
    · cases pieces with
      | nil => exact ⟨[], y :: last, by simp [hy], by simp [hy]⟩
      | cons piece pieces => exact ⟨(y :: piece) :: pieces, last, by simp [hy], by simp [hy]⟩

theorem splitOn_snoc_of_ne (h : x ≠ sep) (s : List α) :
    (s ++ [x]).splitOn sep = terminated sep s ++ [unterminated sep s ++ [x]] := by
  obtain ⟨pieces, last, hs, hsx⟩ := exists_splitOn_snoc h s
  simp only [hsx, terminated, unterminated, hs, List.dropLast_concat, List.getLast_append_singleton]

theorem terminated_snoc_sep (s : List α) :
    terminated sep (s ++ [sep]) = terminated sep s ++ [unterminated sep s] := by
  rw [terminated, splitOn_snoc_sep, List.dropLast_concat, terminated_append_unterminated]

theorem unterminated_snoc_sep (s : List α) : unterminated sep (s ++ [sep]) = [] := by
  simp only [unterminated, splitOn_snoc_sep, List.getLast_append_singleton]

theorem terminated_snoc_of_ne (h : x ≠ sep) (s : List α) :
    terminated sep (s ++ [x]) = terminated sep s := by
  rw [terminated, splitOn_snoc_of_ne h, List.dropLast_concat]

theorem unterminated_snoc_of_ne (h : x ≠ sep) (s : List α) :
    unterminated sep (s ++ [x]) = unterminated sep s ++ [x] := by
  simp only [unterminated, splitOn_snoc_of_ne h, List.getLast_append_singleton]

end Lines
