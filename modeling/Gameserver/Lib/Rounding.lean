import Mathlib.Data.Int.Basic

/-!
# Rounding a quotient

`roundDiv a b` is the integer nearest to `a / b`, and the even one of two that are as near.
-/

namespace Rounding

/-- The integer nearest to `a / b`; of two nearest integers the even one. -/
def roundDiv (a b : ℤ) : ℤ :=
  let q := a / b
  if 2 * (a % b) < b then q
  else if b < 2 * (a % b) then q + 1
  else if q % 2 = 0 then q else q + 1

example : [1, 3, 4, 5, 7, -1].map (roundDiv · 2) = [0, 2, 2, 2, 4, 0] := by decide

end Rounding
