import Mathlib.Algebra.BigOperators.Group.Finset.Basic
import Mathlib.Data.Nat.ModEq

/-!
# Addition with an end-around carry

The arithmetic of one's complement words: the words up to `m`, where a carry out of the
highest digit is added to the lowest one.  The Internet checksum is such a sum with
`m = 0xffff`.

* `add`, `compl`, `sum` — addition, complement, and the sum of a list.
* `add_modEq`, `sum_modEq` — an addition is one modulo `m`.
* `sum_eq_max_iff` — **when a list sums up to `m`**, which is how a checksum verifies.
* `replace`, `replace_modEq` — the checksum after one word has been replaced by another,
  without the other words; `dvd_sum_replace` — **it verifies exactly when the old one did**.
* `checksum_unique` — the other words determine a checksum below `m`.
-/

namespace OnesComplement

variable {m a b : ℕ}

/-! ## Addition -/

/-- Addition with an end-around carry. -/
def add (m a b : ℕ) : ℕ := if a + b ≤ m then a + b else a + b - m

/-- The complement of a word. -/
def compl (m a : ℕ) : ℕ := m - a

theorem add_le (ha : a ≤ m) (hb : b ≤ m) : add m a b ≤ m := by
  unfold add
  split <;> omega

theorem add_modEq (m a b : ℕ) : add m a b ≡ a + b [MOD m] := by
  unfold add
  split
  · rfl
  · next hcarry =>
    have hsplit : a + b = a + b - m + m := by omega
    conv_rhs => rw [hsplit]
    exact (Nat.add_modEq_right).symm

/-- Zero is no carry: only zeros add up to it. -/
theorem add_eq_zero_iff : add m a b = 0 ↔ a = 0 ∧ b = 0 := by
  unfold add
  split <;> omega

theorem compl_le : compl m a ≤ m := Nat.sub_le m a

theorem add_compl (ha : a ≤ m) : a + compl m a = m := Nat.add_sub_of_le ha

/-- A word above zero is known from its residue. -/
theorem eq_of_modEq (h : a ≡ b [MOD m]) (ha : a ≤ m) (hb : b ≤ m) (ha' : 0 < a) (hb' : 0 < b) :
    a = b := by
  rcases Nat.lt_or_ge a m with halt | hage <;> rcases Nat.lt_or_ge b m with hblt | hbge
  · exact Nat.ModEq.eq_of_lt_of_lt h halt hblt
  · have hbm : b = m := le_antisymm hb hbge
    subst hbm
    have hzero : a % b = 0 := by simpa [Nat.ModEq] using h
    rw [Nat.mod_eq_of_lt halt] at hzero
    omega
  · have ham : a = m := le_antisymm ha hage
    subst ham
    have hzero : b % a = 0 := by simpa [Nat.ModEq] using h.symm
    rw [Nat.mod_eq_of_lt hblt] at hzero
    omega
  · omega

/-! ## Sums -/

/-- The sum of a list of words. -/
def sum (m : ℕ) : List ℕ → ℕ
  | [] => 0
  | word :: words => add m word (sum m words)

theorem sum_le {words : List ℕ} (h : ∀ word ∈ words, word ≤ m) : sum m words ≤ m := by
  induction words with
  | nil => exact Nat.zero_le m
  | cons word words ih =>
    exact add_le (h word (by simp)) (ih fun w hw => h w (by simp [hw]))

theorem sum_modEq (m : ℕ) (words : List ℕ) : sum m words ≡ words.sum [MOD m] := by
  induction words with
  | nil => rfl
  | cons word words ih =>
    rw [List.sum_cons]
    exact (add_modEq m word _).trans (ih.add_left word)

theorem sum_eq_zero_iff {words : List ℕ} : sum m words = 0 ↔ ∀ word ∈ words, word = 0 := by
  induction words with
  | nil => simp [sum]
  | cons word words ih => simp [sum, add_eq_zero_iff, ih]

/-- **Verifying a checksum.**  Words that are not all zero sum up to the largest word exactly
when it divides their plain sum. -/
theorem sum_eq_max_iff {words : List ℕ} (h : ∀ word ∈ words, word ≤ m)
    (hpos : ∃ word ∈ words, 0 < word) : sum m words = m ↔ m ∣ words.sum := by
  have hmod := sum_modEq m words
  have hle := sum_le h
  have hne : sum m words ≠ 0 := by
    intro hzero
    obtain ⟨word, hmem, hword⟩ := hpos
    have := sum_eq_zero_iff.mp hzero word hmem
    omega
  constructor
  · intro hmax
    rw [hmax] at hmod
    exact (Nat.modEq_zero_iff_dvd).mp (hmod.symm.trans (by simp [Nat.ModEq]))
  · intro hdvd
    have hm : m ≡ sum m words [MOD m] :=
      ((Nat.modEq_zero_iff_dvd).mpr dvd_rfl).trans
        ((hmod.trans ((Nat.modEq_zero_iff_dvd).mpr hdvd)).symm)
    exact (eq_of_modEq hm le_rfl hle (by omega) (by omega)).symm

/-! ## Replacing a word -/

/-- The checksum after a word of the data has changed from `old` to `new`. -/
def replace (m check old new : ℕ) : ℕ :=
  compl m (add m (add m (compl m check) (compl m old)) new)

variable {check old new : ℕ}

theorem replace_le : replace m check old new ≤ m := compl_le

/-- The checksum and the word together keep their residue. -/
theorem replace_modEq (hcheck : check ≤ m) (hold : old ≤ m) (hnew : new ≤ m) :
    replace m check old new + new ≡ check + old [MOD m] := by
  let inner := add m (compl m check) (compl m old)
  let outer := add m inner new
  have hinner : inner ≤ m := add_le compl_le compl_le
  have houter : outer ≤ m := add_le hinner hnew
  have hsum : outer ≡ compl m check + compl m old + new [MOD m] :=
    (add_modEq m inner new).trans ((add_modEq m _ _).add_right new)
  have hreplace : replace m check old new + outer = m := by
    rw [Nat.add_comm]
    exact add_compl houter
  -- both sides agree after adding `outer`, which is `new` less `check` and `old`
  refine Nat.ModEq.add_right_cancel' outer ?_
  calc
    replace m check old new + new + outer = m + new := by omega
    _ ≡ m + m + new [MOD m] := by simp [Nat.ModEq, Nat.add_assoc]
    _ = (check + old) + (compl m check + compl m old + new) := by
      have h₁ := add_compl hcheck
      have h₂ := add_compl hold
      omega
    _ ≡ (check + old) + outer [MOD m] := hsum.symm.add_left _

/-- A word that is not zero leaves a checksum that is not the largest one: each residue is
written in one way. -/
theorem replace_lt (hm : 0 < m) (hnew : 0 < new) : replace m check old new < m := by
  have hpos : add m (add m (compl m check) (compl m old)) new ≠ 0 := by
    simp [add_eq_zero_iff]
    omega
  unfold replace compl at *
  omega

/-- Two entries of a table have changed. -/
theorem sum_changed_two {n i j : ℕ} {f g : ℕ → ℕ} (hi : i < n) (hj : j < n) (hij : i ≠ j)
    (h : ∀ k, k ≠ i → k ≠ j → g k = f k) :
    (∑ k ∈ Finset.range n, g k) + f i + f j = (∑ k ∈ Finset.range n, f k) + g i + g j := by
  have hjmem : j ∈ (Finset.range n).erase i := by simp [hj, hij.symm]
  have hf := Finset.add_sum_erase (Finset.range n) f (Finset.mem_range.mpr hi)
  have hf' := Finset.add_sum_erase _ f hjmem
  have hg := Finset.add_sum_erase (Finset.range n) g (Finset.mem_range.mpr hi)
  have hg' := Finset.add_sum_erase _ g hjmem
  have hrest : ∑ k ∈ ((Finset.range n).erase i).erase j, g k =
      ∑ k ∈ ((Finset.range n).erase i).erase j, f k := by
    refine Finset.sum_congr rfl fun k hk => ?_
    simp only [Finset.mem_erase] at hk
    exact h k hk.2.1 hk.1
  omega

/-- **An incremental update.**  A table in which a word and the checksum are replaced verifies
exactly when it did before. -/
theorem dvd_sum_replace {n i j : ℕ} {f g : ℕ → ℕ} (hi : i < n) (hj : j < n) (hij : i ≠ j)
    (hrest : ∀ k, k ≠ i → k ≠ j → g k = f k) (hf : ∀ k, f k ≤ m) (hg : ∀ k, g k ≤ m)
    (hj' : g j = replace m (f j) (f i) (g i)) :
    m ∣ ∑ k ∈ Finset.range n, g k ↔ m ∣ ∑ k ∈ Finset.range n, f k := by
  have hsum := sum_changed_two hi hj hij hrest
  have hmod : g j + g i ≡ f j + f i [MOD m] := by
    rw [hj']
    exact replace_modEq (hf j) (hf i) (hg i)
  have hsame : ∑ k ∈ Finset.range n, g k ≡ ∑ k ∈ Finset.range n, f k [MOD m] := by
    refine Nat.ModEq.add_right_cancel' (f j + f i) ?_
    calc
      (∑ k ∈ Finset.range n, g k) + (f j + f i)
          = (∑ k ∈ Finset.range n, f k) + (g j + g i) := by omega
      _ ≡ (∑ k ∈ Finset.range n, f k) + (f j + f i) [MOD m] := hmod.add_left _
  rw [← Nat.modEq_zero_iff_dvd, ← Nat.modEq_zero_iff_dvd]
  exact ⟨hsame.symm.trans, hsame.trans⟩

/-- The other words determine a checksum that verifies and is not the largest word. -/
theorem checksum_unique {n j : ℕ} {f g : ℕ → ℕ} (hj : j < n) (hrest : ∀ k, k ≠ j → g k = f k)
    (hf : m ∣ ∑ k ∈ Finset.range n, f k) (hg : m ∣ ∑ k ∈ Finset.range n, g k)
    (hfj : f j < m) (hgj : g j < m) : g j = f j := by
  have hsf := Finset.add_sum_erase (Finset.range n) f (Finset.mem_range.mpr hj)
  have hsg := Finset.add_sum_erase (Finset.range n) g (Finset.mem_range.mpr hj)
  have hsame : ∑ k ∈ (Finset.range n).erase j, g k = ∑ k ∈ (Finset.range n).erase j, f k :=
    Finset.sum_congr rfl fun k hk => hrest k (Finset.ne_of_mem_erase hk)
  rw [hsame] at hsg
  rw [← hsf] at hf
  rw [← hsg] at hg
  have hmod : g j ≡ f j [MOD m] := Nat.ModEq.add_right_cancel' _
    (((Nat.modEq_zero_iff_dvd).mpr hg).trans ((Nat.modEq_zero_iff_dvd).mpr hf).symm)
  exact Nat.ModEq.eq_of_lt_of_lt hmod hgj hfj

end OnesComplement
