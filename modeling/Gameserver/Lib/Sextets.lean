import Mathlib.Data.BitVec
import Mathlib.Tactic.IntervalCases

/-!
# Bytes as sextets

Three bytes have as many bits as four numbers of six bits.  This is the arithmetic of
Base64 without its alphabet.

* `sextet0` … `sextet3` — from three bytes to four sextets.
* `byte0`, `byte1`, `byte2` — back, in shifts of eight-bit words.
* `bytes_sextets`, `sextets_bytes` — the two are inverse to each other, the second way on
  words below 64.
* `ofBytes`, `toBytes` — the same for lists; `toBytes_ofBytes`, `ofBytes_toBytes` — **round
  trips of whole lists**.
-/

namespace Sextets

variable (a b c : UInt8) (s t u v : UInt8)

/-! ## From bytes to sextets -/

def sextet0 : UInt8 := a >>> 2
def sextet1 : UInt8 := ((a &&& 0x03) <<< 4) ||| (b >>> 4)
def sextet2 : UInt8 := ((b &&& 0x0f) <<< 2) ||| (c >>> 6)
def sextet3 : UInt8 := c &&& 0x3f

/-! ## From sextets to bytes -/

def byte0 : UInt8 := (s <<< 2) ||| (t >>> 4)
def byte1 : UInt8 := (t <<< 4) ||| (u >>> 2)
def byte2 : UInt8 := (u <<< 6) ||| v

/-! ## Round trips -/

/-- The words below 64 are those that have no other bits. -/
theorem and_eq_self_iff : s &&& 0x3f = s ↔ s < 64 := by
  rw [← UInt8.toNat_inj, UInt8.toNat_and, UInt8.lt_iff_toNat_lt]
  have hmask : (0x3f : UInt8).toNat = 2 ^ 6 - 1 := rfl
  have hlimit : (64 : UInt8).toNat = 64 := rfl
  rw [hmask, hlimit, Nat.and_two_pow_sub_one_eq_mod]
  omega

theorem sextet0_lt : sextet0 a < 64 := by
  rw [← and_eq_self_iff, sextet0, ← UInt8.toBitVec_inj]
  ext i hi
  simp
  interval_cases i <;> simp

theorem sextet1_lt : sextet1 a b < 64 := by
  rw [← and_eq_self_iff, sextet1, ← UInt8.toBitVec_inj]
  ext i hi
  simp
  interval_cases i <;> simp

theorem sextet2_lt : sextet2 b c < 64 := by
  rw [← and_eq_self_iff, sextet2, ← UInt8.toBitVec_inj]
  ext i hi
  simp
  interval_cases i <;> simp

theorem sextet3_lt : sextet3 c < 64 := by
  rw [← and_eq_self_iff, sextet3, ← UInt8.toBitVec_inj]
  ext i hi
  simp

/-- From bytes to sextets and back. -/
theorem bytes_sextets :
    byte0 (sextet0 a) (sextet1 a b) = a ∧ byte1 (sextet1 a b) (sextet2 b c) = b ∧
      byte2 (sextet2 b c) (sextet3 c) = c := by
  simp only [byte0, byte1, byte2, sextet0, sextet1, sextet2, sextet3, ← UInt8.toBitVec_inj]
  refine ⟨?_, ?_, ?_⟩
  all_goals
    ext i hi
    simp
    interval_cases i <;> simp

variable {s t u v}

/-- From sextets to bytes and back. -/
theorem sextets_bytes (hs : s < 64) (ht : t < 64) (hu : u < 64) (hv : v < 64) :
    sextet0 (byte0 s t) = s ∧ sextet1 (byte0 s t) (byte1 t u) = t ∧
      sextet2 (byte1 t u) (byte2 u v) = u ∧ sextet3 (byte2 u v) = v := by
  rw [← and_eq_self_iff] at hs ht hu hv
  rw [← hs, ← ht, ← hu, ← hv]
  simp only [byte0, byte1, byte2, sextet0, sextet1, sextet2, sextet3, ← UInt8.toBitVec_inj]
  refine ⟨?_, ?_, ?_, ?_⟩
  all_goals
    ext i hi
    simp
    interval_cases i <;> simp

/-! ## Lists -/

/-- Every three bytes as four sextets. -/
def ofBytes : List UInt8 → List UInt8
  | a :: b :: c :: rest => sextet0 a :: sextet1 a b :: sextet2 b c :: sextet3 c :: ofBytes rest
  | _ => []

/-- Every four sextets as three bytes. -/
def toBytes : List UInt8 → List UInt8
  | s :: t :: u :: v :: rest => byte0 s t :: byte1 t u :: byte2 u v :: toBytes rest
  | _ => []

/-- Induction over lists of triples. -/
theorem triples {P : List UInt8 → Prop} (nil : P [])
    (cons : ∀ a b c rest, P rest → P (a :: b :: c :: rest)) :
    ∀ l : List UInt8, 3 ∣ l.length → P l
  | [], _ => nil
  | [_], h => by simp at h
  | [_, _], h => by simp at h
  | a :: b :: c :: rest, h =>
    cons a b c rest (triples nil cons rest (by simpa [Nat.dvd_add_right] using h))

/-- Induction over lists of quadruples. -/
theorem quadruples {P : List UInt8 → Prop} (nil : P [])
    (cons : ∀ s t u v rest, P rest → P (s :: t :: u :: v :: rest)) :
    ∀ l : List UInt8, 4 ∣ l.length → P l
  | [], _ => nil
  | [_], h => by simp at h
  | [_, _], h => by simp at h
  | [_, _, _], h => by simp at h
  | s :: t :: u :: v :: rest, h =>
    cons s t u v rest (quadruples nil cons rest (by simpa [Nat.dvd_add_right] using h))

variable {l : List UInt8}

theorem length_ofBytes (h : 3 ∣ l.length) : 3 * (ofBytes l).length = 4 * l.length := by
  refine triples (P := fun l => 3 * (ofBytes l).length = 4 * l.length) rfl ?_ l h
  intro a b c rest ih
  simp only [ofBytes, List.length_cons]
  omega

theorem length_toBytes (h : 4 ∣ l.length) : 4 * (toBytes l).length = 3 * l.length := by
  refine quadruples (P := fun l => 4 * (toBytes l).length = 3 * l.length) rfl ?_ l h
  intro s t u v rest ih
  simp only [toBytes, List.length_cons]
  omega

theorem lt_of_mem_ofBytes (h : 3 ∣ l.length) : ∀ s ∈ ofBytes l, s < 64 := by
  refine triples (P := fun l => ∀ s ∈ ofBytes l, s < 64) (by simp [ofBytes]) ?_ l h
  intro a b c rest ih s hs
  simp only [ofBytes, List.mem_cons] at hs
  rcases hs with rfl | rfl | rfl | rfl | hs
  · exact sextet0_lt a
  · exact sextet1_lt a b
  · exact sextet2_lt b c
  · exact sextet3_lt c
  · exact ih s hs

/-- **Bytes come back from their sextets.** -/
theorem toBytes_ofBytes (h : 3 ∣ l.length) : toBytes (ofBytes l) = l := by
  refine triples (P := fun l => toBytes (ofBytes l) = l) rfl ?_ l h
  intro a b c rest ih
  obtain ⟨h0, h1, h2⟩ := bytes_sextets a b c
  rw [ofBytes, toBytes, h0, h1, h2, ih]

/-- **Sextets come back from their bytes.** -/
theorem ofBytes_toBytes (h : 4 ∣ l.length) (hlt : ∀ s ∈ l, s < 64) : ofBytes (toBytes l) = l := by
  revert hlt
  refine quadruples (P := fun l => (∀ s ∈ l, s < 64) → ofBytes (toBytes l) = l)
    (fun _ => rfl) ?_ l h
  intro s t u v rest ih hlt
  obtain ⟨h0, h1, h2, h3⟩ := sextets_bytes (hlt s (by simp)) (hlt t (by simp)) (hlt u (by simp))
    (hlt v (by simp))
  rw [toBytes, ofBytes, h0, h1, h2, h3, ih fun s hs => hlt s (by simp [hs])]

end Sextets
