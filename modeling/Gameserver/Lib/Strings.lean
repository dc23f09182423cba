import Mathlib.Data.List.DropRight
import Gameserver.Lib.Json

/-!
# Text functions of Python

* `rindex` — `text.rindex(marker)`, none where it raises.
* `splitOnce` — `text.split(sep, 1)`, none where there is no separator.
* `strip`, `isSpace` — `text.strip()`.
* `encodeUtf8`, `decodeUtf8`, `hexlify` — between texts and bytes.
* `rindex_append`, `exists_of_rindex` — what is found is the last occurrence.
* `countP_strip` — stripping takes nothing else away.
-/

namespace Strings

section Lists

variable {α : Type*} {marker before after xs ys ws : List α} {sep x : α} {p : α → Bool}

/-! ## Markers -/

/-- A marker without the separator is on one side of it. -/
theorem isInfix_append_cons_iff (h : sep ∉ marker) :
    marker <:+: xs ++ sep :: ys ↔ marker <:+: xs ∨ marker <:+: ys := by
  constructor
  · intro hmarker
    rcases List.infix_append_iff.mp hmarker with hleft | hright | ⟨left, right, rfl, hleft, hright⟩
    · exact .inl hleft
    · rcases List.infix_cons_iff.mp hright with hhead | htail
      · cases marker with
        | nil => exact .inl List.nil_infix
        | cons y marker =>
          obtain ⟨rfl, -⟩ := List.cons_prefix_cons.mp hhead
          exact absurd List.mem_cons_self h
      · exact .inr htail
    · cases right with
      | nil =>
        rw [List.append_nil]
        exact .inl hleft.isInfix
      | cons y right =>
        obtain ⟨rfl, -⟩ := List.cons_prefix_cons.mp hright
        exact absurd (List.mem_append_right left List.mem_cons_self) h
  · rintro (hleft | hright)
    · exact List.infix_append_of_infix_left hleft
    · exact List.infix_append_of_infix_right (List.infix_cons hright)

/-- What follows a marker, when a few elements more are skipped. -/
theorem drop_marker (before marker after : List α) (n : ℕ) :
    (before ++ (marker ++ after)).drop (before.length + marker.length + n) = after.drop n := by
  rw [← List.append_assoc, ← List.length_append, List.drop_length_add_append]

variable [DecidableEq α]

/-- Where the marker occurs last. -/
def rindex (marker : List α) : List α → Option ℕ
  | [] => if marker = [] then some 0 else none
  | x :: xs =>
    match rindex marker xs with
    | some p => some (p + 1)
    | none => if marker <+: x :: xs then some 0 else none

theorem rindex_eq_none_iff : rindex marker xs = none ↔ ¬ marker <:+: xs := by
  induction xs with
  | nil => simp [rindex]
  | cons x xs ih =>
    rw [rindex, List.infix_cons_iff]
    cases hlater : rindex marker xs with
    | some p =>
      have hmarker : marker <:+: xs := by
        by_contra hnot
        rw [ih.mpr hnot] at hlater
        cases hlater
      simp [hmarker]
    | none => simp [ih.mp hlater]

/-- What is found is the marker. -/
theorem exists_of_rindex {p : ℕ} (h : rindex marker xs = some p) :
    ∃ before after, xs = before ++ (marker ++ after) ∧ before.length = p := by
  induction xs generalizing p with
  | nil =>
    rw [rindex] at h
    split_ifs at h with hmarker
    obtain rfl := Option.some.inj h
    exact ⟨[], [], by simp [hmarker], rfl⟩
  | cons x xs ih =>
    rw [rindex] at h
    cases hlater : rindex marker xs with
    | some q =>
      rw [hlater] at h
      obtain rfl := Option.some.inj h
      obtain ⟨before, after, rfl, rfl⟩ := ih hlater
      exact ⟨x :: before, after, rfl, rfl⟩
    | none =>
      rw [hlater] at h
      dsimp only at h
      split_ifs at h with hmarker
      obtain rfl := Option.some.inj h
      obtain ⟨after, hafter⟩ := hmarker
      exact ⟨[], after, hafter.symm, rfl⟩

/-- What comes before does not matter. -/
theorem rindex_append_of_eq_some {p : ℕ} (h : rindex marker ys = some p) :
    rindex marker (xs ++ ys) = some (xs.length + p) := by
  induction xs with
  | nil => rw [List.nil_append, List.length_nil, Nat.zero_add, h]
  | cons x xs ih =>
    rw [List.cons_append, rindex, ih, List.length_cons]
    simp only [Option.some.injEq]
    omega

/-- A marker that does not occur again is found. -/
theorem rindex_append (h : ¬ marker <:+: (marker ++ after).tail) :
    rindex marker (before ++ (marker ++ after)) = some before.length := by
  have hlast : rindex marker (marker ++ after) = some 0 := by
    cases marker with
    | nil => exact absurd List.nil_infix h
    | cons y marker =>
      have hnone : rindex (y :: marker) (marker ++ after) = none := rindex_eq_none_iff.mpr h
      rw [List.cons_append, rindex, hnone]
      exact if_pos (List.prefix_append (y :: marker) after)
  exact rindex_append_of_eq_some hlast

/-! ## Separators -/

/-- What is before the first separator, and what is after it. -/
def splitOnce (sep : α) : List α → Option (List α × List α)
  | [] => none
  | x :: xs =>
    if x = sep then some ([], xs)
    else (splitOnce sep xs).map fun (before, after) => (x :: before, after)

theorem splitOnce_append (h : sep ∉ before) :
    splitOnce sep (before ++ sep :: after) = some (before, after) := by
  induction before with
  | nil => exact if_pos rfl
  | cons x before ih =>
    rw [List.cons_append, splitOnce, if_neg (List.ne_of_not_mem_cons h).symm,
      ih (List.not_mem_of_not_mem_cons h)]
    rfl

theorem eq_of_splitOnce (h : splitOnce sep xs = some (before, after)) :
    xs = before ++ sep :: after := by
  induction xs generalizing before with
  | nil => cases h
  | cons x xs ih =>
    rw [splitOnce] at h
    split_ifs at h with hsep
    · obtain ⟨rfl, rfl⟩ := Prod.mk.inj (Option.some.inj h)
      rw [hsep, List.nil_append]
    · obtain ⟨⟨before', after'⟩, hlater, heq⟩ := Option.map_eq_some_iff.mp h
      obtain ⟨rfl, rfl⟩ := Prod.mk.inj heq
      rw [ih hlater, List.cons_append]

end Lists

/-! ## White space -/

section Strip

variable {α : Type*} {xs ws : List α} {p : α → Bool}

/-- Without the elements at both ends for which `p` holds. -/
def strip (p : α → Bool) (xs : List α) : List α := (xs.dropWhile p).rdropWhile p

theorem countP_dropWhile (p : α → Bool) (xs : List α) :
    (xs.dropWhile p).countP (fun x => !p x) = xs.countP fun x => !p x := by
  induction xs with
  | nil => rfl
  | cons x xs ih =>
    cases hx : p x with
    | true =>
      rw [List.dropWhile_cons_of_pos hx, ih, List.countP_cons_of_neg]
      simp [hx]
    | false => rw [List.dropWhile_cons_of_neg (by simp [hx])]

/-- Nothing else is taken away. -/
theorem countP_strip (p : α → Bool) (xs : List α) :
    (strip p xs).countP (fun x => !p x) = xs.countP fun x => !p x := by
  rw [strip, List.rdropWhile, List.countP_reverse, countP_dropWhile, List.countP_reverse,
    countP_dropWhile]

theorem rdropWhile_append_of_forall (h : ∀ x ∈ ws, p x = true) :
    (xs ++ ws).rdropWhile p = xs.rdropWhile p := by
  rw [List.rdropWhile, List.reverse_append, List.dropWhile_append_of_pos, List.rdropWhile]
  simpa using h

theorem strip_append_of_forall (h : ∀ x ∈ ws, p x = true) : strip p (xs ++ ws) = strip p xs := by
  rw [strip, strip, List.dropWhile_append]
  split_ifs with hempty
  · rw [List.isEmpty_iff.mp hempty, List.dropWhile_eq_nil_iff.mpr h]
  · exact rdropWhile_append_of_forall h

/-- What stripping takes away. -/
theorem exists_strip (p : α → Bool) (xs : List α) :
    ∃ front back, xs = front ++ (strip p xs ++ back) ∧ (∀ x ∈ front, p x = true) ∧
      ∀ x ∈ back, p x = true := by
  refine ⟨xs.takeWhile p, (xs.dropWhile p).rtakeWhile p, ?_, fun x => List.mem_takeWhile_imp,
    fun x => List.mem_rtakeWhile_imp⟩
  rw [strip, List.rdropWhile_append_rtakeWhile, List.takeWhile_append_dropWhile]

/-- It goes as far as it can. -/
theorem head_strip {x : α} (h : (strip p xs).head? = some x) : p x = false := by
  obtain ⟨rest, hrest⟩ := List.rdropWhile_prefix p (xs.dropWhile p)
  have hhead : (xs.dropWhile p).head? = some x := by
    rw [← hrest, List.head?_append_of_ne_nil]
    · exact h
    · rintro hnil
      rw [strip, hnil] at h
      cases h
  have hnot := List.head?_dropWhile_not p xs
  rw [hhead] at hnot
  exact hnot

end Strip

/-- White space. -/
def spaces : List Char :=
  ['\t', '\n', '\x0b', '\x0c', '\r', '\x1c', '\x1d', '\x1e', '\x1f', ' ', '\u0085', '\u00a0',
    '\u1680', '\u2000', '\u2001', '\u2002', '\u2003', '\u2004', '\u2005', '\u2006', '\u2007',
    '\u2008', '\u2009', '\u200a', '\u2028', '\u2029', '\u202f', '\u205f', '\u3000']

/-- `char.isspace()`. -/
def isSpace (c : Char) : Bool := c ∈ spaces

/-! ## Bytes -/

/-- `text.encode('utf-8')`. -/
def encodeUtf8 (text : List Char) : ByteArray := (String.ofList text).toUTF8

/-- `data.decode('utf-8')`, none where it raises. -/
def decodeUtf8 (data : ByteArray) : Option (List Char) := data.utf8Decode?.map Array.toList

@[simp] theorem decodeUtf8_encodeUtf8 (text : List Char) :
    decodeUtf8 (encodeUtf8 text) = some text := by
  rw [decodeUtf8, encodeUtf8, String.toUTF8, String.toByteArray_ofList, List.utf8Decode?_utf8Encode,
    Option.map_some]

/-- ASCII is one byte. -/
theorem utf8EncodeChar_of_lt {c : Char} (h : c.toNat < 128) :
    String.utf8EncodeChar c = [c.toNat.toUInt8] := by
  have hsize : c.utf8Size = 1 := by
    rw [Char.utf8Size_eq_one_iff, UInt32.le_iff_toNat_le]
    exact Nat.le_of_lt_succ h
  rw [String.utf8EncodeChar_eq_singleton hsize]
  rfl

/-- No byte of another character is ASCII. -/
theorem le_of_mem_utf8EncodeChar {c : Char} {b : UInt8} (h : 128 ≤ c.toNat)
    (hb : b ∈ String.utf8EncodeChar c) : 128 ≤ b.toNat := by
  have hval : 128 ≤ c.val.toNat := h
  unfold String.utf8EncodeChar at hb
  simp only at hb
  split_ifs at hb with h1 h2 h3
  · omega
  all_goals
    simp only [List.mem_cons, List.not_mem_nil, or_false] at hb
    rcases hb with rfl | rfl | rfl | rfl <;> simp <;> omega

/-- A byte in hexadecimal digits. -/
def hexByte (byte : UInt8) : List Char :=
  [Json.hexDigit (byte.toNat / 16), Json.hexDigit (byte.toNat % 16)]

/-- `binascii.hexlify(data)`. -/
def hexlify (data : List UInt8) : List Char := data.flatMap hexByte

theorem hexDigit_mem {n : ℕ} (h : n < 16) : Json.hexDigit n ∈ "0123456789abcdef".toList := by
  interval_cases n <;> decide

theorem hexDigit_injOn {m n : ℕ} (hm : m < 16) (hn : n < 16)
    (h : Json.hexDigit m = Json.hexDigit n) : m = n := by
  have hvalue := Json.hexValue_hexDigit hm
  rw [h, Json.hexValue_hexDigit hn] at hvalue
  exact (Option.some.inj hvalue).symm

theorem hexByte_injective : Function.Injective hexByte := by
  intro a b h
  obtain ⟨hhigh, hlow⟩ := List.cons.inj h
  have ha : a.toNat < 256 := a.toNat_lt
  have hb : b.toNat < 256 := b.toNat_lt
  have hdiv := hexDigit_injOn (by omega) (by omega) hhigh
  have hmod := hexDigit_injOn (by omega) (by omega) (List.cons.inj hlow).1
  exact UInt8.toNat_inj.mp (by omega)

theorem length_hexlify (data : List UInt8) : (hexlify data).length = 2 * data.length := by
  induction data with
  | nil => rfl
  | cons byte data ih =>
    rw [hexlify, List.flatMap_cons, List.length_append, ← hexlify, ih, List.length_cons]
    show 2 + _ = _
    omega

/-- Digits tell the bytes. -/
theorem hexlify_injective : Function.Injective hexlify := by
  intro xs
  induction xs with
  | nil =>
    intro ys h
    have hlength := congrArg List.length h
    rw [length_hexlify, length_hexlify] at hlength
    have hnil : ys.length = 0 := by simpa using hlength.symm
    exact (List.length_eq_zero_iff.mp hnil).symm
  | cons x xs ih =>
    intro ys h
    cases ys with
    | nil =>
      have hlength := congrArg List.length h
      rw [length_hexlify, length_hexlify] at hlength
      simp at hlength
    | cons y ys =>
      rw [hexlify, hexlify, List.flatMap_cons, List.flatMap_cons] at h
      obtain ⟨hhead, htail⟩ := List.append_inj h rfl
      rw [hexByte_injective hhead, ih htail]

theorem mem_hexlify {data : List UInt8} {digit : Char} (h : digit ∈ hexlify data) :
    digit ∈ "0123456789abcdef".toList := by
  obtain ⟨byte, -, hmem⟩ := List.mem_flatMap.mp h
  have hlt : byte.toNat < 256 := byte.toNat_lt
  rcases List.mem_cons.mp hmem with rfl | hlow
  · exact hexDigit_mem (by omega)
  · rw [List.mem_singleton.mp hlow]
    exact hexDigit_mem (by omega)

end Strings
