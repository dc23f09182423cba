import Gameserver.Submission.RoundTrip

/-!
# Base64 with lines and padding

`flag-submission-server/src/libraries/base64.c` for data of any length.  The encoder breaks its
lines after 72 characters and pads the last block; the decoder skips what is not in its alphabet.

* `base64Encode` — the encoder.
* `significant` — the characters that the decoder does not skip.
* `decodeLoop_filter` — the decoder sees nothing else.
* `base64_round_trip` — **what was encoded is decoded again**, however it was broken into lines,
  and the lines of the encoder are never longer than 72 characters.
-/

namespace Gameserver.Submission

open Sextets

/-! ## The encoder -/

/-- The loop of `base64_encode` and what comes after it, with `line_len`. -/
def encodeLoop : List UInt8 → ℕ → List UInt8
  | a :: b :: c :: rest, lineLen =>
    serverChar (sextet0 a) :: serverChar (sextet1 a b) :: serverChar (sextet2 b c) ::
      serverChar (sextet3 c) ::
        if 72 ≤ lineLen + 4 then byte '\n' :: encodeLoop rest 0 else encodeLoop rest (lineLen + 4)
  | [a, b], _ =>
    [serverChar (sextet0 a), serverChar (sextet1 a b), serverChar (sextet2 b 0), byte '=',
      byte '\n']
  | [a], _ => [serverChar (sextet0 a), serverChar (sextet1 a 0), byte '=', byte '=', byte '\n']
  | [], lineLen => if lineLen = 0 then [] else [byte '\n']

/-- `base64_encode`, up to the terminating zero. -/
def base64Encode (src : List UInt8) : List UInt8 := encodeLoop src 0

/-! ## What the decoder sees -/

/-- The decoder does not skip the character. -/
def significant (c : UInt8) : Bool := dtable c ≠ 0x80

section

variable {src text block out : List UInt8} {pad lineLen : ℕ} {s a b : UInt8}

theorem significant_serverChar (h : s < 64) : significant (serverChar s) = true := by
  simpa [significant] using dtable_ne (serverChar_mem h)

@[simp] theorem significant_equals : significant (byte '=') = true := by decide

@[simp] theorem significant_newline : significant (byte '\n') = false := by decide

@[simp] theorem dtable_equals : dtable (byte '=') = 0 := by simp [dtable]

/-- **Characters out of the alphabet make no difference.** -/
theorem decodeLoop_filter :
    decodeLoop (text.filter significant) block pad out = decodeLoop text block pad out := by
  induction text generalizing block pad out with
  | nil => rfl
  | cons c text ih =>
    by_cases hc : dtable c = 0x80
    · have hskip : significant c = false := by simp [significant, hc]
      rw [List.filter_cons_of_neg (by simp [hskip]), ih, decodeLoop, if_pos hc]
    · have hkept : significant c = true := by simp [significant, hc]
      rw [List.filter_cons_of_pos hkept]
      unfold decodeLoop
      simp only [hc, if_false, ih]

theorem base64Decode_filter : base64Decode (text.filter significant) = base64Decode text := by
  have hcount : (text.filter significant).countP (fun c => decide (dtable c ≠ 0x80)) =
      text.countP fun c => decide (dtable c ≠ 0x80) := by
    rw [List.countP_filter]
    refine List.countP_congr fun c _ => ?_
    simp [significant]
  simp only [base64Decode, hcount, decodeLoop_filter]

/-! ## The characters of the encoder -/

/-- What the encoder writes, without its line breaks. -/
def encoded : List UInt8 → List UInt8
  | a :: b :: c :: rest =>
    serverChar (sextet0 a) :: serverChar (sextet1 a b) :: serverChar (sextet2 b c) ::
      serverChar (sextet3 c) :: encoded rest
  | [a, b] => [serverChar (sextet0 a), serverChar (sextet1 a b), serverChar (sextet2 b 0), byte '=']
  | [a] => [serverChar (sextet0 a), serverChar (sextet1 a 0), byte '=', byte '=']
  | [] => []

theorem filter_encodeLoop (src : List UInt8) (lineLen : ℕ) :
    (encodeLoop src lineLen).filter significant = encoded src := by
  induction src, lineLen using encodeLoop.induct with
  | case1 a b c rest lineLen hbroken hkept =>
    by_cases hbreak : 72 ≤ lineLen + 4
    · simp only [encodeLoop, hbreak, if_true, encoded]
      simp [hbroken, significant_serverChar, sextet0_lt, sextet1_lt, sextet2_lt, sextet3_lt]
    · simp only [encodeLoop, hbreak, if_false, encoded]
      simp [hkept, significant_serverChar, sextet0_lt, sextet1_lt, sextet2_lt, sextet3_lt]
  | case2 a b lineLen =>
    simp [encodeLoop, encoded, significant_serverChar, sextet0_lt, sextet1_lt, sextet2_lt]
  | case3 a lineLen => simp [encodeLoop, encoded, significant_serverChar, sextet0_lt, sextet1_lt]
  | case4 => simp [encodeLoop, encoded]
  | case5 lineLen hlen => simp [encodeLoop, encoded, hlen]

theorem length_encoded_dvd (src : List UInt8) : 4 ∣ (encoded src).length := by
  induction src using encoded.induct with
  | case1 a b c rest ih => simpa [encoded, Nat.dvd_add_right] using ih
  | case2 a b => simp [encoded]
  | case3 a => simp [encoded]
  | case4 => simp [encoded]

theorem encoded_ne_nil (h : src ≠ []) : encoded src ≠ [] := by
  match src, h with
  | _ :: _ :: _ :: _, _ => simp [encoded]
  | [_, _], _ => simp [encoded]
  | [_], _ => simp [encoded]

theorem padAfter_serverChar (h : s < 64) : padAfter pad (serverChar s) = pad :=
  padAfter_of_mem (serverChar_mem h)

/-- A character in the middle of a block, as it was encoded. -/
theorem decodeLoop_serverChar (h : s < 64) (hblock : block.length < 3) :
    decodeLoop (serverChar s :: text) block pad out =
      decodeLoop text (block ++ [s]) pad out := by
  rw [decodeLoop_cons (dtable_ne (serverChar_mem h)) hblock, dtable_serverChar h,
    padAfter_serverChar h]

/-- A padding character in the middle of a block. -/
theorem decodeLoop_equals (hblock : block.length < 3) :
    decodeLoop (byte '=' :: text) block pad out =
      decodeLoop text (block ++ [0]) (pad + 1) out := by
  rw [decodeLoop_cons (by decide) hblock, dtable_equals]
  rfl

theorem decodeLoop_encoded (src out : List UInt8) :
    decodeLoop (encoded src) [] 0 out = some (out ++ src) := by
  induction src using encoded.induct generalizing out with
  | case1 a b c rest ih =>
    obtain ⟨h₀, h₁, h₂⟩ := bytes_sextets a b c
    rw [encoded, decodeLoop_serverChar (sextet0_lt a) (by simp),
      decodeLoop_serverChar (sextet1_lt a b) (by simp),
      decodeLoop_serverChar (sextet2_lt b c) (by simp)]
    refine (decodeLoop_block (dtable_ne (serverChar_mem (sextet3_lt c))) _ _ _).trans ?_
    simp only [padAfter_serverChar (sextet3_lt c), dtable_serverChar (sextet3_lt c), if_true,
      h₀, h₁, h₂, ih]
    simp
  | case2 a b =>
    obtain ⟨h₀, h₁, -⟩ := bytes_sextets a b 0
    rw [encoded, decodeLoop_serverChar (sextet0_lt a) (by simp),
      decodeLoop_serverChar (sextet1_lt a b) (by simp),
      decodeLoop_serverChar (sextet2_lt b 0) (by simp)]
    refine (decodeLoop_block (by decide) _ _ _).trans ?_
    simp [padAfter, h₀, h₁, List.take_append]
  | case3 a =>
    obtain ⟨h₀, -, -⟩ := bytes_sextets a 0 0
    rw [encoded, decodeLoop_serverChar (sextet0_lt a) (by simp),
      decodeLoop_serverChar (sextet1_lt a 0) (by simp), decodeLoop_equals (by simp)]
    refine (decodeLoop_block (by decide) _ _ _).trans ?_
    simp [padAfter, h₀, List.take_append]
  | case4 => simp [encoded, decodeLoop]

theorem base64Decode_encoded (h : src ≠ []) : base64Decode (encoded src) = some src := by
  have hall : (encoded src).countP (fun c => decide (dtable c ≠ 0x80)) = (encoded src).length := by
    have hfilter := filter_encodeLoop src 0
    rw [List.countP_eq_length]
    intro c hc
    rw [← hfilter, List.mem_filter] at hc
    exact hc.2
  have hpos := List.length_pos_iff.mpr (encoded_ne_nil h)
  have hmod := Nat.mod_eq_zero_of_dvd (length_encoded_dvd src)
  rw [base64Decode]
  simp only [hall, hmod, hpos.ne', decodeLoop_encoded]
  simp

/-! ## The lines -/

/-- A line with its break. -/
def withNewline (line : List UInt8) : List UInt8 := line ++ [byte '\n']

/-- The lines that the encoder writes from the middle of one of them. -/
theorem exists_lines (src : List UInt8) (lineLen : ℕ) (hdvd : 4 ∣ lineLen) (hlen : lineLen ≤ 68) :
    ∃ lines : List (List UInt8), encodeLoop src lineLen = lines.flatMap withNewline ∧
      (∀ line ∈ lines, line.length ≤ 72) ∧
      (∀ line ∈ lines.head?, line.length + lineLen ≤ 72) ∧
      (lineLen ≠ 0 → lines ≠ []) := by
  induction src, lineLen using encodeLoop.induct with
  | case1 a b c rest lineLen hbroken hkept =>
    by_cases hbreak : 72 ≤ lineLen + 4
    · obtain ⟨lines, hlines, hbound, -, -⟩ := hbroken (by omega) (by omega)
      refine ⟨[serverChar (sextet0 a), serverChar (sextet1 a b), serverChar (sextet2 b c),
        serverChar (sextet3 c)] :: lines, ?_, ?_, ?_, by simp⟩
      · simp only [encodeLoop, hbreak, if_true, hlines, List.flatMap_cons, withNewline]
        rfl
      · simpa using hbound
      · simp
        omega
    · obtain ⟨lines, hlines, hbound, hfirst, hne⟩ := hkept (by omega) (by omega)
      obtain ⟨first, lines, rfl⟩ := List.exists_cons_of_ne_nil (hne (by omega))
      have hfirst : first.length + (lineLen + 4) ≤ 72 := hfirst first rfl
      refine ⟨(serverChar (sextet0 a) :: serverChar (sextet1 a b) :: serverChar (sextet2 b c) ::
        serverChar (sextet3 c) :: first) :: lines, ?_, ?_, ?_, by simp⟩
      · simp only [encodeLoop, hbreak, if_false, hlines, List.flatMap_cons, withNewline]
        rfl
      · intro line hline
        rcases List.mem_cons.mp hline with rfl | hline
        · simp only [List.length_cons]
          omega
        · exact hbound line (List.mem_cons_of_mem first hline)
      · simp
        omega
  | case2 a b lineLen =>
    refine ⟨[[serverChar (sextet0 a), serverChar (sextet1 a b), serverChar (sextet2 b 0),
      byte '=']], rfl, by simp, ?_, by simp⟩
    simp
    omega
  | case3 a lineLen =>
    refine ⟨[[serverChar (sextet0 a), serverChar (sextet1 a 0), byte '=', byte '=']], rfl,
      by simp, ?_, by simp⟩
    simp
    omega
  | case4 => exact ⟨[], by simp [encodeLoop], by simp, by simp, by simp⟩
  | case5 lineLen hne =>
    refine ⟨[[]], by simp [encodeLoop, hne, withNewline], by simp, ?_, by simp⟩
    simp
    omega

/-- **Base64 round trip.**  Data of any length but 0 comes back from its encoding, also where the
text was broken into other lines, or has other characters out of the alphabet in it.  The lines
of the encoder have at most 72 characters. -/
theorem base64_round_trip (h : src ≠ [])
    (htext : text.filter significant = (base64Encode src).filter significant) :
    base64Decode text = some src ∧
      ∃ lines : List (List UInt8), base64Encode src = lines.flatMap withNewline ∧
        ∀ line ∈ lines, line.length ≤ 72 := by
  refine ⟨?_, ?_⟩
  · rw [← base64Decode_filter, htext, base64Encode, filter_encodeLoop, base64Decode_encoded h]
  · obtain ⟨lines, hlines, hbound, -, -⟩ := exists_lines src 0 (by omega) (by omega)
    exact ⟨lines, hlines, hbound⟩

/-- Two bytes, with a blank in the middle of the text. -/
theorem base64_round_trip_blank :
    base64Decode [byte 'A', byte 'Q', byte ' ', byte 'I', byte '='] = some [1, 2] :=
  And.left <| base64_round_trip (by simp) (by decide)

end

end Gameserver.Submission
