import Gameserver.Submission.Connection
import Gameserver.Submission.RoundTrip

/-!
# The grammar of flags

`README.md` of the submission server gives flags as a regular expression: the prefix, and 32
characters of `[A-Za-z0-9-_]` in braces.

* `isBodyChar`, `IsFlagText` — the expression.
* `HasFlagShape`, `parseFlag_isOk_iff` — the lines that can be decoded, for a prefix of any length.
* `flag_grammar` — with a prefix of four characters these are the lines of the expression, and no
  two of them are the same flag.
* `cut_same_verdict_iff` — when cutting a line to `MAX_LINE_BYTES` changes the verdict.
-/

namespace Gameserver.Submission

/-! ## Single characters -/

/-- `[A-Za-z0-9-_]`. -/
def isBodyChar (c : UInt8) : Bool :=
  (byte 'A' ≤ c && c ≤ byte 'Z') || (byte 'a' ≤ c && c ≤ byte 'z') ||
    (byte '0' ≤ c && c ≤ byte '9') || c = byte '-' || c = byte '_'

/-- There are 256 bytes. -/
theorem forall_byte {P : UInt8 → Prop} (h : ∀ i : Fin 256, P (UInt8.ofFin i)) (c : UInt8) : P c :=
  UInt8.ofFin_toFin c ▸ h c.toFin

theorem isBodyChar_iff (c : UInt8) : isBodyChar c = true ↔ c ∈ base64Table := by
  revert c
  exact forall_byte (by decide +kernel)

/-- A byte is trimmed if it is at most a space as a signed character. -/
theorem trimmed_signed (c : UInt8) : trimmed true c = decide (c.toInt8 ≤ 0x20) := by
  revert c
  exact forall_byte (by decide +kernel)

/-! ## Lines -/

/-- `PREFIX\x7b[A-Za-z0-9-_]\x7b32\x7d\x7d`. -/
def IsFlagText (flagPrefix : String) (text : List UInt8) : Prop :=
  ∃ body : List UInt8, text = utf8 flagPrefix ++ byte '\x7b' :: body ++ [byte '\x7d'] ∧
    body.length = 32 ∧ ∀ c ∈ body, isBodyChar c = true

/-- What `progress_flag` looks at, for a prefix of any length. -/
structure HasFlagShape (flagPrefix : String) (text : List UInt8) : Prop where
  length : text.length = 38
  start : text.take (utf8 flagPrefix).length = utf8 flagPrefix
  opening : text[(utf8 flagPrefix).length]? = some (byte '\x7b')
  closing : text[37]? = some (byte '\x7d')
  body : ∀ c ∈ (text.drop 5).take 32, isBodyChar c = true

section Shape

variable {charIsSigned : Bool} {flagPrefix : String} {line : List UInt8}

/-- Any 24 bytes are the memory of a flag. -/
theorem exists_ofBytes {bytes : List UInt8} (h : bytes.length = 24) :
    ∃ f, FlagFormat.ofBytes bytes = some f := by
  match bytes, h with
  | a :: b :: c :: d :: e :: f :: g :: h :: mac, hlength =>
    have hmac : mac.length = 16 := by simpa using hlength
    exact ⟨_, dif_pos hmac⟩

/-- 32 characters are decoded to a flag if and only if all of them are in the alphabet. -/
theorem base64Decode_isSome_iff {src : List UInt8} (hsrc : src.length = 32) :
    (∃ f, (base64Decode src).bind FlagFormat.ofBytes = some f) ↔
      ∀ c ∈ src, isBodyChar c = true := by
  constructor
  · rintro ⟨f, hf⟩ c hc
    obtain ⟨bytes, hbase64, hbytes⟩ := Option.bind_eq_some_iff.1 hf
    rw [FlagFormat.ofBytes_eq_some_iff] at hbytes
    subst hbytes
    rw [base64Decode_eq_some_iff hsrc f.length_bytes] at hbase64
    rw [hbase64] at hc
    obtain ⟨s, hs, rfl⟩ := List.mem_map.1 hc
    exact (isBodyChar_iff _).2 (serverChar_mem (Sextets.lt_of_mem_ofBytes ⟨8, f.length_bytes⟩ s hs))
  · intro h
    have hmem : ∀ c ∈ src, c ∈ base64Table := fun c hc => (isBodyChar_iff c).1 (h c hc)
    have hsextets : (src.map dtable).length = 32 := by rw [List.length_map, hsrc]
    have hlt : ∀ s ∈ src.map dtable, s < 64 := by
      intro s hs
      obtain ⟨c, hc, rfl⟩ := List.mem_map.1 hs
      exact dtable_lt (hmem c hc)
    have hbytes : (Sextets.toBytes (src.map dtable)).length = 24 := by
      have hlength := Sextets.length_toBytes (l := src.map dtable) ⟨8, hsextets⟩
      omega
    have hchars : src = (Sextets.ofBytes (Sextets.toBytes (src.map dtable))).map serverChar := by
      rw [Sextets.ofBytes_toBytes ⟨8, hsextets⟩ hlt, List.map_map]
      refine ((List.map_congr_left fun c hc => ?_).trans (List.map_id src)).symm
      exact serverChar_dtable (hmem c hc)
    obtain ⟨f, hf⟩ := exists_ofBytes hbytes
    refine ⟨f, ?_⟩
    rw [(base64Decode_eq_some_iff hsrc hbytes).2 hchars, Option.bind_some, hf]

/-- **The lines that can be decoded.** -/
theorem parseFlag_isOk_iff :
    (∃ f, parseFlag charIsSigned flagPrefix line = .ok f) ↔
      HasFlagShape flagPrefix (rtrim charIsSigned line) := by
  unfold parseFlag
  dsimp only
  constructor
  · rintro ⟨f, h⟩
    split at h
    · cases h
    split at h
    · cases h
    split at h
    · cases h
    rename_i hlength hformat
    push Not at hlength hformat
    obtain ⟨hstart, hopen, hclose⟩ := hformat
    split at h
    · rename_i binaryFlag hdecode
      refine ⟨hlength, hstart, hopen, hclose, ?_⟩
      exact (base64Decode_isSome_iff (by simp [hlength])).1 ⟨_, hdecode⟩
    · cases h
  · rintro ⟨hlength, hstart, hopen, hclose, hbody⟩
    have hnil : rtrim charIsSigned line ≠ [] := List.ne_nil_of_length_pos (by omega)
    obtain ⟨f, hf⟩ := (base64Decode_isSome_iff (by simp [hlength])).2 hbody
    refine ⟨f, ?_⟩
    rw [if_neg hnil, if_neg (not_not.2 hlength), if_neg (by simp [hstart, hopen, hclose]), hf]

/-- With a prefix of four characters, this is the regular expression. -/
theorem hasFlagShape_iff (hlen : (utf8 flagPrefix).length = 4) {text : List UInt8} :
    HasFlagShape flagPrefix text ↔ IsFlagText flagPrefix text := by
  constructor
  · rintro ⟨hlength, hstart, hopen, hclose, hbody⟩
    rw [hlen] at hstart hopen
    exact ⟨(text.drop 5).take 32, eq_of_parts hlength hstart hopen hclose, by simp [hlength], hbody⟩
  · rintro ⟨body, rfl, hlength, hbody⟩
    have hbefore : (utf8 flagPrefix ++ byte '\x7b' :: body).length = 37 := by
      rw [List.length_append, List.length_cons, hlength, hlen]
    constructor
    · rw [List.length_append, hbefore]
      rfl
    · rw [List.append_assoc, List.take_left]
    · rw [List.append_assoc, List.getElem?_append_right le_rfl]
      simp
    · rw [← hbefore, List.getElem?_append_right le_rfl]
      simp
    · have hdrop : (utf8 flagPrefix ++ byte '\x7b' :: body ++ [byte '\x7d']).drop 5 =
          body ++ [byte '\x7d'] := by
        rw [List.append_assoc, List.cons_append, List.append_cons]
        exact List.drop_left' (by simp [hlen])
      rw [hdrop, List.take_left' hlength]
      exact hbody

/-- **The server accepts the lines of the regular expression, and no two of them are one flag.** -/
theorem flag_grammar (flagPrefix : String) (hlen : (utf8 flagPrefix).length = 4) :
    (∀ line, (∃ f, parseFlag true flagPrefix line = .ok f) ↔
      IsFlagText flagPrefix (line.rdropWhile fun c => c.toInt8 ≤ 0x20)) ∧
    ∀ line line' f f', parseFlag true flagPrefix line = .ok f →
      parseFlag true flagPrefix line' = .ok f' →
      (f.bytes = f'.bytes ↔ (line.rdropWhile fun c => c.toInt8 ≤ 0x20) =
        line'.rdropWhile fun c => c.toInt8 ≤ 0x20) := by
  have hrtrim : ∀ line, (line.rdropWhile fun c => c.toInt8 ≤ 0x20) = rtrim true line := by
    intro line
    rw [rtrim, ← funext trimmed_signed]
  constructor
  · intro line
    rw [hrtrim, parseFlag_isOk_iff, hasFlagShape_iff hlen]
  · intro line line' f f' h h'
    rw [hrtrim, hrtrim, (parseFlag_eq_ok_iff hlen).1 h, (parseFlag_eq_ok_iff hlen).1 h']
    constructor
    · intro hbytes
      rw [flagText, flagText, hbytes]
    · intro htext
      rw [flagText, flagText, List.append_left_inj, List.append_right_inj, List.cons.injEq] at htext
      have hdecode := (base64Decode_eq_some_iff (length_encoded f) f.length_bytes).2 rfl
      rw [htext.2, (base64Decode_eq_some_iff (length_encoded f') f'.length_bytes).2 rfl] at hdecode
      exact (Option.some.inj hdecode).symm

/-- The example of `README.md`, with trailing white space. -/
theorem flag_grammar_readme :
    ∃ f, parseFlag true "SAAR" (utf8 "SAAR\x7bvQA2AAYAAACXlPecBGL77CAqZOuU4BTa\x7d \r") =
      .ok f := by
  refine ((flag_grammar "SAAR" (by decide)).1 _).2 ⟨utf8 "vQA2AAYAAACXlPecBGL77CAqZOuU4BTa", ?_⟩
  decide +kernel

/-! ## Long lines -/

/-- Trimming goes through a whole line that ends in bytes to trim, and no further than the last
other byte. -/
theorem rtrim_append_of_trimmed {after : List UInt8}
    (h : ∀ c ∈ after, trimmed charIsSigned c = true) :
    rtrim charIsSigned (line ++ after) = rtrim charIsSigned line := by
  induction after using List.reverseRecOn with
  | nil => rw [List.append_nil]
  | append_singleton after c ih =>
    rw [← List.append_assoc, rtrim, List.rdropWhile_concat_pos _ _ _ (h c (by simp))]
    exact ih fun c hc => h c (by simp [hc])

theorem length_lt_rtrim {after : List UInt8} (h : ¬ ∀ c ∈ after, trimmed charIsSigned c = true) :
    line.length < (rtrim charIsSigned (line ++ after)).length := by
  induction after using List.reverseRecOn with
  | nil => exact absurd (List.forall_mem_nil _) h
  | append_singleton after c ih =>
    rw [← List.append_assoc, rtrim]
    by_cases hc : trimmed charIsSigned c = true
    · rw [List.rdropWhile_concat_pos _ _ _ hc]
      refine ih fun hall => h fun b hb => ?_
      rcases List.mem_append.1 hb with hb | hb
      · exact hall b hb
      · exact List.mem_singleton.1 hb ▸ hc
    · rw [List.rdropWhile_concat_neg _ _ _ hc, List.length_append, List.length_append]
      simp

/-- **When a cut line has the verdict of the whole line**: if nothing but bytes to trim is dropped,
or if no flag remains. -/
theorem cut_same_verdict_iff (charIsSigned : Bool) (flagPrefix : String) (line : List UInt8) :
    (∀ f, parseFlag charIsSigned flagPrefix (cut line).1 = .ok f ↔
        parseFlag charIsSigned flagPrefix line = .ok f) ↔
      (∀ c ∈ line.drop maxLineBytes, trimmed charIsSigned c = true) ∨
        ¬ HasFlagShape flagPrefix (rtrim charIsSigned (line.take maxLineBytes)) := by
  by_cases hdropped : ∀ c ∈ line.drop maxLineBytes, trimmed charIsSigned c = true
  · refine iff_of_true (fun f => ?_) (.inl hdropped)
    have hsame : rtrim charIsSigned (cut line).1 = rtrim charIsSigned line := by
      conv_rhs => rw [← List.take_append_drop maxLineBytes line]
      exact (rtrim_append_of_trimmed hdropped).symm
    rw [parseFlag, parseFlag, hsame]
  · -- the whole line is longer than a flag
    have hlong : maxLineBytes < (rtrim charIsSigned line).length := by
      have hlength : (line.take maxLineBytes).length = maxLineBytes := by
        rw [List.length_take_of_le]
        by_contra hshort
        rw [List.drop_eq_nil_of_le (by omega)] at hdropped
        exact hdropped (List.forall_mem_nil _)
      have hlt : (line.take maxLineBytes).length <
          (rtrim charIsSigned (line.take maxLineBytes ++ line.drop maxLineBytes)).length :=
        length_lt_rtrim hdropped
      rwa [hlength, List.take_append_drop] at hlt
    have hwhole : ∀ f, parseFlag charIsSigned flagPrefix line ≠ .ok f := by
      intro f hf
      have hshape := (parseFlag_isOk_iff.1 ⟨f, hf⟩).length
      rw [maxLineBytes] at hlong
      omega
    rw [← parseFlag_isOk_iff, not_exists]
    constructor
    · exact fun h => .inr fun f hf => hwhole f ((h f).1 hf)
    · rintro (h | h) f
      · exact absurd h hdropped
      · exact iff_of_false (h f) (hwhole f)

end Shape

/-- The example of `README.md`, a lot of spaces, and another character. -/
def longLine : List UInt8 :=
  utf8 "SAAR\x7bvQA2AAYAAACXlPecBGL77CAqZOuU4BTa\x7d" ++ List.replicate 42 0x20 ++ [byte 'x']

/-- The server accepts the line, since it does not see the last character. -/
theorem not_cut_same_verdict :
    ¬ ∀ f, parseFlag true "SAAR" (cut longLine).1 = .ok f ↔
      parseFlag true "SAAR" longLine = .ok f := by
  intro h
  have hcut : HasFlagShape "SAAR" (rtrim true (cut longLine).1) := by
    constructor <;> decide +kernel
  obtain ⟨f, hf⟩ := parseFlag_isOk_iff.2 hcut
  have hshape := (parseFlag_isOk_iff.1 ⟨f, (h f).1 hf⟩).length
  revert hshape
  decide +kernel

end Gameserver.Submission
