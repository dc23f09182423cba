import Mathlib.Data.List.GetD
import Mathlib.Data.List.Nodup
import Gameserver.Submission.Format

/-!
# Flags survive the way from the checker to the server

* `encode_eq` — what the checker writes is, sextet by sextet, in the alphabet of the server.
* `base64Decode_eq_some_iff` — the server decodes 32 characters to a whole flag if and only if
  all of them are in its alphabet.
* `parseFlag_eq_ok_iff` — **a line decodes to a flag if and only if it is the text of that
  flag**, up to what the server trims.
* `flag_round_trip` — the flags of the checker.
-/

namespace Gameserver.Submission

open Sextets

/-! ## The alphabet -/

section Alphabet

variable {s c : UInt8}

theorem base64Table_length : base64Table.length = 64 := by decide

theorem base64Table_nodup : base64Table.Nodup := by decide

theorem equals_notMem : byte '=' ∉ base64Table := by decide

/-- The character of a sextet in the alphabet of the server. -/
def serverChar (s : UInt8) : UInt8 := base64Table.getD s.toNat 0

theorem toNat_lt_length (h : s < 64) : s.toNat < base64Table.length := by
  rw [base64Table_length]
  exact UInt8.lt_iff_toNat_lt.1 h

theorem serverChar_mem (h : s < 64) : serverChar s ∈ base64Table := by
  rw [serverChar, List.getD_eq_getElem _ _ (toNat_lt_length h)]
  exact List.getElem_mem _

theorem dtable_of_mem (h : c ∈ base64Table) :
    dtable c = (base64Table.idxOf c).toUInt8 ∧ (dtable c).toNat = base64Table.idxOf c := by
  have hne : c ≠ byte '=' := fun heq => equals_notMem (heq ▸ h)
  have heq : dtable c = (base64Table.idxOf c).toUInt8 := by rw [dtable, if_neg hne, if_pos h]
  have hlt := List.idxOf_lt_length_of_mem h
  rw [base64Table_length] at hlt
  refine ⟨heq, ?_⟩
  rw [heq]
  simp
  omega

theorem dtable_lt (h : c ∈ base64Table) : dtable c < 64 := by
  have hlt := List.idxOf_lt_length_of_mem h
  rw [UInt8.lt_iff_toNat_lt, (dtable_of_mem h).2]
  rwa [base64Table_length] at hlt

theorem serverChar_dtable (h : c ∈ base64Table) : serverChar (dtable c) = c := by
  have hlt := List.idxOf_lt_length_of_mem h
  rw [serverChar, (dtable_of_mem h).2, List.getD_eq_getElem _ _ hlt]
  exact List.getElem_idxOf hlt

theorem dtable_serverChar (h : s < 64) : dtable (serverChar s) = s := by
  apply UInt8.toNat_inj.1
  rw [(dtable_of_mem (serverChar_mem h)).2, serverChar,
    List.getD_eq_getElem _ _ (toNat_lt_length h)]
  exact base64Table_nodup.idxOf_getElem _ _

theorem getElem?_eq_some_getD {l : List UInt8} {i : ℕ} (h : i < l.length) :
    l[i]? = some (l.getD i 0) := by
  rw [List.getElem?_eq_getElem h, List.getD_eq_getElem _ _ h]

/-- The alphabet of `get_flag`, after both replacements. -/
def checkerChar (s : UInt8) : UInt8 :=
  let c := if pythonChar s = byte '+' then byte '-' else pythonChar s
  if c = byte '/' then byte '_' else c

theorem replace_pythonTable :
    replace (replace pythonTable (byte '+') (byte '-')) (byte '/') (byte '_') = base64Table := by
  decide

theorem pythonTable_length : pythonTable.length = 64 := by decide

/-- Python's alphabet becomes the one of the server. -/
theorem checkerChar_eq (h : s < 64) : checkerChar s = serverChar s := by
  have hserver : base64Table[s.toNat]? = some (serverChar s) :=
    getElem?_eq_some_getD (toNat_lt_length h)
  have hpython : pythonTable[s.toNat]? = some (pythonChar s) := by
    apply getElem?_eq_some_getD
    rw [pythonTable_length]
    exact UInt8.lt_iff_toNat_lt.1 h
  have hreplaced : (replace (replace pythonTable (byte '+') (byte '-')) (byte '/')
      (byte '_'))[s.toNat]? = some (checkerChar s) := by
    simp only [replace, List.getElem?_map, hpython, Option.map_some, checkerChar]
  rw [replace_pythonTable, hserver] at hreplaced
  exact (Option.some.inj hreplaced).symm

end Alphabet

/-! ## Encoding -/

/-- **The checker writes the sextets in the alphabet of the server.** -/
theorem encode_eq {l : List UInt8} (h : 3 ∣ l.length) :
    replace (replace (b64encode l) (byte '+') (byte '-')) (byte '/') (byte '_') =
      (ofBytes l).map serverChar := by
  refine triples (P := fun l => replace (replace (b64encode l) (byte '+') (byte '-')) (byte '/')
    (byte '_') = (ofBytes l).map serverChar) rfl ?_ l h
  intro a b c rest ih
  rw [ofBytes, List.map_cons, List.map_cons, List.map_cons, List.map_cons, ← ih,
    ← checkerChar_eq (sextet0_lt a), ← checkerChar_eq (sextet1_lt a b),
    ← checkerChar_eq (sextet2_lt b c), ← checkerChar_eq (sextet3_lt c)]
  rfl

/-! ## Decoding -/

section Decoding

variable {src out block bytes : List UInt8} {pad : ℕ}

theorem dtable_eq_iff (c : UInt8) : dtable c = 0x80 ∨ c = byte '=' ∨ c ∈ base64Table := by
  by_cases hequals : c = byte '='
  · exact .inr (.inl hequals)
  by_cases hmem : c ∈ base64Table
  · exact .inr (.inr hmem)
  · exact .inl (by rw [dtable, if_neg hequals, if_neg hmem])

theorem dtable_ne {c : UInt8} (h : c ∈ base64Table) : dtable c ≠ 0x80 := by
  intro heq
  have hlt := dtable_lt h
  rw [heq] at hlt
  exact absurd hlt (by decide)

/-- The number of `=` after a character. -/
def padAfter (pad : ℕ) (c : UInt8) : ℕ := if c = byte '=' then pad + 1 else pad

theorem padAfter_of_mem {c : UInt8} (h : c ∈ base64Table) : padAfter pad c = pad := by
  refine if_neg ?_
  rintro rfl
  exact equals_notMem h

theorem mem_of_padAfter {c : UInt8} (hc : dtable c ≠ 0x80) (h : padAfter pad c = 0) :
    pad = 0 ∧ c ∈ base64Table := by
  unfold padAfter at h
  split at h
  · omega
  · exact ⟨h, ((dtable_eq_iff c).resolve_left hc).resolve_left ‹_›⟩

/-- One character in the middle of a block. -/
theorem decodeLoop_cons {c : UInt8} (hc : dtable c ≠ 0x80) (hblock : block.length < 3) :
    decodeLoop (c :: src) block pad out =
      decodeLoop src (block ++ [dtable c]) (padAfter pad c) out := by
  have hmatch : ∀ s t u, block ≠ [s, t, u] := by
    rintro s t u rfl
    simp at hblock
  rw [decodeLoop, if_neg hc]
  dsimp only [padAfter]
  split
  · exact absurd rfl (hmatch _ _ _)
  · rfl

/-- The last character of a block. -/
theorem decodeLoop_block {c : UInt8} (hc : dtable c ≠ 0x80) (s t u : UInt8) :
    decodeLoop (c :: src) [s, t, u] pad out =
      let out := out ++ [byte0 s t, byte1 t u, byte2 u (dtable c)]
      if padAfter pad c = 0 then decodeLoop src [] (padAfter pad c) out
      else if padAfter pad c = 1 then some (out.take (out.length - 1))
      else if padAfter pad c = 2 then some (out.take (out.length - 2))
      else none := by
  rw [decodeLoop, if_neg hc]
  rfl

/-- Characters of the alphabet are decoded block by block. -/
theorem decodeLoop_eq (h : 4 ∣ src.length) (hmem : ∀ c ∈ src, c ∈ base64Table) (out : List UInt8) :
    decodeLoop src [] 0 out = some (out ++ toBytes (src.map dtable)) := by
  revert hmem out
  refine quadruples (P := fun src => (∀ c ∈ src, c ∈ base64Table) → ∀ out,
    decodeLoop src [] 0 out = some (out ++ toBytes (src.map dtable))) ?_ ?_ src h
  · intro _ out
    simp [decodeLoop, toBytes]
  · intro a b c d rest ih hmem out
    have ha := hmem a (by simp)
    have hb := hmem b (by simp)
    have hc := hmem c (by simp)
    have hd := hmem d (by simp)
    rw [decodeLoop_cons (dtable_ne ha) (by simp), decodeLoop_cons (dtable_ne hb) (by simp),
      decodeLoop_cons (dtable_ne hc) (by simp), padAfter_of_mem ha, padAfter_of_mem hb,
      padAfter_of_mem hc]
    refine (decodeLoop_block (dtable_ne hd) _ _ _).trans ?_
    simp only [padAfter_of_mem hd, if_true]
    rw [ih fun c hc => hmem c (by simp [hc])]
    simp [toBytes]

/-- **The loop writes three bytes for four characters at most**, and as many only if all
characters are in the alphabet. -/
theorem decodeLoop_bound (h : decodeLoop src block pad out = some bytes) (hblock : block.length ≤ 3)
    (hpad : block = [] → pad = 0) :
    4 * bytes.length ≤ 4 * out.length + 3 * (block.length + src.length) ∧
      (4 * bytes.length = 4 * out.length + 3 * (block.length + src.length) →
        pad = 0 ∧ ∀ c ∈ src, c ∈ base64Table) := by
  induction src generalizing block pad out with
  | nil =>
    obtain rfl : out = bytes := by simpa [decodeLoop] using h
    refine ⟨by omega, fun heq => ⟨hpad ?_, by simp⟩⟩
    rw [List.length_nil] at heq
    exact List.length_eq_zero_iff.1 (by omega)
  | cons c src ih =>
    by_cases hc : dtable c = 0x80
    · -- the character is skipped and cannot be made up for
      rw [decodeLoop, if_pos hc] at h
      have hbound := (ih h hblock hpad).1
      rw [List.length_cons]
      exact ⟨by omega, fun heq => absurd heq (by omega)⟩
    by_cases hlen : block.length = 3
    · obtain ⟨s, t, u, rfl⟩ := List.length_eq_three.1 hlen
      rw [decodeLoop_block hc] at h
      dsimp only at h
      split at h
      · rename_i hzero
        obtain ⟨rfl, hmem⟩ := mem_of_padAfter hc hzero
        obtain ⟨hbound, hall⟩ := ih h (by simp) (fun _ => hzero)
        rw [List.length_append] at hbound hall
        refine ⟨?_, fun heq => ⟨rfl, List.forall_mem_cons.2 ⟨hmem, (hall ?_).2⟩⟩⟩
        · simp only [List.length_cons, List.length_nil] at hbound ⊢
          omega
        · simp only [List.length_cons, List.length_nil] at heq ⊢
          omega
      · -- a padded block ends the loop with fewer bytes
        have hshort : 4 * bytes.length < 4 * out.length +
            3 * ([s, t, u].length + (c :: src).length) := by
          simp only [List.length_cons, List.length_nil]
          split at h
          · rw [← Option.some.inj h]
            simp only [List.length_take, List.length_append, List.length_cons, List.length_nil]
            omega
          · split at h
            · rw [← Option.some.inj h]
              simp only [List.length_take, List.length_append, List.length_cons, List.length_nil]
              omega
            · cases h
        exact ⟨hshort.le, fun heq => absurd heq hshort.ne⟩
    · rw [decodeLoop_cons hc (by omega)] at h
      obtain ⟨hbound, hall⟩ := ih h (by simp; omega) (by simp)
      simp only [List.length_append, List.length_cons, List.length_nil] at hbound hall ⊢
      refine ⟨by omega, fun heq => ?_⟩
      obtain ⟨hzero, hrest⟩ := hall (by omega)
      obtain ⟨rfl, hmem⟩ := mem_of_padAfter hc hzero
      exact ⟨rfl, List.forall_mem_cons.2 ⟨hmem, hrest⟩⟩

/-- **32 characters are decoded to 24 bytes if and only if all of them are in the
alphabet**, and then they are the characters of these bytes. -/
theorem base64Decode_eq_some_iff (hsrc : src.length = 32) (hbytes : bytes.length = 24) :
    base64Decode src = some bytes ↔ src = (ofBytes bytes).map serverChar := by
  constructor
  · intro h
    unfold base64Decode at h
    dsimp only at h
    split at h
    · cases h
    have hmem : ∀ c ∈ src, c ∈ base64Table :=
      ((decodeLoop_bound h (by simp) (fun _ => rfl)).2 (by simp [hsrc, hbytes])).2
    rw [decodeLoop_eq ⟨8, hsrc⟩ hmem, List.nil_append, Option.some.injEq] at h
    rw [← h, ofBytes_toBytes ⟨8, by simpa using hsrc⟩, List.map_map]
    · refine ((List.map_congr_left fun c hc => ?_).trans (List.map_id src)).symm
      exact serverChar_dtable (hmem c hc)
    · intro s hs
      obtain ⟨c, hc, rfl⟩ := List.mem_map.1 hs
      exact dtable_lt (hmem c hc)
  · rintro rfl
    have hlt := lt_of_mem_ofBytes (l := bytes) ⟨8, hbytes⟩
    have hmem : ∀ c ∈ (ofBytes bytes).map serverChar, c ∈ base64Table := by
      intro c hc
      obtain ⟨s, hs, rfl⟩ := List.mem_map.1 hc
      exact serverChar_mem (hlt s hs)
    have hcount : ((ofBytes bytes).map serverChar).countP (fun c => dtable c ≠ 0x80) = 32 := by
      rw [List.countP_eq_length.2 fun c hc => by simpa using dtable_ne (hmem c hc), hsrc]
    have hsextets : ((ofBytes bytes).map serverChar).map dtable = ofBytes bytes := by
      rw [List.map_map]
      refine (List.map_congr_left fun s hs => ?_).trans (List.map_id _)
      exact dtable_serverChar (hlt s hs)
    unfold base64Decode
    dsimp only
    rw [hcount, if_neg (by decide), decodeLoop_eq ⟨8, hsrc⟩ hmem, hsextets,
      toBytes_ofBytes ⟨8, hbytes⟩, List.nil_append]

end Decoding

/-! ## The memory of a flag -/

namespace FlagFormat

/-- The memory of a flag. -/
def bytes (f : FlagFormat) : List UInt8 := f.data ++ f.mac.toList

theorem length_bytes (f : FlagFormat) : f.bytes.length = 24 := by
  simp [bytes, data, uint16Bytes]

theorem toNat_uint16 (low high : UInt8) :
    (uint16 low high).toNat = high.toNat * 256 + low.toNat := by
  have hlow := low.toNat_lt
  have hhigh := high.toNat_lt
  have hor := Nat.shiftLeft_add_eq_or_of_lt hlow high.toNat
  rw [Nat.shiftLeft_eq] at hor
  have hshift : (high.toUInt16 <<< 8).toNat = high.toNat * 2 ^ 8 := by
    simp [Nat.shiftLeft_eq]
    omega
  rw [uint16, UInt16.toNat_or, UInt8.toNat_toUInt16, hshift, Nat.or_comm, ← hor]

theorem uint16_bytes (n : UInt16) : uint16 n.toUInt8 (n >>> 8).toUInt8 = n := by
  have hn := n.toNat_lt
  rw [← UInt16.toNat_inj, toNat_uint16]
  simp [Nat.shiftRight_eq_div_pow]
  omega

theorem bytes_uint16 (low high : UInt8) : uint16Bytes (uint16 low high) = [low, high] := by
  have hlow := low.toNat_lt
  have hhigh := high.toNat_lt
  have h0 : (uint16 low high).toUInt8 = low := by
    rw [← UInt8.toNat_inj, UInt16.toNat_toUInt8, toNat_uint16]
    omega
  have h1 : (uint16 low high >>> 8).toUInt8 = high := by
    rw [← UInt8.toNat_inj, UInt16.toNat_toUInt8, UInt16.toNat_shiftRight, toNat_uint16]
    simp [Nat.shiftRight_eq_div_pow]
    omega
  rw [uint16Bytes, h0, h1]

/-- A flag is read from its memory, and from nothing else. -/
theorem ofBytes_eq_some_iff {l : List UInt8} {f : FlagFormat} :
    ofBytes l = some f ↔ l = f.bytes := by
  constructor
  · intro h
    unfold ofBytes at h
    split at h
    · split at h
      · rw [← Option.some.inj h]
        simp [bytes, data, bytes_uint16]
      · cases h
    · cases h
  · rintro rfl
    obtain ⟨round, teamId, serviceId, payload, mac⟩ := f
    simp [bytes, data, uint16Bytes, ofBytes, uint16_bytes, Vector.toList]

end FlagFormat

/-! ## The text of a flag -/

/-- The text of a flag. -/
def flagText (flagPrefix : String) (f : FlagFormat) : List UInt8 :=
  utf8 flagPrefix ++ byte '\x7b' :: (ofBytes f.bytes).map serverChar ++ [byte '\x7d']

theorem length_encoded (f : FlagFormat) : ((ofBytes f.bytes).map serverChar).length = 32 := by
  have hlength := length_ofBytes (l := f.bytes) ⟨8, f.length_bytes⟩
  rw [f.length_bytes] at hlength
  rw [List.length_map]
  omega

/-- A text of 38 characters, cut up as the server does. -/
theorem eq_of_parts {l start : List UInt8} {a b : UInt8} (hlength : l.length = 38)
    (hstart : l.take 4 = start) (ha : l[4]? = some a) (hb : l[37]? = some b) :
    l = start ++ a :: (l.drop 5).take 32 ++ [b] := by
  obtain ⟨h4, rfl⟩ := List.getElem?_eq_some_iff.1 ha
  obtain ⟨h37, rfl⟩ := List.getElem?_eq_some_iff.1 hb
  have hlast : (l.drop 5).drop 32 = [l[37]] := by
    rw [List.drop_drop, List.drop_eq_getElem_cons h37, List.drop_eq_nil_of_le (by omega)]
  rw [← hstart, List.append_assoc, List.cons_append, ← hlast, List.take_append_drop,
    ← List.drop_eq_getElem_cons h4, List.take_append_drop]

section Text

variable {flagPrefix : String} (hlen : (utf8 flagPrefix).length = 4) {charIsSigned : Bool}
  {line : List UInt8} {f : FlagFormat}

include hlen

theorem length_flagText (f : FlagFormat) : (flagText flagPrefix f).length = 38 := by
  rw [flagText, List.length_append, List.length_append, List.length_cons, length_encoded, hlen]
  rfl

/-- **A line decodes to a flag if and only if it is the text of that flag**, up to what the
server trims. -/
theorem parseFlag_eq_ok_iff :
    parseFlag charIsSigned flagPrefix line = .ok f ↔
      rtrim charIsSigned line = flagText flagPrefix f := by
  unfold parseFlag
  dsimp only
  rw [hlen]
  constructor
  · intro h
    split at h
    · cases h
    split at h
    · cases h
    split at h
    · cases h
    rename_i hlength hformat
    push Not at hlength hformat
    obtain ⟨hstart, hopen, hclose⟩ := hformat
    split at h
    · rename_i binaryFlag hdecode
      obtain rfl : binaryFlag = f := by simpa using h
      obtain ⟨bytes, hbase64, hbytes⟩ := Option.bind_eq_some_iff.1 hdecode
      rw [FlagFormat.ofBytes_eq_some_iff] at hbytes
      subst hbytes
      rw [base64Decode_eq_some_iff (by simp [hlength]) binaryFlag.length_bytes] at hbase64
      rw [flagText, ← hbase64]
      exact eq_of_parts hlength hstart hopen hclose
    · cases h
  · intro h
    have hlength := length_flagText hlen f
    have hencoded := length_encoded f
    have hstart : (flagText flagPrefix f).take 4 = utf8 flagPrefix := by
      rw [flagText, List.append_assoc, ← hlen, List.take_left]
    have hopen : (flagText flagPrefix f)[4]? = some (byte '\x7b') := by
      rw [flagText, List.append_assoc, ← hlen, List.getElem?_append_right le_rfl]
      simp
    have hclose : (flagText flagPrefix f)[37]? = some (byte '\x7d') := by
      have hbefore : (utf8 flagPrefix ++ byte '\x7b' :: (ofBytes f.bytes).map serverChar).length =
          37 := by
        rw [List.length_append, List.length_cons, hencoded, hlen]
      rw [flagText, ← hbefore, List.getElem?_append_right le_rfl]
      simp
    have hmiddle : ((flagText flagPrefix f).drop 5).take 32 = (ofBytes f.bytes).map serverChar := by
      have hdrop : (flagText flagPrefix f).drop 5 =
          (ofBytes f.bytes).map serverChar ++ [byte '\x7d'] := by
        rw [flagText, List.append_assoc, List.cons_append, List.append_cons]
        exact List.drop_left' (by simp [hlen])
      rw [hdrop]
      exact List.take_left' hencoded
    have hdecode : base64Decode ((ofBytes f.bytes).map serverChar) = some f.bytes :=
      (base64Decode_eq_some_iff hencoded f.length_bytes).2 rfl
    have hnil : flagText flagPrefix f ≠ [] := by
      intro hnil
      rw [hnil] at hlength
      cases hlength
    rw [h, if_neg hnil, if_neg (by simp [hlength]),
      if_neg (by simp [hstart, hopen, hclose]), hmiddle, hdecode, Option.bind_some,
      FlagFormat.ofBytes_eq_some_iff.2 rfl]

end Text

/-! ## The flags of the checker -/

/-- White space in ASCII. -/
def isSpace (c : UInt8) : Bool := c = 0x20 || (0x09 ≤ c && c ≤ 0x0d)

theorem trimmed_of_isSpace {c : UInt8} (h : isSpace c) (charIsSigned : Bool) :
    trimmed charIsSigned c = true := by
  simp only [isSpace, Bool.or_eq_true, Bool.and_eq_true, decide_eq_true_eq] at h
  simp only [trimmed, Bool.or_eq_true, decide_eq_true_eq]
  refine .inl ?_
  rcases h with rfl | ⟨-, hle⟩
  · exact UInt8.le_refl _
  · exact UInt8.le_trans hle (by decide)

/-- The server trims what follows a flag, and no more. -/
theorem rtrim_append (charIsSigned : Bool) (flagPrefix : String) (f : FlagFormat)
    (after : List UInt8) (hafter : ∀ c ∈ after, trimmed charIsSigned c = true) :
    rtrim charIsSigned (flagText flagPrefix f ++ after) = flagText flagPrefix f := by
  induction after using List.reverseRecOn with
  | nil =>
    rw [List.append_nil, rtrim, flagText]
    exact List.rdropWhile_concat_neg _ _ _ (by cases charIsSigned <;> decide)
  | append_singleton after c ih =>
    rw [← List.append_assoc, rtrim, List.rdropWhile_concat_pos _ _ _ (hafter c (by simp))]
    exact ih fun c hc => hafter c (by simp [hc])

/-- What the server trims off a line. -/
theorem exists_append_of_rtrim (charIsSigned : Bool) (line : List UInt8) :
    ∃ after, (∀ c ∈ after, trimmed charIsSigned c = true) ∧
      line = rtrim charIsSigned line ++ after :=
  ⟨line.rtakeWhile (trimmed charIsSigned), fun _ hc => List.mem_rtakeWhile_imp hc,
    (List.rdropWhile_append_rtakeWhile).symm⟩

/-- The flag that `get_flag` writes. -/
def issuedFlag (hmac : Hmac) (secretFlagKey : Vector UInt8 32) (serviceId teamId : ℕ) (tick : ℤ)
    (payload : ℕ) : FlagFormat :=
  let flag : FlagFormat :=
    { round := (tick % 65536).toNat.toUInt16, teamId := teamId.toUInt16,
      serviceId := serviceId.toUInt16, payload := payload.toUInt16, mac := Vector.replicate 16 0 }
  { flag with mac := (hmac secretFlagKey.toList flag.data).take 16 }

theorem structPack_cons {n : ℕ} (h : n < 65536) {ns : List ℕ} {rest : List UInt8}
    (hrest : structPack ns = some rest) :
    structPack (n :: ns) = some (uint16Bytes n.toUInt16 ++ rest) := by
  have hlow : (n % 256).toUInt8 = n.toUInt16.toUInt8 := by
    rw [← UInt8.toNat_inj]
    simp
  have hhigh : (n / 256).toUInt8 = (n.toUInt16 >>> 8).toUInt8 := by
    rw [← UInt8.toNat_inj]
    simp [Nat.shiftRight_eq_div_pow]
    omega
  rw [structPack, hrest]
  simp [h, hlow, hhigh, uint16Bytes]

theorem mac_issuedFlag (hmac : Hmac) (key : Vector UInt8 32) (serviceId teamId : ℕ) (tick : ℤ)
    (payload : ℕ) :
    (issuedFlag hmac key serviceId teamId tick payload).mac.toList =
      (hmac key.toList (issuedFlag hmac key serviceId teamId tick payload).data).toList.take 16 :=
  Vector.toList_take

section RoundTrip

variable (hmac : Hmac) (key : Vector UInt8 32) {serviceId teamId payload : ℕ} (tick : ℤ)
  (hservice : serviceId < 65536) (hteam : teamId < 65536) (hpayload : payload < 65536)

include hservice hteam hpayload

/-- **`get_flag` writes the text of the flag with these fields.** -/
theorem getFlag_eq (flagPrefix : String) :
    getFlag hmac key flagPrefix serviceId teamId tick payload =
      some (flagText flagPrefix (issuedFlag hmac key serviceId teamId tick payload)) := by
  have htick : (tick % 65536).toNat < 65536 := by omega
  have hdata : structPack [(tick % 65536).toNat, teamId, serviceId, payload] =
      some (issuedFlag hmac key serviceId teamId tick payload).data := by
    rw [structPack_cons htick (structPack_cons hteam (structPack_cons hservice
      (structPack_cons hpayload rfl)))]
    simp [FlagFormat.data, issuedFlag]
  have hmac' := mac_issuedFlag hmac key serviceId teamId tick payload
  have hbytes := (issuedFlag hmac key serviceId teamId tick payload).length_bytes
  rw [getFlag, hdata, Option.bind_eq_bind, Option.bind_some]
  dsimp only
  rw [macLength, ← hmac', ← FlagFormat.bytes, encode_eq ⟨8, hbytes⟩, flagText]

/-- **Flags survive the way from the checker to the server.**  The server decodes what
`get_flag` writes, followed by any white space, to the same fields and accepts its MAC; and
every line that it decodes to these fields with a MAC that it accepts is that flag, up to
the bytes it trims. -/
theorem flag_round_trip (charIsSigned : Bool) (flagPrefix : String)
    (hlen : (utf8 flagPrefix).length = 4) :
    ∃ flag, getFlag hmac key flagPrefix serviceId teamId tick payload = some flag ∧
      (∀ after, (∀ c ∈ after, isSpace c = true) →
        ∃ f, parseFlag charIsSigned flagPrefix (flag ++ after) = .ok f ∧
          (f.round.toNat : ℤ) = tick % 2 ^ 16 ∧ f.teamId.toNat = teamId ∧
          f.serviceId.toNat = serviceId ∧ f.payload.toNat = payload ∧
          verifyHmac hmac key f = true) ∧
      ∀ line f, parseFlag charIsSigned flagPrefix line = .ok f →
        (f.round.toNat : ℤ) = tick % 2 ^ 16 → f.teamId.toNat = teamId →
        f.serviceId.toNat = serviceId → f.payload.toNat = payload →
        verifyHmac hmac key f = true →
        ∃ after, (∀ c ∈ after, trimmed charIsSigned c = true) ∧ line = flag ++ after := by
  have hround : ((tick % 65536).toNat.toUInt16.toNat : ℤ) = tick % 2 ^ 16 := by
    simp
    omega
  have hnat : ∀ {n : ℕ}, n < 65536 → n.toUInt16.toNat = n := by
    intro n hn
    simpa using hn
  refine ⟨_, getFlag_eq hmac key tick hservice hteam hpayload flagPrefix, ?_, ?_⟩
  · intro after hafter
    have htrim := rtrim_append charIsSigned flagPrefix
      (issuedFlag hmac key serviceId teamId tick payload) after
      fun c hc => trimmed_of_isSpace (hafter c hc) charIsSigned
    refine ⟨issuedFlag hmac key serviceId teamId tick payload,
      (parseFlag_eq_ok_iff hlen).2 htrim, hround, hnat hteam, hnat hservice, hnat hpayload, ?_⟩
    exact decide_eq_true (mac_issuedFlag hmac key serviceId teamId tick payload)
  · intro line f hparse hf hfteam hfservice hfpayload hverify
    -- fields and MAC are those of the flag of the checker
    have heq : f = issuedFlag hmac key serviceId teamId tick payload := by
      obtain ⟨round, team, service, pl, mac⟩ := f
      obtain rfl : round = (tick % 65536).toNat.toUInt16 := by
        rw [← UInt16.toNat_inj]
        exact_mod_cast hf.trans hround.symm
      obtain rfl : team = teamId.toUInt16 := UInt16.toNat_inj.1 (hfteam.trans (hnat hteam).symm)
      obtain rfl : service = serviceId.toUInt16 :=
        UInt16.toNat_inj.1 (hfservice.trans (hnat hservice).symm)
      obtain rfl : pl = payload.toUInt16 :=
        UInt16.toNat_inj.1 (hfpayload.trans (hnat hpayload).symm)
      have hmac := (of_decide_eq_true hverify).trans
        (mac_issuedFlag hmac key serviceId teamId tick payload).symm
      simpa [issuedFlag] using Vector.toList_inj.1 hmac
    obtain ⟨after, hafter, hline⟩ := exists_append_of_rtrim charIsSigned line
    rw [(parseFlag_eq_ok_iff hlen).1 hparse, heq] at hline
    exact ⟨after, hafter, hline⟩

end RoundTrip

/-- A function in the place of HMAC-SHA256. -/
def exampleHmac : Hmac := fun key data => Vector.replicate 32 ((key ++ data).foldl (· + ·) 0)

/-- A flag of tick -1337, with a line feed. -/
theorem flag_round_trip_test_tick :
    ∃ flag, getFlag exampleHmac (.replicate 32 97) "SAAR" 12 7 (-1337) 17 = some flag ∧
      ∃ f, parseFlag true "SAAR" (flag ++ [0x0a]) = .ok f ∧
        (f.round.toNat : ℤ) = -1337 % 2 ^ 16 := by
  obtain ⟨flag, hflag, hparse, -⟩ := flag_round_trip exampleHmac (.replicate 32 97) (-1337)
    (by decide : 12 < 65536) (by decide : 7 < 65536)
      (by decide : 17 < 65536) true "SAAR" (by decide)
  obtain ⟨f, hf, hround, -⟩ := hparse [0x0a] (List.forall_mem_singleton.2 (by decide))
  exact ⟨flag, hflag, f, hf, hround⟩

/-- The server also trims a NUL byte, which is not white space; and it rejects the flags
with a prefix of four characters that takes five bytes. -/
theorem flag_round_trip_limits :
    (∃ flag, getFlag exampleHmac (.replicate 32 97) "SAAR" 12 7 1337 0 = some flag ∧
      parseFlag true "SAAR" (flag ++ [0]) =
        .ok (issuedFlag exampleHmac (.replicate 32 97) 12 7 1337 0) ∧
      verifyHmac exampleHmac (.replicate 32 97)
        (issuedFlag exampleHmac (.replicate 32 97) 12 7 1337 0) = true ∧
      ¬ ∃ after, (∀ c ∈ after, isSpace c = true) ∧ flag ++ [0] = flag ++ after) ∧
    "SÄAR".length = 4 ∧
    ∃ flag, getFlag exampleHmac (.replicate 32 97) "SÄAR" 12 7 1337 0 = some flag ∧
      parseFlag true "SÄAR" flag = .error .wrongLength := by
  have hflag := fun flagPrefix => getFlag_eq exampleHmac (.replicate 32 97) 1337
    (by decide : 12 < 65536) (by decide : 7 < 65536) (by decide : 0 < 65536) flagPrefix
  refine ⟨⟨_, hflag "SAAR", ?_, ?_, ?_⟩, by decide, ⟨_, hflag "SÄAR", ?_⟩⟩
  · exact (parseFlag_eq_ok_iff (by decide)).2
      (rtrim_append true "SAAR" _ [0] (List.forall_mem_singleton.2 (by decide)))
  · exact decide_eq_true (mac_issuedFlag _ _ _ _ _ _)
  · rintro ⟨after, hafter, heq⟩
    rw [← List.append_cancel_left heq] at hafter
    exact absurd (hafter 0 (by simp)) (by decide)
  · have htrim := rtrim_append true "SÄAR"
      (issuedFlag exampleHmac (.replicate 32 97) 12 7 1337 0) [] (by simp)
    rw [List.append_nil] at htrim
    have hlength : (flagText "SÄAR"
      (issuedFlag exampleHmac (.replicate 32 97) 12 7 1337 0)).length =
        39 := by
      rw [flagText, List.length_append, List.length_append, List.length_cons, length_encoded]
      decide
    have hnil : flagText "SÄAR" (issuedFlag exampleHmac (.replicate 32 97) 12 7 1337 0) ≠ [] :=
      List.ne_nil_of_length_pos (by omega)
    unfold parseFlag
    dsimp only
    rw [htrim, if_neg hnil, if_pos (by omega)]

end Gameserver.Submission
