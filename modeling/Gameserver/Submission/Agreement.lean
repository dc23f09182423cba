import Gameserver.Submission.Inspector

/-!
# The flag inspector and the server

Where the page and `progress_flag` look at the same text, the page is more lenient: it skips
characters that it does not know, and reads both alphabets.  The flag it offers is written in
the alphabet that the server does not read.

* `Clean` — the texts that the server reads as the page does.
* `passes_text_iff`, `passes_repaired_iff` — a valid flag, and one that is offered.
* `agrees_iff` — **when the page and the server agree**.
-/

namespace Gameserver.Submission

open Json (Text)
open Strings hiding isSpace
open Sextets (byte0 byte1 byte2 ofBytes toBytes)

variable {hmac : Hmac} {panel : Panel} {charIsSigned : Bool} {text flag body : Text} {page : Page}
  {flagPrefix : String} {f : FlagFormat} {rest : List UInt8} {c : Char}

/-! ## Characters -/

/-- `[A-Za-z0-9-_]`, as the page prints it. -/
def flagChars : Text := "ABCDEFGHIJKLMNOPQRSTUVWXYZabcdefghijklmnopqrstuvwxyz0123456789-_".toList

theorem lt_of_mem_flagChars (h : c ∈ flagChars) : c.toNat < 128 := by
  have hall : (flagChars.all fun c => c.toNat < 128) = true := by decide +kernel
  simpa using List.all_eq_true.mp hall c h

theorem byte_injOn {d : Char} (hc : c.toNat < 128) (hd : d.toNat < 128) (h : byte c = byte d) :
    c = d := by
  have hnat := congrArg UInt8.toNat h
  simp only [byte, Nat.toUInt8_eq, UInt8.toNat_ofNat'] at hnat
  exact Char.toNat_inj.mp (by omega)

theorem byte_mem_iff (h : c.toNat < 128) : byte c ∈ base64Table ↔ c ∈ flagChars := by
  constructor
  · intro hmem
    obtain ⟨d, hd, heq⟩ := List.mem_map.mp (show byte c ∈ flagChars.map byte from hmem)
    rwa [← byte_injOn (lt_of_mem_flagChars hd) h heq]
  · exact fun hmem => List.mem_map_of_mem hmem

/-- What the page makes of a character. -/
def standardChar (c : Char) : Char :=
  if (if c = '-' then '+' else c) = '_' then '/' else if c = '-' then '+' else c

theorem replaceChar_eq (body : Text) :
    replaceChar '_' '/' (replaceChar '-' '+' body) = body.map standardChar := by
  rw [replaceChar, replaceChar, List.map_map]
  rfl

/-- It is in Python's alphabet, with the sextet that it has for the server. -/
theorem standardChar_of_mem (h : c ∈ flagChars) :
    (standardChar c).toNat < 128 ∧ byte (standardChar c) ≠ byte '=' ∧
      a2bTable (byte (standardChar c)) = some (dtable (byte c)) := by
  have hall : (flagChars.all fun c => (standardChar c).toNat < 128 ∧
      byte (standardChar c) ≠ byte '=' ∧
        a2bTable (byte (standardChar c)) = some (dtable (byte c))) = true := by
    decide +kernel
  simpa using List.all_eq_true.mp hall c h

/-! ## UTF-8 -/

theorem utf8_ofList (text : Text) :
    utf8 (String.ofList text) = text.flatMap String.utf8EncodeChar := by
  rw [utf8, String.toList_ofList]

theorem utf8_ofList_append (a b : Text) :
    utf8 (String.ofList (a ++ b)) = utf8 (String.ofList a) ++ utf8 (String.ofList b) := by
  rw [utf8_ofList, utf8_ofList, utf8_ofList, List.flatMap_append]

/-- ASCII is one byte each. -/
theorem utf8_of_ascii (h : ∀ c ∈ text, c.toNat < 128) :
    utf8 (String.ofList text) = text.map byte := by
  rw [utf8_ofList]
  induction text with
  | nil => rfl
  | cons c text ih =>
    rw [List.flatMap_cons, utf8EncodeChar_of_lt (h c List.mem_cons_self),
      ih fun d hd => h d (List.mem_cons_of_mem c hd)]
    rfl

/-- A character is one to four bytes. -/
theorem length_utf8_bounds (text : Text) : text.length ≤ (utf8 (String.ofList text)).length ∧
    (utf8 (String.ofList text)).length ≤ 4 * text.length := by
  rw [utf8_ofList]
  induction text with
  | nil => simp
  | cons c text ih =>
    have hpos := Char.utf8Size_pos c
    have hle := Char.utf8Size_le_four c
    rw [List.flatMap_cons, List.length_append, String.length_utf8EncodeChar, List.length_cons]
    omega

/-- As many bytes as characters are ASCII. -/
theorem ascii_of_length (h : (utf8 (String.ofList text)).length ≤ text.length) :
    ∀ c ∈ text, c.toNat < 128 := by
  induction text with
  | nil => exact fun c hc => absurd hc List.not_mem_nil
  | cons c text ih =>
    have hpos := Char.utf8Size_pos c
    have hlow := (length_utf8_bounds text).1
    rw [utf8_ofList, List.flatMap_cons, List.length_append, ← utf8_ofList,
      String.length_utf8EncodeChar, List.length_cons] at h
    have hone : c.utf8Size = 1 := by omega
    refine List.forall_mem_cons.mpr ⟨?_, ih (by omega)⟩
    rw [Char.utf8Size_eq_one_iff, UInt32.le_iff_toNat_le] at hone
    exact Nat.lt_succ_of_le hone

/-- Bytes of the server's alphabet are characters of it. -/
theorem flagChars_of_bytes (h : ∀ b ∈ utf8 (String.ofList text), b ∈ base64Table) :
    ∀ c ∈ text, c ∈ flagChars := by
  intro c hc
  have hbytes : ∀ b ∈ String.utf8EncodeChar c, b ∈ base64Table := by
    intro b hb
    refine h b ?_
    rw [utf8_ofList]
    exact List.mem_flatMap.mpr ⟨c, hc, hb⟩
  have hascii : ∀ b ∈ base64Table, b.toNat < 128 := by
    intro b hb
    obtain ⟨d, hd, rfl⟩ := List.mem_map.mp (show b ∈ flagChars.map byte from hb)
    have hlt := lt_of_mem_flagChars hd
    rw [byte, Nat.toUInt8_eq, UInt8.toNat_ofNat']
    omega
  by_cases hlt : c.toNat < 128
  · rw [utf8EncodeChar_of_lt hlt] at hbytes
    exact (byte_mem_iff hlt).mp (hbytes _ List.mem_cons_self)
  · obtain ⟨b, hb⟩ := List.exists_mem_of_ne_nil _ (String.utf8EncodeChar_ne_nil (c := c))
    have hhigh := le_of_mem_utf8EncodeChar (not_lt.mp hlt) hb
    exact absurd (hascii b (hbytes b hb)) (by omega)

/-! ## Decoding -/

/-- Characters that are read at all are read four by four. -/
theorem a2bLoop_of_letters {α : Type*} {g s : α → UInt8} {data : List UInt8} :
    ∀ l : List α, (∀ x ∈ l, g x ≠ byte '=' ∧ a2bTable (g x) = some (s x)) → ∀ pads out,
      a2bLoop (l.map g) [] pads out = .ok data → 4 ∣ l.length ∧ data = out ++ toBytes (l.map s)
  | [], _, _, _, hok => by
    simp only [List.map_nil, a2bLoop, Except.ok.injEq] at hok
    simp [toBytes, hok]
  | [x], h, _, _, hok => by
    obtain ⟨hx, hs⟩ := h x (by simp)
    simp [a2bLoop, hx, hs] at hok
  | [x, y], h, _, _, hok => by
    obtain ⟨hx, hs⟩ := h x (by simp)
    obtain ⟨hy, ht⟩ := h y (by simp)
    simp [a2bLoop, hx, hs, hy, ht] at hok
  | [x, y, z], h, _, _, hok => by
    obtain ⟨hx, hs⟩ := h x (by simp)
    obtain ⟨hy, ht⟩ := h y (by simp)
    obtain ⟨hz, hu⟩ := h z (by simp)
    simp [a2bLoop, hx, hs, hy, ht, hz, hu] at hok
  | x :: y :: z :: w :: l, h, pads, out, hok => by
    obtain ⟨hx, hs⟩ := h x (by simp)
    obtain ⟨hy, ht⟩ := h y (by simp)
    obtain ⟨hz, hu⟩ := h z (by simp)
    obtain ⟨hw, hv⟩ := h w (by simp)
    simp only [List.map_cons, a2bLoop, hx, hs, hy, ht, hz, hu, hw, hv, if_false] at hok
    obtain ⟨hlength, rfl⟩ := a2bLoop_of_letters l (fun x hx => h x (by simp [hx])) _ _ hok
    constructor
    · simpa [Nat.dvd_add_left] using hlength
    · simp [toBytes]

/-- A body in the alphabet of the server is decoded as by the server. -/
theorem b64decode_flagChars (hbody : ∀ c ∈ body, c ∈ flagChars) {data : List UInt8}
    (h : b64decode (replaceChar '_' '/' (replaceChar '-' '+' body)) = .ok data) :
    4 ∣ body.length ∧ data = toBytes ((body.map byte).map dtable) := by
  rw [b64decode] at h
  split_ifs at h
  rw [a2bBase64, replaceChar_eq, List.map_map] at h
  obtain ⟨hlength, rfl⟩ := a2bLoop_of_letters (s := fun c => dtable (byte c)) body
    (fun c hc => (standardChar_of_mem (hbody c hc)).2) _ _ h
  exact ⟨hlength, by rw [List.nil_append, List.map_map]; rfl⟩

/-- The server's characters of a flag, where the page decodes the body to the flag. -/
theorem map_byte_eq (hbody : ∀ c ∈ body, c ∈ flagChars)
    (h : b64decode (replaceChar '_' '/' (replaceChar '-' '+' body)) = .ok f.bytes) :
    body.map byte = (ofBytes f.bytes).map serverChar := by
  obtain ⟨hlength, hdata⟩ := b64decode_flagChars hbody h
  have hmem : ∀ b ∈ body.map byte, b ∈ base64Table := by
    intro b hb
    obtain ⟨c, hc, rfl⟩ := List.mem_map.mp hb
    exact (byte_mem_iff (lt_of_mem_flagChars (hbody c hc))).mpr (hbody c hc)
  have hlt : ∀ s ∈ (body.map byte).map dtable, s < 64 := by
    intro s hs
    obtain ⟨b, hb, rfl⟩ := List.mem_map.mp hs
    exact dtable_lt (hmem b hb)
  rw [hdata, Sextets.ofBytes_toBytes (by simpa using hlength) hlt, List.map_map]
  refine ((List.map_congr_left fun b hb => ?_).trans (List.map_id _)).symm
  exact serverChar_dtable (hmem b hb)

/-! ## The shape of a flag -/

/-- The page wants a prefix of four characters. -/
theorem length_of_start (hstart : flag.take 5 = flagPrefix.toList ++ ['\x7b'])
    (hclosing : flag.getLast? = some '\x7d') : flagPrefix.toList.length = 4 := by
  have hlength := congrArg List.length hstart
  rw [List.length_take, List.length_append, List.length_singleton] at hlength
  by_cases hlong : 5 ≤ flag.length
  · omega
  · rw [List.take_of_length_le (by omega)] at hstart
    rw [hstart, List.getLast?_concat] at hclosing
    exact absurd (Option.some.inj hclosing) (by decide)

theorem eq_braced (hstart : flag.take 5 = flagPrefix.toList ++ ['\x7b'])
    (hclosing : flag.getLast? = some '\x7d') : flag = braced flagPrefix (flagBody flag) := by
  have hlength := length_of_start hstart hclosing
  have hsplit : flag = flagPrefix.toList ++ '\x7b' :: flag.drop 5 := by
    conv_lhs => rw [← List.take_append_drop 5 flag, hstart, List.append_assoc]
    rfl
  have hne : flag.drop 5 ≠ [] := by
    intro hnil
    rw [hnil] at hsplit
    rw [hsplit, List.getLast?_concat] at hclosing
    exact absurd (Option.some.inj hclosing) (by decide)
  have hlast : (flag.drop 5).getLast hne = '\x7d' := by
    rw [List.getLast_drop]
    exact Option.some.inj ((List.getLast?_eq_some_getLast _).symm.trans hclosing)
  rw [braced, flagBody]
  conv_lhs => rw [hsplit, ← List.dropLast_append_getLast hne, hlast]

theorem utf8_braced (flagPrefix : String) (body : Text) :
    utf8 (String.ofList (braced flagPrefix body)) =
      utf8 flagPrefix ++ byte '\x7b' :: utf8 (String.ofList body) ++ [byte '\x7d'] := by
  have hopen : utf8 (String.ofList ['\x7b']) = [byte '\x7b'] := by decide
  have hclose : utf8 (String.ofList ['\x7d']) = [byte '\x7d'] := by decide
  rw [braced, List.append_cons, utf8_ofList_append, utf8_ofList_append, utf8_ofList_append, hopen,
    hclose, String.ofList_toList]
  simp

/-- Four characters before the brace are ASCII where the server accepts the line. -/
theorem length_utf8_of_shape {line : List UInt8} (h : HasFlagShape flagPrefix line)
    (hlength : flagPrefix.toList.length = 4) : (utf8 flagPrefix).length = 4 := by
  have hbounds := length_utf8_bounds flagPrefix.toList
  rw [String.ofList_toList] at hbounds
  by_contra hne
  -- the brace would be part of the body
  have hmem : byte '\x7b' ∈ (line.drop 5).take 32 := by
    refine List.mem_of_getElem? (i := (utf8 flagPrefix).length - 5) ?_
    rw [List.getElem?_take_of_lt (by omega), List.getElem?_drop,
      show 5 + ((utf8 flagPrefix).length - 5) = (utf8 flagPrefix).length by omega]
    exact h.opening
  exact absurd (h.body _ hmem) (by decide)

/-! ## What the server trims -/

theorem trimmed_of_space (h : Strings.isSpace c = true) (hc : charIsSigned = true ∨ c.toNat < 128) :
    ∀ b ∈ String.utf8EncodeChar c, trimmed charIsSigned b = true := by
  intro b hb
  by_cases hlt : c.toNat < 128
  · have hall : (spaces.all fun c => c.toNat < 128 → c.toNat.toUInt8 ≤ 0x20) = true := by
      decide +kernel
    have hlow := (of_decide_eq_true (List.all_eq_true.mp hall c (of_decide_eq_true h))) hlt
    rw [utf8EncodeChar_of_lt hlt] at hb
    rw [List.mem_singleton.mp hb, trimmed, decide_eq_true hlow, Bool.true_or]
  · have hhigh : 0x80 ≤ b := le_of_mem_utf8EncodeChar (not_lt.mp hlt) hb
    rw [trimmed, hc.resolve_right hlt, decide_eq_true hhigh]
    simp

/-- No byte of white space closes a flag. -/
theorem ne_of_space (h : Strings.isSpace c = true) :
    ∀ b ∈ String.utf8EncodeChar c, b ≠ byte '\x7d' := by
  intro b hb
  by_cases hlt : c.toNat < 128
  · have hall : (spaces.all fun c => c.toNat < 128 → c.toNat.toUInt8 ≠ byte '\x7d') = true := by
      decide +kernel
    rw [utf8EncodeChar_of_lt hlt] at hb
    rw [List.mem_singleton.mp hb]
    exact (of_decide_eq_true (List.all_eq_true.mp hall c (of_decide_eq_true h))) hlt
  · have hhigh := le_of_mem_utf8EncodeChar (not_lt.mp hlt) hb
    rintro rfl
    exact absurd hhigh (by decide)

/-- Where trimming stops in what follows. -/
theorem getLast?_rtrim (before : List UInt8) {after : List UInt8}
    (h : ¬ ∀ b ∈ after, trimmed charIsSigned b = true) :
    ∃ b ∈ after, trimmed charIsSigned b = false ∧
      (rtrim charIsSigned (before ++ after)).getLast? = some b := by
  induction after using List.reverseRecOn with
  | nil => exact absurd (List.forall_mem_nil _) h
  | append_singleton after b ih =>
    rw [← List.append_assoc, rtrim]
    by_cases hb : trimmed charIsSigned b = true
    · rw [List.rdropWhile_concat_pos _ _ _ hb]
      obtain ⟨b', hmem, hrest⟩ := ih fun hall => h fun d hd => by
        rcases List.mem_append.mp hd with hd | hd
        · exact hall d hd
        · exact List.mem_singleton.mp hd ▸ hb
      exact ⟨b', List.mem_append_left _ hmem, hrest⟩
    · rw [List.rdropWhile_concat_neg _ _ _ hb]
      exact ⟨b, by simp, by simpa using hb, List.getLast?_concat⟩

/-- A flag ends in a brace, which stays. -/
theorem rtrim_closed (charIsSigned : Bool) (line : List UInt8) :
    rtrim charIsSigned (line ++ [byte '\x7d']) = line ++ [byte '\x7d'] :=
  List.rdropWhile_concat_neg _ _ _ (by cases charIsSigned <;> decide)

/-! ## Valid flags -/

/-- The text of a flag in the server's alphabet, with nothing before it and nothing after it that
the server does not trim. -/
structure Clean (charIsSigned : Bool) (text : Text) : Prop where
  leading : ∀ c, text.head? = some c → Strings.isSpace c = false
  ascii : charIsSigned = true ∨ ∀ c ∈ text, c.toNat < 128
  body : ∀ c ∈ flagBody (strip Strings.isSpace text), c ∈ flagChars

/-- The server trims what the page strips. -/
theorem Clean.rtrim_eq (h : Clean charIsSigned text)
    (hclosing : (strip Strings.isSpace text).getLast? = some '\x7d') :
    rtrim charIsSigned (utf8 (String.ofList text)) =
      utf8 (String.ofList (strip Strings.isSpace text)) := by
  obtain ⟨front, back, htext, hfront, hback⟩ := exists_strip Strings.isSpace text
  obtain ⟨line, hline⟩ := List.getLast?_eq_some_iff.mp hclosing
  have hnil : front = [] := by
    cases front with
    | nil => rfl
    | cons c front =>
      have hspace := hfront c List.mem_cons_self
      rw [h.leading c (by rw [htext]; rfl)] at hspace
      cases hspace
  have htrimmed : ∀ b ∈ utf8 (String.ofList back), trimmed charIsSigned b = true := by
    intro b hb
    rw [utf8_ofList] at hb
    obtain ⟨c, hc, hmem⟩ := List.mem_flatMap.mp hb
    refine trimmed_of_space (hback c hc) (h.ascii.imp_right fun hall => hall c ?_) b hmem
    rw [htext]
    exact List.mem_append_right _ (List.mem_append_right _ hc)
  have hutf8 : utf8 (String.ofList text) =
      utf8 (String.ofList (strip Strings.isSpace text)) ++ utf8 (String.ofList back) := by
    conv_lhs => rw [htext, hnil, List.nil_append, utf8_ofList_append]
  have hclose : utf8 (String.ofList ['\x7d']) = [byte '\x7d'] := by decide
  rw [hutf8, rtrim_append_of_trimmed htrimmed, hline, utf8_ofList_append, hclose]
  exact rtrim_closed charIsSigned _

/-- A flag that the server accepts begins where the text does. -/
theorem leading_of_flagText (hlen : (utf8 flagPrefix).length = 4)
    (hlength : flagPrefix.toList.length = 4)
    (hstart : (strip Strings.isSpace text).take 5 = flagPrefix.toList ++ ['\x7b'])
    (h : rtrim charIsSigned (utf8 (String.ofList text)) = flagText flagPrefix f) :
    ∀ c, text.head? = some c → Strings.isSpace c = false := by
  intro c hc
  obtain ⟨rest, rfl⟩ : ∃ rest, text = c :: rest := List.head?_eq_some_iff.mp hc
  obtain ⟨d, tail, hchars⟩ : ∃ d tail, flagPrefix.toList = d :: tail :=
    List.exists_cons_of_length_pos (by omega)
  have hascii : ∀ d ∈ flagPrefix.toList, d.toNat < 128 := by
    refine ascii_of_length ?_
    rw [String.ofList_toList]
    omega
  have hd : d.toNat < 128 := hascii d (by rw [hchars]; exact List.mem_cons_self)
  have hhead : (strip Strings.isSpace (c :: rest)).head? = some d := by
    have htake := congrArg List.head? hstart
    rw [List.head?_take, if_neg (by decide), hchars] at htake
    exact htake
  have hbytes : (utf8 (String.ofList (c :: rest))).head? = some (byte d) := by
    obtain ⟨after, hafter⟩ := List.rdropWhile_prefix (trimmed charIsSigned)
      (utf8 (String.ofList (c :: rest)))
    rw [rtrim] at h
    rw [← hafter, h, flagText, ← String.ofList_toList (s := flagPrefix), hchars,
      utf8_ofList, List.flatMap_cons, utf8EncodeChar_of_lt hd]
    rfl
  have hfirst : byte d ∈ String.utf8EncodeChar c := by
    rw [utf8_ofList, List.flatMap_cons,
      List.head?_append_of_ne_nil _ String.utf8EncodeChar_ne_nil] at hbytes
    exact List.mem_of_head? hbytes
  have hc : c.toNat < 128 := by
    by_contra hnot
    have hhigh := le_of_mem_utf8EncodeChar (not_lt.mp hnot) hfirst
    simp only [byte, Nat.toUInt8_eq, UInt8.toNat_ofNat'] at hhigh
    omega
  rw [utf8EncodeChar_of_lt hc] at hfirst
  rw [← byte_injOn hd hc (List.mem_singleton.mp hfirst)]
  exact head_strip hhead

theorem clean_of_flagText (hlen : (utf8 flagPrefix).length = 4)
    (hstart : (strip Strings.isSpace text).take 5 = flagPrefix.toList ++ ['\x7b'])
    (hclosing : (strip Strings.isSpace text).getLast? = some '\x7d')
    (h : rtrim charIsSigned (utf8 (String.ofList text)) = flagText flagPrefix f) :
    Clean charIsSigned text := by
  have hlength := length_of_start hstart hclosing
  have hleading := leading_of_flagText hlen hlength hstart h
  obtain ⟨front, back, htext, hfront, hback⟩ := exists_strip Strings.isSpace text
  have hnil : front = [] := by
    cases front with
    | nil => rfl
    | cons c front =>
      have hspace := hfront c List.mem_cons_self
      rw [hleading c (by rw [htext]; rfl)] at hspace
      cases hspace
  have hutf8 : utf8 (String.ofList text) =
      utf8 (String.ofList (strip Strings.isSpace text)) ++ utf8 (String.ofList back) := by
    conv_lhs => rw [htext, hnil, List.nil_append, utf8_ofList_append]
  have htrimmed : ∀ b ∈ utf8 (String.ofList back), trimmed charIsSigned b = true := by
    -- otherwise a byte of white space would be the last of the flag
    by_contra hnot
    obtain ⟨b, hb, -, hlast⟩ :=
      getLast?_rtrim (utf8 (String.ofList (strip Strings.isSpace text))) hnot
    rw [← hutf8, h, flagText, List.getLast?_concat] at hlast
    rw [utf8_ofList] at hb
    obtain ⟨c, hc, hmem⟩ := List.mem_flatMap.mp hb
    exact ne_of_space (hback c hc) b hmem (Option.some.inj hlast).symm
  have hbody : ∀ c ∈ flagBody (strip Strings.isSpace text), c ∈ flagChars := by
    rw [hutf8, rtrim_append_of_trimmed htrimmed, eq_braced hstart hclosing, utf8_braced,
      rtrim_closed, flagText, List.append_left_inj, List.append_right_inj, List.cons.injEq] at h
    refine flagChars_of_bytes fun b hb => ?_
    rw [h.2] at hb
    obtain ⟨s, hs, rfl⟩ := List.mem_map.mp hb
    exact serverChar_mem (Sextets.lt_of_mem_ofBytes ⟨8, f.length_bytes⟩ s hs)
  refine ⟨hleading, ?_, hbody⟩
  cases charIsSigned with
  | true => exact .inl rfl
  | false =>
    refine .inr fun c hc => ?_
    rw [htext, hnil, List.nil_append, List.mem_append] at hc
    rcases hc with hc | hc
    · rw [eq_braced hstart hclosing, braced, List.mem_append, List.mem_cons, List.mem_append,
        List.mem_singleton] at hc
      rcases hc with hc | rfl | hc | rfl
      · refine ascii_of_length ?_ c hc
        rw [String.ofList_toList]
        omega
      · decide
      · exact lt_of_mem_flagChars (hbody c hc)
      · decide
    · by_contra hlt
      obtain ⟨b, hb⟩ := List.exists_mem_of_ne_nil _ (String.utf8EncodeChar_ne_nil (c := c))
      have hhigh := le_of_mem_utf8EncodeChar (not_lt.mp hlt) hb
      have hlow : b ≤ 0x20 := by
        have hmem : b ∈ utf8 (String.ofList back) := by
          rw [utf8_ofList]
          exact List.mem_flatMap.mpr ⟨c, hc, hb⟩
        simpa [trimmed] using htrimmed b hmem
      have hle : b.toNat ≤ 0x20 := hlow
      omega

/-- **When a valid flag passes.** -/
theorem passes_text_iff (hopens : Opens hmac panel (strip Strings.isSpace text) f rest)
    (hshows : Shows panel flag f rest page) (hvalid : rest = f.mac.toList) :
    Passes charIsSigned hmac panel page text ↔
      (utf8 panel.flagPrefix).length = 4 ∧ Clean charIsSigned text := by
  constructor
  · rintro ⟨f', hparse, -⟩
    have hlen := length_utf8_of_shape (parseFlag_isOk_iff.mp ⟨f', hparse⟩)
      (length_of_start hopens.start hopens.closing)
    exact ⟨hlen, clean_of_flagText hlen hopens.start hopens.closing
      ((parseFlag_eq_ok_iff hlen).mp hparse)⟩
  · rintro ⟨hlen, hclean⟩
    refine ⟨f, (parseFlag_eq_ok_iff hlen).mpr ?_, hopens.genuine, hshows.round, hshows.teamId,
      hshows.serviceId, hshows.payload⟩
    have hdecoded := hopens.decoded
    rw [hvalid, show f.data ++ f.mac.toList = f.bytes from rfl] at hdecoded
    rw [hclean.rtrim_eq hopens.closing, eq_braced hopens.start hopens.closing, utf8_braced,
      utf8_of_ascii fun c hc => lt_of_mem_flagChars (hclean.body c hc),
      map_byte_eq hclean.body hdecoded, flagText]

/-! ## Offered flags -/

theorem b64encode_eq {l : List UInt8} (h : 3 ∣ l.length) :
    b64encode l = (ofBytes l).map pythonChar := by
  refine Sextets.triples (P := fun l => b64encode l = (ofBytes l).map pythonChar) rfl ?_ l h
  intro a b c rest ih
  rw [ofBytes, b64encode, ih]
  rfl

/-- The two alphabets differ in the last two characters. -/
theorem pythonChar_cases {s : UInt8} (h : s < 64) :
    (pythonChar s ∈ base64Table ↔ s < 62) ∧ (s < 62 → pythonChar s = serverChar s) ∧
      pythonChar s < 128 := by
  have hall : ∀ s : UInt8, s < 64 → (pythonChar s ∈ base64Table ↔ s < 62) ∧
      (s < 62 → pythonChar s = serverChar s) ∧ pythonChar s < 128 :=
    forall_byte (by decide +kernel)
  exact hall s h

theorem utf8_asciiText {bytes : List UInt8} (h : ∀ b ∈ bytes, b < 128) :
    utf8 (String.ofList (asciiText bytes)) = bytes := by
  have hround : ∀ b : UInt8, b < 128 → (Char.ofNat b.toNat).toNat < 128 ∧
      byte (Char.ofNat b.toNat) = b :=
    forall_byte (by decide +kernel)
  rw [utf8_of_ascii, asciiText, List.map_map]
  · exact (List.map_congr_left fun b hb => (hround b (h b hb)).2).trans (List.map_id _)
  · intro c hc
    obtain ⟨b, hb, rfl⟩ := List.mem_map.mp hc
    exact (hround b (h b hb)).1

/-- **When an offered flag passes.** -/
theorem passes_repaired_iff (hopens : Opens hmac panel flag f rest)
    (hshows : Shows panel flag f rest page) (hoffered : page.repairedFlag ≠ []) :
    Passes charIsSigned hmac panel page page.repairedFlag ↔
      (utf8 panel.flagPrefix).length = 4 ∧ ∀ s ∈ ofBytes f.bytes, s < 62 := by
  have hlt : ∀ s ∈ ofBytes f.bytes, s < 64 := Sextets.lt_of_mem_ofBytes ⟨8, f.length_bytes⟩
  have hline : rtrim charIsSigned (utf8 (String.ofList page.repairedFlag)) =
      utf8 panel.flagPrefix ++ byte '\x7b' :: (ofBytes f.bytes).map pythonChar ++
          [byte '\x7d'] := by
    rw [hshows.repaired hoffered, utf8_braced, rtrim_closed, b64encode_eq ⟨8, f.length_bytes⟩,
      utf8_asciiText]
    intro b hb
    obtain ⟨s, hs, rfl⟩ := List.mem_map.mp hb
    exact (pythonChar_cases (hlt s hs)).2.2
  constructor
  · rintro ⟨f', hparse, -⟩
    have hlen := length_utf8_of_shape (parseFlag_isOk_iff.mp ⟨f', hparse⟩)
      (length_of_start hopens.start hopens.closing)
    refine ⟨hlen, fun s hs => ?_⟩
    have htext := (parseFlag_eq_ok_iff hlen).mp hparse
    rw [hline, flagText, List.append_left_inj, List.append_right_inj, List.cons.injEq] at htext
    have hmem : pythonChar s ∈ (ofBytes f'.bytes).map serverChar :=
      htext.2 ▸ List.mem_map_of_mem hs
    obtain ⟨s', hs', heq⟩ := List.mem_map.mp hmem
    refine (pythonChar_cases (hlt s hs)).1.mp ?_
    rw [← heq]
    exact serverChar_mem (Sextets.lt_of_mem_ofBytes ⟨8, f'.length_bytes⟩ s' hs')
  · rintro ⟨hlen, hlow⟩
    refine ⟨f, (parseFlag_eq_ok_iff hlen).mpr ?_, hopens.genuine, hshows.round, hshows.teamId,
      hshows.serviceId, hshows.payload⟩
    rw [hline, flagText, List.map_congr_left fun s hs =>
      (pythonChar_cases (hlt s hs)).2.1 (hlow s hs)]

/-! ## Agreement -/

/-- The texts on which the page and the server agree: what is decoded belongs to a team, a service
and a tick that has begun, and either its MAC is right and the text is clean, or the flag with the
right MAC has no sextets for which the alphabets differ. -/
def Agreeable (charIsSigned : Bool) (hmac : Hmac) (panel : Panel) (text : Text) : Prop :=
  ∀ f rest, Opens hmac panel (strip Strings.isSpace text) f rest → Known panel f →
    (utf8 panel.flagPrefix).length = 4 ∧
      if rest = f.mac.toList then Clean charIsSigned text else ∀ s ∈ ofBytes f.bytes, s < 62

theorem agreeable_of_agrees (h : Agrees charIsSigned hmac panel text) :
    Agreeable charIsSigned hmac panel text := by
  intro f rest hopens hknown
  obtain ⟨page, hpage, hshows⟩ := exists_analyze hopens
  have hne : strip Strings.isSpace text ≠ [] := by
    intro hnil
    have hclosing := hopens.closing
    rw [hnil] at hclosing
    cases hclosing
  have hpasses := h page (by rw [flagsIndex, if_neg hne, hpage])
  by_cases hrest : rest = f.mac.toList
  · rw [if_pos hrest]
    exact (passes_text_iff hopens hshows hrest).mp (hpasses.1 (hshows.valid.mpr ⟨hknown, hrest⟩))
  · rw [if_neg hrest]
    have hoffered := hshows.offered.mpr ⟨hknown, hrest⟩
    exact (passes_repaired_iff hopens hshows hoffered).mp (hpasses.2 hoffered)

theorem agrees_of_agreeable (h : Agreeable charIsSigned hmac panel text) :
    Agrees charIsSigned hmac panel text := by
  intro page hpage
  rw [flagsIndex] at hpage
  split_ifs at hpage
  obtain ⟨f, rest, hopens, hshows⟩ := exists_of_analyze (Option.some.inj hpage)
  constructor
  · intro hvalid
    obtain ⟨hknown, hrest⟩ := hshows.valid.mp hvalid
    have hagreeable := h f rest hopens hknown
    rw [if_pos hrest] at hagreeable
    exact (passes_text_iff hopens hshows hrest).mpr hagreeable
  · intro hoffered
    obtain ⟨hknown, hrest⟩ := hshows.offered.mp hoffered
    have hagreeable := h f rest hopens hknown
    rw [if_neg hrest] at hagreeable
    exact (passes_repaired_iff hopens hshows hoffered).mpr hagreeable

/-- **When the page and the server agree.** -/
theorem agrees_iff (charIsSigned : Bool) (hmac : Hmac) (panel : Panel) (text : Text) :
    Agrees charIsSigned hmac panel text ↔ Agreeable charIsSigned hmac panel text :=
  ⟨agreeable_of_agrees, agrees_of_agreeable⟩

/-- A flag of tick 1, team 2 and service 3, under a key of zeros. -/
def samplePanel : Panel where
  flagPrefix := "SAAR"
  secretFlagKey := .replicate 32 0
  currentTick := 5
  teams := [2]
  services := [3]

/-- HMAC-SHA256 of its data. -/
def sampleHmac : Hmac := fun _ _ =>
  #v[55, 136, 86, 246, 216, 188, 164, 254, 198, 48, 192, 211, 150, 28, 57, 232, 230, 26, 145, 10,
    200, 61, 124, 185, 226, 106, 147, 101, 254, 153, 175, 225]

def sampleFlag : FlagFormat :=
  ⟨1, 2, 3, 1, #v[55, 136, 86, 246, 216, 188, 164, 254, 198, 48, 192, 211, 150, 28, 57, 232]⟩

theorem verifyHmac_sampleFlag :
    verifyHmac sampleHmac samplePanel.secretFlagKey sampleFlag = true := by decide

/-- The page calls a text valid that has a character of the other alphabet, and offers the same
text for a flag with a wrong MAC. -/
theorem not_agrees :
    ¬ Agrees true sampleHmac samplePanel "SAAR\x7bAQACAAMAAQA3iFb22Lyk/sYwwNOWHDno\x7d".toList ∧
      ¬ Agrees true sampleHmac samplePanel
        "SAAR\x7bAQACAAMAAQAAAAAAAAAAAAAAAAAAAAAA\x7d".toList := by
  have hknown : Known samplePanel sampleFlag := by
    refine ⟨?_, ?_, ?_⟩ <;> decide
  constructor
  · intro h
    have hopens : Opens sampleHmac samplePanel
        (strip Strings.isSpace "SAAR\x7bAQACAAMAAQA3iFb22Lyk/sYwwNOWHDno\x7d".toList) sampleFlag
        sampleFlag.mac.toList := by
      refine ⟨?_, ?_, ?_, verifyHmac_sampleFlag⟩ <;> decide +kernel
    have hclean := (agreeable_of_agrees h sampleFlag _ hopens hknown).2
    rw [if_pos rfl] at hclean
    exact absurd (hclean.body '/' (by decide +kernel)) (by decide +kernel)
  · intro h
    have hopens : Opens sampleHmac samplePanel
        (strip Strings.isSpace "SAAR\x7bAQACAAMAAQAAAAAAAAAAAAAAAAAAAAAA\x7d".toList) sampleFlag
        (List.replicate 16 0) := by
      refine ⟨?_, ?_, ?_, verifyHmac_sampleFlag⟩ <;> decide +kernel
    have hlow := (agreeable_of_agrees h sampleFlag _ hopens hknown).2
    rw [if_neg (by decide)] at hlow
    exact absurd (hlow 63 (by decide +kernel)) (by decide)

end Gameserver.Submission
