import Mathlib

/-!
# JSON texts, as `json.dumps` writes them

A value is written as a text that says itself where it ends, so values can be put one after
the other and read back.

* `Codec` — a way to write and read back, with the proof that what is written is read.
* `escape`, `readChar` — one character of a string, with `ensure_ascii`.
* `string`, `sequence`, `array`, `pair`, `entry`, `object` — codecs for the values of JSON.
* `dumps`, `loads` — whole texts; `loads_dumps`, `dumps_injective`.

`read` accepts the texts that `write` produces, with the default separators, and no others.
-/

namespace Json

/-- A text. -/
abbrev Text := List Char

/-- A self-delimiting code. -/
structure Codec (α : Type) where
  write : α → Text
  read : Text → Option (α × Text)
  /-- What is written is read, whatever follows. -/
  read_write : ∀ a rest, read (write a ++ rest) = some (a, rest)
  /-- No value starts like the end of an array or object. -/
  head : ∀ a, ∃ c text, write a = c :: text ∧ c ≠ ']' ∧ c ≠ '\x7d'

/-! ## Characters -/

/-- A hexadecimal digit. -/
def hexDigit (n : ℕ) : Char := if n < 10 then Char.ofNat (48 + n) else Char.ofNat (87 + n)

/-- The value of a hexadecimal digit. -/
def hexValue (c : Char) : Option ℕ :=
  if 48 ≤ c.toNat ∧ c.toNat ≤ 57 then some (c.toNat - 48)
  else if 97 ≤ c.toNat ∧ c.toNat ≤ 102 then some (c.toNat - 87)
  else if 65 ≤ c.toNat ∧ c.toNat ≤ 70 then some (c.toNat - 55)
  else none

theorem hexValue_hexDigit {n : ℕ} (h : n < 16) : hexValue (hexDigit n) = some n := by
  interval_cases n <;> rfl

/-- `\uXXXX`. -/
def unicode (n : ℕ) : Text :=
  ['\\', 'u', hexDigit (n / 4096), hexDigit (n / 256 % 16), hexDigit (n / 16 % 16),
    hexDigit (n % 16)]

/-- Read `\uXXXX`. -/
def readUnicode : Text → Option (ℕ × Text)
  | '\\' :: 'u' :: a :: b :: c :: d :: rest => do
    let a ← hexValue a
    let b ← hexValue b
    let c ← hexValue c
    let d ← hexValue d
    return (a * 4096 + b * 256 + c * 16 + d, rest)
  | _ => none

theorem readUnicode_unicode {n : ℕ} (h : n < 65536) (rest : Text) :
    readUnicode (unicode n ++ rest) = some (n, rest) := by
  show ((hexValue (hexDigit (n / 4096))).bind fun a =>
    (hexValue (hexDigit (n / 256 % 16))).bind fun b =>
    (hexValue (hexDigit (n / 16 % 16))).bind fun c =>
    (hexValue (hexDigit (n % 16))).bind fun d =>
      some (a * 4096 + b * 256 + c * 16 + d, rest)) = some (n, rest)
  rw [hexValue_hexDigit (by omega), hexValue_hexDigit (by omega), hexValue_hexDigit (by omega),
    hexValue_hexDigit (by omega)]
  show some (_, rest) = some (n, rest)
  rw [Option.some_inj, Prod.mk.injEq]
  exact ⟨by omega, rfl⟩

/-- The characters with a short escape, and the letters that stand for them. -/
def shortEscapes : List (Char × Char) :=
  [('\x22', '\x22'), ('\\', '\\'), ('\n', 'n'), ('\x0d', 'r'), ('\t', 't'), ('\x0c', 'f'),
    ('\x08', 'b')]

/-- One character of a string. -/
def escape (c : Char) : Text :=
  match shortEscapes.find? fun e => e.1 = c with
  | some e => ['\\', e.2]
  | none =>
    if 0x20 ≤ c.toNat ∧ c.toNat ≤ 0x7e then [c]
    else if c.toNat < 0x10000 then unicode c.toNat
    else unicode (0xd800 + (c.toNat - 0x10000) / 1024) ++
      unicode (0xdc00 + (c.toNat - 0x10000) % 1024)

/-- Read one character of a string. -/
def readChar : Text → Option (Char × Text)
  | '\\' :: 'u' :: text => do
    let (n, rest) ← readUnicode ('\\' :: 'u' :: text)
    if 0xd800 ≤ n ∧ n < 0xdc00 then
      let (m, rest) ← readUnicode rest
      if 0xdc00 ≤ m ∧ m < 0xe000 then
        return (Char.ofNat (0x10000 + (n - 0xd800) * 1024 + (m - 0xdc00)), rest)
      else none
    else return (Char.ofNat n, rest)
  | '\\' :: letter :: rest => do
    let (c, _) ← shortEscapes.find? fun e => e.2 = letter
    return (c, rest)
  | c :: rest => some (c, rest)
  | [] => none

/-- Characters are no surrogates. -/
theorem toNat_valid (c : Char) : c.toNat < 0xd800 ∨ 0xdfff < c.toNat ∧ c.toNat < 0x110000 := c.valid

theorem readChar_unicode {n : ℕ} (h : n < 0x10000) (hn : n < 0xd800 ∨ 0xdfff < n) (rest : Text) :
    readChar (unicode n ++ rest) = some (Char.ofNat n, rest) := by
  show (readUnicode (unicode n ++ rest)).bind _ = _
  rw [readUnicode_unicode h]
  show (if _ then _ else _) = _
  rw [if_neg (by omega)]
  rfl

theorem readChar_surrogates {n m : ℕ} (hn : n < 1024) (hm : m < 1024) (rest : Text) :
    readChar (unicode (0xd800 + n) ++ (unicode (0xdc00 + m) ++ rest)) =
      some (Char.ofNat (0x10000 + n * 1024 + m), rest) := by
  show (readUnicode (unicode (0xd800 + n) ++ (unicode (0xdc00 + m) ++ rest))).bind _ = _
  rw [readUnicode_unicode (by omega)]
  show (if _ then _ else _) = _
  rw [if_pos (by omega)]
  show (readUnicode (unicode (0xdc00 + m) ++ rest)).bind _ = _
  rw [readUnicode_unicode (by omega)]
  show (if _ then _ else _) = _
  rw [if_pos (by omega), Nat.add_sub_cancel_left, Nat.add_sub_cancel_left]
  rfl

theorem readChar_of_ne {c : Char} (h : c ≠ '\\') (rest : Text) :
    readChar (c :: rest) = some (c, rest) := by
  unfold readChar
  split
  · rename_i heq
    exact absurd (List.cons.inj heq).1 h
  · rename_i heq
    exact absurd (List.cons.inj heq).1 h
  · rename_i heq
    obtain ⟨rfl, rfl⟩ := List.cons.inj heq
    rfl
  · rename_i heq
    cases heq

/-- A character is read back. -/
theorem readChar_escape (c : Char) (rest : Text) :
    readChar (escape c ++ rest) = some (c, rest) := by
  unfold escape
  cases hshort : shortEscapes.find? fun e => e.1 = c with
  | some e =>
    obtain rfl : e.1 = c := by simpa using List.find?_some hshort
    have hmem := List.mem_of_find?_eq_some hshort
    simp only [shortEscapes, List.mem_cons, List.not_mem_nil, or_false] at hmem
    rcases hmem with rfl | rfl | rfl | rfl | rfl | rfl | rfl <;> rfl
  | none =>
    have hbackslash : c ≠ '\\' := by
      rintro rfl
      cases hshort
    have hvalid := toNat_valid c
    dsimp only
    split_ifs with hplain hbmp
    · exact readChar_of_ne hbackslash rest
    · rw [readChar_unicode hbmp (by omega), Char.ofNat_toNat]
    · rw [List.append_assoc, readChar_surrogates (by omega) (by omega)]
      have hn : 0x10000 + (c.toNat - 0x10000) / 1024 * 1024 + (c.toNat - 0x10000) % 1024 =
          c.toNat := by omega
      rw [hn, Char.ofNat_toNat]

/-- What is written for a character does not start with a quote. -/
theorem escape_head (c : Char) : ∃ d text, escape c = d :: text ∧ d ≠ '\x22' := by
  unfold escape
  cases hshort : shortEscapes.find? fun e => e.1 = c with
  | some e => exact ⟨_, _, rfl, by decide⟩
  | none =>
    have hquote : c ≠ '\x22' := by
      rintro rfl
      cases hshort
    dsimp only
    split_ifs
    · exact ⟨_, _, rfl, hquote⟩
    · exact ⟨_, _, rfl, by decide⟩
    · exact ⟨_, _, rfl, by decide⟩

/-! ## Strings -/

/-- Read the characters up to the closing quote. -/
def readChars : ℕ → Text → Option (Text × Text)
  | 0, _ => none
  | _ + 1, [] => none
  | n + 1, c :: text =>
    if c = '\x22' then some ([], text)
    else do
      let (c, rest) ← readChar (c :: text)
      let (cs, rest) ← readChars n rest
      return (c :: cs, rest)

theorem readChars_escape (s rest : Text) {n : ℕ} (hn : s.length < n) :
    readChars n (s.flatMap escape ++ '\x22' :: rest) = some (s, rest) := by
  induction s generalizing n with
  | nil =>
    obtain ⟨n, rfl⟩ := Nat.exists_eq_succ_of_ne_zero (Nat.ne_of_gt hn)
    rfl
  | cons c s ih =>
    obtain ⟨n, rfl⟩ := Nat.exists_eq_succ_of_ne_zero (Nat.ne_of_gt (Nat.zero_lt_of_lt hn))
    have hread := readChar_escape c (s.flatMap escape ++ '\x22' :: rest)
    obtain ⟨d, text, hd, hne⟩ := escape_head c
    rw [List.flatMap_cons, List.append_assoc]
    rw [hd] at hread ⊢
    show (if d = '\x22' then _ else (readChar (d :: text ++ _)).bind _) = _
    rw [if_neg hne, hread]
    show (readChars n (s.flatMap escape ++ '\x22' :: rest)).bind _ = _
    rw [ih (by simpa using hn)]
    rfl

theorem length_le_flatMap_escape (s : Text) : s.length ≤ (s.flatMap escape).length := by
  induction s with
  | nil => rfl
  | cons c s ih =>
    obtain ⟨d, text, hd, -⟩ := escape_head c
    rw [List.flatMap_cons, List.length_append, hd]
    simp only [List.length_cons]
    omega

/-- A string. -/
def string : Codec Text where
  write s := '\x22' :: (s.flatMap escape ++ ['\x22'])
  read
    | '\x22' :: text => readChars text.length text
    | _ => none
  read_write s rest := by
    show readChars _ (s.flatMap escape ++ ['\x22'] ++ rest) = some (s, rest)
    rw [List.append_assoc]
    refine readChars_escape s rest ?_
    show s.length < ((s.flatMap escape ++ ['\x22']) ++ rest).length
    have := length_le_flatMap_escape s
    rw [List.length_append, List.length_append, List.length_singleton]
    omega
  head s := ⟨_, _, rfl, by decide, by decide⟩

/-! ## Sequences -/

variable {α β : Type}

/-- Remove a text from the front. -/
def skip (expected : Text) (text : Text) : Option Text :=
  if expected <+: text then some (text.drop expected.length) else none

theorem skip_append (expected rest : Text) : skip expected (expected ++ rest) = some rest := by
  rw [skip, if_pos (List.prefix_append _ _), List.drop_left]

/-- Read items separated by commas, up to the closing character. -/
def readItems (item : Codec α) (closing : Char) : ℕ → Text → Option (List α × Text)
  | 0, _ => none
  | n + 1, text => do
    let (a, rest) ← item.read text
    match rest with
    | c :: rest =>
      if c = closing then return ([a], rest)
      else
        let rest ← skip [',', ' '] (c :: rest)
        let (as, rest) ← readItems item closing n rest
        return (a :: as, rest)
    | [] => none

/-- The items, separated by commas. -/
def writeItems (item : Codec α) : List α → Text
  | [] => []
  | [a] => item.write a
  | a :: b :: as => item.write a ++ [',', ' '] ++ writeItems item (b :: as)

theorem length_le_writeItems (item : Codec α) (as : List α) :
    as.length ≤ (writeItems item as).length := by
  induction as with
  | nil => exact Nat.zero_le _
  | cons a as ih =>
    obtain ⟨c, text, hc, -⟩ := item.head a
    cases as with
    | nil =>
      show 1 ≤ (item.write a).length
      rw [hc]
      exact Nat.succ_pos _
    | cons b as =>
      rw [writeItems, List.length_append, List.length_append, hc]
      simp only [List.length_cons] at ih ⊢
      omega

theorem readItems_writeItems (item : Codec α) {closing : Char} (hclosing : closing ≠ ',') (a : α)
    (as : List α) (rest : Text) {n : ℕ} (hn : as.length < n) :
    readItems item closing n (writeItems item (a :: as) ++ closing :: rest) =
      some (a :: as, rest) := by
  obtain ⟨n, rfl⟩ := Nat.exists_eq_succ_of_ne_zero (Nat.ne_of_gt (Nat.zero_lt_of_lt hn))
  induction as generalizing a n with
  | nil =>
    show (item.read (item.write a ++ closing :: rest)).bind _ = _
    rw [item.read_write]
    show (if closing = closing then _ else _) = _
    rw [if_pos rfl]
    rfl
  | cons b as ih =>
    obtain ⟨n, rfl⟩ := Nat.exists_eq_succ_of_ne_zero (Nat.ne_of_gt (Nat.lt_of_succ_lt_succ
      (Nat.lt_of_le_of_lt (Nat.succ_le_succ (Nat.zero_le _)) hn)))
    have hrest := ih b n (by simpa using hn)
    show (item.read (item.write a ++ [',', ' '] ++ writeItems item (b :: as) ++
      closing :: rest)).bind
      _ = _
    rw [List.append_assoc, List.append_assoc, item.read_write]
    show (if ',' = closing then _ else (skip [',', ' '] ([',', ' '] ++ _)).bind _) = _
    rw [if_neg (Ne.symm hclosing), skip_append]
    show (readItems item closing (n + 1) (writeItems item (b :: as) ++ closing :: rest)).bind _ = _
    rw [hrest]
    rfl

/-- Items between an opening and a closing character. -/
def sequence (item : Codec α) (opening closing : Char) (hopening : opening ≠ ']' ∧ opening ≠ '\x7d')
    (hclosing : closing = ']' ∨ closing = '\x7d') : Codec (List α) where
  write as := opening :: (writeItems item as ++ [closing])
  read
    | c :: d :: text =>
      if c = opening then
        if d = closing then some ([], text)
          else readItems item closing (d :: text).length (d :: text)
      else none
    | _ => none
  read_write as rest := by
    cases as with
    | nil =>
      show (if opening = opening then if closing = closing then _ else _ else _) = _
      rw [if_pos rfl, if_pos rfl]
      rfl
    | cons a as =>
      obtain ⟨c, text, hc, hbracket, hbrace⟩ := item.head a
      obtain ⟨tail, htail⟩ : ∃ tail, writeItems item (a :: as) = c :: tail := by
        cases as with
        | nil => exact ⟨text, hc⟩
        | cons b as => exact ⟨text ++ [',', ' '] ++
            writeItems item (b :: as), by rw [writeItems, hc]; rfl⟩
      have hlength : (a :: as).length ≤ (writeItems item (a :: as)).length :=
        length_le_writeItems item _
      have hread := readItems_writeItems item
        (show closing ≠ ',' by rcases hclosing with rfl | rfl <;> decide) a as rest
        (n := (writeItems item (a :: as) ++ closing :: rest).length) (by
          rw [List.length_append]
          simp only [List.length_cons] at hlength ⊢
          omega)
      have htext : opening :: (writeItems item (a :: as) ++ [closing]) ++ rest =
          opening :: (writeItems item (a :: as) ++ closing :: rest) := by simp
      rw [htext]
      rw [htail] at hread ⊢
      show (if opening = opening then if c = closing then _ else _ else _) = _
      rw [if_pos rfl, if_neg (by rcases hclosing with rfl | rfl <;> assumption)]
      exact hread
  head as := ⟨_, _, rfl, hopening⟩

/-- A list. -/
def array (item : Codec α) : Codec (List α) :=
  sequence item '[' ']' (by decide) (Or.inl rfl)

/-- A list of two. -/
def pair (first : Codec α) (second : Codec β) : Codec (α × β) where
  write p := '[' :: (first.write p.1 ++ ([',', ' '] ++ (second.write p.2 ++ [']'])))
  read
    | '[' :: text => do
      let (a, rest) ← first.read text
      let rest ← skip [',', ' '] rest
      let (b, rest) ← second.read rest
      let rest ← skip [']'] rest
      return ((a, b), rest)
    | _ => none
  read_write p rest := by
    show (first.read (first.write p.1 ++ ([',', ' '] ++ (second.write p.2 ++ [']'])) ++ rest)).bind
      _ = _
    rw [List.append_assoc, first.read_write, Option.bind_some]
    show (skip [',', ' '] ([',', ' '] ++ ((second.write p.2 ++ [']']) ++ rest))).bind _ = _
    rw [skip_append]
    show (second.read ((second.write p.2 ++ [']']) ++ rest)).bind _ = _
    rw [List.append_assoc, second.read_write]
    rfl
  head p := ⟨_, _, rfl, by decide, by decide⟩

/-- A member of an object. -/
def entry (value : Codec α) : Codec (Text × α) where
  write e := string.write e.1 ++ ([':', ' '] ++ value.write e.2)
  read text := do
    let (name, rest) ← string.read text
    let rest ← skip [':', ' '] rest
    let (a, rest) ← value.read rest
    return ((name, a), rest)
  read_write e rest := by
    show (string.read (string.write e.1 ++ ([':', ' '] ++ value.write e.2) ++ rest)).bind _ = _
    rw [List.append_assoc, string.read_write, Option.bind_some]
    show (skip [':', ' '] ([':', ' '] ++ (value.write e.2 ++ rest))).bind _ = _
    rw [skip_append]
    show (value.read (value.write e.2 ++ rest)).bind _ = _
    rw [value.read_write]
    rfl
  head e := ⟨_, _, rfl, by decide, by decide⟩

/-- An object: its members in the order in which they were inserted. -/
def object (value : Codec α) : Codec (List (Text × α)) :=
  sequence (entry value) '\x7b' '\x7d' (by decide) (Or.inr rfl)

/-! ## Whole texts -/

/-- `json.dumps` -/
def dumps (codec : Codec α) (a : α) : Text := codec.write a

/-- `json.loads`: nothing may follow the value. -/
def loads (codec : Codec α) (text : Text) : Option α :=
  match codec.read text with
  | some (a, []) => some a
  | _ => none

/-- What is dumped is loaded. -/
theorem loads_dumps (codec : Codec α) (a : α) : loads codec (dumps codec a) = some a := by
  have hread := codec.read_write a []
  rw [List.append_nil] at hread
  rw [loads, dumps, hread]

/-- Different values have different texts. -/
theorem dumps_injective (codec : Codec α) : Function.Injective (dumps codec) := by
  intro a b h
  have hload := congrArg (loads codec) h
  rw [loads_dumps, loads_dumps] at hload
  exact Option.some.inj hload

example : String.ofList (dumps (object (pair string string))
    [("7".toList, "p\n".toList, "é".toList)]) =
    "\x7b\"7\": [\"p\\n\", \"\\u00e9\"]\x7d" := by decide

end Json
