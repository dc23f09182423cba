import Mathlib.Data.List.DropRight
import Gameserver.Lib.Sextets
import Gameserver.Submission.Flag

/-!
# The text of a flag

A flag is written by a checker (`get_flag` of `checker_runner/runners/eno.py`, in Python)
and read by the submission server (the first part of `progress_flag`, and `base64_decode`
of `libraries/base64.c`).  Both sides keep a key for HMAC-SHA256, which is a parameter
here.

* `getFlag` — the text, in UTF-8; `structPack`, `b64encode` — the library functions in it.
* `rtrim`, `base64Decode`, `parseFlag` — the server, up to the decoded flag.
* `verifyHmac` — the check of the MAC.
-/

namespace Gameserver.Submission

open Sextets

/-- A character as a byte. -/
def byte (c : Char) : UInt8 := c.toNat.toUInt8

/-- The bytes of a text, in UTF-8. -/
def utf8 (s : String) : List UInt8 := s.toList.flatMap String.utf8EncodeChar

/-- HMAC-SHA256, from the key and the data. -/
abbrev Hmac := List UInt8 → List UInt8 → Vector UInt8 32

/-! ## The checker -/

/-- The alphabet of Python's `base64`. -/
def pythonTable : List UInt8 :=
  "ABCDEFGHIJKLMNOPQRSTUVWXYZabcdefghijklmnopqrstuvwxyz0123456789+/".toList.map byte

/-- The character of a sextet. -/
def pythonChar (s : UInt8) : UInt8 := pythonTable.getD s.toNat 0

/-- `base64.b64encode`. -/
def b64encode : List UInt8 → List UInt8
  | a :: b :: c :: rest =>
    pythonChar (sextet0 a) :: pythonChar (sextet1 a b) :: pythonChar (sextet2 b c) ::
      pythonChar (sextet3 c) :: b64encode rest
  | [a, b] =>
    [pythonChar (sextet0 a), pythonChar (sextet1 a b), pythonChar (sextet2 b 0), byte '=']
  | [a] => [pythonChar (sextet0 a), pythonChar (sextet1 a 0), byte '=', byte '=']
  | [] => []

/-- `bytes.replace`, for single bytes. -/
def replace (l : List UInt8) (old new : UInt8) : List UInt8 :=
  l.map fun c => if c = old then new else c

/-- `struct.pack("<H…", …)`; `struct.error` for numbers that are too large. -/
def structPack : List ℕ → Option (List UInt8)
  | [] => some []
  | n :: ns => do
    let rest ← structPack ns
    if n < 65536 then some ((n % 256).toUInt8 :: (n / 256).toUInt8 :: rest) else none

/-- `MAC_LENGTH` of the gamelib. -/
def macLength : ℕ := 16

/-- `get_flag`. -/
def getFlag (hmac : Hmac) (secretFlagKey : Vector UInt8 32) (flagPrefix : String)
    (serviceId teamId : ℕ)
    (tick : ℤ) (payload : ℕ) : Option (List UInt8) := do
  -- `tick & 0xFFFF`
  let data ← structPack [(tick % 65536).toNat, teamId, serviceId, payload]
  let mac := (hmac secretFlagKey.toList data).toList.take macLength
  let flag :=
    replace (replace (b64encode (data ++ mac)) (byte '+') (byte '-')) (byte '/') (byte '_')
  some (utf8 flagPrefix ++ byte '\x7b' :: flag ++ [byte '\x7d'])

/-! ## The server -/

/-- `flag[len - 1] <= ' '`.  Where `char` is signed, the bytes from 0x80 on are negative. -/
def trimmed (charIsSigned : Bool) (c : UInt8) : Bool := c ≤ 0x20 || (charIsSigned && 0x80 ≤ c)

/-- The loop at the beginning of `progress_flag`. -/
def rtrim (charIsSigned : Bool) (line : List UInt8) : List UInt8 :=
  line.rdropWhile (trimmed charIsSigned)

/-- `base64_table`. -/
def base64Table : List UInt8 :=
  "ABCDEFGHIJKLMNOPQRSTUVWXYZabcdefghijklmnopqrstuvwxyz0123456789-_".toList.map byte

/-- `dtable`; 0x80 for characters to skip. -/
def dtable (c : UInt8) : UInt8 :=
  if c = byte '=' then 0
  else if c ∈ base64Table then (base64Table.idxOf c).toUInt8
  else 0x80

/-- The second loop of `base64_decode`. -/
def decodeLoop : List UInt8 → List UInt8 → ℕ → List UInt8 → Option (List UInt8)
  | [], _, _, out => some out
  | c :: src, block, pad, out =>
    let tmp := dtable c
    if tmp = 0x80 then decodeLoop src block pad out
    else
      let pad := if c = byte '=' then pad + 1 else pad
      match block with
      | [s, t, u] =>
        let out := out ++ [byte0 s t, byte1 t u, byte2 u tmp]
        if pad = 0 then decodeLoop src [] pad out
        else if pad = 1 then some (out.take (out.length - 1))
        else if pad = 2 then some (out.take (out.length - 2))
        else none
      | block => decodeLoop src (block ++ [tmp]) pad out

/-- `base64_decode`: the bytes it has written, none for `-1`. -/
def base64Decode (src : List UInt8) : Option (List UInt8) :=
  let count := src.countP fun c => dtable c ≠ 0x80
  if count = 0 ∨ count % 4 ≠ 0 then none else decodeLoop src [] 0 []

/-- Two bytes of the packed struct, on a little-endian machine. -/
def uint16 (low high : UInt8) : UInt16 := low.toUInt16 ||| (high.toUInt16 <<< 8)

/-- The bytes of a number. -/
def uint16Bytes (n : UInt16) : List UInt8 := [n.toUInt8, (n >>> 8).toUInt8]

/-- The memory of a `FlagFormat` up to `mac`. -/
def FlagFormat.data (flag : FlagFormat) : List UInt8 :=
  uint16Bytes flag.round ++ uint16Bytes flag.teamId ++ uint16Bytes flag.serviceId ++
    uint16Bytes flag.payload

/-- A `FlagFormat` from its memory, if there are `sizeof` bytes. -/
def FlagFormat.ofBytes : List UInt8 → Option FlagFormat
  | a :: b :: c :: d :: e :: f :: g :: h :: mac =>
    if hmac : mac.length = 16 then
      some ⟨uint16 a b, uint16 c d, uint16 e f, uint16 g h, ⟨mac.toArray, by simpa using hmac⟩⟩
    else none
  | _ => none

/-- What `progress_flag` returns for a line it cannot decode. -/
inductive FormatAnswer where
  | empty
  | wrongLength
  | wrongFormat
  | invalidFormat
  deriving DecidableEq

/-- The texts. -/
def FormatAnswer.text : FormatAnswer → String
  | empty => ""
  | wrongLength => "[ERR] Wrong length\n"
  | wrongFormat => "[ERR] Invalid flag (wrong format)\n"
  | invalidFormat => "[ERR] Invalid flag (format)\n"

/-- `progress_flag` up to the decoded flag. -/
def parseFlag (charIsSigned : Bool) (flagPrefix : String) (line : List UInt8) :
    Except FormatAnswer FlagFormat :=
  let flag := rtrim charIsSigned line
  let start := utf8 flagPrefix
  if flag = [] then .error .empty
  else if flag.length ≠ 38 then .error .wrongLength
  else if flag.take start.length ≠ start ∨ flag[start.length]? ≠ some (byte '\x7b') ∨
      flag[37]? ≠ some (byte '\x7d') then .error .wrongFormat
  else
    match (base64Decode ((flag.drop 5).take 32)).bind FlagFormat.ofBytes with
    | some binaryFlag => .ok binaryFlag
    | none => .error .invalidFormat

/-- `verify_hmac(&binary_flag, &binary_flag.mac, binary_flag.mac)`. -/
def verifyHmac (hmac : Hmac) (hmacSecretKey : Vector UInt8 32) (flag : FlagFormat) : Bool :=
  flag.mac.toList = (hmac hmacSecretKey.toList flag.data).toList.take 16

end Gameserver.Submission
