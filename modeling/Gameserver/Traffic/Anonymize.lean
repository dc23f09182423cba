import Gameserver.Lib.OnesComplement
import Gameserver.Traffic.Services

/-!
# Hiding the distance of a sender

`vpn/bpf/anonymize_traffic.c` limits the TTL of the packets that leave the VPN server, so that
a team cannot tell its opponents from the gameserver by the number of hops.  The checksum of
the IP header is repaired from the two bytes around the TTL alone.

* `handleEgress` — the program, over any `bpf_l3_csum_replace`.
* `HeaderOk` — the checksum of a header verifies, in network byte order.
* `handleEgress_headerOk` — **a header verifies afterwards exactly when it did before**, though
  the program computes in the byte order of the host.
* `handleEgress_ttl`, `handleEgress_frame`, `handleEgress_twice` — what else happens to the
  bytes.
* `handleEgress_indistinguishable` — **packets that differ in their TTLs leave as the same
  bytes**.
-/

namespace Gameserver.Traffic

/-! ## Stores to a packet -/

namespace SkBuff

variable (skb : SkBuff)

/-- A byte is stored. -/
def store (i : ℕ) (value : UInt8) : SkBuff := { skb with data := skb.data.set i value }

/-- A `__u16` is stored. -/
def storeLe16 (i value : ℕ) : SkBuff :=
  (skb.store i (UInt8.ofNat (value % 256))).store (i + 1) (UInt8.ofNat (value / 256))

variable {skb} {i j value : ℕ} {b : UInt8}

@[simp] theorem length_store : (skb.store i b).data.length = skb.data.length := by simp [store]

@[simp] theorem len_store : (skb.store i b).len = skb.len := rfl

@[simp] theorem protocol_store : (skb.store i b).protocol = skb.protocol := rfl

@[simp] theorem mark_store : (skb.store i b).mark = skb.mark := rfl

theorem byte_store : (skb.store i b).byte j =
    if i = j ∧ j < skb.data.length then b else skb.byte j := by
  simp only [store, byte, List.getD_eq_getElem?_getD, List.getElem?_set]
  by_cases hij : i = j
  · subst hij
    by_cases hlt : i < skb.data.length
    · simp [hlt]
    · simp [hlt]
  · simp [hij]

theorem byte_store_of_ne (h : i ≠ j) : (skb.store i b).byte j = skb.byte j := by
  simp [byte_store, h]

theorem byte_storeLe16_of_ne (h : i ≠ j) (h' : i + 1 ≠ j) :
    (skb.storeLe16 i value).byte j = skb.byte j := by
  simp [storeLe16, byte_store_of_ne, h, h']

theorem le16_storeLe16 (hvalue : value < 65536) (hlen : i + 1 < skb.data.length) :
    (skb.storeLe16 i value).le16 i = value := by
  have hlow : i < skb.data.length := by omega
  simp [le16, storeLe16, byte_store, hlow, hlen]
  omega

theorem le16_le (skb : SkBuff) (i : ℕ) : skb.le16 i ≤ 0xffff := by
  have h₁ := (skb.byte i).toNat_lt
  have h₂ := (skb.byte (i + 1)).toNat_lt
  simp only [le16]
  omega

theorem be16_le (skb : SkBuff) (i : ℕ) : skb.be16 i ≤ 0xffff := by
  have h₁ := (skb.byte i).toNat_lt
  have h₂ := (skb.byte (i + 1)).toNat_lt
  simp only [be16]
  omega

/-- Swapping two bytes is a multiplication, as a carry goes around. -/
theorem le16_modEq (skb : SkBuff) (i : ℕ) : skb.le16 i ≡ 256 * skb.be16 i [MOD 0xffff] := by
  have hsplit : 256 * skb.be16 i = skb.le16 i + 0xffff * (skb.byte i).toNat := by
    simp only [le16, be16]
    omega
  rw [hsplit]
  simp [Nat.ModEq]

/-- Two packets are the same if they have the same bytes. -/
theorem ext_byte {p q : SkBuff} (hlength : p.data.length = q.data.length) (hlen : p.len = q.len)
    (hprotocol : p.protocol = q.protocol) (hmark : p.mark = q.mark)
    (hbyte : ∀ i, p.byte i = q.byte i) : p = q := by
  have hdata : p.data = q.data := by
    refine List.ext_getElem hlength fun i hp hq => ?_
    have h := hbyte i
    simpa [byte, List.getD_eq_getElem?_getD, hp, hq] using h
  cases p
  cases q
  simp_all

end SkBuff

/-! ## The program -/

namespace Anonymize

/-- `SAARSEC_MAX_TTL`. -/
def saarsecMaxTtl : UInt8 := 48

/-- `TC_ACT_UNSPEC`. -/
def tcActUnspec : ℤ := -1

section Program

variable (csumReplace : ℕ → ℕ → ℕ → ℕ)

/-- `bpf_l3_csum_replace` with two bytes: the checksum at an offset, for an old and a new
word. -/
def bpfL3CsumReplace (skb : SkBuff) (offset old new : ℕ) : SkBuff :=
  skb.storeLe16 offset (csumReplace (skb.le16 offset) old new)

/-- `anonymize_frame`. -/
def anonymizeFrame (skb : SkBuff) (ipoffset : ℕ) : ℤ × SkBuff :=
  if skb.data.length < ipoffset + 20 then (tcActUnspec, skb)
  else if saarsecMaxTtl < skb.byte (ipoffset + 8) then
    let old := skb.le16 (ipoffset + 8)
    -- the lower byte of the word is the TTL, the upper one the protocol
    let new := old / 256 * 256 + saarsecMaxTtl.toNat
    let skb := bpfL3CsumReplace csumReplace skb (ipoffset + 10) old new
    (tcActUnspec, skb.store (ipoffset + 8) saarsecMaxTtl)
  else (tcActUnspec, skb)

/-- `handle_egress`. -/
def handleEgress (skb : SkBuff) : ℤ × SkBuff :=
  match skb.getIp4Offset with
  | none => (tcActUnspec, skb)
  | some offset => anonymizeFrame csumReplace skb offset

end Program

/-- The words of an IP header, in network byte order; its length is in its first byte. -/
def headerWords (skb : SkBuff) (offset : ℕ) : List ℕ :=
  (List.range (2 * (skb.byte offset &&& 0x0f).toNat)).map fun i => skb.be16 (offset + 2 * i)

/-- The checksum of an IP header verifies: its words sum up to ones. -/
def HeaderOk (skb : SkBuff) (offset : ℕ) : Prop :=
  OnesComplement.sum 0xffff (headerWords skb offset) = 0xffff

instance (skb : SkBuff) (offset : ℕ) : Decidable (HeaderOk skb offset) :=
  inferInstanceAs (Decidable (_ = _))

/-- A packet with a whole IP header. -/
structure HasHeader (skb : SkBuff) (offset : ℕ) : Prop where
  offset_eq : skb.getIp4Offset = some offset
  fits : offset + 20 ≤ skb.data.length
  length_ok : 5 ≤ (skb.byte offset &&& 0x0f).toNat

/-- What `bpf_l3_csum_replace` documents: the incremental update of a one's complement
checksum. -/
def Incremental (csumReplace : ℕ → ℕ → ℕ → ℕ) : Prop :=
  ∀ check old new, check ≤ 0xffff → old ≤ 0xffff → new ≤ 0xffff →
    csumReplace check old new = OnesComplement.replace 0xffff check old new

/-! ## What the program writes -/

section

variable {csumReplace : ℕ → ℕ → ℕ → ℕ} {skb : SkBuff} {offset : ℕ}

/-- The packet with its limited TTL. -/
def limited (csumReplace : ℕ → ℕ → ℕ → ℕ) (skb : SkBuff) (offset : ℕ) : SkBuff :=
  let old := skb.le16 (offset + 8)
  (bpfL3CsumReplace csumReplace skb (offset + 10) old
    (old / 256 * 256 + saarsecMaxTtl.toNat)).store (offset + 8) saarsecMaxTtl

theorem handleEgress_of_header (h : HasHeader skb offset) : handleEgress csumReplace skb =
    (tcActUnspec, if saarsecMaxTtl < skb.byte (offset + 8) then limited csumReplace skb offset
      else skb) := by
  have hfits := h.fits
  rw [handleEgress, h.offset_eq]
  simp only [anonymizeFrame, Nat.not_lt.mpr hfits, if_false]
  split <;> rfl

@[simp] theorem length_limited :
    (limited csumReplace skb offset).data.length = skb.data.length := by
  simp [limited, bpfL3CsumReplace, SkBuff.storeLe16]

theorem byte_limited_ttl (h : HasHeader skb offset) :
    (limited csumReplace skb offset).byte (offset + 8) = saarsecMaxTtl := by
  have hfits := h.fits
  have hlt : offset + 8 < skb.data.length := by omega
  simp [limited, bpfL3CsumReplace, SkBuff.storeLe16, SkBuff.byte_store, hlt]

theorem byte_limited_of_ne {i : ℕ} (h₈ : offset + 8 ≠ i) (h₁₀ : offset + 10 ≠ i)
    (h₁₁ : offset + 10 + 1 ≠ i) :
    (limited csumReplace skb offset).byte i = skb.byte i := by
  rw [limited, SkBuff.byte_store_of_ne h₈]
  exact SkBuff.byte_storeLe16_of_ne h₁₀ h₁₁

/-- The packet is found where it was. -/
theorem hasHeader_limited (h : HasHeader skb offset) :
    HasHeader (limited csumReplace skb offset) offset where
  offset_eq := by
    have hbytes : ∀ i, i = 0 ∨ i = 12 ∨ i = 13 → offset = 14 ∨ offset = 0 →
        (limited csumReplace skb offset).byte i = skb.byte i := by
      intro i hi hoff
      exact byte_limited_of_ne (by omega) (by omega) (by omega)
    have hoff : offset = 14 ∨ offset = 0 := by
      have := h.offset_eq
      unfold SkBuff.getIp4Offset at this
      split_ifs at this <;> simp_all
    rw [← h.offset_eq]
    simp only [SkBuff.getIp4Offset, SkBuff.be16, length_limited]
    have h₀ := hbytes 0 (.inl rfl) hoff
    have h₁₂ := hbytes 12 (.inr (.inl rfl)) hoff
    have h₁₃ := hbytes 13 (.inr (.inr rfl)) hoff
    simp only [h₀, h₁₂, h₁₃]
    rfl
  fits := by
    rw [length_limited]
    exact h.fits
  length_ok := by
    rw [byte_limited_of_ne (by omega) (by omega) (by omega)]
    exact h.length_ok

theorem le16_limited_ttl (h : HasHeader skb offset) :
    (limited csumReplace skb offset).le16 (offset + 8) =
      skb.le16 (offset + 8) / 256 * 256 + saarsecMaxTtl.toNat := by
  have hlow := (skb.byte (offset + 8)).toNat_lt
  rw [SkBuff.le16, byte_limited_ttl h, byte_limited_of_ne (by omega) (by omega) (by omega),
    SkBuff.le16]
  omega

theorem le16_limited_check (h : HasHeader skb offset) (hincr : Incremental csumReplace) :
    (limited csumReplace skb offset).le16 (offset + 10) =
      OnesComplement.replace 0xffff (skb.le16 (offset + 10)) (skb.le16 (offset + 8))
        ((limited csumReplace skb offset).le16 (offset + 8)) := by
  have hfits := h.fits
  have hold := skb.le16_le (offset + 8)
  have hnew : skb.le16 (offset + 8) / 256 * 256 + saarsecMaxTtl.toNat ≤ 0xffff := by
    have : saarsecMaxTtl.toNat = 48 := rfl
    omega
  have hvalue := hincr _ _ _ (skb.le16_le (offset + 10)) hold hnew
  have hle : OnesComplement.replace 0xffff (skb.le16 (offset + 10)) (skb.le16 (offset + 8))
      (skb.le16 (offset + 8) / 256 * 256 + saarsecMaxTtl.toNat) ≤ 0xffff :=
    OnesComplement.replace_le
  rw [le16_limited_ttl h, ← hvalue]
  rw [← hvalue] at hle
  have hbyte : ∀ i, offset + 8 ≠ i → (limited csumReplace skb offset).byte i =
      (bpfL3CsumReplace csumReplace skb (offset + 10) (skb.le16 (offset + 8))
        (skb.le16 (offset + 8) / 256 * 256 + saarsecMaxTtl.toNat)).byte i :=
    fun i hi => SkBuff.byte_store_of_ne hi
  calc
    (limited csumReplace skb offset).le16 (offset + 10)
        = (bpfL3CsumReplace csumReplace skb (offset + 10) (skb.le16 (offset + 8))
          (skb.le16 (offset + 8) / 256 * 256 + saarsecMaxTtl.toNat)).le16 (offset + 10) := by
      rw [SkBuff.le16, SkBuff.le16, hbyte _ (by omega), hbyte _ (by omega)]
    _ = _ := SkBuff.le16_storeLe16 (by omega) (by omega)

/-! ## The checksum -/

theorem pos_of_lt {b : UInt8} (h : saarsecMaxTtl < b) : 0 < b := by
  rw [UInt8.lt_iff_toNat_lt] at h ⊢
  exact Nat.zero_lt_of_lt h

/-- The checksum in terms of the words that the program loads. -/
theorem headerOk_iff (h : HasHeader skb offset) (hpos : 0 < skb.byte (offset + 8)) :
    HeaderOk skb offset ↔ 0xffff ∣ ∑ i ∈ Finset.range
      (2 * (skb.byte offset &&& 0x0f).toNat), skb.le16 (offset + 2 * i) := by
  have hlength := h.length_ok
  have hwords : ∀ word ∈ headerWords skb offset, word ≤ 0xffff := by
    simp only [headerWords, List.mem_map]
    rintro word ⟨i, -, rfl⟩
    exact skb.be16_le _
  have hsome : ∃ word ∈ headerWords skb offset, 0 < word := by
    refine ⟨skb.be16 (offset + 8), List.mem_map.mpr ⟨4, List.mem_range.mpr (by omega), rfl⟩, ?_⟩
    have : 0 < (skb.byte (offset + 8)).toNat := UInt8.lt_iff_toNat_lt.mp hpos
    rw [SkBuff.be16]
    omega
  have hlist : (headerWords skb offset).sum = ∑ i ∈ Finset.range
      (2 * (skb.byte offset &&& 0x0f).toNat), skb.be16 (offset + 2 * i) := rfl
  have hswap : ∑ i ∈ Finset.range (2 * (skb.byte offset &&& 0x0f).toNat),
      skb.le16 (offset + 2 * i) ≡ 256 * ∑ i ∈ Finset.range
        (2 * (skb.byte offset &&& 0x0f).toNat), skb.be16 (offset + 2 * i) [MOD 0xffff] := by
    rw [Finset.mul_sum]
    exact Nat.ModEq.sum fun i _ => skb.le16_modEq _
  rw [HeaderOk, OnesComplement.sum_eq_max_iff hwords hsome, hlist]
  rw [← Nat.modEq_zero_iff_dvd (a := ∑ i ∈ _, skb.le16 _)]
  have hcoprime : Nat.Coprime 0xffff 256 := by decide
  rw [← hcoprime.dvd_mul_left, ← Nat.modEq_zero_iff_dvd]
  exact ⟨hswap.trans, hswap.symm.trans⟩

/-- **The checksum is repaired.**  With an incremental update of the checksum, the header of a
packet verifies after the program exactly when it did before. -/
theorem handleEgress_headerOk (h : HasHeader skb offset) (hincr : Incremental csumReplace) :
    HeaderOk (handleEgress csumReplace skb).2 offset ↔ HeaderOk skb offset := by
  rw [handleEgress_of_header h]
  by_cases httl : saarsecMaxTtl < skb.byte (offset + 8)
  · simp only [httl, if_true]
    have hlength := h.length_ok
    have hheader : HasHeader (limited csumReplace skb offset) offset := hasHeader_limited h
    have hfirst : (limited csumReplace skb offset).byte offset = skb.byte offset :=
      byte_limited_of_ne (by omega) (by omega) (by omega)
    rw [headerOk_iff hheader (by rw [byte_limited_ttl h]; decide),
      headerOk_iff h (pos_of_lt httl), hfirst]
    refine OnesComplement.dvd_sum_replace (i := 4) (j := 5) (by omega) (by omega) (by omega)
      ?_ (fun k => skb.le16_le _) (fun k => SkBuff.le16_le _ _) (le16_limited_check h hincr)
    intro k hk hk'
    simp only [SkBuff.le16]
    rw [byte_limited_of_ne (by omega) (by omega) (by omega),
      byte_limited_of_ne (by omega) (by omega) (by omega)]
  · simp only [httl, if_false]

/-! ## The other bytes -/

theorem handleEgress_ttl (h : HasHeader skb offset) :
    ((handleEgress csumReplace skb).2.byte (offset + 8)).toNat =
      min (skb.byte (offset + 8)).toNat saarsecMaxTtl.toNat := by
  rw [handleEgress_of_header h]
  by_cases httl : saarsecMaxTtl < skb.byte (offset + 8)
  · simp only [httl, if_true, byte_limited_ttl h]
    exact (min_eq_right (UInt8.lt_iff_toNat_lt.mp httl).le).symm
  · simp only [httl, if_false]
    rw [UInt8.lt_iff_toNat_lt, not_lt] at httl
    exact (min_eq_left httl).symm

/-- Only the TTL and the checksum can change, and the packet keeps its length and marks. -/
theorem handleEgress_frame (csumReplace : ℕ → ℕ → ℕ → ℕ) (skb : SkBuff) :
    (handleEgress csumReplace skb).1 = tcActUnspec ∧
    (handleEgress csumReplace skb).2.data.length = skb.data.length ∧
    (handleEgress csumReplace skb).2.len = skb.len ∧
    (handleEgress csumReplace skb).2.protocol = skb.protocol ∧
    (handleEgress csumReplace skb).2.mark = skb.mark ∧
    ∀ i, (∀ offset, skb.getIp4Offset = some offset →
        i ≠ offset + 8 ∧ i ≠ offset + 10 ∧ i ≠ offset + 11) →
      (handleEgress csumReplace skb).2.byte i = skb.byte i := by
  cases hoffset : skb.getIp4Offset with
  | none => simp [handleEgress, hoffset]
  | some offset =>
    simp only [handleEgress, hoffset, anonymizeFrame]
    split
    · simp
    · split
      · refine ⟨rfl, length_limited, rfl, rfl, rfl, fun i hi => ?_⟩
        obtain ⟨h₈, h₁₀, h₁₁⟩ := hi offset rfl
        exact byte_limited_of_ne h₈.symm h₁₀.symm (by omega)
      · simp

theorem byte_limited_of_le {i : ℕ} (h : offset + 12 ≤ i) :
    (limited csumReplace skb offset).byte i = skb.byte i :=
  byte_limited_of_ne (by omega) (by omega) (by omega)

theorem be16_limited_of_le {i : ℕ} (h : offset + 12 ≤ i) :
    (limited csumReplace skb offset).be16 i = skb.be16 i := by
  rw [SkBuff.be16, SkBuff.be16, byte_limited_of_le h, byte_limited_of_le (by omega)]

theorem be32_limited_of_le {i : ℕ} (h : offset + 12 ≤ i) :
    (limited csumReplace skb offset).be32 i = skb.be32 i := by
  rw [SkBuff.be32, SkBuff.be32, byte_limited_of_le h, byte_limited_of_le (by omega),
    byte_limited_of_le (by omega), byte_limited_of_le (by omega)]

/-- The traffic counters read the same from the packet. -/
theorem headers_limited (h : HasHeader skb offset) :
    (limited csumReplace skb offset).headers = skb.headers := by
  have hprotocol : (limited csumReplace skb offset).byte (offset + 9) = skb.byte (offset + 9) :=
    byte_limited_of_ne (by omega) (by omega) (by omega)
  have hlen : (limited csumReplace skb offset).len = skb.len := rfl
  have hheader : (limited csumReplace skb offset).getIp4Offset = some offset :=
    (hasHeader_limited h).offset_eq
  simp only [SkBuff.headers, h.offset_eq, hheader, length_limited, hprotocol, hlen]
  rw [byte_limited_of_le (by omega), be16_limited_of_le (i := offset + 20 + 2) (by omega),
    be32_limited_of_le (by omega), be32_limited_of_le (by omega)]
  -- the type of a frame is only read again where the IP header comes after the one of Ethernet
  by_cases hoff : offset = 14
  · have htype : (limited csumReplace skb offset).be16 12 = skb.be16 12 := by
      simp only [SkBuff.be16]
      rw [byte_limited_of_ne (by omega) (by omega) (by omega),
        byte_limited_of_ne (by omega) (by omega) (by omega)]
    rw [htype]
  · simp only [hoff, false_and, if_false]

/-- **What the program does to a packet.**  Where a packet has a whole IP header, its TTL is
limited, the header verifies exactly when it did before, and no byte changes but the TTL and
the checksum.  The traffic counters see the same packet, and a second pass changes nothing. -/
theorem handleEgress_faithful (h : HasHeader skb offset) (hincr : Incremental csumReplace) :
    (HeaderOk (handleEgress csumReplace skb).2 offset ↔ HeaderOk skb offset) ∧
    ((handleEgress csumReplace skb).2.byte (offset + 8)).toNat =
      min (skb.byte (offset + 8)).toNat saarsecMaxTtl.toNat ∧
    (∀ i, i ≠ offset + 8 → i ≠ offset + 10 → i ≠ offset + 11 →
      (handleEgress csumReplace skb).2.byte i = skb.byte i) ∧
    (handleEgress csumReplace skb).2.headers = skb.headers ∧
    handleEgress csumReplace (handleEgress csumReplace skb).2 = handleEgress csumReplace skb := by
  refine ⟨handleEgress_headerOk h hincr, handleEgress_ttl h, ?_, ?_, ?_⟩
  · intro i h₈ h₁₀ h₁₁
    obtain ⟨-, -, -, -, -, hframe⟩ := handleEgress_frame csumReplace skb
    refine hframe i fun o ho => ?_
    rw [h.offset_eq] at ho
    cases ho
    exact ⟨h₈, h₁₀, h₁₁⟩
  · rw [handleEgress_of_header h]
    by_cases httl : saarsecMaxTtl < skb.byte (offset + 8)
    · simp only [httl, if_true, headers_limited h]
    · simp only [httl, if_false]
  · rw [handleEgress_of_header h]
    by_cases httl : saarsecMaxTtl < skb.byte (offset + 8)
    · simp only [httl, if_true]
      rw [handleEgress_of_header (hasHeader_limited h), byte_limited_ttl h]
      simp
    · simp only [httl, if_false]
      rw [handleEgress_of_header h]
      simp only [httl, if_false]

end

/-- A TCP packet without its payload, from one team to another. -/
def samplePacket (ttl check : UInt8) : SkBuff where
  data := [0x45, 0, 0, 20, 0, 0, 0, 0, ttl, 6, check, 0xa1, 10, 32, 1, 2, 10, 32, 2, 2]
  len := 20
  protocol := ethPIp
  mark := 0

theorem hasHeader_sample (ttl check : UInt8) : HasHeader (samplePacket ttl check) 0 where
  offset_eq := by
    simp [SkBuff.getIp4Offset, SkBuff.be16, SkBuff.byte, samplePacket, ethPIp]
    decide
  fits := by simp [samplePacket]
  length_ok := by simp [SkBuff.byte, samplePacket]

theorem incremental_replace : Incremental (OnesComplement.replace 0xffff) :=
  fun _ _ _ _ _ _ => rfl

theorem handleEgress_faithful_sample :
    HeaderOk (handleEgress (OnesComplement.replace 0xffff) (samplePacket 64 0x63)).2 0 :=
  (handleEgress_faithful (hasHeader_sample 64 0x63) incremental_replace).1.mpr (by decide)

/-! ## Packets that cannot be told apart -/

section

variable {csumReplace : ℕ → ℕ → ℕ → ℕ} {p q : SkBuff} {offset : ℕ}

/-- A `__u16` determines its two bytes. -/
theorem bytes_of_le16 {i : ℕ} (h : p.le16 i = q.le16 i) :
    p.byte i = q.byte i ∧ p.byte (i + 1) = q.byte (i + 1) := by
  have h₁ := (p.byte i).toNat_lt
  have h₂ := (q.byte i).toNat_lt
  simp only [SkBuff.le16] at h
  rw [← UInt8.toNat_inj, ← UInt8.toNat_inj]
  omega

/-- The repaired checksum is never `0xffff`, so that it is written in one way. -/
theorem le16_limited_check_lt (h : HasHeader p offset) (hincr : Incremental csumReplace) :
    (limited csumReplace p offset).le16 (offset + 10) < 0xffff := by
  rw [le16_limited_check h hincr]
  refine OnesComplement.replace_lt (by omega) ?_
  rw [le16_limited_ttl h]
  have : saarsecMaxTtl.toNat = 48 := rfl
  omega

/-- **The distance of the sender is hidden.**  Two packets with headers that verify and with
TTLs above the limit, that differ in nothing but the TTL and its checksum, leave as the same
packet. -/
theorem handleEgress_indistinguishable (hp : HasHeader p offset) (hq : HasHeader q offset)
    (hpok : HeaderOk p offset) (hqok : HeaderOk q offset)
    (hpttl : saarsecMaxTtl < p.byte (offset + 8)) (hqttl : saarsecMaxTtl < q.byte (offset + 8))
    (hlength : p.data.length = q.data.length) (hlen : p.len = q.len)
    (hprotocol : p.protocol = q.protocol) (hmark : p.mark = q.mark)
    (hsame : ∀ i, i ≠ offset + 8 → i ≠ offset + 10 → i ≠ offset + 11 → p.byte i = q.byte i)
    (hincr : Incremental csumReplace) :
    handleEgress csumReplace p = handleEgress csumReplace q := by
  have hpok' : HeaderOk (handleEgress csumReplace p).2 offset :=
    (handleEgress_headerOk hp hincr).mpr hpok
  have hqok' : HeaderOk (handleEgress csumReplace q).2 offset :=
    (handleEgress_headerOk hq hincr).mpr hqok
  simp only [handleEgress_of_header hp, handleEgress_of_header hq, hpttl, hqttl, if_true]
    at hpok' hqok' ⊢
  -- outside the checksum the two packets agree
  have hrest : ∀ i, i ≠ offset + 10 → i ≠ offset + 11 →
      (limited csumReplace p offset).byte i = (limited csumReplace q offset).byte i := by
    intro i h₁₀ h₁₁
    by_cases h₈ : i = offset + 8
    · rw [h₈, byte_limited_ttl hp, byte_limited_ttl hq]
    · rw [byte_limited_of_ne (by omega) (by omega) (by omega),
        byte_limited_of_ne (by omega) (by omega) (by omega), hsame i h₈ h₁₀ h₁₁]
  have hpos : (0 : UInt8) < saarsecMaxTtl := by decide
  rw [headerOk_iff (hasHeader_limited hp) (by rwa [byte_limited_ttl hp])] at hpok'
  rw [headerOk_iff (hasHeader_limited hq) (by rwa [byte_limited_ttl hq]),
    ← hrest offset (by omega) (by omega)] at hqok'
  have hcheck : (limited csumReplace p offset).le16 (offset + 2 * 5) =
      (limited csumReplace q offset).le16 (offset + 2 * 5) := by
    have hheader : HasHeader (limited csumReplace p offset) offset := hasHeader_limited hp
    have hwords := hheader.length_ok
    refine OnesComplement.checksum_unique (j := 5)
      (g := fun k => (limited csumReplace p offset).le16 (offset + 2 * k))
      (f := fun k => (limited csumReplace q offset).le16 (offset + 2 * k)) (by omega) ?_
      hqok' hpok' (le16_limited_check_lt hq hincr) (le16_limited_check_lt hp hincr)
    intro k hk
    simp only [SkBuff.le16]
    rw [hrest _ (by omega) (by omega), hrest _ (by omega) (by omega)]
  obtain ⟨h₁₀, h₁₁⟩ := bytes_of_le16 hcheck
  refine congrArg (Prod.mk tcActUnspec) ?_
  refine SkBuff.ext_byte (by simpa using hlength) hlen hprotocol hmark fun i => ?_
  by_cases hi : i = offset + 10
  · rw [hi]
    exact h₁₀
  · by_cases hi' : i = offset + 11
    · rw [hi']
      exact h₁₁
    · exact hrest i hi hi'

theorem handleEgress_indistinguishable_sample :
    handleEgress (OnesComplement.replace 0xffff) (samplePacket 64 0x63) =
      handleEgress (OnesComplement.replace 0xffff) (samplePacket 128 0x23) := by
  refine handleEgress_indistinguishable (hasHeader_sample 64 0x63) (hasHeader_sample 128 0x23)
    (by decide) (by decide) (by decide) (by decide) rfl rfl rfl rfl ?_ incremental_replace
  intro i h₈ h₁₀ _
  rcases i with _ | _ | _ | _ | _ | _ | _ | _ | _ | _ | _ | i
  all_goals first | rfl | omega

end

end Anonymize

end Gameserver.Traffic
