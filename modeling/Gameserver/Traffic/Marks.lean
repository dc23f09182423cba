import Gameserver.Firewall.Manager
import Gameserver.Traffic.Conservation

/-!
# The marks of incoming packets

At its ingress a packet is marked with its team, and with the class and the service of its
connection.  The firewall and the egress program go by these bits.

* `SkBuff.Ipv4At`, `SkBuff.IsTcpSyn` — what a packet is, whatever the program makes of it.
* `SkBuff.SeesTcp`, `SkBuff.SeesSyn` — what the program makes of it: it expects a header of 20
  bytes, and one more byte than TCP needs.
* `connectionBits`, `classOf` — the bits that belong to the connection, and the class in them.
* `ingress_marksExactly_iff` — when the ingress writes its own bits only.
* `ingress_classesExactly_iff` — when the class says which teams a packet goes between.
-/

namespace Gameserver.Traffic

/-! ## Packets -/

namespace SkBuff

variable (skb : SkBuff) (offset : ℕ)

/-- The IPv4 header of the packet is at this offset: behind an Ethernet header, or in front. -/
structure Ipv4At : Prop where
  layout : (offset = 14 ∧ skb.be16 12 = ethPIp) ∨ (offset = 0 ∧ skb.protocol = ethPIp)
  version : skb.byte offset &&& 0xf0 = 0x40
  ihl : 5 ≤ skb.byte offset &&& 0x0f
  complete : offset + 20 ≤ skb.data.length

/-- Where the header behind the IPv4 header and its options starts. -/
def transport : ℕ := offset + 4 * (skb.byte offset &&& 0x0f).toNat

/-- The first fragment of a TCP segment whose `SYN` flag is set. -/
def IsTcpSyn : Prop :=
  skb.byte (offset + 9) = ipprotoTcp ∧ skb.be16 (offset + 6) % 8192 = 0 ∧
    skb.transport offset + 13 < skb.data.length ∧
    skb.byte (skb.transport offset + 13) &&& 0x02 ≠ 0

/-- `is_tcp`, with the IPv4 header at this offset. -/
def SeesTcp : Prop := skb.byte (offset + 9) = ipprotoTcp ∧ offset + 40 < skb.data.length

/-- `is_syn`, of a packet that is seen as TCP. -/
def SeesSyn : Prop := skb.byte (offset + 33) &&& 0x02 ≠ 0

/-- `is_udp`, with the IPv4 header at this offset. -/
def SeesUdp : Prop := skb.byte (offset + 9) = ipprotoUdp ∧ offset + 28 < skb.data.length

instance : Decidable (skb.IsTcpSyn offset) := by unfold IsTcpSyn; infer_instance

instance : Decidable (skb.SeesTcp offset) := by unfold SeesTcp; infer_instance

instance : Decidable (skb.SeesSyn offset) := by unfold SeesSyn; infer_instance

instance : Decidable (skb.SeesUdp offset) := by unfold SeesUdp; infer_instance

/-- What `handle_packet` reads, with the IPv4 header at this offset. -/
def headersSeen : Headers where
  saddr := skb.be32 (offset + 12)
  daddr := skb.be32 (offset + 16)
  size := if offset ≤ skb.len then skb.len - offset else 0
  protocol := skb.byte (offset + 9)
  isTcp := skb.SeesTcp offset
  isSyn := skb.SeesTcp offset ∧ skb.SeesSyn offset
  isSynack := (skb.SeesTcp offset ∧ skb.SeesSyn offset) ∧ skb.byte (offset + 33) &&& 0x10 ≠ 0
  port := if skb.SeesTcp offset ∨ skb.SeesUdp offset then skb.be16 (offset + 22) else 0

end SkBuff

variable {skb : SkBuff} {offset : ℕ}

/-- The type of a frame that `get_ip4_offset` accepts is accepted a second time. -/
theorem frame_of_offset (ho : skb.getIp4Offset = some offset) :
    ¬ (offset = 14 ∧ skb.be16 12 ≠ ethPIp) := by
  rintro ⟨rfl, hne⟩
  unfold SkBuff.getIp4Offset at ho
  split_ifs at ho
  simp at ho

theorem decide_isTcp :
    decide (skb.byte (offset + 9) = ipprotoTcp ∧ offset + 20 + 20 < skb.data.length) =
      decide (skb.SeesTcp offset) :=
  decide_eq_decide.mpr Iff.rfl

theorem decide_isUdp :
    decide (¬ decide (skb.SeesTcp offset) = true ∧ skb.byte (offset + 9) = ipprotoUdp ∧
      offset + 20 + 8 < skb.data.length) = decide (¬ skb.SeesTcp offset ∧ skb.SeesUdp offset) :=
  decide_eq_decide.mpr (and_congr (not_congr decide_eq_true_iff) Iff.rfl)

theorem seesPort_iff :
    (skb.SeesTcp offset ∨ (¬ skb.SeesTcp offset ∧ skb.SeesUdp offset)) ↔
      (skb.SeesTcp offset ∨ skb.SeesUdp offset) := by
  tauto

/-- The condition under which `handle_packet` writes the bits of a connection. -/
theorem classified_iff :
    (¬ (skb.headersSeen offset).isTcp = true ∨ (skb.headersSeen offset).isSyn = true) ↔
      (skb.SeesTcp offset → skb.SeesSyn offset) := by
  simp only [SkBuff.headersSeen, decide_eq_true_iff]
  tauto

/-- `handle_packet` reads the packet where `get_ip4_offset` finds its header. -/
theorem headers_of_offset (ho : skb.getIp4Offset = some offset)
    (hlen : offset + 20 ≤ skb.data.length) : skb.headers = some (skb.headersSeen offset) := by
  unfold SkBuff.headers
  rw [ho]
  dsimp only
  rw [if_neg (by omega), if_neg (frame_of_offset ho)]
  rw [decide_isTcp, decide_isUdp]
  simp only [decide_eq_true_iff, seesPort_iff]
  rfl

theorem headers_of_short (ho : skb.getIp4Offset = some offset)
    (hlen : ¬ offset + 20 ≤ skb.data.length) : skb.headers = none := by
  rw [SkBuff.headers, ho]
  exact if_pos (by omega)

/-- A packet in an Ethernet frame is found, and one without a frame unless it comes from
`8.0.*.*`: its source address is then taken for the type of a frame. -/
theorem getIp4Offset_of_ipv4At (h : skb.Ipv4At offset)
    (hclear : offset = 0 → skb.be16 12 ≠ ethPIp) : skb.getIp4Offset = some offset := by
  have hlen : ¬ skb.data.length ≤ 14 + 1 := by
    have := h.complete
    omega
  rw [SkBuff.getIp4Offset, if_neg hlen]
  obtain ⟨rfl, hframe⟩ | ⟨rfl, hip⟩ := h.layout
  · rw [if_pos hframe]
  · rw [if_neg (hclear rfl), if_pos ⟨hip, h.version, h.ihl⟩]

theorem be32_low (i : ℕ) : (skb.be32 i).toNat % 256 = (skb.byte i).toNat := by
  have hbyte := (skb.byte i).toNat_lt
  unfold SkBuff.be32
  generalize (skb.byte (i + 3)).toBitVec ++ (skb.byte (i + 2)).toBitVec ++
    (skb.byte (i + 1)).toBitVec = high
  rw [BitVec.toNat_append, ← Nat.shiftLeft_add_eq_or_of_lt (skb.byte i).toBitVec.isLt,
    Nat.shiftLeft_eq]
  show (high.toNat * 256 + (skb.byte i).toNat) % 256 = (skb.byte i).toNat
  omega

theorem low_of_getIpRange {a : BitVec 32} (h : getIpRange a ≠ 0) : a &&& 0xff = 10 := by
  by_contra hne
  exact h (if_pos hne)

theorem clear_of_getIpRange (h : getIpRange (skb.be32 12) ≠ 0) : skb.be16 12 ≠ ethPIp := by
  have hlow := low_of_getIpRange h
  have hbyte : (skb.byte 12).toNat = 10 := by
    have hnat := congrArg BitVec.toNat hlow
    rw [BitVec.toNat_and] at hnat
    exact (be32_low 12).symm.trans ((Nat.and_two_pow_sub_one_eq_mod _ 8).symm.trans hnat)
  have hsecond := (skb.byte 13).toNat_lt
  show (skb.byte 12).toNat * 256 + (skb.byte 13).toNat ≠ 0x0800
  omega

theorem exists_offset_of_headers {h : Headers} (hh : skb.headers = some h) :
    ∃ o, skb.getIp4Offset = some o ∧ o + 20 ≤ skb.data.length ∧ h = skb.headersSeen o := by
  cases ho : skb.getIp4Offset with
  | none =>
    rw [SkBuff.headers, ho] at hh
    cases hh
  | some o =>
    by_cases hlen : o + 20 ≤ skb.data.length
    · rw [headers_of_offset ho hlen] at hh
      exact ⟨o, rfl, hlen, (Option.some.inj hh).symm⟩
    · rw [headers_of_short ho hlen] at hh
      cases hh

/-- The headers of a packet whose source has a team or a game server. -/
theorem headers_of_ipv4At (h : skb.Ipv4At offset)
    (hsource : getIpRange (skb.be32 (offset + 12)) ≠ 0) :
    skb.headers = some (skb.headersSeen offset) := by
  refine headers_of_offset (getIp4Offset_of_ipv4At h ?_) h.complete
  rintro rfl
  exact clear_of_getIpRange hsource

/-! ## The bits of a mark -/

/-- The bits above the 16 that are in use. -/
def maskUnused : BitVec 32 := 0xffff0000

/-- `MASK_TRAFFIC_CLASS`. -/
def maskTrafficClass : BitVec 32 := 0x0c00

/-- The bits that `mark_skb_advanced` sets. -/
def connectionBits (ports : ServicePorts) (h : Headers) (teamId : BitVec 32) : BitVec 32 :=
  (trafficClass h.daddr teamId <<< 10) ||| (getService ports h.protocol h.port <<< 12)

theorem or_eq_right_iff {w : ℕ} {a b : BitVec w} : a ||| b = b ↔ a &&& ~~~b = 0 := by
  have hbit : ∀ {x y : BitVec w}, x = y → ∀ {i : ℕ} (hi : i < w), x[i] = y[i] := by
    rintro x _ rfl i hi
    rfl
  constructor
  · intro h
    ext i hi
    simpa using hbit h hi
  · intro h
    ext i hi
    simpa using hbit h hi

section Bits

variable (ports : ServicePorts) (h : Headers) (mark teamId : BitVec 32)

theorem trafficClass_small (daddr : BitVec 32) :
    trafficClass daddr teamId &&& 3 = trafficClass daddr teamId := by
  unfold trafficClass
  dsimp only
  split_ifs <;> rfl

theorem findService_small (port : ℕ) (entries : List (BitVec 32)) :
    findService port entries &&& 0xf = findService port entries := by
  induction entries with
  | nil => exact BitVec.zero_and
  | cons entry entries ih =>
    rw [findService]
    split_ifs with hport hend
    · rw [BitVec.and_assoc, BitVec.and_self]
    · rfl
    · exact ih

theorem getService_small (protocol : UInt8) (port : ℕ) :
    getService ports protocol port &&& 0xf = getService ports protocol port := by
  unfold getService
  split_ifs
  · rfl
  · rfl
  · exact findService_small ..
  · exact findService_small ..
  · rfl

theorem markSkbAdvanced_unused :
    markSkbAdvanced ports mark h teamId &&& maskUnused = mark &&& maskUnused := by
  unfold markSkbAdvanced maskPerConnection maskUnused
  rw [← trafficClass_small, ← getService_small]
  generalize trafficClass h.daddr teamId = tc
  generalize getService ports h.protocol h.port = service
  ext i hi
  interval_cases i <;> simp

theorem markSkbAdvanced_connection :
    markSkbAdvanced ports mark h teamId &&& maskPerConnection = connectionBits ports h teamId := by
  unfold markSkbAdvanced connectionBits maskPerConnection
  rw [← trafficClass_small, ← getService_small]
  generalize trafficClass h.daddr teamId = tc
  generalize getService ports h.protocol h.port = service
  ext i hi
  interval_cases i <;> simp

theorem connectionBits_class :
    connectionBits ports h teamId &&& maskTrafficClass = trafficClass h.daddr teamId <<< 10 := by
  unfold connectionBits maskTrafficClass
  rw [← trafficClass_small, ← getService_small]
  generalize trafficClass h.daddr teamId = tc
  generalize getService ports h.protocol h.port = service
  ext i hi
  interval_cases i <;> simp

variable {teamId}

/-- The eight lowest bits keep what was there before. -/
theorem teamOfMark_markSkbBasic (hteam : teamId &&& maskTeamId = teamId) :
    teamOfMark (markSkbBasic mark teamId) = mark &&& 0xff ||| teamId := by
  rw [← hteam]
  unfold teamOfMark markSkbBasic maskPerPacket maskTeamId
  ext i hi
  interval_cases i <;> simp

theorem markSkbBasic_connection (hteam : teamId &&& maskTeamId = teamId) :
    markSkbBasic mark teamId &&& maskPerConnection = mark &&& maskPerConnection := by
  rw [← hteam]
  unfold markSkbBasic maskPerPacket maskTeamId maskPerConnection
  ext i hi
  interval_cases i <;> simp

theorem markSkbBasic_unused (hteam : teamId &&& maskTeamId = teamId) :
    markSkbBasic mark teamId &&& maskUnused = mark &&& maskUnused := by
  rw [← hteam]
  unfold markSkbBasic maskPerPacket maskTeamId maskUnused
  ext i hi
  interval_cases i <;> simp

/-- The id of the game server is `-1`: it sets every bit. -/
theorem markSkbBasic_gameserver : markSkbBasic mark (BitVec.ofInt 32 ipRangeGameserver) = -1 := by
  have hones : BitVec.ofInt 32 ipRangeGameserver = BitVec.allOnes 32 := by decide
  rw [markSkbBasic, hones, BitVec.or_allOnes]
  decide

theorem and_maskTeamId {k : ℕ} (hk : k < 512) :
    BitVec.ofNat 32 k &&& maskTeamId = BitVec.ofNat 32 k := by
  apply BitVec.eq_of_toNat_eq
  rw [BitVec.toNat_and, BitVec.toNat_ofNat, Nat.mod_eq_of_lt (by omega)]
  show k &&& (2 ^ 9 - 1) = k
  rw [Nat.and_two_pow_sub_one_eq_mod, Nat.mod_eq_of_lt hk]

end Bits

/-! ## What the ingress writes -/

section Ingress

variable (ports : ServicePorts) (h : Headers) (mark : BitVec 32) (map : CountingMap)

theorem handleIngress_unused :
    (handleIngress ports h mark map).1 &&& maskUnused =
      markSkbBasic mark (BitVec.ofInt 32 (getIpRange h.saddr)) &&& maskUnused := by
  unfold handleIngress
  dsimp only
  split_ifs
  · exact markSkbAdvanced_unused ..
  · rfl

theorem handleIngress_connection :
    (handleIngress ports h mark map).1 &&& maskPerConnection =
      if ¬ h.isTcp ∨ h.isSyn then
        connectionBits ports h (BitVec.ofInt 32 (getIpRange h.saddr))
      else markSkbBasic mark (BitVec.ofInt 32 (getIpRange h.saddr)) &&& maskPerConnection := by
  unfold handleIngress
  dsimp only
  split_ifs
  · exact markSkbAdvanced_connection ..
  · rfl

end Ingress

variable (ports : ServicePorts) (map : CountingMap)

/-- The upper bits change when the source is a game server, and only then. -/
theorem ingress_unused_iff :
    (ingress ports skb map).1.mark &&& maskUnused = skb.mark &&& maskUnused ↔
      ∀ o, skb.getIp4Offset = some o → o + 20 ≤ skb.data.length →
        getIpRange (skb.be32 (o + 12)) = ipRangeGameserver →
        skb.mark &&& maskUnused = maskUnused := by
  cases hh : skb.headers with
  | none =>
    have hsame : (ingress ports skb map).1.mark = skb.mark := by rw [ingress, hh]
    rw [hsame]
    refine iff_of_true rfl fun o ho hlen => ?_
    rw [headers_of_offset ho hlen] at hh
    cases hh
  | some h =>
    obtain ⟨o, ho, hlen, rfl⟩ := exists_offset_of_headers hh
    have hmark : (ingress ports skb map).1.mark &&& maskUnused =
        markSkbBasic skb.mark (BitVec.ofInt 32 (getIpRange (skb.be32 (o + 12)))) &&&
            maskUnused := by
      rw [ingress, hh]
      exact handleIngress_unused _ _ _ map
    rw [hmark]
    rcases getIpRange_mem (skb.be32 (o + 12)) with hs | ⟨k, hs, hk⟩
    · have hones : markSkbBasic skb.mark (BitVec.ofInt 32 (-1)) = -1 := markSkbBasic_gameserver _
      rw [hs, hones]
      constructor
      · rintro hsame o' ho' - -
        exact hsame.symm
      · intro hall
        exact (hall o ho hlen hs).symm
    · rw [hs, BitVec.ofInt_natCast, markSkbBasic_unused _ (and_maskTeamId (by omega))]
      refine iff_of_true rfl fun o' ho' _ hs' => ?_
      obtain rfl := Option.some.inj (ho.symm.trans ho')
      rw [hs] at hs'
      exact absurd hs' (by unfold ipRangeGameserver; omega)

/-! ## The ingress writes its own bits -/

/-- The mark after the ingress of a packet with its IPv4 header at `offset`: of a packet from a
team the team, the processed bit, the bits of the connection if a connection can start here, and
nothing else; of another packet nothing above the 16 bits in use. -/
structure MarksExactly (skb : SkBuff) (offset : ℕ) (after : BitVec 32) : Prop where
  team : ∀ t : ℕ, 1 ≤ t → t < 512 → getIpRange (skb.be32 (offset + 12)) = t →
    teamOfMark after = BitVec.ofNat 32 t ∧ processed after = true ∧
      ((skb.byte (offset + 9) = ipprotoTcp → skb.IsTcpSyn offset) →
        after &&& maskPerConnection =
          connectionBits ports (skb.headersSeen offset) (BitVec.ofNat 32 t)) ∧
      (¬ (skb.byte (offset + 9) = ipprotoTcp → skb.IsTcpSyn offset) →
        after &&& maskPerConnection = skb.mark &&& maskPerConnection) ∧
      after &&& maskUnused = skb.mark &&& maskUnused
  other : (¬ ∃ t : ℕ, 1 ≤ t ∧ t < 512 ∧ getIpRange (skb.be32 (offset + 12)) = t) →
    after &&& maskUnused = skb.mark &&& maskUnused

/-- What the ingress relies on.  The mark has no stale bits that the team does not set, and the
`SYN` flag is where the program looks for it, unless the connection has its bits already; and
only a mark whose upper bits are all set comes from a game server. -/
structure MarkFits (skb : SkBuff) (offset : ℕ) : Prop where
  team : ∀ t : ℕ, 1 ≤ t → getIpRange (skb.be32 (offset + 12)) = t →
    skb.mark &&& 0xff &&& ~~~ BitVec.ofNat 32 t = 0 ∧
      (((skb.SeesTcp offset → skb.SeesSyn offset) ↔
          (skb.byte (offset + 9) = ipprotoTcp → skb.IsTcpSyn offset)) ∨
        skb.mark &&& maskPerConnection =
          connectionBits ports (skb.headersSeen offset) (BitVec.ofNat 32 t))
  gameserver : ∀ o, skb.getIp4Offset = some o → o + 20 ≤ skb.data.length →
    getIpRange (skb.be32 (o + 12)) = ipRangeGameserver → skb.mark &&& maskUnused = maskUnused

/-- The bits of the connection are those that the packet's kind asks for. -/
theorem connection_iff {sees is : Prop} [Decidable sees] {after before fresh : BitVec 32}
    (h : after = if sees then fresh else before) :
    ((is → after = fresh) ∧ (¬ is → after = before)) ↔ ((sees ↔ is) ∨ before = fresh) := by
  subst h
  by_cases hsees : sees <;> by_cases his : is <;> simp [hsees, his, eq_comm]

theorem team_iff {t : ℕ} (h : skb.Ipv4At offset) (ht : 1 ≤ t)
    (hs : getIpRange (skb.be32 (offset + 12)) = t) :
    (teamOfMark (ingress ports skb map).1.mark = BitVec.ofNat 32 t ↔
      skb.mark &&& 0xff &&& ~~~ BitVec.ofNat 32 t = 0) ∧
    processed (ingress ports skb map).1.mark = true ∧
    (ingress ports skb map).1.mark &&& maskPerConnection =
      if skb.SeesTcp offset → skb.SeesSyn offset then
        connectionBits ports (skb.headersSeen offset) (BitVec.ofNat 32 t)
      else skb.mark &&& maskPerConnection := by
  have hk : t ≤ 400 := by
    rcases getIpRange_mem (skb.be32 (offset + 12)) with hs' | ⟨k, hs', hk⟩ <;> omega
  have hteam := and_maskTeamId (show t < 512 by omega)
  have hh := headers_of_ipv4At h (by omega)
  have hmark : (ingress ports skb map).1.mark =
      (handleIngress ports (skb.headersSeen offset) skb.mark map).1 := by
    rw [ingress, hh]
  have hsource : BitVec.ofInt 32 (getIpRange (skb.headersSeen offset).saddr) =
      BitVec.ofNat 32 t := by
    show BitVec.ofInt 32 (getIpRange (skb.be32 (offset + 12))) = _
    rw [hs, BitVec.ofInt_natCast]
  obtain ⟨hprocessed, hof⟩ :=
    mark_congr (handleIngress_low ports (skb.headersSeen offset) skb.mark map)
  rw [hmark]
  refine ⟨?_, ?_, ?_⟩
  · rw [hof, hsource, teamOfMark_markSkbBasic _ hteam, or_eq_right_iff]
  · rw [hprocessed]
    exact processed_markSkbBasic ..
  · rw [handleIngress_connection, hsource, markSkbBasic_connection _ hteam]
    exact if_congr classified_iff rfl rfl

/-- **When the ingress writes exactly its bits.** -/
theorem ingress_marksExactly_iff (h : skb.Ipv4At offset) :
    MarksExactly ports skb offset (ingress ports skb map).1.mark ↔ MarkFits ports skb offset := by
  constructor
  · intro hexact
    have hunused : (ingress ports skb map).1.mark &&& maskUnused = skb.mark &&& maskUnused := by
      by_cases hsource : ∃ t : ℕ, 1 ≤ t ∧ t < 512 ∧ getIpRange (skb.be32 (offset + 12)) = t
      · obtain ⟨t, ht, ht', hs⟩ := hsource
        exact (hexact.team t ht ht' hs).2.2.2.2
      · exact hexact.other hsource
    refine ⟨fun t ht hs => ?_, (ingress_unused_iff ports map).mp hunused⟩
    have ht' : t < 512 := by
      rcases getIpRange_mem (skb.be32 (offset + 12)) with hs' | ⟨k, hs', hk⟩ <;> omega
    obtain ⟨hteam, -, hconnection⟩ := team_iff ports map h ht hs
    obtain ⟨hof, -, his, hnot, -⟩ := hexact.team t ht ht' hs
    exact ⟨hteam.mp hof, (connection_iff hconnection).mp ⟨his, hnot⟩⟩
  · intro hfits
    have hunused := (ingress_unused_iff ports map).mpr hfits.gameserver
    refine ⟨fun t ht _ hs => ?_, fun _ => hunused⟩
    obtain ⟨hteam, hprocessed, hconnection⟩ := team_iff ports map h ht hs
    obtain ⟨hstale, hsees⟩ := hfits.team t ht hs
    obtain ⟨his, hnot⟩ := (connection_iff hconnection).mpr hsees
    exact ⟨hteam.mpr hstale, hprocessed, his, hnot, hunused⟩

/-- An IPv4 packet without options, on an interface without frames. -/
def ipPacket (protocol : UInt8) (saddr daddr payload : List UInt8) (mark : BitVec 32) : SkBuff where
  data := [0x45, 0, 0, 0, 0, 0, 0, 0, 64, protocol, 0, 0] ++ saddr ++ daddr ++ payload
  len := 12 + saddr.length + daddr.length + payload.length
  protocol := ethPIp
  mark := mark

/-- No services. -/
def ServicePorts.none : ServicePorts := ⟨Vector.replicate 20 0, Vector.replicate 20 0⟩

theorem ipv4At_ipPacket {protocol : UInt8} {saddr daddr payload : List UInt8} {mark : BitVec 32}
    (hsrc : saddr.length = 4) (hdst : daddr.length = 4) :
    (ipPacket protocol saddr daddr payload mark).Ipv4At 0 where
  layout := .inr ⟨rfl, rfl⟩
  version := by
    show (0x45 : UInt8) &&& 0xf0 = 0x40
    decide
  ihl := by
    show (5 : UInt8) ≤ 0x45 &&& 0x0f
    decide
  complete := by
    simp [ipPacket, hsrc, hdst]
    omega

/-- A datagram of team 2 to team 1, with no bit set before. -/
theorem ingress_marksExactly_datagram :
    MarksExactly ServicePorts.none
      (ipPacket 17 [10, 32, 2, 2] [10, 32, 1, 2] (List.replicate 12 0) 0) 0
      (ingress ServicePorts.none
        (ipPacket 17 [10, 32, 2, 2] [10, 32, 1, 2] (List.replicate 12 0) 0) .empty).1.mark := by
  refine (ingress_marksExactly_iff _ _ (ipv4At_ipPacket rfl rfl)).mpr ⟨fun t _ hs => ?_, ?_⟩
  · have hmark : ∀ m : BitVec 32, (0 : BitVec 32) &&& 0xff &&& m = 0 := by simp
    exact ⟨hmark _, .inl (by decide)⟩
  · intro o ho _ hs
    obtain rfl := Option.some.inj ((show some 0 = _ from by decide).trans ho)
    exact absurd hs (by decide)

/-- A datagram of team 2 with one bit left from before is taken for one of team 18. -/
theorem not_marksExactly :
    let skb := ipPacket 17 [10, 32, 2, 2] [10, 32, 1, 2] (List.replicate 12 0) 0x10
    skb.Ipv4At 0 ∧ getIpRange (skb.be32 12) = 2 ∧
      teamOfMark (ingress ServicePorts.none skb .empty).1.mark = 18 ∧
      ¬ MarksExactly ServicePorts.none skb 0 (ingress ServicePorts.none skb .empty).1.mark := by
  have hsource : getIpRange ((ipPacket 17 [10, 32, 2, 2] [10, 32, 1, 2] (List.replicate 12 0)
      0x10).be32 12) = 2 := by decide
  have hteam : teamOfMark (ingress ServicePorts.none (ipPacket 17 [10, 32, 2, 2] [10, 32, 1, 2]
      (List.replicate 12 0) 0x10) .empty).1.mark = 18 := by decide
  refine ⟨ipv4At_ipPacket rfl rfl, hsource, hteam, fun hexact => ?_⟩
  have hfirst := (hexact.team 2 (by omega) (by omega) hsource).1
  exact absurd (hteam.symm.trans hfirst) (by decide)

/-! ## The class says which teams -/

/-- `TC_UNKNOWN`, `TC_GAMESERVER`, `TC_TEAM_INTERNAL` and `TC_TEAM_TEAM`. -/
def tcUnknown : BitVec 32 := 0x0

def tcGameserver : BitVec 32 := 0x1

def tcTeamInternal : BitVec 32 := 0x2

def tcTeamTeam : BitVec 32 := 0x3

/-- The traffic class of a mark. -/
def classOf (mark : BitVec 32) : BitVec 32 := (mark &&& maskTrafficClass) >>> 10

theorem and_maskTrafficClass (mark : BitVec 32) :
    mark &&& maskTrafficClass = (mark &&& maskPerConnection) &&& maskTrafficClass := by
  rw [BitVec.and_assoc]
  rfl

theorem ofInt_getIpRange_inj {a b : BitVec 32} :
    BitVec.ofInt 32 (getIpRange a) = BitVec.ofInt 32 (getIpRange b) ↔
      getIpRange a = getIpRange b := by
  have hint : ∀ a : BitVec 32, (BitVec.ofInt 32 (getIpRange a)).toInt = getIpRange a := by
    intro a
    rw [BitVec.toInt_ofInt]
    apply Int.bmod_eq_of_le <;> rcases getIpRange_mem a with ha | ⟨k, ha, hk⟩ <;> omega
  constructor
  · intro h
    rw [← hint a, ← hint b, h]
  · exact congrArg _

theorem trafficClass_eq (saddr daddr : BitVec 32) :
    trafficClass daddr (BitVec.ofInt 32 (getIpRange saddr)) =
      if getIpRange daddr = ipRangeGameserver then tcGameserver
      else if getIpRange daddr = getIpRange saddr then tcTeamInternal
      else if getIpRange daddr ≠ ipRangeUnknown then tcTeamTeam
      else tcUnknown := by
  unfold trafficClass
  dsimp only
  rw [if_congr ofInt_getIpRange_inj rfl rfl]
  rfl

/-- The class in the mark of a packet that is classified. -/
theorem classOf_handleIngress (h : Headers) (mark : BitVec 32) (hclassified : ¬ h.isTcp ∨ h.isSyn) :
    (handleIngress ports h mark map).1 &&& maskTrafficClass =
      trafficClass h.daddr (BitVec.ofInt 32 (getIpRange h.saddr)) <<< 10 := by
  rw [and_maskTrafficClass, handleIngress_connection, if_pos hclassified, connectionBits_class]

theorem shift_class {tc : BitVec 32} (htc : tc &&& 3 = tc) : (tc <<< 10) >>> 10 = tc := by
  rw [← htc]
  ext i hi
  interval_cases i <;> simp

/-- The class of a packet between these addresses, and what the firewall makes of it. -/
structure ClassesExactly (saddr daddr after : BitVec 32) : Prop where
  internal : classOf after = tcTeamInternal ↔
    1 ≤ getIpRange saddr ∧ getIpRange daddr = getIpRange saddr
  teamTeam : classOf after = tcTeamTeam ↔
    1 ≤ getIpRange saddr ∧ 1 ≤ getIpRange daddr ∧ getIpRange daddr ≠ getIpRange saddr
  gameserver : 1 ≤ getIpRange saddr → getIpRange daddr = ipRangeGameserver →
    classOf after = tcGameserver
  firewall : ∀ p : Firewall.Packet, p.mark = after →
    Firewall.ruleNetteamonly.applies p = true →
    1 ≤ getIpRange saddr ∧ getIpRange daddr = getIpRange saddr

theorem ruleNetteamonly_applies (p : Firewall.Packet) :
    Firewall.ruleNetteamonly.applies p = true ↔
      p.mark &&& maskTrafficClass = tcTeamInternal <<< 10 := by
  simp [Firewall.ruleNetteamonly, Firewall.Rule.applies, Firewall.Rule.always, maskTrafficClass,
    tcTeamInternal]

theorem classesExactly_iff {saddr daddr after tc : BitVec 32}
    (hbits : after &&& maskTrafficClass = tc <<< 10) (htc : tc &&& 3 = tc) :
    ClassesExactly saddr daddr after ↔
      (tc = tcTeamInternal ↔ 1 ≤ getIpRange saddr ∧ getIpRange daddr = getIpRange saddr) ∧
      (tc = tcTeamTeam ↔
        1 ≤ getIpRange saddr ∧ 1 ≤ getIpRange daddr ∧ getIpRange daddr ≠ getIpRange saddr) ∧
      (1 ≤ getIpRange saddr → getIpRange daddr = ipRangeGameserver → tc = tcGameserver) := by
  have hclass : classOf after = tc := by rw [classOf, hbits, shift_class htc]
  constructor
  · rintro ⟨hinternal, hteamTeam, hgameserver, -⟩
    rw [hclass] at hinternal hteamTeam hgameserver
    exact ⟨hinternal, hteamTeam, hgameserver⟩
  · rintro ⟨hinternal, hteamTeam, hgameserver⟩
    refine ⟨by rwa [hclass], by rwa [hclass], by rwa [hclass], fun p hp happlies => ?_⟩
    rw [ruleNetteamonly_applies, hp, hbits] at happlies
    refine hinternal.mp ?_
    rw [← shift_class htc, happlies]
    decide

/-- **When the class says which teams a packet goes between.**  A source that is no team at all
has the id of an unknown destination, and counts as another team before any other. -/
theorem ingress_classesExactly_iff {h : Headers} (hh : skb.headers = some h)
    (hclassified : ¬ h.isTcp ∨ h.isSyn) :
    ClassesExactly h.saddr h.daddr (ingress ports skb map).1.mark ↔
      1 ≤ getIpRange h.saddr ∨ getIpRange h.daddr = ipRangeGameserver ∨
        (getIpRange h.saddr = ipRangeGameserver ∧ getIpRange h.daddr = ipRangeUnknown) := by
  have hmark : (ingress ports skb map).1.mark = (handleIngress ports h skb.mark map).1 := by
    rw [ingress, hh]
  have hmem : ∀ a, -1 ≤ getIpRange a := fun a => by
    rcases getIpRange_mem a with ha | ⟨k, ha, -⟩ <;> omega
  have hs := hmem h.saddr
  have hd := hmem h.daddr
  rw [hmark, classesExactly_iff (classOf_handleIngress ports map h skb.mark hclassified)
    (trafficClass_small _ _), trafficClass_eq]
  generalize getIpRange h.saddr = s at hs
  generalize getIpRange h.daddr = d at hd
  unfold ipRangeGameserver ipRangeUnknown
  split_ifs with hgameserver hsame hknown
  · simp [tcGameserver, tcTeamInternal, tcTeamTeam]
    omega
  · simp [tcGameserver, tcTeamInternal, tcTeamTeam]
    omega
  · simp [tcGameserver, tcTeamInternal, tcTeamTeam]
    omega
  · simp [tcUnknown, tcGameserver, tcTeamInternal, tcTeamTeam]
    omega

/-- A packet from a team to the game server. -/
theorem ingress_classesExactly_gameserver :
    ClassesExactly
      (ipPacket 17 [10, 32, 2, 2] [10, 32, 250, 2] (List.replicate 12 0) 0 |>.be32 12)
      (ipPacket 17 [10, 32, 2, 2] [10, 32, 250, 2] (List.replicate 12 0) 0 |>.be32 16)
      (ingress ServicePorts.none
        (ipPacket 17 [10, 32, 2, 2] [10, 32, 250, 2] (List.replicate 12 0) 0) .empty).1.mark :=
  (ingress_classesExactly_iff _ _ (headers_of_ipv4At (ipv4At_ipPacket rfl rfl) (by decide))
    (by decide)).mpr (by decide)

/-- A packet that neither comes from a team nor goes to one counts as one inside a team, and the
firewall lets it through while the network is open for teams only. -/
theorem not_classesExactly :
    let skb := ipPacket 17 [8, 8, 8, 8] [9, 9, 9, 9] (List.replicate 12 0) 0
    ¬ ClassesExactly (skb.be32 12) (skb.be32 16) (ingress ServicePorts.none skb .empty).1.mark := by
  intro skb hexact
  have hclass : classOf (ingress ServicePorts.none skb .empty).1.mark = tcTeamInternal := by decide
  exact absurd (hexact.internal.mp hclass).1 (by decide)

end Gameserver.Traffic
