import Gameserver.Traffic.Marks

/-!
# The services of a connection

`write_port_numbers` writes the configured ports into a map, and ends them with a zero; what
stood behind the zero before stays.  The programs at the teams' and at the game server's
interfaces look the destination port of a connection up in it.

* `ServiceList`, `writePortNumbers`, `serviceOf` — the configuration, and the service it names.
* `getService_written` — looking a port up in the maps gives its service.
* `ingressGameserver` — the program at the game server's interfaces.
* `services_agree_iff` — when both programs set the service of a connection.
-/

namespace Gameserver.Traffic

/-! ## The configured ports -/

/-- Pairs of a service id and a port of one protocol. -/
structure ServiceList where
  entries : List (ℕ × ℕ)
  ids : ∀ e ∈ entries, 1 ≤ e.1 ∧ e.1 ≤ 13
  ports : ∀ e ∈ entries, 0 < e.2 ∧ e.2 < 65536
  distinct : (entries.map Prod.snd).Nodup

/-- `(service_id << 16) | port` -/
def encode (e : ℕ × ℕ) : BitVec 32 := BitVec.ofNat 32 (e.1 <<< 16 ||| e.2)

/-- `bpf_map_update_elem` for one entry after the other. -/
def updateFrom (map : Vector (BitVec 32) 20) (i : ℕ) : List (BitVec 32) → Vector (BitVec 32) 20
  | [] => map
  | entry :: entries => updateFrom (map.setIfInBounds i entry) (i + 1) entries

/-- `write_port_numbers`; `none` if the assertion fails. -/
def writePortNumbers (map : Vector (BitVec 32) 20) (ports : List (ℕ × ℕ)) :
    Option (Vector (BitVec 32) 20) :=
  let entries := ports.map encode ++ [0]
  if entries.length ≤ 20 then some (updateFrom map 0 entries) else none

/-- The service that is configured for a port, `0` if there is none. -/
def serviceIn : List (ℕ × ℕ) → ℕ → ℕ
  | [], _ => 0
  | e :: entries, port => if e.2 = port then e.1 else serviceIn entries port

/-- The ports of both protocols. -/
structure Services where
  tcp : ServiceList
  udp : ServiceList

/-- Both maps are written. -/
def Services.write (services : Services) (old : ServicePorts) : Option ServicePorts := do
  let tcp ← writePortNumbers old.tcp services.tcp.entries
  let udp ← writePortNumbers old.udp services.udp.entries
  return ⟨tcp, udp⟩

/-- The service of a connection: that of a special TCP port, or the configured one. -/
def serviceOf (services : Services) (protocol : UInt8) (port : ℕ) : ℕ :=
  if protocol = ipprotoTcp then
    if port = 22 then 15
    else if port = 31337 then 14
    else serviceIn services.tcp.entries port
  else if protocol = ipprotoUdp then serviceIn services.udp.entries port
  else 0

/-! ## Looking a port up -/

theorem updateFrom_toList (map : Vector (BitVec 32) 20) (i : ℕ) (entries : List (BitVec 32))
    (h : i + entries.length ≤ 20) :
    (updateFrom map i entries).toList =
      map.toList.take i ++ entries ++ map.toList.drop (i + entries.length) := by
  induction entries generalizing map i with
  | nil => simp [updateFrom]
  | cons entry entries ih =>
    rw [List.length_cons] at h
    have hi : i < map.toList.length := by
      rw [Vector.length_toList]
      omega
    have hset : map.toList.set i entry =
        map.toList.take i ++ entry :: map.toList.drop (i + 1) := by
      rw [List.set_eq_take_append_cons_drop, if_pos hi]
    have hlen : (map.toList.take i ++ [entry]).length = i + 1 := by
      rw [List.length_append, List.length_take_of_le hi.le]
      rfl
    rw [updateFrom, ih _ _ (by omega), Vector.toList_setIfInBounds, hset, List.append_cons,
      List.take_left' hlen, ← List.drop_drop, List.drop_left' hlen, List.drop_drop,
      List.length_cons, List.append_assoc _ [entry], Nat.add_right_comm i 1, Nat.add_assoc i]
    rfl

theorem toNat_encode {e : ℕ × ℕ} (hid : e.1 ≤ 13) (hport : e.2 < 65536) :
    (encode e).toNat = e.1 * 65536 + e.2 := by
  rw [encode, BitVec.toNat_ofNat, ← Nat.shiftLeft_add_eq_or_of_lt hport, Nat.shiftLeft_eq]
  omega

theorem encode_port {e : ℕ × ℕ} (hid : e.1 ≤ 13) (hport : e.2 < 65536) :
    (encode e &&& 0xffff).toNat = e.2 := by
  rw [BitVec.toNat_and, toNat_encode hid hport]
  show (e.1 * 65536 + e.2) &&& (2 ^ 16 - 1) = e.2
  rw [Nat.and_two_pow_sub_one_eq_mod]
  omega

theorem encode_service {e : ℕ × ℕ} (hid : e.1 ≤ 13) (hport : e.2 < 65536) :
    (encode e >>> 16) &&& 0xf = BitVec.ofNat 32 e.1 := by
  apply BitVec.eq_of_toNat_eq
  rw [BitVec.toNat_and, BitVec.toNat_ushiftRight, toNat_encode hid hport, Nat.shiftRight_eq_div_pow,
    BitVec.toNat_ofNat, Nat.mod_eq_of_lt (by omega)]
  show (e.1 * 65536 + e.2) / 2 ^ 16 &&& (2 ^ 4 - 1) = e.1
  rw [Nat.and_two_pow_sub_one_eq_mod]
  omega

/-- The entries behind the zero do not matter. -/
theorem findService_written {entries : List (ℕ × ℕ)} (hids : ∀ e ∈ entries, e.1 ≤ 13)
    (hports : ∀ e ∈ entries, 0 < e.2 ∧ e.2 < 65536) (stale : List (BitVec 32)) (port : ℕ) :
    findService port (entries.map encode ++ 0 :: stale) =
      BitVec.ofNat 32 (serviceIn entries port) := by
  induction entries with
  | nil =>
    show findService port (0 :: stale) = 0
    rw [findService, if_pos (rfl : (0 : BitVec 32) = 0)]
    split_ifs
    · decide
    · rfl
  | cons e entries ih =>
    have hid := hids e List.mem_cons_self
    have hport := hports e List.mem_cons_self
    have hrest := ih (fun e' he' => hids e' (List.mem_cons_of_mem e he'))
      (fun e' he' => hports e' (List.mem_cons_of_mem e he'))
    have hne : encode e ≠ 0 := by
      intro hzero
      have hnat := toNat_encode hid hport.2
      rw [hzero] at hnat
      change 0 = _ at hnat
      omega
    rw [List.map_cons, List.cons_append, findService, encode_port hid hport.2,
      encode_service hid hport.2, if_neg hne, hrest, serviceIn]
    exact (apply_ite (BitVec.ofNat 32) _ _ _).symm

theorem serviceIn_le {entries : List (ℕ × ℕ)} (hids : ∀ e ∈ entries, e.1 ≤ 13) (port : ℕ) :
    serviceIn entries port ≤ 13 := by
  induction entries with
  | nil => exact Nat.zero_le _
  | cons e entries ih =>
    rw [serviceIn]
    split_ifs
    · exact hids e List.mem_cons_self
    · exact ih fun e' he' => hids e' (List.mem_cons_of_mem e he')

theorem serviceOf_le (services : Services) (protocol : UInt8) (port : ℕ) :
    serviceOf services protocol port ≤ 15 := by
  have htcp := serviceIn_le (fun e he => (services.tcp.ids e he).2) port
  have hudp := serviceIn_le (fun e he => (services.udp.ids e he).2) port
  unfold serviceOf
  split_ifs <;> omega

theorem findService_of_write {list : ServiceList} {old map : Vector (BitVec 32) 20}
    (hwrite : writePortNumbers old list.entries = some map) (port : ℕ) :
    findService port map.toList = BitVec.ofNat 32 (serviceIn list.entries port) := by
  unfold writePortNumbers at hwrite
  dsimp only at hwrite
  split_ifs at hwrite with hlen
  obtain rfl := Option.some.inj hwrite
  rw [updateFrom_toList _ _ _ (by omega), List.take_zero, List.nil_append, List.append_assoc]
  exact findService_written (fun e he => (list.ids e he).2) list.ports _ port

/-- **Looking a port up in the written maps gives its service.** -/
theorem getService_written {services : Services} {old ports : ServicePorts}
    (hwrite : services.write old = some ports) (protocol : UInt8) (port : ℕ) :
    getService ports protocol port = BitVec.ofNat 32 (serviceOf services protocol port) := by
  obtain ⟨tcp, htcp, hrest⟩ := Option.bind_eq_some_iff.mp hwrite
  obtain ⟨udp, hudp, hports⟩ := Option.bind_eq_some_iff.mp hrest
  obtain rfl := Option.some.inj hports
  unfold getService serviceOf
  dsimp only
  rw [findService_of_write htcp, findService_of_write hudp]
  split_ifs <;> rfl

/-! ## The program at the game server's interfaces -/

/-- Two bytes as they stand, loaded into an `int`. -/
def SkBuff.le16 (skb : SkBuff) (i : ℕ) : ℕ :=
  (skb.byte i).toNat + 256 * (skb.byte (i + 1)).toNat

/-- `mark_skb_advanced_gameserver` -/
def markSkbAdvancedGameserver (ports : ServicePorts) (mark daddr : BitVec 32) (protocol : UInt8)
    (port : ℕ) : BitVec 32 :=
  (mark &&& ~~~maskPerConnection) |||
    ((if 0 < getIpRange daddr then tcGameserver else tcUnknown) <<< 10) |||
    (getService ports protocol port <<< 12)

/-- `handle_ingress` of `traffic_stats_gameserver.c`: the mark afterwards. -/
def ingressGameserver (ports : ServicePorts) (skb : SkBuff) : BitVec 32 :=
  match skb.getIp4Offset with
  | none => skb.mark
  | some offset =>
    if skb.data.length < offset + 20 then skb.mark
    else if offset = 14 ∧ skb.be16 12 ≠ ethPIp then skb.mark
    else
      let protocol := skb.byte (offset + 9)
      let l4 := offset + 20
      let isTcp : Bool := protocol = ipprotoTcp ∧ l4 + 20 < skb.data.length
      let isUdp : Bool := ¬ isTcp ∧ protocol = ipprotoUdp ∧ l4 + 8 < skb.data.length
      let isSyn : Bool := isTcp ∧ skb.byte (l4 + 13) &&& 0x02 ≠ 0
      let port := if isTcp ∨ isUdp then skb.le16 (l4 + 2) else 0
      if ¬ isTcp ∨ isSyn then
        markSkbAdvancedGameserver ports skb.mark (skb.be32 (offset + 16)) protocol port
      else skb.mark

/-- A port with its two bytes in the other order. -/
def swapBytes (port : ℕ) : ℕ := port % 256 * 256 + port / 256

theorem le16_eq_swapBytes (skb : SkBuff) (i : ℕ) : skb.le16 i = swapBytes (skb.be16 i) := by
  have hsecond := (skb.byte (i + 1)).toNat_lt
  unfold SkBuff.le16 swapBytes SkBuff.be16
  omega

/-- The program reads what the other one reads, but the port with its bytes swapped. -/
theorem ingressGameserver_eq (ports : ServicePorts) {skb : SkBuff} {offset : ℕ}
    (ho : skb.getIp4Offset = some offset) :
    ingressGameserver ports skb =
      if offset + 20 ≤ skb.data.length ∧ (skb.SeesTcp offset → skb.SeesSyn offset) then
        markSkbAdvancedGameserver ports skb.mark (skb.be32 (offset + 16)) (skb.byte (offset + 9))
          (swapBytes (skb.headersSeen offset).port)
      else skb.mark := by
  have hport : (if skb.SeesTcp offset ∨ skb.SeesUdp offset then skb.le16 (offset + 22) else 0) =
      swapBytes (skb.headersSeen offset).port := by
    rw [le16_eq_swapBytes]
    exact (apply_ite swapBytes _ _ 0).symm
  unfold ingressGameserver
  rw [ho]
  dsimp only
  rw [if_neg (frame_of_offset ho), decide_isTcp, decide_isUdp]
  simp only [decide_eq_true_iff, seesPort_iff, Nat.add_assoc, Nat.reduceAdd, hport]
  by_cases hlen : skb.data.length < offset + 20
  · rw [if_pos hlen, if_neg fun h => absurd h.1 (by omega)]
  · rw [if_neg hlen]
    refine if_congr ?_ rfl rfl
    have hlen' : offset + 20 ≤ skb.data.length := by omega
    tauto

/-! ## The service in a mark -/

/-- `MASK_SERVICE`. -/
def maskService : BitVec 32 := 0xf000

/-- The service nibble of a mark. -/
def serviceOfMark (mark : BitVec 32) : BitVec 32 := (mark &&& maskService) >>> 12

/-- A mark whose connection bits were written has the service that was written. -/
theorem serviceOfMark_written (mark : BitVec 32) {tc service : BitVec 32} (htc : tc &&& 3 = tc)
    (hservice : service &&& 0xf = service) :
    serviceOfMark ((mark &&& ~~~maskPerConnection) ||| (tc <<< 10) ||| (service <<< 12)) =
      service := by
  rw [← htc, ← hservice]
  unfold serviceOfMark maskPerConnection maskService
  ext i hi
  interval_cases i <;> simp

theorem serviceOfMark_markSkbBasic (mark : BitVec 32) {teamId : BitVec 32}
    (hteam : teamId &&& maskTeamId = teamId) :
    serviceOfMark (markSkbBasic mark teamId) = serviceOfMark mark := by
  rw [← hteam]
  unfold serviceOfMark markSkbBasic maskPerPacket maskTeamId maskService
  ext i hi
  interval_cases i <;> simp

variable {services : Services} {old ports : ServicePorts} {skb : SkBuff} {offset : ℕ}

theorem exists_offset (h : skb.Ipv4At offset) : ∃ o, skb.getIp4Offset = some o := by
  by_cases hframe : skb.be16 12 = ethPIp
  · have hlen : ¬ skb.data.length ≤ 14 + 1 := by
      have := h.complete
      omega
    exact ⟨14, by rw [SkBuff.getIp4Offset, if_neg hlen, if_pos hframe]⟩
  · exact ⟨offset, getIp4Offset_of_ipv4At h fun _ => hframe⟩

/-- Does a program write the bits of a connection for a packet with its header here? -/
def SkBuff.Written (skb : SkBuff) (o : ℕ) : Prop :=
  o + 20 ≤ skb.data.length ∧ (skb.SeesTcp o → skb.SeesSyn o)

instance (o : ℕ) : Decidable (skb.Written o) := by unfold SkBuff.Written; infer_instance

/-- The service nibble if the program at a team's interface does not write it: every bit of the
mark is set for a packet from the game server. -/
def SkBuff.teamKept (skb : SkBuff) (o : ℕ) : BitVec 32 :=
  if o + 20 ≤ skb.data.length ∧ getIpRange (skb.be32 (o + 12)) = ipRangeGameserver then 15
  else serviceOfMark skb.mark

/-- The service that the program at a team's interfaces leaves in the mark. -/
theorem service_ingress (hwrite : services.write old = some ports) (map : CountingMap)
    (ho : skb.getIp4Offset = some offset) :
    serviceOfMark (ingress ports skb map).1.mark =
      if skb.Written offset then
        BitVec.ofNat 32 (serviceOf services (skb.byte (offset + 9)) (skb.headersSeen offset).port)
      else skb.teamKept offset := by
  by_cases hlen : offset + 20 ≤ skb.data.length
  · have hmark : (ingress ports skb map).1.mark =
        (handleIngress ports (skb.headersSeen offset) skb.mark map).1 := by
      rw [ingress, headers_of_offset ho hlen]
    rw [hmark, handleIngress]
    dsimp only
    by_cases hsees : skb.SeesTcp offset → skb.SeesSyn offset
    · rw [if_pos (classified_iff.mpr hsees), if_pos (show skb.Written offset from ⟨hlen, hsees⟩),
        markSkbAdvanced,
        serviceOfMark_written _ (trafficClass_small _ _) (getService_small _ _ _),
        getService_written hwrite]
      rfl
    · rw [if_neg (mt classified_iff.mp hsees), if_neg fun h : skb.Written offset => hsees h.2,
        SkBuff.teamKept]
      show serviceOfMark (markSkbBasic skb.mark
        (BitVec.ofInt 32 (getIpRange (skb.be32 (offset + 12))))) = _
      rcases getIpRange_mem (skb.be32 (offset + 12)) with hs | ⟨k, hs, hk⟩
      · rw [if_pos ⟨hlen, hs⟩, hs]
        exact (congrArg serviceOfMark (markSkbBasic_gameserver _)).trans (by decide)
      · have hother : ¬ (offset + 20 ≤ skb.data.length ∧
            getIpRange (skb.be32 (offset + 12)) = ipRangeGameserver) := by
          rw [hs]
          unfold ipRangeGameserver
          omega
        rw [if_neg hother, hs, BitVec.ofInt_natCast,
          serviceOfMark_markSkbBasic _ (and_maskTeamId (by omega))]
  · rw [if_neg fun h : skb.Written offset => hlen h.1, SkBuff.teamKept, if_neg fun h => hlen h.1,
      ingress, headers_of_short ho hlen]

/-- The service that the program at the game server's interfaces leaves in the mark. -/
theorem service_ingressGameserver (hwrite : services.write old = some ports)
    (ho : skb.getIp4Offset = some offset) :
    serviceOfMark (ingressGameserver ports skb) =
      if skb.Written offset then
        BitVec.ofNat 32 (serviceOf services (skb.byte (offset + 9))
          (swapBytes (skb.headersSeen offset).port))
      else serviceOfMark skb.mark := by
  have hclass : ∀ p : Prop, ∀ [Decidable p],
      (if p then tcGameserver else tcUnknown) &&& 3 = if p then tcGameserver else tcUnknown := by
    intro p _
    split_ifs <;> rfl
  rw [ingressGameserver_eq ports ho, apply_ite serviceOfMark, markSkbAdvancedGameserver,
    serviceOfMark_written _ (hclass _) (getService_small _ _ _), getService_written hwrite]
  rfl

/-! ## When the programs agree -/

/-- A datagram, or the first segment of a TCP connection, with complete headers. -/
structure SkBuff.Starts (skb : SkBuff) (offset : ℕ) (protocol : UInt8) (port : ℕ) : Prop where
  ipv4 : skb.Ipv4At offset
  protocol_eq : skb.byte (offset + 9) = protocol
  port_eq : skb.be16 (skb.transport offset + 2) = port
  first : skb.be16 (offset + 6) % 8192 = 0
  kind : (protocol = ipprotoUdp ∧ skb.transport offset + 8 ≤ skb.data.length) ∨
    (skb.IsTcpSyn offset ∧ skb.transport offset + 20 ≤ skb.data.length)

/-- What a program relies on to set a service: where it writes, the port that it reads belongs to
the service; where it does not, the service is in the mark already. -/
def ServiceFits (services : Services) (skb : SkBuff) (read : ℕ → ℕ) (kept : ℕ → BitVec 32)
    (service : ℕ) : Prop :=
  ∃ o, skb.getIp4Offset = some o ∧
    if skb.Written o then serviceOf services (skb.byte (o + 9)) (read o) = service
    else kept o = BitVec.ofNat 32 service

theorem ofNat_inj_of_le {a b : ℕ} (ha : a ≤ 15) (hb : b ≤ 15) :
    BitVec.ofNat 32 a = BitVec.ofNat 32 b ↔ a = b := by
  constructor
  · intro h
    have hnat := congrArg BitVec.toNat h
    rwa [BitVec.toNat_ofNat, BitVec.toNat_ofNat, Nat.mod_eq_of_lt (by omega),
      Nat.mod_eq_of_lt (by omega)] at hnat
  · exact congrArg _

theorem serviceFits_iff {read : ℕ → ℕ} {kept : ℕ → BitVec 32} {service : ℕ} {nibble : BitVec 32}
    (hservice : service ≤ 15) (ho : skb.getIp4Offset = some offset)
    (hnibble : nibble = if skb.Written offset then
      BitVec.ofNat 32 (serviceOf services (skb.byte (offset + 9)) (read offset))
      else kept offset) :
    nibble = BitVec.ofNat 32 service ↔ ServiceFits services skb read kept service := by
  have hat : ServiceFits services skb read kept service ↔
      if skb.Written offset then
        serviceOf services (skb.byte (offset + 9)) (read offset) = service
      else kept offset = BitVec.ofNat 32 service := by
    constructor
    · rintro ⟨o, ho', h⟩
      obtain rfl := Option.some.inj (ho.symm.trans ho')
      exact h
    · exact fun h => ⟨offset, ho, h⟩
  rw [hat, hnibble]
  split_ifs
  · exact ofNat_inj_of_le (serviceOf_le ..) hservice
  · rfl

/-- **When both programs set the service of a connection.**  The one at the team's interface has
to read the packet's port, and the one at the game server's a port that is of the same service
with its bytes swapped. -/
theorem services_agree_iff (hwrite : services.write old = some ports) {skb' : SkBuff}
    {offset' port : ℕ} {protocol : UInt8} (hstart : skb.Starts offset protocol port)
    (hstart' : skb'.Starts offset' protocol port) (map : CountingMap) :
    (serviceOfMark (ingress ports skb map).1.mark =
        BitVec.ofNat 32 (serviceOf services protocol port) ∧
      serviceOfMark (ingressGameserver ports skb') =
        BitVec.ofNat 32 (serviceOf services protocol port)) ↔
    (ServiceFits services skb (fun o => (skb.headersSeen o).port) skb.teamKept
        (serviceOf services protocol port) ∧
      ServiceFits services skb' (fun o => swapBytes (skb'.headersSeen o).port)
        (fun _ => serviceOfMark skb'.mark) (serviceOf services protocol port)) := by
  obtain ⟨o, ho⟩ := exists_offset hstart.ipv4
  obtain ⟨o', ho'⟩ := exists_offset hstart'.ipv4
  have hservice := serviceOf_le services protocol port
  exact and_congr (serviceFits_iff hservice ho (service_ingress hwrite map ho))
    (serviceFits_iff hservice ho' (service_ingressGameserver hwrite ho'))

/-- A web server on TCP port 80, and a service on UDP port `0x5050`. -/
def twoServices : Services where
  tcp := ⟨[(1, 80)], by decide, by decide, by decide⟩
  udp := ⟨[(3, 0x5050)], by decide, by decide, by decide⟩

/-- Maps that are full of other entries. -/
def ServicePorts.filled : ServicePorts :=
  ⟨Vector.replicate 20 0x50050, Vector.replicate 20 0x20035⟩

/-- The first segment of a connection of team 2 to port 80 of team 1. -/
def webSyn : SkBuff :=
  ipPacket 6 [10, 32, 2, 2] [10, 32, 1, 2]
    ([0x9c, 0x40, 0x00, 0x50] ++ List.replicate 8 0 ++ [0x60, 0x02] ++ List.replicate 10 0) 0

/-- A datagram to port `0x5050`. -/
def datagram : SkBuff :=
  ipPacket 17 [10, 32, 2, 2] [10, 32, 1, 2] ([0x9c, 0x40, 0x50, 0x50] ++ List.replicate 8 0) 0

theorem starts_datagram : datagram.Starts 0 17 0x5050 where
  ipv4 := ipv4At_ipPacket rfl rfl
  protocol_eq := by decide
  port_eq := by decide
  first := by decide
  kind := .inl (by decide)

theorem starts_webSyn : webSyn.Starts 0 6 80 where
  ipv4 := ipv4At_ipPacket rfl rfl
  protocol_eq := by decide
  port_eq := by decide
  first := by decide
  kind := .inr (by decide)

/-- A port that reads the same either way. -/
theorem services_agree_datagram :
    ∃ ports, twoServices.write .filled = some ports ∧
      serviceOfMark (ingress ports datagram .empty).1.mark =
        BitVec.ofNat 32 (serviceOf twoServices 17 0x5050) ∧
      serviceOfMark (ingressGameserver ports datagram) =
        BitVec.ofNat 32 (serviceOf twoServices 17 0x5050) := by
  obtain ⟨ports, hwrite⟩ : ∃ ports, twoServices.write .filled = some ports := ⟨_, rfl⟩
  exact ⟨ports, hwrite, (services_agree_iff hwrite starts_datagram starts_datagram .empty).mpr
    ⟨⟨0, by decide, by decide⟩, ⟨0, by decide, by decide⟩⟩⟩

/-- The two programs see a connection to port 80 as one of different services. -/
theorem not_services_agree :
    ∃ ports, twoServices.write .filled = some ports ∧ webSyn.Starts 0 6 80 ∧
      serviceOf twoServices 6 80 = 1 ∧
      serviceOfMark (ingress ports webSyn .empty).1.mark = 1 ∧
      serviceOfMark (ingressGameserver ports webSyn) = 0 :=
  ⟨_, rfl, starts_webSyn, by decide, by decide, by decide⟩

end Gameserver.Traffic
