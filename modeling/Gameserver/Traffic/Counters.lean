import Mathlib

/-!
# The traffic counters of the VPN

`vpn/bpf/traffic_stats.c` counts the packets of each team where they enter and leave the VPN
server; `vpn/manage-trafficstats.py` reads the counters.

* `SkBuff`, `Headers` — a packet, and what `handle_packet` reads from it.
* `getIpRange`, `getService`, `markSkbBasic`, `markSkbAdvanced` — `vpn/bpf/traffic_marks.h`.
* `CountingMap` — the map of counters; `handlePacket` — both programs.
* `readTeamInfos` — the values user space reads.

The bytes of an address are loaded as on a little-endian host, so the first octet is the
lowest byte.
-/

namespace Gameserver.Traffic

/-! ## Packets -/

/-- `struct __sk_buff`, as far as the programs read it. -/
structure SkBuff where
  /-- The bytes from `data` to `data_end`. -/
  data : List UInt8
  len : ℕ
  /-- In host byte order. -/
  protocol : ℕ
  mark : BitVec 32
  deriving DecidableEq

/-- `ETH_P_IP`. -/
def ethPIp : ℕ := 0x0800

/-- `IPPROTO_TCP`. -/
def ipprotoTcp : UInt8 := 6

/-- `IPPROTO_UDP`. -/
def ipprotoUdp : UInt8 := 17

namespace SkBuff

variable (skb : SkBuff)

/-- A byte of the packet. -/
def byte (i : ℕ) : UInt8 := skb.data.getD i 0

/-- Two bytes in network byte order. -/
def be16 (i : ℕ) : ℕ := (skb.byte i).toNat * 256 + (skb.byte (i + 1)).toNat

/-- Four bytes, loaded into a `__be32`. -/
def be32 (i : ℕ) : BitVec 32 :=
  (skb.byte (i + 3)).toBitVec ++ (skb.byte (i + 2)).toBitVec ++ (skb.byte (i + 1)).toBitVec ++
    (skb.byte i).toBitVec

/-- `get_ip4_offset`; `none` for `NO_OFFSET`. -/
def getIp4Offset : Option ℕ :=
  if skb.data.length ≤ 14 + 1 then none
  else if skb.be16 12 = ethPIp then some 14
  else if skb.protocol = ethPIp ∧ skb.byte 0 &&& 0xf0 = 0x40 ∧ 5 ≤ skb.byte 0 &&& 0x0f then some 0
  else none

end SkBuff

/-- What `handle_packet` reads from a packet. -/
structure Headers where
  saddr : BitVec 32
  daddr : BitVec 32
  size : ℕ
  protocol : UInt8
  isTcp : Bool
  isSyn : Bool
  isSynack : Bool
  port : ℕ
  deriving DecidableEq

/-- The part of `handle_packet` that reads the packet; `none` if it returns early, or is not
called. -/
def SkBuff.headers (skb : SkBuff) : Option Headers :=
  match skb.getIp4Offset with
  | none => none
  | some offset =>
    if skb.data.length < offset + 20 then none
    else if offset = 14 ∧ skb.be16 12 ≠ ethPIp then none
    else
      let protocol := skb.byte (offset + 9)
      let l4 := offset + 20
      let isTcp : Bool := protocol = ipprotoTcp ∧ l4 + 20 < skb.data.length
      let isUdp : Bool := ¬ isTcp ∧ protocol = ipprotoUdp ∧ l4 + 8 < skb.data.length
      let isSyn : Bool := isTcp ∧ skb.byte (l4 + 13) &&& 0x02 ≠ 0
      some
        { saddr := skb.be32 (offset + 12)
          daddr := skb.be32 (offset + 16)
          size := if offset ≤ skb.len then skb.len - offset else 0
          protocol := protocol
          isTcp := isTcp
          isSyn := isSyn
          isSynack := isSyn ∧ skb.byte (l4 + 13) &&& 0x10 ≠ 0
          port := if isTcp ∨ isUdp then skb.be16 (l4 + 2) else 0 }

/-! ## Marks -/

/-- `MASK_TEAM_ID`. -/
def maskTeamId : BitVec 32 := 0x01ff

/-- `MASK_PROCESSED_BIT`. -/
def maskProcessedBit : BitVec 32 := 0x0200

/-- `MASK_PER_PACKET`. -/
def maskPerPacket : BitVec 32 := 0x0300

/-- `MASK_PER_CONNECTION`. -/
def maskPerConnection : BitVec 32 := 0xfc00

/-- `IP_RANGE_UNKNOWN`. -/
def ipRangeUnknown : ℤ := 0

/-- `IP_RANGE_GAMESERVER`. -/
def ipRangeGameserver : ℤ := -1

/-- `get_ip_range`. -/
def getIpRange (daddr : BitVec 32) : ℤ :=
  if daddr &&& 0xff ≠ 10 then ipRangeUnknown
  else
    let x := ((daddr >>> 8) &&& 0xff).toNat
    let x := if 48 ≤ x then x - 16 else x
    if x ≠ 32 ∧ x ≠ 33 then ipRangeUnknown
    else
      let y := ((daddr >>> 16) &&& 0xff).toNat
      if y = 250 then ipRangeGameserver
      else if 1 ≤ y ∧ y ≤ 200 then (x - 32) * 200 + y
      else ipRangeUnknown

/-- The maps `service_ports_tcp` and `service_ports_udp`. -/
structure ServicePorts where
  tcp : Vector (BitVec 32) 20
  udp : Vector (BitVec 32) 20

/-- The loop over the entries of a port map. -/
def findService (port : ℕ) : List (BitVec 32) → BitVec 32
  | [] => 0
  | entry :: entries =>
    if (entry &&& 0xffff).toNat = port then (entry >>> 16) &&& 0xf
    else if entry = 0 then 0
    else findService port entries

/-- `get_service`. -/
def getService (ports : ServicePorts) (protocol : UInt8) (port : ℕ) : BitVec 32 :=
  if protocol = ipprotoTcp then
    if port = 22 then 15
    else if port = 31337 then 14
    else findService port ports.tcp.toList
  else if protocol = ipprotoUdp then findService port ports.udp.toList
  else 0

/-- `mark_skb_basic`. -/
def markSkbBasic (mark teamId : BitVec 32) : BitVec 32 :=
  (mark &&& ~~~maskPerPacket) ||| (1 <<< 9) ||| teamId

/-- The traffic class in `mark_skb_advanced`. -/
def trafficClass (daddr teamId : BitVec 32) : BitVec 32 :=
  let remoteTeamId := getIpRange daddr
  if remoteTeamId = ipRangeGameserver then 1
  else if BitVec.ofInt 32 remoteTeamId = teamId then 2
  else if remoteTeamId ≠ ipRangeUnknown then 3
  else 0

/-- `mark_skb_advanced`. -/
def markSkbAdvanced (ports : ServicePorts) (mark : BitVec 32) (h : Headers) (teamId : BitVec 32) :
    BitVec 32 :=
  (mark &&& ~~~maskPerConnection) ||| (trafficClass h.daddr teamId <<< 10) |||
    (getService ports h.protocol h.port <<< 12)

/-! ## Counters -/

/-- The fields of `struct counters`. -/
inductive Kind where
  | packets
  | bytes
  | syns
  | synAcks
  deriving DecidableEq, Repr

def Kind.all : List Kind := [.packets, .bytes, .syns, .synAcks]

/-- `struct counters`. -/
abbrev Counters := Kind → ℕ

/-- `struct stats_for_team`: egress with game, egress with teams, ingress total, ingress with
teams, and forward to itself. -/
abbrev StatsForTeam := Fin 5 → Counters

/-- `MAX_TEAM_COUNT`. -/
def maxTeamCount : ℕ := 512

/-- `counting_map`; only the keys up to `MAX_TEAM_COUNT` are in use. -/
abbrev CountingMap := ℕ → StatsForTeam

/-- The map at its creation. -/
def CountingMap.empty : CountingMap := fun _ _ _ => 0

/-- `bpf_map_lookup_elem`. -/
def CountingMap.lookup (map : CountingMap) (key : BitVec 32) : Option StatsForTeam :=
  if key.toNat ≤ maxTeamCount then some (map key.toNat) else none

/-- Add to a block of counters, if there is one for the key. -/
def CountingMap.add (map : CountingMap) (key : BitVec 32) (slot : Fin 5) (amount : Counters) :
    CountingMap := fun k s =>
  if k = key.toNat ∧ k ≤ maxTeamCount ∧ s = slot then map k s + amount else map k s

/-- What a packet adds to a block of counters. -/
def Headers.amount (h : Headers) : Counters
  | .packets => 1
  | .bytes => h.size
  | .syns => if h.isSyn ∧ ¬ h.isSynack then 1 else 0
  | .synAcks => if h.isSyn ∧ h.isSynack then 1 else 0

/-- Has the packet been marked at its ingress? -/
def processed (mark : BitVec 32) : Bool := mark &&& maskProcessedBit ≠ 0

/-- The team a mark names. -/
def teamOfMark (mark : BitVec 32) : BitVec 32 := mark &&& maskTeamId

/-- `handle_packet` with `is_ingress`: the mark and the map afterwards. -/
def handleIngress (ports : ServicePorts) (h : Headers) (mark : BitVec 32) (map : CountingMap) :
    BitVec 32 × CountingMap :=
  let teamId := BitVec.ofInt 32 (getIpRange h.saddr)
  let map := map.add teamId 2 h.amount
  let mark := markSkbBasic mark teamId
  (if ¬ h.isTcp ∨ h.isSyn then markSkbAdvanced ports mark h teamId else mark, map)

/-- `is_self_forward` at the egress. -/
def isSelfForward (h : Headers) (mark : BitVec 32) : Bool :=
  processed mark ∧ BitVec.ofInt 32 (getIpRange h.daddr) = teamOfMark mark

/-- `handle_packet` without `is_ingress`: the map afterwards. -/
def handleEgress (h : Headers) (mark : BitVec 32) (map : CountingMap) : CountingMap :=
  let teamId := BitVec.ofInt 32 (getIpRange h.daddr)
  let slot : Fin 5 := if isSelfForward h mark then 4 else if processed mark then 1 else 0
  let map := map.add teamId slot h.amount
  if processed mark ∧ ¬ isSelfForward h mark then map.add (teamOfMark mark) 3 h.amount else map

/-! ## Reading the counters -/

/-- The 20 numbers of a map entry. -/
def StatsForTeam.toList (stats : StatsForTeam) : List ℤ :=
  (List.finRange 5).flatMap fun slot => Kind.all.map fun kind => (stats slot kind : ℤ)

/-- `stats[i] -= stats[i + 4] + stats[i + 8]`. -/
def correctTotal (stats : List ℤ) (i : ℕ) : List ℤ :=
  stats.set i (stats.getD i 0 - (stats.getD (i + 4) 0 + stats.getD (i + 8) 0))

/-- The body of the loop in `read_team_infos`. -/
def readTeamInfo (map : CountingMap) (teamId : ℤ) : Except String (ℤ × List ℤ) :=
  match map.lookup (BitVec.ofInt 32 teamId) with
  | none => .error s!"Key {teamId} not found"
  | some stats => .ok (teamId, [8, 9, 10, 11].foldl correctTotal stats.toList)

/-- `read_team_infos`: the entries of the dictionary, for team ids that are given once. -/
def readTeamInfos (map : CountingMap) (teamIds : List ℤ) : Except String (List (ℤ × List ℤ)) :=
  teamIds.mapM (readTeamInfo map)

/-! ## Packets on their way -/

/-- The counters, and the packets between their ingress and their egress. -/
structure Vpn where
  map : CountingMap
  inside : List SkBuff

def Vpn.initial : Vpn := ⟨.empty, []⟩

/-- A packet arrives, leaves, or goes no further. -/
inductive Event where
  | ingress (ports : ServicePorts) (skb : SkBuff)
  /-- The packet at this place leaves, as this buffer. -/
  | egress (i : ℕ) (skb : SkBuff)
  | drop (i : ℕ)

/-- `handle_ingress`: the packet with its new mark, and the map. -/
def ingress (ports : ServicePorts) (skb : SkBuff) (map : CountingMap) : SkBuff × CountingMap :=
  match skb.headers with
  | none => (skb, map)
  | some h => ({ skb with mark := (handleIngress ports h skb.mark map).1 },
      (handleIngress ports h skb.mark map).2)

/-- `handle_egress`. -/
def egress (skb : SkBuff) (map : CountingMap) : CountingMap :=
  match skb.headers with
  | none => map
  | some h => handleEgress h skb.mark map

namespace Vpn

/-- One event. -/
def step (v : Vpn) : Event → Vpn
  | .ingress ports skb =>
    { map := (ingress ports skb v.map).2, inside := v.inside ++ [(ingress ports skb v.map).1] }
  | .egress i skb => { map := egress skb v.map, inside := v.inside.eraseIdx i }
  | .drop i => { v with inside := v.inside.eraseIdx i }

/-- A packet has no mark when it arrives, and leaves with the mark, the headers and the size
it left its ingress with. -/
def Allowed (v : Vpn) : Event → Prop
  | .ingress _ skb => skb.mark = 0
  | .egress i skb => ∃ p, v.inside[i]? = some p ∧ skb.mark = p.mark ∧ skb.headers = p.headers
  | .drop i => i < v.inside.length

end Vpn

/-! ## Balances -/

/-- What the egress of a packet will count as forwarded traffic of team `k`. -/
def pending (k : ℕ) (skb : SkBuff) : Counters :=
  match skb.headers with
  | none => 0
  | some h => if processed skb.mark ∧ teamOfMark skb.mark = BitVec.ofNat 32 k then h.amount else 0

/-- What the packets inside will count as forwarded traffic of team `k`. -/
def Vpn.pendingInside (v : Vpn) (k : ℕ) : Counters := (v.inside.map (pending k)).sum

/-- The ingress total of team `k`, less its forwarded traffic and what is pending. -/
def Vpn.slack (v : Vpn) (k : ℕ) (kind : Kind) : ℤ :=
  v.map k 2 kind - (v.map k 3 kind + v.map k 4 kind) - v.pendingInside k kind

/-- The value for a block of counters: the ingress total is corrected. -/
def StatsForTeam.value (stats : StatsForTeam) (slot : Fin 5) (kind : Kind) : ℤ :=
  if slot = 2 then stats 2 kind - (stats 3 kind + stats 4 kind) else stats slot kind

end Gameserver.Traffic
