import Mathlib
import Gameserver.Lib.Chain
import Gameserver.Lib.Machine

/-!
# The firewall manager

`class IpTablesManager` of `vpn/manage-iptables.py`: the rules of the chain `vpn-blocking`
follow the network state, the banned teams and the teams with a permission.

* `Packet`, `Rule` — what the rules of the chain look at, and the rules themselves; two
  rules are equal if `iptables -C` takes them for equal.
* `NetworkConfig` — the address patterns of `config.py`.
* `rewriteChain`, `banRules`, `allowRules`, … — the methods.
* `Event`, `step` — calls of the methods after `init_firewall`, in any order.

The manager iterates over Python sets.  The order is not determined, so every call that
iterates comes with an order of its own (`SetOrder`).
-/

namespace Gameserver.Firewall

/-! ## Packets and rules -/

/-- An IPv4 address. -/
abbrev Address := BitVec 32

/-- The address with these octets. -/
def Address.ofOctets (octets : List ℕ) : Address :=
  BitVec.ofNat 32 (octets.foldl (fun n octet => n * 256 + octet) 0)

/-- `address/size`, as iptables keeps it: the host bits are cleared. -/
structure Range where
  network : Address
  size : ℕ
  deriving DecidableEq, Repr

/-- The leading bits of an address. -/
def Address.leading (address : Address) (size : ℕ) : Address := address >>> (32 - size)

/-- The range around an address. -/
def Range.around (address : Address) (size : ℕ) : Range :=
  ⟨address.leading size <<< (32 - size), size⟩

/-- Does the range contain the address? -/
def Range.contains (range : Range) (address : Address) : Bool :=
  Address.leading address range.size = range.network.leading range.size

/-- What a rule of the chain can look at. -/
structure Packet where
  inIface : String
  outIface : String
  src : Address
  dst : Address
  mark : BitVec 32
  deriving DecidableEq

inductive Target where
  | drop
  | reject
  | ret
  deriving DecidableEq, Repr

/-- A rule: its conditions (`-i`, `-o`, `-s`, `-d`, `-m mark`), target and comment. -/
structure Rule where
  inIface : Option String
  outIface : Option String
  src : Option Range
  dst : Option Range
  /-- value and mask -/
  mark : Option (BitVec 32 × BitVec 32)
  target : Target
  comment : Option String
  deriving DecidableEq

/-- A rule that applies to every packet. -/
def Rule.always (target : Target) (comment : Option String) : Rule :=
  ⟨none, none, none, none, none, target, comment⟩

/-- Does a rule apply to a packet? -/
def Rule.applies (rule : Rule) (p : Packet) : Bool :=
  rule.inIface.all (fun iface => p.inIface = iface) &&
    rule.outIface.all (fun iface => p.outIface = iface) &&
    rule.src.all (fun range => range.contains p.src) &&
    rule.dst.all (fun range => range.contains p.dst) &&
    rule.mark.all fun mark => p.mark &&& mark.2 = mark.1

/-- The first-match verdict, `none` at the end of the chain. -/
def verdict (chain : List Rule) (p : Packet) : Option Target :=
  Chain.verdict Rule.applies Rule.target chain p

/-- A packet passes the chain with `RETURN` or at its end. -/
def Passes (chain : List Rule) (p : Packet) : Prop :=
  verdict chain p = some .ret ∨ verdict chain p = none

/-- `RULE_NETCLOSED`. -/
def ruleNetclosed : Rule := .always .reject (some "Network is closed")

/-- `RULE_NETTEAMONLY`. -/
def ruleNetteamonly : Rule :=
  { Rule.always .ret (some "Network is open for teams only") with mark := some (0x0800, 0x0c00) }

/-! ## iptables -/

/-- `iptables_add`: `-A`, unless `-C` finds the rule. -/
def iptablesAdd (chain : List Rule) (rule : Rule) : List Rule := Chain.add chain rule

/-- `iptables_insert`: `-I 1`, unless `-C` finds the rule. -/
def iptablesInsert (chain : List Rule) (rule : Rule) : List Rule := Chain.insertFirst chain rule

/-- `iptables_remove`: `-D` until there is none. -/
def iptablesRemove (chain : List Rule) (rule : Rule) : List Rule := Chain.deleteAll chain rule

/-! ## The network -/

/-- A component `(a, b, c)` of an address pattern. -/
structure Component where
  a : ℕ+
  b : ℕ+
  c : ℕ
  deriving DecidableEq

/-- `((team_id // a) % b) + c`. -/
def Component.octet (component : Component) (teamId : ℕ) : ℕ :=
  (teamId / component.a) % component.b + component.c

/-- `NetworkConfig`, as far as the firewall reads it, and `network.gameserver_range`. -/
structure NetworkConfig where
  vulnboxIp : List Component
  networkIp : List Component
  networkSize : ℕ
  /-- Checked by `from_dict`. -/
  networkSize_mem : networkSize ∈ [8, 16, 24, 32]
  gameserverRange : Range

namespace NetworkConfig

variable (config : NetworkConfig)

/-- `team_id_to_vulnbox_ip`. -/
def teamIdToVulnboxIp (teamId : ℕ) : Address :=
  .ofOctets (config.vulnboxIp.map fun component => component.octet teamId)

/-- `team_id_to_network_range`. -/
def teamIdToNetworkRange (teamId : ℕ) : Range :=
  .around (.ofOctets (config.networkIp.map fun component => component.octet teamId))
    config.networkSize

end NetworkConfig

/-- The configuration and the table of teams, which is not empty. -/
structure Network where
  config : NetworkConfig
  teams : Finset ℕ
  teams_nonempty : teams.Nonempty

/-- `session.query(func.max(Team.id)).scalar()`. -/
def Network.maxId (net : Network) : ℕ := net.teams.max' net.teams_nonempty

/-- `network:state`. -/
inductive NetworkState where
  | on
  | team
  | teamNoVulnbox
  | off
  deriving DecidableEq, Repr

/-- All unknown states are treated as closed. -/
def NetworkState.ofString (s : String) : NetworkState :=
  if s = "on" then .on
  else if s = "team" then .team
  else if s = "team-no-vulnbox" then .teamNoVulnbox
  else .off

/-- The order in which a set is iterated. -/
structure SetOrder where
  toList : Finset ℕ → List ℕ
  mem_toList : ∀ s t, t ∈ toList s ↔ t ∈ s

/-- Iterate in ascending order. -/
def SetOrder.ascending : SetOrder := ⟨fun s => s.sort, fun s t => s.mem_sort (· ≤ ·)⟩

/-! ## The manager -/

/-- `class IpTablesManager`, together with its chain. -/
structure Manager where
  chain : List Rule
  state : NetworkState
  banned : Finset ℕ
  allowed : Finset ℕ

/-- The interfaces of a team: "regular", "cloud" for members, "cloud" for the vulnbox. -/
def interfaces (team : ℕ) : List String :=
  [s!"tun{team}", s!"tun{1000 + team}", s!"tun{2000 + team}"]

/-- Drop what comes in through an interface. -/
def banIncoming (team : ℕ) (iface : String) : Rule :=
  { Rule.always .drop (some s!"Ban team {team} (incoming)") with inIface := some iface }

/-- Drop what goes out through an interface. -/
def banOutgoing (team : ℕ) (iface : String) : Rule :=
  { Rule.always .drop (some s!"Ban team {team} (outgoing)") with outIface := some iface }

/-- The rules of `_ban_rules` and `_unban_rules`. -/
def rulesOfBan (team : ℕ) : List Rule :=
  (interfaces team).flatMap fun iface => [banIncoming team iface, banOutgoing team iface]

/-- `_ban_rules`. -/
def banRules (chain : List Rule) (team : ℕ) : List Rule := (rulesOfBan team).foldl iptablesAdd chain

/-- `_unban_rules`. -/
def unbanRules (chain : List Rule) (team : ℕ) : List Rule :=
  (rulesOfBan team).foldl iptablesRemove chain

section Network

variable (net : Network)

/-- From the range of a team to the game servers. -/
def allowOutgoing (team : ℕ) : Rule :=
  { Rule.always .ret (some s!"Open network for team {team}") with
    src := some (net.config.teamIdToNetworkRange team), dst := some net.config.gameserverRange }

/-- From the game servers to the range of a team. -/
def allowIncoming (team : ℕ) : Rule :=
  { Rule.always .ret (some s!"Open network for team {team}") with
    src := some net.config.gameserverRange, dst := some (net.config.teamIdToNetworkRange team) }

/-- `_allow_rules`. -/
def allowRules (chain : List Rule) (team : ℕ) : List Rule :=
  [allowIncoming net team, allowOutgoing net team].foldl iptablesInsert chain

/-- `_disallow_rules`. -/
def disallowRules (chain : List Rule) (team : ℕ) : List Rule :=
  [allowOutgoing net team, allowIncoming net team].foldl iptablesRemove chain

/-- The rules that `_insert_no_vulnbox_rules` inserts for a team. -/
def noVulnboxRules (team : ℕ) : List Rule :=
  let ip : Range := .around (net.config.teamIdToVulnboxIp team) 32
  [{ Rule.always .reject none with src := some ip },
    { Rule.always .reject none with dst := some ip }]

/-- `_insert_no_vulnbox_rules`: for the ids from 1 to the highest one plus one. -/
def insertNoVulnboxRules (chain : List Rule) : List Rule :=
  (List.range' 1 (net.maxId + 1)).foldl (fun chain team =>
    (noVulnboxRules net team).foldl iptablesInsert chain) chain

/-- The part of `rewrite_chain` that depends on the state; it starts with a flush. -/
def stateChain : NetworkState → List Rule
  | .on => []
  | .team => iptablesAdd (iptablesAdd [] ruleNetteamonly) ruleNetclosed
  | .teamNoVulnbox =>
    insertNoVulnboxRules net (iptablesInsert (iptablesAdd [] ruleNetclosed) ruleNetteamonly)
  | .off => iptablesAdd [] ruleNetclosed

/-- `rewrite_chain`. -/
def rewriteChain (order : SetOrder) (m : Manager) : Manager :=
  let chain := stateChain net m.state
  let chain := (order.toList m.banned).foldl banRules chain
  { m with chain := (order.toList m.allowed).foldl (allowRules net) chain }

/-- `init_firewall`. -/
def initFirewall (order : SetOrder) (state : NetworkState) (banned allowed : Finset ℕ) : Manager :=
  rewriteChain net order { chain := [], state := state, banned := banned, allowed := allowed }

/-- The calls of the manager. -/
inductive Event where
  | updateState (state : NetworkState) (order : SetOrder)
  | banTeam (team : ℕ)
  | unbanTeam (team : ℕ)
  | addNetworkTeam (team : ℕ)
  | removeNetworkTeam (team : ℕ)
  | rewriteChain (order : SetOrder)

/-- One call. -/
def step (m : Manager) : Event → Manager
  | .updateState state order => rewriteChain net order { m with state := state }
  | .banTeam team =>
    { m with banned := insert team m.banned, chain := banRules m.chain team }
  | .unbanTeam team =>
    { m with banned := m.banned.erase team, chain := unbanRules m.chain team }
  | .addNetworkTeam team =>
    { m with allowed := insert team m.allowed, chain := allowRules net m.chain team }
  | .removeNetworkTeam team =>
    { m with allowed := m.allowed.erase team, chain := disallowRules net m.chain team }
  | .rewriteChain order => rewriteChain net order m

end Network

end Gameserver.Firewall
