import Gameserver.Firewall.Manager
import Gameserver.Lib.Latest

/-!
# The control server and the firewall daemon

`VPNControl` changes a key in Redis and then publishes a message; `manage_iptables` reads the
keys, subscribes, initialises the firewall and from then on handles the messages.  All these
steps interleave, and any number of operations can be under way at a time.

* `Redis`, `Operation` — the keys, and the two steps of an operation.
* `Daemon` — the manager of `manage_iptables`, with its state as a string.
* `Phase`, `System.step` — how far the start has come, and one step of either side.
* `Item`, `Redis.value`, `System.known` — the single things both sides keep: the network state,
  the ban of each team, the permission of each team.
-/

namespace Gameserver.Firewall

/-! ## The control server -/

/-- `class VpnStatus(Enum)`. -/
inductive VpnStatus where
  | off
  | on
  | teamsOnly
  | teamsOnlyNoVulnbox
  deriving DecidableEq, Repr

/-- `state.value`. -/
def VpnStatus.value : VpnStatus → String
  | .off => "off"
  | .on => "on"
  | .teamsOnly => "team"
  | .teamsOnlyNoVulnbox => "team-no-vulnbox"

/-- The keys `network:state`, `network:banned` and `network:permissions`. -/
structure Redis where
  state : Option String
  banned : Finset ℕ
  permissions : Finset ℕ

/-- The operations of `VPNControl`. -/
inductive Operation where
  | setState (state : VpnStatus)
  | banTeam (teamId : ℕ)
  | unbanTeam (teamId : ℕ)
  | addPermissionTeam (teamId : ℕ)
  | removePermissionTeam (teamId : ℕ)
  deriving DecidableEq, Repr

/-- `if not team_id: return`, which only two of the operations have. -/
def Operation.returnsAtOnce : Operation → Bool
  | .banTeam 0 | .addPermissionTeam 0 => true
  | _ => false

/-- The change of an operation. -/
def Redis.change (redis : Redis) : Operation → Redis
  | .setState state => { redis with state := some state.value }
  | .banTeam teamId => { redis with banned := insert teamId redis.banned }
  | .unbanTeam teamId => { redis with banned := redis.banned.erase teamId }
  | .addPermissionTeam teamId => { redis with permissions := insert teamId redis.permissions }
  | .removePermissionTeam teamId => { redis with permissions := redis.permissions.erase teamId }

/-- A message on one of the five channels. -/
inductive Message where
  | state (data : String)
  | ban (team : ℕ)
  | unban (team : ℕ)
  | addPermission (team : ℕ)
  | removePermission (team : ℕ)
  deriving DecidableEq, Repr

/-- What an operation publishes. -/
def Operation.message : Operation → Message
  | .setState state => .state state.value
  | .banTeam teamId => .ban teamId
  | .unbanTeam teamId => .unban teamId
  | .addPermissionTeam teamId => .addPermission teamId
  | .removePermissionTeam teamId => .removePermission teamId

/-! ## The daemon -/

/-- The manager; `state` is `self.state` as the string it is. -/
structure Daemon where
  state : String
  manager : Manager

section Daemon

variable (net : Network)

/-- `manager.init_firewall(state, banned, allowed)`. -/
def Daemon.init (order : SetOrder) (state : String) (banned allowed : Finset ℕ) : Daemon :=
  ⟨state, initFirewall net order (.ofString state) banned allowed⟩

/-- The body of the loop over `pubsub.listen()`. -/
def Daemon.handle (order : SetOrder) (d : Daemon) : Message → Daemon
  | .state data => ⟨data, Firewall.step net d.manager (.updateState (.ofString data) order)⟩
  | .ban team => { d with manager := Firewall.step net d.manager (.banTeam team) }
  | .unban team => { d with manager := Firewall.step net d.manager (.unbanTeam team) }
  | .addPermission team => { d with manager := Firewall.step net d.manager (.addNetworkTeam team) }
  | .removePermission team =>
    { d with manager := Firewall.step net d.manager (.removeNetworkTeam team) }

end Daemon

/-- How far `manage_iptables` has come, with its local variables. -/
inductive Phase where
  | start
  /-- `redis.get('network:state')` was `None` or empty -/
  | missing
  | gotState (state : String)
  | gotBanned (state : String) (banned : Finset ℕ)
  | gotAllowed (state : String) (banned allowed : Finset ℕ)
  | subscribed (state : String) (banned allowed : Finset ℕ)
  | running (daemon : Daemon)

/-- Does Redis deliver messages to the daemon? -/
def Phase.isSubscribed : Phase → Bool
  | .subscribed .. | .running _ => true
  | _ => false

/-- Redis, the operations that have changed their key but not yet published, the messages
delivered to the daemon, and the daemon. -/
structure System where
  redis : Redis
  pending : List Operation
  queue : List Message
  phase : Phase

/-- A step of one side. -/
inductive System.Event where
  /-- an operation changes its key -/
  | change (op : Operation)
  /-- a pending operation publishes -/
  | publish (index : ℕ)
  /-- the next line of the daemon's start -/
  | advance (order : SetOrder)
  /-- the daemon handles the oldest message -/
  | handle (order : SetOrder)

/-- The next line of the daemon's start. -/
def System.advance (net : Network) (order : SetOrder) (s : System) : System :=
  match s.phase with
  | .start =>
    -- an empty text is false
    match s.redis.state.filter (· ≠ "") with
    | some state => { s with phase := .gotState state }
    | none => { s with phase := .missing }
  | .missing => { s with redis := { s.redis with state := some "off" }, phase := .gotState "off" }
  | .gotState state => { s with phase := .gotBanned state s.redis.banned }
  | .gotBanned state banned => { s with phase := .gotAllowed state banned s.redis.permissions }
  | .gotAllowed state banned allowed => { s with phase := .subscribed state banned allowed }
  | .subscribed state banned allowed =>
    { s with phase := .running (.init net order state banned allowed) }
  | .running _ => s

/-- One step. -/
def System.step (net : Network) (s : System) : System.Event → System
  | .change op =>
    if op.returnsAtOnce then s
    else { s with redis := s.redis.change op, pending := s.pending ++ [op] }
  | .publish index =>
    match s.pending[index]? with
    | some op =>
      { s with
        pending := s.pending.eraseIdx index
        queue := if s.phase.isSubscribed then s.queue ++ [op.message] else s.queue }
    | none => s
  | .advance order => s.advance net order
  | .handle order =>
    match s.phase, s.queue with
    | .running daemon, message :: queue =>
      { s with phase := .running (daemon.handle net order message), queue := queue }
    | _, _ => s

/-- The daemon is about to start, and no operation is under way. -/
def System.start (redis : Redis) : System := ⟨redis, [], [], .start⟩

/-! ## Items -/

/-- What an operation is about. -/
inductive Item where
  | state
  | ban (team : ℕ)
  | permission (team : ℕ)
  deriving DecidableEq, Repr

/-- The value of an item. -/
inductive Value where
  | state (state : Option String)
  | member (isMember : Bool)
  deriving DecidableEq, Repr

/-- What a message is about. -/
def Message.item : Message → Item
  | .state _ => .state
  | .ban team | .unban team => .ban team
  | .addPermission team | .removePermission team => .permission team

/-- What a message says. -/
def Message.value : Message → Value
  | .state data => .state (some data)
  | .ban _ | .addPermission _ => .member true
  | .unban _ | .removePermission _ => .member false

/-- What Redis holds. -/
def Redis.value (redis : Redis) : Item → Value
  | .state => .state redis.state
  | .ban team => .member (team ∈ redis.banned)
  | .permission team => .member (team ∈ redis.permissions)

/-- What a daemon holds. -/
def Daemon.value (d : Daemon) : Item → Value
  | .state => .state (some d.state)
  | .ban team => .member (team ∈ d.manager.banned)
  | .permission team => .member (team ∈ d.manager.allowed)

/-- What the daemon knows of an item: what it has read, or, once it runs, what it holds. -/
def Phase.known : Phase → Item → Option Value
  | .start, _ | .missing, _ => none
  | .gotState state, .state | .gotBanned state _, .state | .gotAllowed state _ _, .state
  | .subscribed state _ _, .state => some (.state (some state))
  | .gotBanned _ banned, .ban team | .gotAllowed _ banned _, .ban team
  | .subscribed _ banned _, .ban team => some (.member (team ∈ banned))
  | .gotAllowed _ _ allowed, .permission team | .subscribed _ _ allowed, .permission team =>
    some (.member (team ∈ allowed))
  | .gotState _, _ | .gotBanned _ _, .permission _ => none
  | .running daemon, item => some (daemon.value item)

end Gameserver.Firewall
