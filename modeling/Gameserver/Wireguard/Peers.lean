import Gameserver.Lib.Json
import Mathlib.Data.List.Perm.Basic
import Mathlib.Data.List.Dedup
import Mathlib.Data.List.Pairwise
import Mathlib.Tactic.Tauto

/-!
# Syncing the peers of a WireGuard interface

`sync_peers` makes the peers of an interface those that the API lists.  It reads the interface,
removes the peers that are not asked for and adds those that are missing.

* `WireGuard`, `Interface` — how the kernel reads a key and a CIDR, and the peers it holds:
  their keys are distinct, and no allowed IP belongs to two of them.
* `Interface.set`, `Interface.remove` — the two requests that the library sends.
* `getPeers`, `addPeer`, `removePeer`, `syncPeers` — the library.
* `Interface.Shows` — the interface holds exactly these peers, each with its one allowed IP.
-/

namespace Gameserver.Wireguard

open Json (Text)

/-! ## The kernel's side -/

/-- How WireGuard reads the text of a key and of a CIDR; `none` is a `ValueError`.  What it
reports is read as it stands.  A peer without allowed IPs can be reported with an empty list of
them, or with none. -/
structure WireGuard where
  key : Text → Option Text
  cidr : Text → Option Text
  key_of_key : ∀ {text k}, key text = some k → key k = some k
  cidr_of_cidr : ∀ {text ip}, cidr text = some ip → cidr ip = some ip
  reportsEmpty : Bool

/-- A peer of the interface. -/
structure Entry where
  key : Text
  allowedIps : List Text
deriving DecidableEq, Repr

/-- Two peers of one interface. -/
def Entry.Apart (a b : Entry) : Prop :=
  a.key ≠ b.key ∧ a.allowedIps.Disjoint b.allowedIps

variable {wg : WireGuard}

/-- The interface's peers, in the order in which they were created. -/
structure Interface (wg : WireGuard) where
  entries : List Entry
  apart : entries.Pairwise Entry.Apart
  reported : ∀ e ∈ entries, wg.key e.key = some e.key ∧
    ∀ ip ∈ e.allowedIps, wg.cidr ip = some ip

/-- The allowed IPs of the peer that is set are replaced; every other peer loses the IP. -/
def Entry.give (key ip : Text) (e : Entry) : Entry :=
  if e.key = key then ⟨key, [ip]⟩ else { e with allowedIps := e.allowedIps.filter (· ≠ ip) }

theorem Entry.give_key (key ip : Text) (e : Entry) : (e.give key ip).key = e.key := by
  unfold Entry.give
  split_ifs with h
  · exact h.symm
  · rfl

theorem Entry.mem_give {key ip x : Text} {e : Entry} (h : x ∈ (e.give key ip).allowedIps) :
    (e.key = key ∧ x = ip) ∨ (e.key ≠ key ∧ x ∈ e.allowedIps ∧ x ≠ ip) := by
  unfold Entry.give at h
  split_ifs at h with hk
  · exact .inl ⟨hk, List.mem_singleton.mp h⟩
  · exact .inr ⟨hk, by simpa using h⟩

theorem Entry.Apart.give {a b : Entry} (h : a.Apart b) (key ip : Text) :
    (a.give key ip).Apart (b.give key ip) := by
  refine ⟨by rw [Entry.give_key, Entry.give_key]; exact h.1, fun x ha hb => ?_⟩
  obtain ⟨ka, rfl⟩ | ⟨-, hax, hxa⟩ := Entry.mem_give ha
  · obtain ⟨kb, -⟩ | ⟨-, -, hxb⟩ := Entry.mem_give hb
    · exact h.1 (ka.trans kb.symm)
    · exact hxb rfl
  · obtain ⟨-, rfl⟩ | ⟨-, hbx, -⟩ := Entry.mem_give hb
    · exact hxa rfl
    · exact h.2 hax hbx

/-- The peers after one has been set: a new one comes last. -/
def setEntries (entries : List Entry) (key ip : Text) : List Entry :=
  entries.map (Entry.give key ip) ++
    if key ∈ entries.map Entry.key then [] else [⟨key, [ip]⟩]

theorem apart_setEntries {entries : List Entry} (h : entries.Pairwise Entry.Apart)
    (key ip : Text) : (setEntries entries key ip).Pairwise Entry.Apart := by
  have hmap : (entries.map (Entry.give key ip)).Pairwise Entry.Apart :=
    List.pairwise_map.mpr (h.imp fun hab => hab.give key ip)
  unfold setEntries
  split_ifs with hk
  · rwa [List.append_nil]
  · refine List.pairwise_append.mpr ⟨hmap, List.pairwise_singleton _ _, ?_⟩
    intro a ha b hb
    obtain ⟨e, he, rfl⟩ := List.mem_map.mp ha
    obtain rfl := List.mem_singleton.mp hb
    have hne : e.key ≠ key := fun h' => hk (List.mem_map.mpr ⟨e, he, h'⟩)
    refine ⟨by rw [Entry.give_key]; exact hne, fun x hx hx' => ?_⟩
    obtain rfl := List.mem_singleton.mp hx'
    obtain ⟨h', -⟩ | ⟨-, -, h'⟩ := Entry.mem_give hx
    · exact hne h'
    · exact h' rfl

/-- `wg.set(ifname, peer={"public_key": key, "allowed_ips": [ip]})`, of texts that were read. -/
def Interface.set (i : Interface wg) (key ip : Text) (hkey : wg.key key = some key)
    (hip : wg.cidr ip = some ip) : Interface wg where
  entries := setEntries i.entries key ip
  apart := apart_setEntries i.apart key ip
  reported := by
    intro e he
    rcases List.mem_append.mp he with he | he
    · obtain ⟨e', he', rfl⟩ := List.mem_map.mp he
      refine ⟨by rw [Entry.give_key]; exact (i.reported e' he').1, fun x hx => ?_⟩
      obtain ⟨-, rfl⟩ | ⟨-, hx, -⟩ := Entry.mem_give hx
      · exact hip
      · exact (i.reported e' he').2 x hx
    · split_ifs at he
      · cases he
      · obtain rfl := List.mem_singleton.mp he
        exact ⟨hkey, fun x hx => List.mem_singleton.mp hx ▸ hip⟩

/-- `wg.set(ifname, peer={"public_key": key, "remove": True})`, of a key that was read. -/
def Interface.remove (i : Interface wg) (key : Text) : Interface wg where
  entries := i.entries.filter (·.key ≠ key)
  apart := i.apart.filter _
  reported := fun e he => i.reported e (List.mem_of_mem_filter he)

/-! ## The library's side -/

/-- `Peer` -/
structure Peer where
  publicKey : Text
  cidr : Text
deriving DecidableEq, Repr

namespace Api

/-- `rest_api.KeySlot` -/
structure KeySlot where
  publicKey : Text
deriving Repr

/-- `rest_api.Peer` -/
structure Peer where
  keySlot : KeySlot
  cidr : Text
deriving Repr

end Api

/-- `Peer.from_api` -/
def Peer.fromApi (api : Api.Peer) : Peer := ⟨api.keySlot.publicKey, api.cidr⟩

/-- `add_peer`: a `ValueError` is logged, and the interface stays as it is. -/
def addPeer (i : Interface wg) (peer : Peer) : Interface wg :=
  match hk : wg.key peer.publicKey, hc : wg.cidr peer.cidr with
  | some key, some ip => i.set key ip (wg.key_of_key hk) (wg.cidr_of_cidr hc)
  | _, _ => i

/-- `remove_peer` -/
def removePeer (i : Interface wg) (peer : Peer) : Interface wg :=
  match wg.key peer.publicKey with
  | some key => i.remove key
  | none => i

/-- What `get_peers` makes of one peer of the interface: `none` is the `TypeError` of
`None[0]`, and an `IndexError` skips the peer. -/
def Entry.recover (wg : WireGuard) (e : Entry) : Option (List Peer) :=
  match e.allowedIps with
  | ip :: _ => some [⟨e.key, ip⟩]
  | [] => if wg.reportsEmpty then some [] else none

/-- `get_peers` -/
def getPeers (i : Interface wg) : Option (List Peer) :=
  (i.entries.mapM (Entry.recover wg)).map fun peers => peers.flatten.dedup

/-- The order in which Python goes through a set. -/
structure Iteration where
  order : List Peer → List Peer
  perm : ∀ peers, (order peers).Perm peers

/-- A request that is sent to the kernel. -/
inductive Request where
  | remove (peer : Peer)
  | add (peer : Peer)
deriving DecidableEq, Repr

/-- Sending one request. -/
def Request.send (i : Interface wg) : Request → Interface wg
  | .remove peer => removePeer i peer
  | .add peer => addPeer i peer

/-- The requests of `sync_peers`: first the peers to remove, then those to add. -/
def requests (removals additions : Iteration) (requested existing : List Peer) : List Request :=
  (removals.order (existing.filter (· ∉ requested))).map .remove ++
    (additions.order (requested.filter (· ∉ existing))).map .add

/-- What a call of `sync_peers` does: the requests it sends, the interface afterwards, and
whether it logs a mismatch. -/
structure Synced (wg : WireGuard) where
  sent : List Request
  interface : Interface wg
  mismatch : Bool

/-- `sync_peers`; `none` is a `TypeError` of `get_peers`. -/
def syncPeers (removals additions : Iteration) (i : Interface wg) (peers : List Api.Peer) :
    Option (Synced wg) := do
  let requested := (peers.map Peer.fromApi).dedup
  let existing ← getPeers i
  let sent := requests removals additions requested existing
  let after := sent.foldl Request.send i
  let newPeers ← getPeers after
  return ⟨sent, after, decide (¬ newPeers.Perm requested)⟩

/-! ## An interface that holds given peers -/

/-- A peer with its one allowed IP, as the kernel holds it. -/
def Peer.entry (peer : Peer) : Entry := ⟨peer.publicKey, [peer.cidr]⟩

/-- The interface holds exactly the peers of the list, each with its CIDR. -/
def Interface.Shows (i : Interface wg) (peers : List Api.Peer) : Prop :=
  i.entries.Perm (peers.map fun api => (Peer.fromApi api).entry)

/-- WireGuard reads the texts of a peer as they stand. -/
def Peer.Reported (wg : WireGuard) (peer : Peer) : Prop :=
  wg.key peer.publicKey = some peer.publicKey ∧ wg.cidr peer.cidr = some peer.cidr

variable {i : Interface wg} {peers : List Peer} {peer : Peer}

theorem exists_entries_eq (h : ∀ e ∈ i.entries, e.allowedIps.length = 1) :
    ∃ peers : List Peer, i.entries = peers.map Peer.entry := by
  refine ⟨i.entries.map fun e => ⟨e.key, e.allowedIps.headD []⟩, ?_⟩
  have hsame : ∀ e ∈ i.entries, Peer.entry ⟨e.key, e.allowedIps.headD []⟩ = id e := by
    rintro ⟨key, ips⟩ he
    obtain ⟨ip, rfl⟩ := List.length_eq_one_iff.mp (h _ he)
    rfl
  rw [List.map_map]
  exact (List.map_id _).symm.trans (List.map_congr_left fun e he => (hsame e he).symm)

theorem nodup_keys_of_entries (h : i.entries = peers.map Peer.entry) :
    (peers.map Peer.publicKey).Nodup := by
  have hapart := i.apart
  rw [h, List.pairwise_map] at hapart
  exact List.pairwise_map.mpr (hapart.imp fun hab => hab.1)

theorem reported_of_entries (h : i.entries = peers.map Peer.entry) (hp : peer ∈ peers) :
    peer.Reported wg := by
  have hread := i.reported peer.entry (h ▸ List.mem_map_of_mem hp)
  exact ⟨hread.1, hread.2 peer.cidr (List.mem_singleton_self _)⟩

theorem mapM_recover (peers : List Peer) :
    (peers.map Peer.entry).mapM (Entry.recover wg) = some (peers.map fun peer => [peer]) := by
  induction peers with
  | nil => rfl
  | cons peer peers ih =>
    rw [List.map_cons, List.mapM_cons, ih]
    rfl

/-- `get_peers` reads such an interface back. -/
theorem getPeers_of_entries (h : i.entries = peers.map Peer.entry) : getPeers i = some peers := by
  have hnodup : peers.Nodup := (nodup_keys_of_entries h).of_map
  have hflat : (peers.map fun peer => [peer]).flatten = peers := by
    rw [← List.flatMap_def, List.flatMap_singleton']
  rw [getPeers, h, mapM_recover, Option.map_some, hflat, hnodup.dedup]

/-! ## Removing and adding -/

theorem removePeer_entries (h : i.entries = peers.map Peer.entry)
    (hread : wg.key peer.publicKey = some peer.publicKey)
    (hinj : ∀ q ∈ peers, q.publicKey = peer.publicKey → q = peer) :
    (removePeer i peer).entries = (peers.filter (· ≠ peer)).map Peer.entry := by
  have hremove : removePeer i peer = i.remove peer.publicKey := by
    rw [removePeer, hread]
  rw [hremove]
  show i.entries.filter (·.key ≠ peer.publicKey) = _
  rw [h, List.filter_map]
  refine congrArg (List.map Peer.entry) (List.filter_congr fun q hq => ?_)
  show decide (q.publicKey ≠ peer.publicKey) = decide (q ≠ peer)
  exact decide_eq_decide.mpr
    ⟨fun hne heq => hne (congrArg Peer.publicKey heq), fun hne heq => hne (hinj q hq heq)⟩

/-- Removing peers one after the other leaves the others. -/
theorem foldl_remove_entries (gone : List Peer) (h : i.entries = peers.map Peer.entry)
    (hread : ∀ p ∈ gone, wg.key p.publicKey = some p.publicKey)
    (hinj : ∀ p ∈ gone, ∀ q ∈ peers, q.publicKey = p.publicKey → q = p) :
    ((gone.map Request.remove).foldl Request.send i).entries =
      (peers.filter (· ∉ gone)).map Peer.entry := by
  induction gone generalizing i peers with
  | nil => simpa using h
  | cons p gone ih =>
    have hstep := removePeer_entries h (hread p List.mem_cons_self) (hinj p List.mem_cons_self)
    have hrest := ih hstep (fun q hq => hread q (List.mem_cons_of_mem p hq))
      (fun q hq r hr => hinj q (List.mem_cons_of_mem p hq) r (List.mem_of_mem_filter hr))
    refine hrest.trans (congrArg (List.map Peer.entry) ?_)
    rw [List.filter_filter]
    exact List.filter_congr fun q _ => by simp [Bool.and_comm]

theorem addPeer_eq (hread : peer.Reported wg) :
    addPeer i peer = i.set peer.publicKey peer.cidr hread.1 hread.2 := by
  unfold addPeer
  split
  · rename_i key ip hk hc
    obtain rfl := Option.some.inj (hread.1.symm.trans hk)
    obtain rfl := Option.some.inj (hread.2.symm.trans hc)
    rfl
  · rename_i hnone
    exact absurd hread.2 (hnone _ _ hread.1)

/-- A peer with a new key and a new IP comes last, and takes nothing from the others. -/
theorem addPeer_entries (h : i.entries = peers.map Peer.entry) (hread : peer.Reported wg)
    (hkey : peer.publicKey ∉ peers.map Peer.publicKey) (hip : peer.cidr ∉ peers.map Peer.cidr) :
    (addPeer i peer).entries = (peers ++ [peer]).map Peer.entry := by
  have hgive : ∀ q ∈ peers, q.entry.give peer.publicKey peer.cidr = q.entry := by
    intro q hq
    have hk : q.publicKey ≠ peer.publicKey := fun h' => hkey (List.mem_map.mpr ⟨q, hq, h'⟩)
    have hc : q.cidr ≠ peer.cidr := fun h' => hip (List.mem_map.mpr ⟨q, hq, h'⟩)
    simp [Entry.give, Peer.entry, hk, hc]
  have hnew : peer.publicKey ∉ i.entries.map Entry.key := by
    rw [h, List.map_map]
    exact hkey
  rw [addPeer_eq hread]
  show setEntries i.entries peer.publicKey peer.cidr = _
  rw [setEntries, if_neg hnew, h, List.map_map, List.map_append]
  exact congrArg (· ++ [peer.entry]) (List.map_congr_left hgive)

/-- Adding peers one after the other, all with new keys and new IPs. -/
theorem foldl_add_entries (new : List Peer) (h : i.entries = peers.map Peer.entry)
    (hread : ∀ p ∈ new, p.Reported wg) (hkeys : ((peers ++ new).map Peer.publicKey).Nodup)
    (hcidrs : ((peers ++ new).map Peer.cidr).Nodup) :
    ((new.map Request.add).foldl Request.send i).entries = (peers ++ new).map Peer.entry := by
  induction new generalizing i peers with
  | nil => simpa using h
  | cons p new ih =>
    have hfresh : ∀ f : Peer → Text, ((peers ++ p :: new).map f).Nodup → f p ∉ peers.map f := by
      intro f hf hmem
      rw [List.map_append, List.map_cons] at hf
      exact (List.nodup_append.mp hf).2.2 _ hmem _ List.mem_cons_self rfl
    have hstep := addPeer_entries h (hread p List.mem_cons_self) (hfresh _ hkeys) (hfresh _ hcidrs)
    rw [List.append_cons] at hkeys hcidrs ⊢
    exact ih hstep (fun q hq => hread q (List.mem_cons_of_mem p hq)) hkeys hcidrs

/-! ## Convergence -/

theorem Iteration.mem_order (iteration : Iteration) {peers : List Peer} {peer : Peer} :
    peer ∈ iteration.order peers ↔ peer ∈ peers :=
  (iteration.perm peers).mem_iff

theorem Iteration.order_nil (iteration : Iteration) : iteration.order [] = [] :=
  (iteration.perm []).eq_nil

variable {requested existing : List Peer}

/-- The peers that stay, and then those that are added, are the requested ones. -/
theorem perm_requested (additions : Iteration) (hreq : requested.Nodup) (hex : existing.Nodup) :
    (existing.filter (· ∈ requested) ++
      additions.order (requested.filter (· ∉ existing))).Perm requested := by
  have hnew : (additions.order (requested.filter (· ∉ existing))).Nodup :=
    (additions.perm _).nodup_iff.mpr (hreq.filter _)
  have hnodup := (hex.filter (· ∈ requested)).append hnew fun p hp hp' => by
    rw [additions.mem_order] at hp'
    simp at hp hp'
    exact hp'.2 hp.1
  refine (List.perm_ext_iff_of_nodup hnodup hreq).mpr fun p => ?_
  rw [List.mem_append, additions.mem_order]
  simp
  tauto

/-- The requests leave the requested peers on the interface. -/
theorem foldl_requests_entries (removals additions : Iteration)
    (h : i.entries = existing.map Peer.entry) (hread : ∀ p ∈ requested, p.Reported wg)
    (hkeys : (requested.map Peer.publicKey).Nodup) (hcidrs : (requested.map Peer.cidr).Nodup) :
    ((requests removals additions requested existing).foldl Request.send i).entries =
      (existing.filter (· ∈ requested) ++
        additions.order (requested.filter (· ∉ existing))).map Peer.entry := by
  have hexisting := nodup_keys_of_entries h
  have hperm := perm_requested additions hkeys.of_map hexisting.of_map
  have hkept := foldl_remove_entries (removals.order (existing.filter (· ∉ requested))) h
    (fun p hp => (reported_of_entries h (List.mem_of_mem_filter (removals.mem_order.mp hp))).1)
    (fun p hp q hq => List.inj_on_of_nodup_map hexisting hq
      (List.mem_of_mem_filter (removals.mem_order.mp hp)))
  have hfilter : existing.filter (· ∉ removals.order (existing.filter (· ∉ requested))) =
      existing.filter (· ∈ requested) :=
    List.filter_congr fun p hp => by simp [removals.mem_order, hp]
  rw [hfilter] at hkept
  rw [requests, List.foldl_append]
  exact foldl_add_entries _ hkept
    (fun p hp => hread p (List.mem_of_mem_filter (additions.mem_order.mp hp)))
    ((hperm.map _).nodup_iff.mpr hkeys) ((hperm.map _).nodup_iff.mpr hcidrs)

theorem requests_eq_nil (removals additions : Iteration) (h : existing.Perm requested) :
    requests removals additions requested existing = [] := by
  have hgone : existing.filter (· ∉ requested) = [] :=
    List.filter_eq_nil_iff.mpr fun p hp => by simpa using h.mem_iff.mp hp
  have hnew : requested.filter (· ∉ existing) = [] :=
    List.filter_eq_nil_iff.mpr fun p hp => by simpa using h.mem_iff.mpr hp
  rw [requests, hgone, hnew, removals.order_nil, additions.order_nil]
  rfl

theorem syncPeers_eq (removals additions : Iteration) {apis : List Api.Peer} {new : List Peer}
    (hreq : (apis.map Peer.fromApi).dedup = requested) (hold : getPeers i = some existing)
    (hnew : getPeers ((requests removals additions requested existing).foldl Request.send i) =
      some new) (hperm : new.Perm requested) :
    syncPeers removals additions i apis =
      some ⟨requests removals additions requested existing,
        (requests removals additions requested existing).foldl Request.send i, false⟩ := by
  have hmatch : decide (¬ new.Perm requested) = false := decide_eq_false (not_not_intro hperm)
  rw [syncPeers, hreq, hold]
  show (getPeers _).bind _ = _
  rw [hnew, ← hmatch]
  rfl

/-- **Syncing converges.**  Whatever order Python goes through its sets in, the interface ends
with exactly the requested peers, and a second sync sends nothing. -/
theorem syncPeers_converges (removals additions removals' additions' : Iteration)
    (i : Interface wg) (peers : List Api.Peer)
    (hkeys : (peers.map (·.keySlot.publicKey)).Nodup) (hcidrs : (peers.map (·.cidr)).Nodup)
    (hread : ∀ api ∈ peers, (Peer.fromApi api).Reported wg)
    (hone : ∀ e ∈ i.entries, e.allowedIps.length = 1) :
    ∃ synced, syncPeers removals additions i peers = some synced ∧
      synced.interface.Shows peers ∧ synced.mismatch = false ∧
      syncPeers removals' additions' synced.interface peers =
        some ⟨[], synced.interface, false⟩ := by
  obtain ⟨existing, hexisting⟩ := exists_entries_eq hone
  have hkeys' : ((peers.map Peer.fromApi).map Peer.publicKey).Nodup := by
    rw [List.map_map]
    exact hkeys
  have hcidrs' : ((peers.map Peer.fromApi).map Peer.cidr).Nodup := by
    rw [List.map_map]
    exact hcidrs
  have hreq : (peers.map Peer.fromApi).dedup = peers.map Peer.fromApi := hkeys'.of_map.dedup
  have hafter := foldl_requests_entries removals additions hexisting
    (List.forall_mem_map.mpr hread) hkeys' hcidrs'
  have hperm := perm_requested additions hkeys'.of_map (nodup_keys_of_entries hexisting).of_map
  have hnew := getPeers_of_entries hafter
  refine ⟨_, syncPeers_eq removals additions hreq (getPeers_of_entries hexisting) hnew hperm, ?_,
    rfl, ?_⟩
  · have hentries := hperm.map Peer.entry
    rwa [← hafter, List.map_map] at hentries
  · have hnone := requests_eq_nil removals' additions' hperm
    have hagain := syncPeers_eq removals' additions' hreq hnew
      (by rw [hnone]; exact hnew) hperm
    rwa [hnone] at hagain

/-- Two peers swap their addresses. -/
theorem syncPeers_swapped :
    let wg : WireGuard := ⟨some, some, fun _ => rfl, fun _ => rfl, false⟩
    let alice := List.replicate 43 'A' ++ ['=']
    let bob := List.replicate 43 'E' ++ ['=']
    let i : Interface wg :=
      ⟨[⟨alice, ["10.0.0.1/32".toList]⟩, ⟨bob, ["10.0.0.2/32".toList]⟩],
        by unfold Entry.Apart List.Disjoint; decide, by decide⟩
    let peers : List Api.Peer :=
      [⟨⟨bob⟩, "10.0.0.1/32".toList⟩, ⟨⟨alice⟩, "10.0.0.2/32".toList⟩]
    let inOrder : Iteration := ⟨id, fun _ => .refl _⟩
    ∃ synced, syncPeers inOrder inOrder i peers = some synced ∧
      synced.interface.Shows peers ∧ synced.mismatch = false ∧
      syncPeers inOrder inOrder synced.interface peers = some ⟨[], synced.interface, false⟩ := by
  intro wg alice bob i peers inOrder
  refine syncPeers_converges inOrder inOrder inOrder inOrder i peers ?_ ?_ ?_ ?_
  · decide
  · decide
  · exact fun api _ => ⟨rfl, rfl⟩
  · decide

end Gameserver.Wireguard
