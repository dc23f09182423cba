import Gameserver.Firewall.Manager

/-!
# What the firewall lets pass

Allow rules are inserted at the front of the chain, ban rules are appended at its end,
and the rules of the network state lie in between.  Every call of the manager keeps the
chain in these three layers, so only the sets matter and not the order of the calls.

* `Inv` — the layers; `inv_init`, `inv_step` — every call keeps them.
* `stateChain_verdict` — what the rules of a network state decide.
* `firewall_confluent` — **after any calls the chain decides like a new one**, and what
  may pass it.
* `banned_team_blocked` — what the ban of a team blocks.
-/

namespace Gameserver.Firewall

/-! ## The rules of the layers -/

section Rules

variable {net : Network} {rule : Rule} {team team' : ℕ} {state : NetworkState}

theorem mem_rulesOfBan :
    rule ∈ rulesOfBan team ↔ ∃ iface ∈ interfaces team,
      rule = banIncoming team iface ∨ rule = banOutgoing team iface := by
  simp [rulesOfBan]

theorem target_of_mem_rulesOfBan (h : rule ∈ rulesOfBan team) : rule.target = .drop := by
  obtain ⟨iface, -, rfl | rfl⟩ := mem_rulesOfBan.1 h <;> rfl

/-- The comment of a ban rule names the team. -/
theorem team_eq_of_mem_rulesOfBan (h : rule ∈ rulesOfBan team) (h' : rule ∈ rulesOfBan team') :
    team = team' := by
  obtain ⟨iface, -, rfl | rfl⟩ := mem_rulesOfBan.1 h
  · obtain ⟨iface', -, heq | heq⟩ := mem_rulesOfBan.1 h'
    · simpa [banIncoming, Rule.always, Nat.repr_inj] using congrArg Rule.comment heq
    · simpa [banIncoming, banOutgoing, Rule.always] using congrArg Rule.inIface heq
  · obtain ⟨iface', -, heq | heq⟩ := mem_rulesOfBan.1 h'
    · simpa [banIncoming, banOutgoing, Rule.always] using congrArg Rule.inIface heq
    · simpa [banOutgoing, Rule.always, Nat.repr_inj] using congrArg Rule.comment heq

/-- The two rules of a permission. -/
def IsAllowRule (net : Network) (team : ℕ) (rule : Rule) : Prop :=
  rule = allowIncoming net team ∨ rule = allowOutgoing net team

theorem IsAllowRule.target_eq (h : IsAllowRule net team rule) : rule.target = .ret := by
  rcases h with rfl | rfl <;> rfl

theorem IsAllowRule.mark_eq (h : IsAllowRule net team rule) : rule.mark = none := by
  rcases h with rfl | rfl <;> rfl

theorem IsAllowRule.team_eq (h : IsAllowRule net team rule) (h' : IsAllowRule net team' rule) :
    team = team' := by
  have hcomment : ∀ {t}, IsAllowRule net t rule →
      rule.comment = some s!"Open network for team {t}" := by
    rintro t (rfl | rfl) <;> rfl
  have heq := (hcomment h).symm.trans (hcomment h')
  simpa [Nat.repr_inj] using heq

/-- The rules of a network state reject, or let team traffic pass by its mark. -/
def IsStateRule (rule : Rule) : Prop := rule.target = .reject ∨ rule = ruleNetteamonly

theorem IsStateRule.target_ne (h : IsStateRule rule) : rule.target ≠ .drop := by
  rcases h with h | rfl
  · simp [h]
  · decide

theorem IsStateRule.not_isAllowRule (h : IsStateRule rule) : ¬ IsAllowRule net team rule := by
  intro hallow
  rcases h with h | rfl
  · simp [hallow.target_eq] at h
  · exact absurd hallow.mark_eq (by decide)

/-- The rules that keep packets from and to the vulnboxes out. -/
def IsNoVulnboxRule (net : Network) (rule : Rule) : Prop :=
  ∃ team, 1 ≤ team ∧ team ≤ net.maxId + 1 ∧ rule ∈ noVulnboxRules net team

theorem IsNoVulnboxRule.target_eq (h : IsNoVulnboxRule net rule) : rule.target = .reject := by
  obtain ⟨team, -, -, h⟩ := h
  simp only [noVulnboxRules, List.mem_cons, List.not_mem_nil, or_false] at h
  rcases h with rfl | rfl <;> rfl

theorem stateChain_team (net : Network) :
    stateChain net .team = [ruleNetteamonly, ruleNetclosed] :=
  have h : iptablesAdd (iptablesAdd [] ruleNetteamonly) ruleNetclosed =
      [ruleNetteamonly, ruleNetclosed] := by decide
  h

theorem stateChain_off (net : Network) : stateChain net .off = [ruleNetclosed] := rfl

/-- "first deny vulnboxes, then allow team-internal traffic, then deny other traffic" -/
theorem stateChain_teamNoVulnbox (net : Network) :
    Chain.Layered {rule | IsNoVulnboxRule net rule} [ruleNetteamonly, ruleNetclosed] ∅
      (stateChain net .teamNoVulnbox) := by
  have hstart : iptablesInsert (iptablesAdd [] ruleNetclosed) ruleNetteamonly =
      [ruleNetteamonly, ruleNetclosed] := by decide
  have hrules : ∀ r, r ∈ (List.range' 1 (net.maxId + 1)).flatMap (noVulnboxRules net) ↔
      IsNoVulnboxRule net r := by
    intro r
    rw [List.mem_flatMap]
    apply exists_congr
    intro team
    have hlt : team < 1 + (net.maxId + 1) ↔ team ≤ net.maxId + 1 := by omega
    rw [List.mem_range'_1, hlt, and_assoc]
  have hmiddle : ∀ r ∈ (List.range' 1 (net.maxId + 1)).flatMap (noVulnboxRules net),
      r ∉ [ruleNetteamonly, ruleNetclosed] := by
    intro r hr hmem
    obtain ⟨team, -, -, hrule⟩ := (hrules r).1 hr
    simp only [noVulnboxRules, List.mem_cons, List.not_mem_nil, or_false] at hrule hmem
    rcases hmem with rfl | rfl <;> simp [ruleNetteamonly, ruleNetclosed, Rule.always] at hrule
  have h := (Chain.layered_middle [ruleNetteamonly, ruleNetclosed]).insertAll hmiddle (by simp)
  rw [Set.empty_union, List.foldl_flatMap] at h
  simp only [hrules] at h
  rw [stateChain, hstart]
  exact h

theorem isStateRule_of_mem (h : rule ∈ stateChain net state) : IsStateRule rule := by
  have hbase : ∀ r ∈ [ruleNetteamonly, ruleNetclosed], IsStateRule r := by
    simp [IsStateRule, ruleNetclosed, Rule.always]
  cases state with
  | on => simp [stateChain] at h
  | team =>
    rw [stateChain_team] at h
    exact hbase rule h
  | teamNoVulnbox =>
    obtain ⟨a, b, heq, ha, hb⟩ := stateChain_teamNoVulnbox net
    rw [heq, List.mem_append, List.mem_append] at h
    rcases h with h | h | h
    · exact .inl ((ha rule).1 h).target_eq
    · exact hbase rule h
    · exact absurd ((hb rule).1 h) (Set.notMem_empty rule)
  | off =>
    rw [stateChain_off, List.mem_singleton] at h
    exact hbase rule (by simp [h])

end Rules

/-! ## The invariant -/

section Invariant

variable (net : Network)

/-- The rules of the permissions. -/
def allowLayer (allowed : Finset ℕ) : Set Rule :=
  {rule | ∃ team ∈ allowed, IsAllowRule net team rule}

/-- The rules of the bans. -/
def banLayer (banned : Finset ℕ) : Set Rule := {rule | ∃ team ∈ banned, rule ∈ rulesOfBan team}

/-- The chain is in its three layers. -/
def Inv (m : Manager) : Prop :=
  Chain.Layered (allowLayer net m.allowed) (stateChain net m.state) (banLayer m.banned) m.chain

variable {net} {m : Manager} {rule : Rule} {team : ℕ} {chain : List Rule} {state : NetworkState}
  {allowed banned : Finset ℕ}

theorem target_of_mem_allowLayer (h : rule ∈ allowLayer net allowed) : rule.target = .ret := by
  obtain ⟨team, -, h⟩ := h
  exact h.target_eq

theorem target_of_mem_banLayer (h : rule ∈ banLayer banned) : rule.target = .drop := by
  obtain ⟨team, -, h⟩ := h
  exact target_of_mem_rulesOfBan h

theorem rulesOfBan_notMem_stateChain (h : rule ∈ rulesOfBan team) : rule ∉ stateChain net state :=
  fun hmem => (isStateRule_of_mem hmem).target_ne (target_of_mem_rulesOfBan h)

theorem allowRule_notMem_stateChain (h : IsAllowRule net team rule) :
    rule ∉ stateChain net state :=
  fun hmem => (isStateRule_of_mem hmem).not_isAllowRule h

theorem banLayer_erase (banned : Finset ℕ) (team : ℕ) :
    banLayer (banned.erase team) = banLayer banned \ {rule | rule ∈ rulesOfBan team} := by
  ext rule
  constructor
  · rintro ⟨t, ht, hrule⟩
    obtain ⟨hne, ht⟩ := Finset.mem_erase.1 ht
    exact ⟨⟨t, ht, hrule⟩, fun h => hne (team_eq_of_mem_rulesOfBan hrule h)⟩
  · rintro ⟨⟨t, ht, hrule⟩, hnot⟩
    refine ⟨t, Finset.mem_erase.2 ⟨?_, ht⟩, hrule⟩
    rintro rfl
    exact hnot hrule

theorem allowLayer_erase (allowed : Finset ℕ) (team : ℕ) :
    allowLayer net (allowed.erase team) =
      allowLayer net allowed \ {rule | IsAllowRule net team rule} := by
  ext rule
  constructor
  · rintro ⟨t, ht, hrule⟩
    obtain ⟨hne, ht⟩ := Finset.mem_erase.1 ht
    exact ⟨⟨t, ht, hrule⟩, fun h => hne (hrule.team_eq h)⟩
  · rintro ⟨⟨t, ht, hrule⟩, hnot⟩
    refine ⟨t, Finset.mem_erase.2 ⟨?_, ht⟩, hrule⟩
    rintro rfl
    exact hnot hrule

theorem rulesOfBan_notMem_allowLayer (h : rule ∈ rulesOfBan team) :
    rule ∉ allowLayer net allowed := by
  intro hmem
  exact absurd ((target_of_mem_rulesOfBan h).symm.trans (target_of_mem_allowLayer hmem)) (by decide)

theorem allowRule_notMem_banLayer (h : IsAllowRule net team rule) : rule ∉ banLayer banned := by
  intro hmem
  exact absurd (h.target_eq.symm.trans (target_of_mem_banLayer hmem)) (by decide)

/-- `_ban_rules`, for some teams, adds to the ban layer. -/
theorem layered_banRules
    (h : Chain.Layered (allowLayer net allowed) (stateChain net state) (banLayer banned) chain)
    (teams : List ℕ) : Chain.Layered (allowLayer net allowed) (stateChain net state)
      (banLayer (banned ∪ teams.toFinset)) (teams.foldl banRules chain) := by
  have hrules : ∀ r ∈ teams.flatMap rulesOfBan, ∃ team, r ∈ rulesOfBan team := by
    intro r hr
    obtain ⟨team, -, hrule⟩ := List.mem_flatMap.1 hr
    exact ⟨team, hrule⟩
  have hadd := h.addAll
    (fun r hr => rulesOfBan_notMem_allowLayer (hrules r hr).choose_spec)
    (fun r hr => rulesOfBan_notMem_stateChain (hrules r hr).choose_spec)
  have hset : banLayer (banned ∪ teams.toFinset) =
      banLayer banned ∪ {r | r ∈ teams.flatMap rulesOfBan} := by
    ext r
    simp [banLayer, or_and_right, exists_or]
  rw [hset]
  rwa [List.foldl_flatMap] at hadd

/-- `_allow_rules`, for some teams, adds to the allow layer. -/
theorem layered_allowRules
    (h : Chain.Layered (allowLayer net allowed) (stateChain net state) (banLayer banned) chain)
    (teams : List ℕ) : Chain.Layered (allowLayer net (allowed ∪ teams.toFinset))
      (stateChain net state) (banLayer banned) (teams.foldl (allowRules net) chain) := by
  have hrules : ∀ r ∈ teams.flatMap fun team => [allowIncoming net team, allowOutgoing net team],
      ∃ team, IsAllowRule net team r := by
    intro r hr
    obtain ⟨team, -, hrule⟩ := List.mem_flatMap.1 hr
    exact ⟨team, by simpa [IsAllowRule] using hrule⟩
  have hinsert := h.insertAll
    (fun r hr => allowRule_notMem_stateChain (hrules r hr).choose_spec)
    (fun r hr => allowRule_notMem_banLayer (hrules r hr).choose_spec)
  have hset : allowLayer net (allowed ∪ teams.toFinset) = allowLayer net allowed ∪
      {r | r ∈ teams.flatMap fun team => [allowIncoming net team, allowOutgoing net team]} := by
    ext r
    simp [allowLayer, IsAllowRule, or_and_right, exists_or]
  rw [hset]
  rwa [List.foldl_flatMap] at hinsert

/-- **`rewrite_chain` builds the three layers**, whatever the chain was before. -/
theorem inv_rewriteChain (order : SetOrder) (m : Manager) : Inv net (rewriteChain net order m) := by
  have hbanned : (order.toList m.banned).toFinset = m.banned := by
    ext team
    rw [List.mem_toFinset, order.mem_toList]
  have hallowed : (order.toList m.allowed).toFinset = m.allowed := by
    ext team
    rw [List.mem_toFinset, order.mem_toList]
  have hstart : Chain.Layered (allowLayer net ∅) (stateChain net m.state) (banLayer ∅)
      (stateChain net m.state) := by
    convert Chain.layered_middle (stateChain net m.state) using 1 <;>
      simp [allowLayer, banLayer]
  have hlayers := layered_allowRules (layered_banRules hstart (order.toList m.banned))
    (order.toList m.allowed)
  rw [hbanned, hallowed, Finset.empty_union, Finset.empty_union] at hlayers
  exact hlayers

theorem inv_init (order : SetOrder) (state : NetworkState) (banned allowed : Finset ℕ) :
    Inv net (initFirewall net order state banned allowed) :=
  inv_rewriteChain order _

/-- Every call keeps the layers. -/
theorem inv_step (h : Inv net m) (e : Event) : Inv net (step net m e) := by
  cases e with
  | updateState state order => exact inv_rewriteChain order _
  | rewriteChain order => exact inv_rewriteChain order m
  | banTeam team =>
    have hban := layered_banRules h [team]
    rwa [Finset.union_comm] at hban
  | addNetworkTeam team =>
    have hallow := layered_allowRules h [team]
    rwa [Finset.union_comm] at hallow
  | unbanTeam team =>
    have hfront : ∀ r ∈ rulesOfBan team, r ∉ allowLayer net m.allowed := fun r hr =>
      rulesOfBan_notMem_allowLayer hr
    have hdelete := h.deleteBack hfront fun r hr => rulesOfBan_notMem_stateChain hr
    rwa [← banLayer_erase] at hdelete
  | removeNetworkTeam team =>
    have hrule : ∀ r, r ∈ [allowOutgoing net team, allowIncoming net team] ↔
        IsAllowRule net team r := by
      simp [IsAllowRule, or_comm]
    have hdelete := h.deleteFront
      (fun r hr => allowRule_notMem_stateChain ((hrule r).1 hr))
      fun r hr => allowRule_notMem_banLayer ((hrule r).1 hr)
    simp only [hrule] at hdelete
    rwa [← allowLayer_erase] at hdelete

/-- Every run keeps the layers. -/
theorem inv_exec (h : Inv net m) (es : List Event) : Inv net (Machine.exec (step net) m es) :=
  Machine.exec_invariant (Inv net) (fun _ e hm => inv_step hm e) h es

end Invariant

/-! ## What passes -/

/-- The mark has the traffic class `TC_TEAM_INTERNAL`. -/
def TeamInternal (p : Packet) : Prop := p.mark &&& 0x0c00 = 0x0800

instance (p : Packet) : Decidable (TeamInternal p) :=
  inferInstanceAs (Decidable (p.mark &&& 0x0c00 = 0x0800))

/-- The vulnbox of a team id from 1 to the highest id plus one. -/
def IsVulnbox (net : Network) (address : Address) : Prop :=
  ∃ team, 1 ≤ team ∧ team ≤ net.maxId + 1 ∧ address = net.config.teamIdToVulnboxIp team

/-- The packet goes from the range of a team to the game servers, or back. -/
def Exchanged (net : Network) (team : ℕ) (p : Packet) : Prop :=
  ((net.config.teamIdToNetworkRange team).contains p.src ∧
    net.config.gameserverRange.contains p.dst) ∨
    (net.config.gameserverRange.contains p.src ∧
      (net.config.teamIdToNetworkRange team).contains p.dst)

/-- The packet enters or leaves through an interface of the team. -/
def Through (team : ℕ) (p : Packet) : Prop :=
  p.inIface ∈ interfaces team ∨ p.outIface ∈ interfaces team

instance (team : ℕ) (p : Packet) : Decidable (Through team p) :=
  inferInstanceAs (Decidable (p.inIface ∈ interfaces team ∨ p.outIface ∈ interfaces team))

/-- The rules of the network state return the packet because it is team-internal. -/
def OpenForTeams (net : Network) : NetworkState → Packet → Prop
  | .team, p => TeamInternal p
  | .teamNoVulnbox, p => TeamInternal p ∧ ¬ IsVulnbox net p.src ∧ ¬ IsVulnbox net p.dst
  | .on, _ => False
  | .off, _ => False

section Verdict

variable {net : Network} {p : Packet} {rule : Rule} {team : ℕ} {state : NetworkState} {m : Manager}

theorem contains_around (address address' : Address) :
    (Range.around address 32).contains address' = true ↔ address' = address := by
  simp [Range.around, Range.contains, Address.leading]

theorem noVulnboxRules_applies :
    (∃ rule, IsNoVulnboxRule net rule ∧ rule.applies p = true) ↔
      IsVulnbox net p.src ∨ IsVulnbox net p.dst := by
  simp only [IsNoVulnboxRule, noVulnboxRules, IsVulnbox, List.mem_cons, List.not_mem_nil, or_false]
  constructor
  · rintro ⟨rule, ⟨team, hone, hle, rfl | rfl⟩, happlies⟩
    · refine .inl ⟨team, hone, hle, (contains_around _ _).1 ?_⟩
      simpa [Rule.applies, Rule.always] using happlies
    · refine .inr ⟨team, hone, hle, (contains_around _ _).1 ?_⟩
      simpa [Rule.applies, Rule.always] using happlies
  · rintro (⟨team, hone, hle, heq⟩ | ⟨team, hone, hle, heq⟩)
    · refine ⟨_, ⟨team, hone, hle, .inl rfl⟩, ?_⟩
      simpa [Rule.applies, Rule.always] using (contains_around _ _).2 heq
    · refine ⟨_, ⟨team, hone, hle, .inr rfl⟩, ?_⟩
      simpa [Rule.applies, Rule.always] using (contains_around _ _).2 heq

theorem verdict_teamonly (p : Packet) :
    verdict [ruleNetteamonly, ruleNetclosed] p =
      if TeamInternal p then some .ret else some .reject := by
  have hinternal : ruleNetteamonly.applies p = true ↔ TeamInternal p := by
    simp [Rule.applies, Rule.always, ruleNetteamonly, TeamInternal]
  have hclosed : ruleNetclosed.applies p = true := by
    simp [Rule.applies, Rule.always, ruleNetclosed]
  by_cases h : TeamInternal p
  · rw [if_pos h, verdict, Chain.verdict, List.find?_cons, hinternal.2 h]
    rfl
  · rw [if_neg h, verdict, Chain.verdict, List.find?_cons, Bool.eq_false_iff.2 (mt hinternal.1 h),
      List.find?_cons, hclosed]
    rfl

/-- **What the rules of a network state decide**: in the state `on` nothing, in all other
states they return the team-internal packets they are open for and reject the rest. -/
theorem stateChain_verdict (net : Network) (state : NetworkState) (p : Packet) :
    (state = .on ∧ verdict (stateChain net state) p = none) ∨
      (OpenForTeams net state p ∧ verdict (stateChain net state) p = some .ret) ∨
      (state ≠ .on ∧ ¬ OpenForTeams net state p ∧
        verdict (stateChain net state) p = some .reject) := by
  cases state with
  | on => exact .inl ⟨rfl, rfl⟩
  | off => exact .inr (.inr ⟨by decide, not_false, rfl⟩)
  | team =>
    rw [stateChain_team, verdict_teamonly]
    by_cases h : TeamInternal p
    · exact .inr (.inl ⟨h, if_pos h⟩)
    · exact .inr (.inr ⟨by decide, h, if_neg h⟩)
  | teamNoVulnbox =>
    obtain ⟨a, b, ha, hb, heq⟩ :=
      (stateChain_teamNoVulnbox net).exists_verdict Rule.applies Rule.target p
    have htarget : ∀ rule ∈ a, rule.target = .reject := fun rule h => ((ha rule).1 h).target_eq
    by_cases hvulnbox : IsVulnbox net p.src ∨ IsVulnbox net p.dst
    · -- a rule against the vulnboxes applies
      obtain ⟨rule, hrule, happlies⟩ := noVulnboxRules_applies.2 hvulnbox
      have hfront : Chain.verdict Rule.applies Rule.target a p = some .reject :=
        (Chain.verdict_eq_some_iff htarget).2 ⟨rfl, rule, (ha rule).2 hrule, happlies⟩
      refine .inr (.inr ⟨by decide, fun hopen => ?_, ?_⟩)
      · exact hvulnbox.elim hopen.2.1 hopen.2.2
      · rw [verdict, heq, hfront]
        rfl
    · have hfront : ∀ rule ∈ {rule | IsNoVulnboxRule net rule}, rule.applies p = false := by
        intro rule hrule
        by_contra happlies
        exact hvulnbox (noVulnboxRules_applies.1 ⟨rule, hrule, by simpa using happlies⟩)
      obtain ⟨b, hb, heq⟩ := (stateChain_teamNoVulnbox net).verdict_of_front Rule.target hfront
      obtain rfl : b = [] := List.eq_nil_iff_forall_not_mem.2 fun r hr => (hb r).1 hr
      have hverdict : verdict (stateChain net .teamNoVulnbox) p =
          if TeamInternal p then some .ret else some .reject := by
        rw [verdict, heq, ← verdict_teamonly, verdict]
        simp [Chain.verdict]
      by_cases h : TeamInternal p
      · exact .inr (.inl ⟨⟨h, not_or.1 hvulnbox⟩, hverdict.trans (if_pos h)⟩)
      · exact .inr (.inr ⟨by decide, fun hopen => h hopen.1, hverdict.trans (if_neg h)⟩)

/-- The allow rules apply to what a team with a permission exchanges with the game servers. -/
theorem allowLayer_applies (h : ¬ ∃ team ∈ m.allowed, Exchanged net team p) :
    ∀ rule ∈ allowLayer net m.allowed, rule.applies p = false := by
  rintro rule ⟨team, hteam, hrule⟩
  by_contra happlies
  rw [Bool.not_eq_false] at happlies
  refine h ⟨team, hteam, ?_⟩
  rcases hrule with rfl | rfl
  · refine .inr ?_
    simpa [Rule.applies, Rule.always, allowIncoming] using happlies
  · refine .inl ?_
    simpa [Rule.applies, Rule.always, allowOutgoing] using happlies

/-- Without a permission, first the rules of the state decide and then the bans. -/
theorem Inv.verdict_eq (h : Inv net m) (hnot : ¬ ∃ team ∈ m.allowed, Exchanged net team p) :
    ∃ bans, (∀ rule, rule ∈ bans ↔ rule ∈ banLayer m.banned) ∧
      verdict m.chain p = (verdict (stateChain net m.state) p).or (verdict bans p) :=
  Chain.Layered.verdict_of_front Rule.target h (allowLayer_applies hnot)

/-- A ban rule applies to every packet through an interface of the team. -/
theorem rulesOfBan_applies (h : Through team p) :
    ∃ rule ∈ rulesOfBan team, rule.applies p = true := by
  rcases h with h | h
  · refine ⟨banIncoming team p.inIface, mem_rulesOfBan.2 ⟨p.inIface, h, .inl rfl⟩, ?_⟩
    simp [Rule.applies, Rule.always, banIncoming]
  · refine ⟨banOutgoing team p.outIface, mem_rulesOfBan.2 ⟨p.outIface, h, .inr rfl⟩, ?_⟩
    simp [Rule.applies, Rule.always, banOutgoing]

end Verdict

/-- **Firewall updates are confluent.**  After any calls the chain gives every packet the
verdict of a chain that is set up anew with the state, the banned and the allowed teams of
then.  A packet that no team with a permission exchanges with the game servers passes only
if the network is on, or open for teams and the packet is team-internal, without vulnboxes
in the state `team-no-vulnbox`. -/
theorem firewall_confluent (net : Network) (order : SetOrder) (state : NetworkState)
    (banned allowed : Finset ℕ) (es : List Event) :
    let m := Machine.exec (step net) (initFirewall net order state banned allowed) es
    (∀ order' p, verdict m.chain p =
      verdict (initFirewall net order' m.state m.banned m.allowed).chain p) ∧
    ∀ p, (¬ ∃ team ∈ m.allowed, Exchanged net team p) → Passes m.chain p →
      m.state = .on ∨
        ((m.state = .team ∨ m.state = .teamNoVulnbox) ∧ TeamInternal p ∧
          (m.state = .teamNoVulnbox → ¬ IsVulnbox net p.src ∧ ¬ IsVulnbox net p.dst)) := by
  intro m
  have hinv : Inv net m := inv_exec (inv_init order state banned allowed) es
  constructor
  · intro order' p
    have hnew : Inv net (initFirewall net order' m.state m.banned m.allowed) := inv_init _ _ _ _
    exact Chain.Layered.verdict_eq hinv hnew (fun r hr => target_of_mem_allowLayer hr)
      fun r hr => target_of_mem_banLayer hr
  · intro p hnot hpasses
    obtain ⟨bans, -, hverdict⟩ := hinv.verdict_eq hnot
    rcases stateChain_verdict net m.state p with ⟨hon, -⟩ | ⟨hopen, -⟩ | ⟨-, -, hreject⟩
    · exact .inl hon
    · refine .inr ?_
      cases hstate : m.state with
      | on => rw [hstate] at hopen; exact hopen.elim
      | off => rw [hstate] at hopen; exact hopen.elim
      | team =>
        rw [hstate] at hopen
        exact ⟨.inl rfl, hopen, by simp⟩
      | teamNoVulnbox =>
        rw [hstate] at hopen
        exact ⟨.inr rfl, hopen.1, fun _ => hopen.2⟩
    · rw [hreject, Option.some_or] at hverdict
      rcases hpasses with h | h <;> simp [hverdict] at h

/-- The addresses of the sample configuration, and one team. -/
def sampleNetwork : Network where
  config :=
    { vulnboxIp := [⟨Nat.succPNat 0, Nat.succPNat 0, 127⟩, ⟨Nat.succPNat 199, Nat.succPNat 255, 0⟩,
        ⟨Nat.succPNat 0, Nat.succPNat 199, 0⟩, ⟨Nat.succPNat 0, Nat.succPNat 0, 2⟩]
      networkIp := [⟨Nat.succPNat 0, Nat.succPNat 0, 127⟩, ⟨Nat.succPNat 199, Nat.succPNat 255, 0⟩,
        ⟨Nat.succPNat 0, Nat.succPNat 199, 0⟩, ⟨Nat.succPNat 0, Nat.succPNat 0, 0⟩]
      networkSize := 24
      networkSize_mem := by decide
      gameserverRange := .around (.ofOctets [10, 32, 250, 0]) 24 }
  teams := {1}
  teams_nonempty := Finset.singleton_nonempty 1

/-- A packet from the members of team 1 to its vulnbox. -/
def samplePacket (mark : BitVec 32) : Packet :=
  ⟨"tun1001", "tun2001", .ofOctets [127, 0, 1, 9], .ofOctets [127, 0, 1, 2], mark⟩

/-- An open network: the packet passes, and the chain is the one of a new start. -/
theorem firewall_confluent_on :
    let m := Machine.exec (step sampleNetwork) (initFirewall sampleNetwork .ascending .team ∅ ∅)
      [.updateState .on .ascending]
    Passes m.chain (samplePacket 0x0a01) ∧
      verdict m.chain (samplePacket 0x0a01) = verdict (initFirewall sampleNetwork .ascending m.state
        m.banned m.allowed).chain (samplePacket 0x0a01) ∧ m.state = .on := by
  intro m
  obtain ⟨hsame, hpasses⟩ := firewall_confluent sampleNetwork .ascending .team ∅ ∅
    [.updateState .on .ascending]
  have hnot : ¬ ∃ team ∈ m.allowed, Exchanged sampleNetwork team (samplePacket 0x0a01) := by
    rintro ⟨team, hteam, -⟩
    exact absurd hteam (Finset.notMem_empty team)
  have hchain : m.chain = [] := by
    simp [m, step, rewriteChain, initFirewall, stateChain, SetOrder.ascending]
  have hpass : Passes m.chain (samplePacket 0x0a01) := by
    rw [hchain]
    exact .inr rfl
  refine ⟨hpass, hsame .ascending _, ?_⟩
  rcases hpasses _ hnot hpass with hon | ⟨hteam, -⟩
  · exact hon
  · exact absurd hteam (by decide)

/-- **A banned team is blocked**, up to the rules that come before the bans: a packet
through an interface of a banned team is dropped or rejected, unless a team with a
permission exchanges it with the game servers, or the network is open for teams and the
packet is team-internal. -/
theorem banned_team_blocked (net : Network) (order : SetOrder) (state : NetworkState)
    (banned allowed : Finset ℕ) (es : List Event) (team : ℕ) (p : Packet) :
    let m := Machine.exec (step net) (initFirewall net order state banned allowed) es
    team ∈ m.banned → Through team p → (¬ ∃ team' ∈ m.allowed, Exchanged net team' p) →
      ¬ OpenForTeams net m.state p →
      verdict m.chain p = some .drop ∨ verdict m.chain p = some .reject := by
  intro m hbanned hthrough hnot hopen
  have hinv : Inv net m := inv_exec (inv_init order state banned allowed) es
  obtain ⟨bans, hbans, hverdict⟩ := hinv.verdict_eq hnot
  rcases stateChain_verdict net m.state p with ⟨-, hnone⟩ | ⟨hopen', -⟩ | ⟨-, -, hreject⟩
  · -- the network is on: the packet reaches the bans
    obtain ⟨rule, hrule, happlies⟩ := rulesOfBan_applies hthrough
    have hdrop : verdict bans p = some .drop :=
      (Chain.verdict_eq_some_iff fun r hr => target_of_mem_banLayer ((hbans r).1 hr)).2
        ⟨rfl, rule, (hbans rule).2 ⟨team, hbanned, hrule⟩, happlies⟩
    rw [hnone, Option.none_or, hdrop] at hverdict
    exact .inl hverdict
  · exact absurd hopen' hopen
  · rw [hreject, Option.some_or] at hverdict
    exact .inr hverdict

/-- The network is opened, team 1 is banned: its packets are dropped. -/
theorem banned_team_blocked_on :
    let m := Machine.exec (step sampleNetwork) (initFirewall sampleNetwork .ascending .off ∅ ∅)
      [.updateState .on .ascending, .banTeam 1]
    verdict m.chain (samplePacket 0x0a01) = some .drop ∨
      verdict m.chain (samplePacket 0x0a01) = some .reject :=
  banned_team_blocked sampleNetwork .ascending .off ∅ ∅
    [.updateState .on .ascending, .banTeam 1] 1 (samplePacket 0x0a01) (by decide) (by decide)
    (by rintro ⟨team, hteam, -⟩; exact absurd hteam (Finset.notMem_empty team)) id

/-- The network is open for teams, team 1 is banned: its internal packets are returned. -/
theorem banned_team_passes_internally :
    let m := Machine.exec (step sampleNetwork) (initFirewall sampleNetwork .ascending .team ∅ ∅)
      [.banTeam 1]
    1 ∈ m.banned ∧ Through 1 (samplePacket 0x0a01) ∧
      verdict m.chain (samplePacket 0x0a01) = some .ret := by
  intro m
  have hinv : Inv sampleNetwork m := inv_exec (inv_init _ _ _ _) _
  refine ⟨by decide, by decide, ?_⟩
  obtain ⟨bans, -, hverdict⟩ := hinv.verdict_eq (p := samplePacket 0x0a01)
    (by rintro ⟨team, hteam, -⟩; exact absurd hteam (Finset.notMem_empty team))
  have hteam : m.state = .team := rfl
  rw [hverdict, hteam, stateChain_team, verdict_teamonly, if_pos (by decide)]
  rfl

end Gameserver.Firewall
