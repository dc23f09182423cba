import Gameserver.Lib.Machine
import Gameserver.Traffic.Counters

/-!
# Traffic counters are conserved

User space subtracts what a team has sent to teams from what it has sent in total.  The two
are counted by different programs at different times, so the difference depends on the
packets between them.

* `pending` — what the egress of a packet will count for a team.
* `slack` — the ingress total of a team less its forwarded traffic and its pending packets;
  `slack_step`: no event makes it smaller.
* `traffic_conserved` — the corrected values are never negative, and when no packet is on its
  way no value is smaller than it was before.
-/

namespace Gameserver.Traffic

open Machine

/-! ## Team ids and marks -/

/-- The results of `get_ip_range`. -/
theorem getIpRange_mem (a : BitVec 32) :
    getIpRange a = -1 ∨ ∃ k : ℕ, getIpRange a = k ∧ k ≤ 400 := by
  unfold getIpRange
  dsimp only
  generalize ((a >>> 8) &&& 0xff).toNat = x
  generalize ((a >>> 16) &&& 0xff).toNat = y
  generalize hx : (if 48 ≤ x then x - 16 else x) = x'
  split_ifs with h₁ h₂ h₃ h₄
  · exact Or.inr ⟨0, rfl, by omega⟩
  · exact Or.inr ⟨0, rfl, by omega⟩
  · exact Or.inl rfl
  · refine Or.inr ⟨(x' - 32) * 200 + y, ?_, by omega⟩
    push_cast
    omega
  · exact Or.inr ⟨0, rfl, by omega⟩

theorem toNat_ofNat_of_le {k : ℕ} (hk : k ≤ 400) : (BitVec.ofNat 32 k).toNat = k := by
  rw [BitVec.toNat_ofNat, Nat.mod_eq_of_lt (by omega)]

/-- The marks of a connection leave the lower ten bits alone. -/
theorem markSkbAdvanced_low (ports : ServicePorts) (mark : BitVec 32) (h : Headers)
    (teamId : BitVec 32) : markSkbAdvanced ports mark h teamId &&& 0x3ff = mark &&& 0x3ff := by
  unfold markSkbAdvanced maskPerConnection
  generalize trafficClass h.daddr teamId = tc
  generalize getService ports h.protocol h.port = service
  ext i hi
  interval_cases i <;> simp

theorem markSkbBasic_zero (teamId : BitVec 32) : markSkbBasic 0 teamId = 0x200 ||| teamId := by
  simp [markSkbBasic]

/-- The processed bit and the team are in the lower ten bits. -/
theorem mark_congr {mark mark' : BitVec 32} (h : mark &&& 0x3ff = mark' &&& 0x3ff) :
    processed mark = processed mark' ∧ teamOfMark mark = teamOfMark mark' := by
  have hbits : ∀ m : BitVec 32, m &&& maskProcessedBit = (m &&& 0x3ff) &&& maskProcessedBit ∧
      m &&& maskTeamId = (m &&& 0x3ff) &&& maskTeamId := by
    intro m
    rw [BitVec.and_assoc, BitVec.and_assoc]
    exact ⟨rfl, rfl⟩
  constructor
  · rw [processed, processed, (hbits mark).1, (hbits mark').1, h]
  · rw [teamOfMark, teamOfMark, (hbits mark).2, (hbits mark').2, h]

/-- The mark of a team id: the team id is read back from it. -/
theorem teamOfMark_basic (a : BitVec 32) {k : ℕ} (hk : k ≤ 400) :
    teamOfMark (markSkbBasic 0 (BitVec.ofInt 32 (getIpRange a))) = BitVec.ofNat 32 k ↔
      getIpRange a = k := by
  rw [markSkbBasic_zero]
  rcases getIpRange_mem a with ha | ⟨k', ha, hk'⟩
  · rw [ha]
    have hteam : teamOfMark (0x200 ||| BitVec.ofInt 32 (-1)) = BitVec.ofNat 32 511 := by decide
    rw [hteam]
    constructor
    · intro h
      have := congrArg BitVec.toNat h
      rw [toNat_ofNat_of_le hk] at this
      exact absurd this (by simp; omega)
    · intro h
      omega
  · have hteam : teamOfMark (0x200 ||| BitVec.ofNat 32 k') = BitVec.ofNat 32 k' := by
      apply BitVec.eq_of_toNat_eq
      have hlow : (0x200 ||| BitVec.ofNat 32 k') &&& maskTeamId = BitVec.ofNat 32 k' &&& 0x1ff := by
        ext i hi
        interval_cases i <;> simp [maskTeamId]
      rw [teamOfMark, hlow, BitVec.toNat_and, toNat_ofNat_of_le hk']
      show k' &&& (2 ^ 9 - 1) = k'
      rw [Nat.and_two_pow_sub_one_eq_mod]
      omega
    rw [ha, BitVec.ofInt_natCast, hteam, Nat.cast_inj]
    constructor
    · intro h
      have := congrArg BitVec.toNat h
      rwa [toNat_ofNat_of_le hk, toNat_ofNat_of_le hk'] at this
    · rintro rfl
      rfl

theorem processed_markSkbBasic (mark teamId : BitVec 32) :
    processed (markSkbBasic mark teamId) = true := by
  have hbit : (markSkbBasic mark teamId &&& maskProcessedBit).getLsbD 9 = true := by
    simp [markSkbBasic, maskPerPacket, maskProcessedBit]
  rw [processed, decide_eq_true_iff]
  intro h
  rw [h] at hbit
  simp at hbit

theorem handleIngress_low (ports : ServicePorts) (h : Headers) (mark : BitVec 32)
    (map : CountingMap) : (handleIngress ports h mark map).1 &&& 0x3ff =
      markSkbBasic mark (BitVec.ofInt 32 (getIpRange h.saddr)) &&& 0x3ff := by
  unfold handleIngress
  dsimp only
  split
  · exact markSkbAdvanced_low ..
  · rfl

/-- **A packet leaves its ingress with the team it came from.** -/
theorem mark_of_ingress (ports : ServicePorts) (h : Headers) (map : CountingMap) :
    processed (handleIngress ports h 0 map).1 = true ∧
      ∀ {k : ℕ}, k ≤ 400 →
        (teamOfMark (handleIngress ports h 0 map).1 = BitVec.ofNat 32 k ↔
          getIpRange h.saddr = k) := by
  obtain ⟨hp, ht⟩ := mark_congr (handleIngress_low ports h 0 map)
  refine ⟨hp.trans (processed_markSkbBasic ..), fun hk => ?_⟩
  rw [ht]
  exact teamOfMark_basic _ hk

/-! ## What the programs count -/

theorem add_of_slot_ne (map : CountingMap) (key : BitVec 32) {slot s : Fin 5} (amount : Counters)
    (k : ℕ) (h : s ≠ slot) : map.add key slot amount k s = map k s :=
  if_neg fun hand => h hand.2.2

theorem add_of_slot (map : CountingMap) (key : BitVec 32) (slot : Fin 5) (amount : Counters)
    {k : ℕ} (hk : k ≤ 400) :
    map.add key slot amount k slot =
      map k slot + if key = BitVec.ofNat 32 k then amount else 0 := by
  have hkey : (k = key.toNat ∧ k ≤ maxTeamCount ∧ slot = slot) ↔ key = BitVec.ofNat 32 k := by
    constructor
    · rintro ⟨rfl, -, -⟩
      simp
    · rintro rfl
      exact ⟨(toNat_ofNat_of_le hk).symm, by rw [maxTeamCount]; omega, rfl⟩
  unfold CountingMap.add
  rw [if_congr hkey rfl rfl]
  split <;> simp

theorem le_add (map : CountingMap) (key : BitVec 32) (slot : Fin 5) (amount : Counters) (k : ℕ)
    (s : Fin 5) : map k s ≤ map.add key slot amount k s := by
  unfold CountingMap.add
  split
  · exact le_self_add
  · exact le_rfl

/-- At its ingress a packet counts in total what its egress will count as forwarded. -/
theorem ingress_spec (ports : ServicePorts) {skb : SkBuff} (hmark : skb.mark = 0)
    (map : CountingMap) {k : ℕ} (hk : k ≤ 400) :
    (ingress ports skb map).2 k 2 = map k 2 + pending k (ingress ports skb map).1 ∧
      (ingress ports skb map).2 k 3 = map k 3 ∧ (ingress ports skb map).2 k 4 = map k 4 := by
  unfold ingress
  cases hh : skb.headers with
  | none => simp [pending, hh]
  | some h =>
    obtain ⟨hprocessed, hteam⟩ := mark_of_ingress ports h map
    have hpending : pending k { skb with mark := (handleIngress ports h skb.mark map).1 } =
        if BitVec.ofInt 32 (getIpRange h.saddr) = BitVec.ofNat 32 k then h.amount else 0 := by
      have hheaders : SkBuff.headers { skb with mark := (handleIngress ports h skb.mark map).1 } =
          some h := hh
      unfold pending
      simp only [hheaders]
      rw [hmark]
      refine if_congr ?_ rfl rfl
      rw [hteam hk]
      constructor
      · rintro ⟨-, heq⟩
        rw [heq, BitVec.ofInt_natCast]
      · intro heq
        refine ⟨hprocessed, ?_⟩
        rcases getIpRange_mem h.saddr with ha | ⟨k', ha, hk'⟩
        · have := congrArg BitVec.toNat heq
          rw [ha, toNat_ofNat_of_le hk] at this
          exact absurd this (by simp; omega)
        · have := congrArg BitVec.toNat heq
          rw [ha, BitVec.ofInt_natCast, toNat_ofNat_of_le hk, toNat_ofNat_of_le hk'] at this
          rw [ha, this]
    refine ⟨?_, add_of_slot_ne _ _ _ _ (by decide), add_of_slot_ne _ _ _ _ (by decide)⟩
    dsimp only
    rw [hpending]
    exact add_of_slot _ _ _ _ hk

/-- At its egress a packet counts as forwarded what was pending, and nothing in total. -/
theorem egress_spec (skb : SkBuff) (map : CountingMap) {k : ℕ} (hk : k ≤ 400) :
    egress skb map k 2 = map k 2 ∧
      egress skb map k 3 + egress skb map k 4 = map k 3 + map k 4 + pending k skb := by
  unfold egress pending
  cases hh : skb.headers with
  | none => simp
  | some h =>
    simp only
    unfold handleEgress isSelfForward
    by_cases hp : processed skb.mark = true
    · by_cases hself : BitVec.ofInt 32 (getIpRange h.daddr) = teamOfMark skb.mark
      · -- forwarded to the team itself
        have h2 : map.add (teamOfMark skb.mark) 4 h.amount k 2 = map k 2 :=
          add_of_slot_ne _ _ _ _ (by decide)
        have h3 : map.add (teamOfMark skb.mark) 4 h.amount k 3 = map k 3 :=
          add_of_slot_ne _ _ _ _ (by decide)
        have h4 := add_of_slot map (teamOfMark skb.mark) 4 h.amount hk
        simp only [hp, hself, and_self, decide_true, if_true, not_true_eq_false, and_false,
          if_false,
          true_and]
        exact ⟨h2, by rw [h3, h4, add_assoc]⟩
      · -- forwarded to another team, or to no team at all
        set map' := map.add (BitVec.ofInt 32 (getIpRange h.daddr)) 1 h.amount with hmap'
        have hslot : ∀ s : Fin 5, s ≠ 1 → map' k s = map k s := fun s hs =>
          add_of_slot_ne _ _ _ _ hs
        have h2 : map'.add (teamOfMark skb.mark) 3 h.amount k 2 = map' k 2 :=
          add_of_slot_ne _ _ _ _ (by decide)
        have h4 : map'.add (teamOfMark skb.mark) 3 h.amount k 4 = map' k 4 :=
          add_of_slot_ne _ _ _ _ (by decide)
        have h3 := add_of_slot map' (teamOfMark skb.mark) 3 h.amount hk
        simp only [hp, hself, and_false, decide_false, if_true, not_false_eq_true, and_self,
          true_and,
          Bool.false_eq_true, if_false, ← hmap']
        refine ⟨h2.trans (hslot 2 (by decide)), ?_⟩
        rw [h3, h4, hslot 3 (by decide), hslot 4 (by decide), add_right_comm]
    · -- without a mark nothing is forwarded traffic
      have hslot : ∀ s : Fin 5, s ≠ 0 →
          map.add (BitVec.ofInt 32 (getIpRange h.daddr)) 0 h.amount k s = map k s :=
        fun s hs => add_of_slot_ne _ _ _ _ hs
      simp only [hp, false_and, decide_false, Bool.false_eq_true, if_false, add_zero]
      exact ⟨hslot 2 (by decide), by rw [hslot 3 (by decide), hslot 4 (by decide)]⟩

/-! ## Runs -/

/-- Taking a packet out takes its amount out. -/
theorem sum_eraseIdx {inside : List SkBuff} {i : ℕ} {p : SkBuff} (hp : inside[i]? = some p)
    (k : ℕ) :
    (inside.map (pending k)).sum = pending k p + ((inside.eraseIdx i).map (pending k)).sum := by
  obtain ⟨hi, rfl⟩ := List.getElem?_eq_some_iff.1 hp
  have hperm := (List.getElem_cons_eraseIdx_perm hi).map (pending k)
  rw [← hperm.sum_eq, List.map_cons, List.sum_cons]

/-- **No event makes the slack smaller.** -/
theorem Vpn.slack_step {v : Vpn} {e : Event} (hok : v.Allowed e) {k : ℕ} (hk : k ≤ 400)
    (kind : Kind) :
    v.slack k kind ≤ (v.step e).slack k kind := by
  cases e with
  | ingress ports skb =>
    obtain ⟨h2, h3, h4⟩ := ingress_spec ports hok v.map hk
    have hpending : (v.step (.ingress ports skb)).pendingInside k =
        v.pendingInside k + pending k (Traffic.ingress ports skb v.map).1 := by
      simp [Vpn.pendingInside, Vpn.step]
    have h2' := congrFun h2 kind
    unfold slack
    rw [hpending]
    simp only [Vpn.step, h2, h3, h4, Pi.add_apply]
    omega
  | egress i skb =>
    obtain ⟨p, hp, hmark, hheaders⟩ := hok
    obtain ⟨h2, h34⟩ := egress_spec skb v.map hk
    have hsame : pending k skb = pending k p := by rw [pending, pending, hmark, hheaders]
    have hsum := congrFun (sum_eraseIdx hp k) kind
    have h34' := congrFun h34 kind
    rw [hsame] at h34'
    unfold slack pendingInside
    simp only [Vpn.step, h2, Pi.add_apply] at hsum h34' ⊢
    omega
  | drop i =>
    obtain ⟨p, hp⟩ : ∃ p, v.inside[i]? = some p := ⟨_, List.getElem?_eq_getElem hok⟩
    have hsum := congrFun (sum_eraseIdx hp k) kind
    unfold slack pendingInside
    simp only [Vpn.step, Pi.add_apply] at hsum ⊢
    omega

theorem ingress_le (ports : ServicePorts) (skb : SkBuff) (map : CountingMap) (k : ℕ) (s : Fin 5) :
    map k s ≤ (ingress ports skb map).2 k s := by
  unfold ingress
  cases skb.headers with
  | none => exact le_rfl
  | some h => exact le_add map _ _ _ k s

theorem egress_le (skb : SkBuff) (map : CountingMap) (k : ℕ) (s : Fin 5) :
    map k s ≤ egress skb map k s := by
  unfold egress
  cases skb.headers with
  | none => exact le_rfl
  | some h =>
    show map k s ≤ handleEgress h skb.mark map k s
    unfold handleEgress
    generalize (if isSelfForward h skb.mark then 4 else if processed skb.mark then 1
      else 0 : Fin 5) = slot
    have hfirst := le_add map (BitVec.ofInt 32 (getIpRange h.daddr)) slot h.amount k s
    split
    · exact hfirst.trans (le_add _ _ _ _ k s)
    · exact hfirst

/-- No event makes a counter smaller. -/
theorem Vpn.map_le_step (v : Vpn) (e : Event) (k : ℕ) (s : Fin 5) :
    v.map k s ≤ (v.step e).map k s := by
  cases e with
  | ingress ports skb => exact ingress_le ports skb v.map k s
  | egress i skb => exact egress_le skb v.map k s
  | drop i => exact le_rfl

theorem map_le_exec (v : Vpn) (es : List Event) (k : ℕ) (s : Fin 5) :
    v.map k s ≤ (exec Vpn.step v es).map k s := by
  induction es generalizing v with
  | nil => exact le_rfl
  | cons e es ih => exact (v.map_le_step e k s).trans (ih _)

theorem slack_le_exec {v : Vpn} {es : List Event} (hok : Along Vpn.step Vpn.Allowed v es) {k : ℕ}
    (hk : k ≤ 400) (kind : Kind) : v.slack k kind ≤ (exec Vpn.step v es).slack k kind :=
  have hstep : ∀ w e, v.slack k kind ≤ w.slack k kind → Vpn.Allowed w e →
      v.slack k kind ≤ (Vpn.step w e).slack k kind := fun _ _ h hc =>
    h.trans (Vpn.slack_step hc hk kind)
  hok.invariant hstep le_rfl

/-! ## What user space reads -/

/-- The places of the 20 values. -/
def places : List (Fin 5 × Kind) := (List.finRange 5).flatMap fun slot => Kind.all.map (slot, ·)

/-- What is read for the entry `stats`. -/
def StatsForTeam.values (stats : StatsForTeam) : List ℤ :=
  places.map fun place => stats.value place.1 place.2

/-- Only team ids have an entry, of all results of `get_ip_range`. -/
theorem lookup_getIpRange {map : CountingMap} {a : BitVec 32} {stats : StatsForTeam}
    (h : map.lookup (BitVec.ofInt 32 (getIpRange a)) = some stats) :
    ∃ k : ℕ, k ≤ 400 ∧ getIpRange a = k ∧ stats = map k := by
  rcases getIpRange_mem a with ha | ⟨k, ha, hk⟩
  · rw [ha, CountingMap.lookup, if_neg (by decide)] at h
    cases h
  · rw [ha, BitVec.ofInt_natCast, CountingMap.lookup, toNat_ofNat_of_le hk] at h
    rw [if_pos (by rw [maxTeamCount]; omega)] at h
    exact ⟨k, hk, ha, (Option.some.inj h).symm⟩

theorem readTeamInfo_eq_ok {map : CountingMap} {a : BitVec 32} {info : ℤ × List ℤ}
    (h : readTeamInfo map (getIpRange a) = .ok info) :
    ∃ k : ℕ, k ≤ 400 ∧ getIpRange a = k ∧ info = (getIpRange a, StatsForTeam.values (map k)) := by
  unfold readTeamInfo at h
  cases hstats : map.lookup (BitVec.ofInt 32 (getIpRange a)) with
  | none => simp [hstats] at h
  | some stats =>
    obtain ⟨k, hk, ha, rfl⟩ := lookup_getIpRange hstats
    rw [hstats] at h
    exact ⟨k, hk, ha, (Except.ok.inj h).symm⟩

/-- If the teams can be read, these are their values. -/
theorem readTeamInfos_eq_ok {map : CountingMap} {teamIds : List ℤ}
    (hids : ∀ k ∈ teamIds, ∃ a, getIpRange a = k) {infos : List (ℤ × List ℤ)}
    (h : readTeamInfos map teamIds = .ok infos) :
    (∀ teamId ∈ teamIds, ∃ k : ℕ, k ≤ 400 ∧ teamId = k) ∧
      infos = teamIds.map fun teamId => (teamId, StatsForTeam.values (map teamId.toNat)) := by
  unfold readTeamInfos at h
  induction teamIds generalizing infos with
  | nil =>
    obtain rfl : [] = infos := Except.ok.inj h
    exact ⟨by simp, rfl⟩
  | cons teamId teamIds ih =>
    obtain ⟨a, rfl⟩ := hids teamId (by simp)
    rw [List.mapM_cons] at h
    cases hinfo : readTeamInfo map (getIpRange a) with
    | error e => rw [hinfo] at h; cases h
    | ok info =>
      cases hrest : teamIds.mapM (readTeamInfo map) with
      | error e => rw [hinfo, hrest] at h; cases h
      | ok rest =>
        rw [hinfo, hrest] at h
        obtain rfl : info :: rest = infos := Except.ok.inj h
        obtain ⟨k, hk, ha, rfl⟩ := readTeamInfo_eq_ok hinfo
        obtain ⟨hrange, rfl⟩ := ih (fun k hk => hids k (by simp [hk])) hrest
        refine ⟨?_, by simp [ha]⟩
        rintro teamId (_ | ⟨_, hmem⟩)
        · exact ⟨k, hk, ha⟩
        · exact hrange teamId hmem

/-- What the traffic counters of these teams promise after these events. -/
structure Conserved (teamIds : List ℤ) (es : List Event) : Prop where
  /-- The ingress total covers what was forwarded. -/
  total : ∀ k ∈ teamIds, ∀ stats,
    (exec Vpn.step .initial es).map.lookup (BitVec.ofInt 32 k) = some stats →
      ∀ kind, stats 3 kind + stats 4 kind ≤ stats 2 kind
  nonneg : ∀ infos, readTeamInfos (exec Vpn.step .initial es).map teamIds = .ok infos →
    ∀ info ∈ infos, ∀ value ∈ info.2, 0 ≤ value
  /-- From a point with no packet inside to another the values do not decrease. -/
  monotone : ∀ es₁ es₂, es = es₁ ++ es₂ →
    (exec Vpn.step .initial es₁).inside = [] → (exec Vpn.step .initial es).inside = [] →
    ∀ infos₁ infos₂, readTeamInfos (exec Vpn.step .initial es₁).map teamIds = .ok infos₁ →
      readTeamInfos (exec Vpn.step .initial es).map teamIds = .ok infos₂ →
      List.Forall₂ (fun info₁ info₂ => info₁.1 = info₂.1 ∧ List.Forall₂ (· ≤ ·) info₁.2 info₂.2)
        infos₁ infos₂

/-- The forwarded traffic of a team and what is pending are covered by its ingress total. -/
theorem slack_nonneg {es : List Event} (hok : Along Vpn.step Vpn.Allowed .initial es) {k : ℕ}
    (hk : k ≤ 400) (kind : Kind) : 0 ≤ (exec Vpn.step .initial es).slack k kind := by
  have hinitial : Vpn.initial.slack k kind = 0 := by
    simp [Vpn.slack, Vpn.initial, Vpn.pendingInside, CountingMap.empty]
  exact hinitial ▸ slack_le_exec hok hk kind

/-- The corrected ingress value is the slack and what is pending. -/
theorem Vpn.value_eq (v : Vpn) (k : ℕ) (kind : Kind) :
    StatsForTeam.value (v.map k) 2 kind = v.slack k kind + v.pendingInside k kind := by
  unfold StatsForTeam.value Vpn.slack
  rw [if_pos rfl]
  omega

theorem value_nonneg {es : List Event} (hok : Along Vpn.step Vpn.Allowed .initial es) {k : ℕ}
    (hk : k ≤ 400) (slot : Fin 5) (kind : Kind) :
    0 ≤ StatsForTeam.value ((exec Vpn.step .initial es).map k) slot kind := by
  by_cases hslot : slot = 2
  · rw [hslot, Vpn.value_eq]
    have := slack_nonneg hok hk kind
    omega
  · rw [StatsForTeam.value, if_neg hslot]
    omega

/-- With no packet inside, no value of a team is smaller than at such a point before. -/
theorem value_le {v : Vpn} {es : List Event} (hok : Along Vpn.step Vpn.Allowed v es) {k : ℕ}
    (hk : k ≤ 400) (hv : v.inside = []) (hw : (exec Vpn.step v es).inside = []) (slot : Fin 5)
    (kind : Kind) :
    StatsForTeam.value (v.map k) slot kind ≤
      StatsForTeam.value ((exec Vpn.step v es).map k) slot kind := by
  by_cases hslot : slot = 2
  · have hslack := slack_le_exec hok hk kind
    rw [hslot, Vpn.value_eq, Vpn.value_eq, Vpn.pendingInside, Vpn.pendingInside, hv, hw]
    simpa using hslack
  · rw [StatsForTeam.value, StatsForTeam.value, if_neg hslot, if_neg hslot]
    exact_mod_cast map_le_exec v es k slot kind

/-- **Traffic counters are conserved.**  For all team ids `get_ip_range` can return. -/
theorem traffic_conserved (teamIds : List ℤ) (hids : ∀ k ∈ teamIds, ∃ a, getIpRange a = k)
    (es : List Event) (hok : Along Vpn.step Vpn.Allowed .initial es) : Conserved teamIds es where
  total := by
    intro k hk stats hstats kind
    obtain ⟨a, rfl⟩ := hids k hk
    obtain ⟨k', hk', -, rfl⟩ := lookup_getIpRange hstats
    have := value_nonneg hok hk' 2 kind
    rw [StatsForTeam.value, if_pos rfl] at this
    omega
  nonneg := by
    intro infos hinfos info hmem value hvalue
    obtain ⟨hrange, rfl⟩ := readTeamInfos_eq_ok hids hinfos
    obtain ⟨teamId, hteam, rfl⟩ := List.mem_map.1 hmem
    obtain ⟨k, hk, rfl⟩ := hrange teamId hteam
    obtain ⟨place, -, rfl⟩ := List.mem_map.1 hvalue
    exact value_nonneg hok hk place.1 place.2
  monotone := by
    rintro es₁ es₂ rfl hquiet₁ hquiet₂ infos₁ infos₂ hinfos₁ hinfos₂
    obtain ⟨-, hok₂⟩ := along_append.1 hok
    obtain ⟨hrange, rfl⟩ := readTeamInfos_eq_ok hids hinfos₁
    obtain ⟨-, rfl⟩ := readTeamInfos_eq_ok hids hinfos₂
    rw [exec_append] at hquiet₂ ⊢
    rw [List.forall₂_map_left_iff, List.forall₂_map_right_iff, List.forall₂_same]
    intro teamId hteam
    obtain ⟨k, hk, rfl⟩ := hrange teamId hteam
    refine ⟨rfl, ?_⟩
    unfold StatsForTeam.values
    rw [List.forall₂_map_left_iff, List.forall₂_map_right_iff, List.forall₂_same]
    exact fun place _ => value_le hok₂ hk hquiet₁ hquiet₂ place.1 place.2

/-- A SYN from team 5 to team 7, received without Ethernet header. -/
def synPacket : SkBuff where
  data := [0x45, 0, 0, 41, 0, 0, 0, 0, 64, 6, 0, 0, 10, 32, 5, 2, 10, 32, 7, 2,
    0x9c, 0x40, 0x1f, 0x90, 0, 0, 0, 0, 0, 0, 0, 0, 0x50, 0x02, 0, 0, 0, 0, 0, 0, 0]
  len := 41
  protocol := 0x0800
  mark := 0

/-- The packet arrives twice; one copy is forwarded and the other one is dropped. -/
theorem traffic_conserved_syn :
    Conserved [5, 7] [.ingress ⟨.replicate 20 0, .replicate 20 0⟩ synPacket,
      .ingress ⟨.replicate 20 0, .replicate 20 0⟩ synPacket,
      .egress 0 (ingress ⟨.replicate 20 0, .replicate 20 0⟩ synPacket .empty).1, .drop 0] := by
  have hids : ∀ k ∈ [(5 : ℤ), 7], ∃ a, getIpRange a = k := by
    intro k hk
    rcases List.mem_pair.1 hk with rfl | rfl
    · exact ⟨synPacket.be32 12, by decide⟩
    · exact ⟨synPacket.be32 16, by decide⟩
  exact traffic_conserved [5, 7] hids _ ⟨rfl, rfl, ⟨_, rfl, rfl, rfl⟩, Nat.one_pos, trivial⟩

end Gameserver.Traffic
