import Gameserver.Network.Decode

/-!
# Two address patterns

The submission server looks an address up in two patterns, the ranges of the teams and the
addresses of their VPN peers, and takes the smaller positive answer of the second one.  Each
search ignores the constant octets, so it also answers for addresses of the other pattern.

* `FirstReached`, `Answers` — the least id that reaches the variable octets of an address.
* `LooksUp` — the lookup returns the team, for every address of every team.
* `Separated` — what that needs of the two patterns.
* `not_looksUp` — disjoint patterns are not enough.
* `looksUp_iff` — the lookup works exactly for patterns that are separated.
-/

namespace Gameserver.Network

open Firewall (Component)
open IntervalSearch

namespace IpSpec

variable (spec : IpSpec) (ip : Octets)

/-- The id is the least one that reaches the variable octets. -/
def FirstReached (id : ℕ) : Prop := spec.Reached ip id ∧ ∀ s < id, ¬ spec.Reached ip s

/-- The answer of a search that ends below `0xffff` or finds nothing. -/
def Answers (v : ℕ) : Prop :=
  (spec.FirstReached ip v ∧ v < 0xffff) ∨ ((∀ id, ¬ spec.Reached ip id) ∧ v = 0)

variable {spec ip}

theorem FirstReached.unique {s t : ℕ} (hs : spec.FirstReached ip s) (ht : spec.FirstReached ip t) :
    s = t := by
  rcases lt_trichotomy s t with hlt | heq | hlt
  · exact absurd hs.1 (ht.2 s hlt)
  · exact heq
  · exact absurd ht.1 (hs.2 t hlt)

theorem Answers.lt {v : ℕ} (h : spec.Answers ip v) : v < 0xffff := by
  rcases h with ⟨-, hlt⟩ | ⟨-, rfl⟩
  · exact hlt
  · norm_num

/-- A positive answer is the least id that reaches the octets. -/
theorem Answers.firstReached_iff {v id : ℕ} (h : spec.Answers ip v) (hid : 0 < id) :
    spec.FirstReached ip id ↔ v = id := by
  rcases h with ⟨hfirst, -⟩ | ⟨hnone, rfl⟩
  · constructor
    · exact hfirst.unique
    · rintro rfl
      exact hfirst
  · constructor
    · intro hfirst
      exact absurd hfirst.1 (hnone id)
    · intro heq
      omega

/-- Whether an answer is 0 or at least `t`. -/
theorem Answers.forall_iff {v t : ℕ} (h : spec.Answers ip v) :
    (∀ x, spec.FirstReached ip x → x = 0 ∨ t ≤ x) ↔ ¬ (0 < v ∧ v < t) := by
  constructor
  · rintro hall ⟨hpos, hlt⟩
    have := hall v ((h.firstReached_iff hpos).2 rfl)
    omega
  · intro hnot x hx
    by_cases hpos : 0 < x
    · have := (h.firstReached_iff hpos).1 hx
      omega
    · exact Or.inl (by omega)

theorem reached_iff {id : ℕ} : spec.Reached ip id ↔ Common (spec.cursors ip) id :=
  common_cursors_iff.symm

theorem InRange.reached {t : ℕ} (hip : spec.InRange t ip) : spec.Reached ip t :=
  reached_iff.2 hip.common

/-- Starts of searches for small numbers. -/
theorem startPos_bounds {component : Component} (hc : component.c ≤ 255)
    (ha : 256 * (component.a : ℕ) ≤ 2 ^ 30) (octet : UInt8) :
    -2 ^ 30 ≤ startPos component octet ∧ startPos component octet ≤ 2 ^ 30 := by
  have hd : (octet.toNat : ℤ) ≤ 255 := by
    have := octet.toNat_lt
    omega
  have ha' : 256 * (component.a : ℤ) ≤ 2 ^ 30 := by exact_mod_cast ha
  have hpos : (0 : ℤ) < component.a := by exact_mod_cast component.a.pos
  have hc' : (component.c : ℤ) ≤ 255 := by exact_mod_cast hc
  unfold startPos
  constructor
  · nlinarith
  · nlinarith

theorem Small.cursor_bounds (h : spec.Small) {c : Cursor} (hc : c ∈ spec.cursors ip) :
    -2 ^ 30 ≤ c.pos ∧ c.pos ≤ 2 ^ 30 ∧ (c.size : ℤ) ≤ c.period ∧ (c.size : ℤ) ≤ 2 ^ 29 ∧
      (c.period : ℤ) ≤ 2 ^ 29 := by
  obtain ⟨entry, hentry, rfl⟩ := List.mem_map.1 hc
  obtain ⟨i, hi, -, rfl⟩ := mem_searched.1 hentry
  obtain ⟨hlow, hhigh⟩ := startPos_bounds (h i).1 (h i).2.1 ip[i]
  have hperiod : (spec.components[i].a * spec.components[i].b : ℤ) ≤ 2 ^ 29 := by
    exact_mod_cast (h i).2.2
  have hsize : (spec.components[i].a : ℤ) ≤ spec.components[i].a * spec.components[i].b := by
    have hb : (1 : ℤ) ≤ spec.components[i].b := by exact_mod_cast spec.components[i].b.pos
    nlinarith [spec.components[i].a.pos]
  have hcast : ((spec.components[i].a * spec.components[i].b : ℕ+) : ℤ) =
      spec.components[i].a * spec.components[i].b := by push_cast; rfl
  refine ⟨hlow, hhigh, ?_, ?_, ?_⟩
  · show (spec.components[i].a : ℤ) ≤ ((spec.components[i].a * spec.components[i].b : ℕ+) : ℤ)
    rw [hcast]
    exact hsize
  · exact hsize.trans hperiod
  · show ((spec.components[i].a * spec.components[i].b : ℕ+) : ℤ) ≤ 2 ^ 29
    rw [hcast]
    exact hperiod

/-- **The search in a small pattern returns its answer**, for every address. -/
theorem Answers.getTeamIdFromIpSpec {v : ℕ} (h : spec.Answers ip v) (hsmall : spec.Small) :
    spec.getTeamIdFromIpSpec ip = some v.toUInt16 := by
  have hstart : ∀ entry ∈ spec.zip ip, IsInt (startPos entry.1 entry.2) := by
    intro entry hentry
    obtain ⟨i, rfl⟩ := mem_zip.1 hentry
    obtain ⟨hlow, hhigh⟩ := startPos_bounds (hsmall i).1 (hsmall i).2.1 ip[i]
    show -2 ^ 31 ≤ startPos spec.components[i] ip[i] ∧ startPos spec.components[i] ip[i] < 2 ^ 31
    omega
  rw [IpSpec.getTeamIdFromIpSpec, if_pos hstart]
  rcases h with ⟨⟨hreached, hleast⟩, hlt⟩ | ⟨hnone, rfl⟩
  · refine specLoop_eq (reached_iff.1 hreached) (by omega) (fun y hy hcommon => ?_) (by omega)
      fun c hc => ?_
    · obtain ⟨s, rfl⟩ := Int.eq_ofNat_of_zero_le hy
      by_contra hlt'
      exact hleast s (by omega) (reached_iff.2 hcommon)
    · obtain ⟨hlow, hhigh, hle, hsize, hperiod⟩ := hsmall.cursor_bounds hc
      exact ⟨by omega, by omega, by omega⟩
  · refine specLoop_eq_zero (2 ^ 30) (fun y hy hcommon => ?_) (by norm_num) fun c hc => ?_
    · obtain ⟨s, rfl⟩ := Int.eq_ofNat_of_zero_le hy
      exact hnone s (reached_iff.2 hcommon)
    · obtain ⟨hlow, hhigh, hle, hsize, hperiod⟩ := hsmall.cursor_bounds hc
      exact ⟨by omega, by omega, by omega, by omega, by omega⟩

end IpSpec

/-! ## The lookup -/

/-- The lookup in terms of the two answers. -/
theorem getTeamIdFromIp_eq {team vpn : IpSpec} {ip : Octets} {v₁ v₂ : ℕ} (h₁ : team.Answers ip v₁)
    (h₂ : vpn.Answers ip v₂) (hteam : team.Small) (hvpn : vpn.Small) :
    (getTeamIdFromIp team vpn ip).map UInt16.toNat =
      some (if 0 < v₂ ∧ v₂ < v₁ then v₂ else v₁) := by
  have hlt₁ := h₁.lt
  have hlt₂ := h₂.lt
  have htoNat : ∀ v < 0xffff, v.toUInt16.toNat = v := fun v hv =>
    UInt16.toNat_ofNat_of_lt (by norm_num [UInt16.size]; omega)
  unfold getTeamIdFromIp
  rw [h₁.getTeamIdFromIpSpec hteam, h₂.getTeamIdFromIpSpec hvpn]
  show some (UInt16.toNat (if 0 < v₂.toUInt16 ∧ v₂.toUInt16 < v₁.toUInt16 then _ else _)) = _
  have hcond : (0 < v₂.toUInt16 ∧ v₂.toUInt16 < v₁.toUInt16) ↔ (0 < v₂ ∧ v₂ < v₁) := by
    rw [UInt16.lt_iff_toNat_lt, UInt16.lt_iff_toNat_lt, htoNat _ hlt₁, htoNat _ hlt₂]
    rfl
  rw [if_congr hcond rfl rfl, apply_ite UInt16.toNat, htoNat _ hlt₁, htoNat _ hlt₂]

/-- The lookup returns the team, for its range and its VPN peer address. -/
def LooksUp (team vpn : IpSpec) (N : ℕ) : Prop :=
  ∀ t, 1 ≤ t → t ≤ N → ∀ ip, (team.InRange t ip ∨ vpn.InRange t ip) →
    (getTeamIdFromIp team vpn ip).map UInt16.toNat = some t

/-- The patterns name different teams by different addresses, and different addresses by
their two patterns. -/
structure Distinct (team vpn : IpSpec) (N : ℕ) : Prop where
  team_injective : ∀ s t, 1 ≤ s → s ≤ N → 1 ≤ t → t ≤ N → team.SameRange s t → s = t
  vpn_injective : ∀ s t, 1 ≤ s → s ≤ N → 1 ≤ t → t ≤ N → vpn.SameRange s t → s = t
  disjoint : ∀ s t, 1 ≤ s → s ≤ N → 1 ≤ t → t ≤ N → ∀ ip, ¬ (team.InRange s ip ∧ vpn.InRange t ip)

/-- Every search for an address of a team ends below `0xffff` or finds nothing. -/
def Answered (team vpn : IpSpec) (N : ℕ) : Prop :=
  ∀ t, 1 ≤ t → t ≤ N → ∀ ip, (team.InRange t ip ∨ vpn.InRange t ip) →
    (∃ v, team.Answers ip v) ∧ ∃ v, vpn.Answers ip v

/-- For the addresses of a team: no smaller id reaches the variable octets of its range, and
no smaller positive id those of the other pattern.  For its peer address: no smaller id
reaches the variable octets of the peers, and the first one to reach those of the ranges is a
larger id; or the team itself is the first one to reach those of the ranges. -/
structure Separated (team vpn : IpSpec) (N : ℕ) : Prop where
  range : ∀ t, 1 ≤ t → t ≤ N → ∀ ip, team.InRange t ip →
    team.FirstReached ip t ∧ ∀ x, vpn.FirstReached ip x → x = 0 ∨ t ≤ x
  peer : ∀ t, 1 ≤ t → t ≤ N → ∀ ip, vpn.InRange t ip →
    (vpn.FirstReached ip t ∧ ∃ x, team.FirstReached ip x ∧ t < x) ∨
      (team.FirstReached ip t ∧ ∀ x, vpn.FirstReached ip x → x = 0 ∨ t ≤ x)

/-- **The lookup works exactly for separated patterns.** -/
theorem looksUp_iff (team vpn : IpSpec) (N : ℕ) (hteam : team.Small) (hvpn : vpn.Small)
    (hanswered : Answered team vpn N) : LooksUp team vpn N ↔ Separated team vpn N := by
  have hrange : ∀ t, 1 ≤ t → t ≤ N → ∀ ip, team.InRange t ip →
      ((getTeamIdFromIp team vpn ip).map UInt16.toNat = some t ↔
        team.FirstReached ip t ∧ ∀ x, vpn.FirstReached ip x → x = 0 ∨ t ≤ x) := by
    intro t h1 hN ip hip
    obtain ⟨⟨v₁, h₁⟩, v₂, h₂⟩ := hanswered t h1 hN ip (Or.inl hip)
    rw [getTeamIdFromIp_eq h₁ h₂ hteam hvpn, h₁.firstReached_iff (by omega), h₂.forall_iff,
      Option.some_inj]
    -- the range is reached by the team, so the first answer is at most the team
    have hle : v₁ ≤ t := by
      rcases h₁ with ⟨⟨-, hleast⟩, -⟩ | ⟨hnone, -⟩
      · exact not_lt.1 fun hlt => hleast t hlt hip.reached
      · exact absurd hip.reached (hnone t)
    split_ifs <;> omega
  have hpeer : ∀ t, 1 ≤ t → t ≤ N → ∀ ip, vpn.InRange t ip →
      ((getTeamIdFromIp team vpn ip).map UInt16.toNat = some t ↔
        (vpn.FirstReached ip t ∧ ∃ x, team.FirstReached ip x ∧ t < x) ∨
          (team.FirstReached ip t ∧ ∀ x, vpn.FirstReached ip x → x = 0 ∨ t ≤ x)) := by
    intro t h1 hN ip hip
    obtain ⟨⟨v₁, h₁⟩, v₂, h₂⟩ := hanswered t h1 hN ip (Or.inr hip)
    have hlarger : (∃ x, team.FirstReached ip x ∧ t < x) ↔ t < v₁ := by
      constructor
      · rintro ⟨x, hx, hlt⟩
        rwa [(h₁.firstReached_iff (by omega)).1 hx]
      · intro hlt
        exact ⟨v₁, (h₁.firstReached_iff (by omega)).2 rfl, hlt⟩
    rw [getTeamIdFromIp_eq h₁ h₂ hteam hvpn, h₁.firstReached_iff (by omega),
      h₂.firstReached_iff (by omega), h₂.forall_iff, hlarger, Option.some_inj]
    split_ifs <;> omega
  constructor
  · intro h
    exact ⟨fun t h1 hN ip hip => (hrange t h1 hN ip hip).1 (h t h1 hN ip (Or.inl hip)),
      fun t h1 hN ip hip => (hpeer t h1 hN ip hip).1 (h t h1 hN ip (Or.inr hip))⟩
  · rintro ⟨h₁, h₂⟩ t h1 hN ip (hip | hip)
    · exact (hrange t h1 hN ip hip).2 (h₁ t h1 hN ip hip)
    · exact (hpeer t h1 hN ip hip).2 (h₂ t h1 hN ip hip)

/-! ## Patterns that are not separated -/

/-- Ranges `10.32.t.0/24`. -/
def exampleRange : IpSpec where
  components := #v[⟨Nat.succPNat 0, Nat.succPNat 0, 10⟩, ⟨Nat.succPNat 0, Nat.succPNat 0, 32⟩,
    ⟨Nat.succPNat 0, Nat.succPNat 199, 0⟩, ⟨Nat.succPNat 0, Nat.succPNat 0, 0⟩]
  size := 24
  size_mem := size_mem_24

/-- Peers `10.48.250.t`. -/
def examplePeers : IpSpec := .ofAddress
  #v[⟨Nat.succPNat 0, Nat.succPNat 0, 10⟩, ⟨Nat.succPNat 0, Nat.succPNat 0, 48⟩,
    ⟨Nat.succPNat 0, Nat.succPNat 0, 250⟩, ⟨Nat.succPNat 0, Nat.succPNat 199, 0⟩]

/-- With a single variable octet that counts the teams, a search answers with the octet. -/
theorem answers_octet {spec : IpSpec} {ip : Octets} {octet : UInt8}
    (h : ∀ id, spec.Reached ip id ↔ Reaches ⟨Nat.succPNat 0, Nat.succPNat 199, 0⟩ octet id) :
    spec.Answers ip octet.toNat := by
  have hlt := octet.toNat_lt
  refine Or.inl ⟨⟨(h _).2 ⟨0, by simp⟩, fun s hs hreached => ?_⟩, by omega⟩
  obtain ⟨k, hk⟩ := (h s).1 hreached
  simp at hk
  omega

theorem exampleRange_answers (ip : Octets) : exampleRange.Answers ip ip[2].toNat := by
  refine answers_octet fun id => ⟨fun h => h 2 (by decide) (by decide), fun h i hi hb => ?_⟩
  match i with
  | 0 => exact absurd hb (by decide)
  | 1 => exact absurd hb (by decide)
  | 2 => exact h
  | 3 => exact absurd hi (by decide)

theorem examplePeers_answers (ip : Octets) : examplePeers.Answers ip ip[3].toNat := by
  refine answers_octet fun id => ⟨fun h => h 3 (by decide) (by decide), fun h i hi hb => ?_⟩
  match i with
  | 0 => exact absurd hb (by decide)
  | 1 => exact absurd hb (by decide)
  | 2 => exact absurd hb (by decide)
  | 3 => exact h

/-- Peers `10.48.t.1`: the octet that varies is that of the ranges. -/
def pairedPeers : IpSpec := .ofAddress
  #v[⟨Nat.succPNat 0, Nat.succPNat 0, 10⟩, ⟨Nat.succPNat 0, Nat.succPNat 0, 48⟩,
    ⟨Nat.succPNat 0, Nat.succPNat 199, 0⟩, ⟨Nat.succPNat 0, Nat.succPNat 0, 1⟩]

theorem pairedPeers_answers (ip : Octets) : pairedPeers.Answers ip ip[2].toNat := by
  refine answers_octet fun id => ⟨fun h => h 2 (by decide) (by decide), fun h i hi hb => ?_⟩
  match i with
  | 0 => exact absurd hb (by decide)
  | 1 => exact absurd hb (by decide)
  | 2 => exact h
  | 3 => exact absurd hb (by decide)

/-- The lookup works if both patterns have the team in the same octet. -/
theorem looksUp_iff_example : LooksUp exampleRange pairedPeers 5 := by
  have hoctet : ∀ t, 1 ≤ t → t ≤ 5 → ∀ ip, (exampleRange.InRange t ip ∨ pairedPeers.InRange t ip) →
      ip[2].toNat = t := by
    intro t h1 h5 ip hip
    have hthird : ip[2].toNat = t % 200 := by
      rcases hip with hip | hip
      · simpa [exampleRange, Component.octet] using hip 2 (by decide)
      · simpa [pairedPeers, IpSpec.ofAddress, Component.octet] using hip 2 (by decide)
    omega
  have hfirst : ∀ t, 1 ≤ t → t ≤ 5 → ∀ ip, (exampleRange.InRange t ip ∨ pairedPeers.InRange t ip) →
      exampleRange.FirstReached ip t ∧ ∀ x, pairedPeers.FirstReached ip x → x = 0 ∨ t ≤ x := by
    intro t h1 h5 ip hip
    have ht := hoctet t h1 h5 ip hip
    refine ⟨((exampleRange_answers ip).firstReached_iff (by omega)).2 ht, ?_⟩
    exact (pairedPeers_answers ip).forall_iff.2 (by omega)
  exact (looksUp_iff exampleRange pairedPeers 5 (by decide) (by decide) fun _ _ _ ip _ =>
    ⟨⟨_, exampleRange_answers ip⟩, _, pairedPeers_answers ip⟩).2
      ⟨fun t h1 h5 ip hip => hfirst t h1 h5 ip (.inl hip),
        fun t h1 h5 ip hip => .inr (hfirst t h1 h5 ip (.inr hip))⟩

/-- **Distinct addresses are not enough.**  The address `10.32.5.3` is in the range of team 5,
but its last octet is that of the peer of team 3, and flags sent from it are credited to
team 3. -/
theorem not_looksUp :
    ¬ ∀ (team vpn : IpSpec) (N : ℕ), Distinct team vpn N → LooksUp team vpn N := by
  intro h
  have hdistinct : Distinct exampleRange examplePeers 5 := by
    refine ⟨?_, ?_, ?_⟩
    · intro s t _ hs _ ht hsame
      have := hsame 2 (by decide)
      simp [exampleRange, Component.octet] at this
      omega
    · intro s t _ hs _ ht hsame
      have := hsame 3 (by decide)
      simp [examplePeers, IpSpec.ofAddress, Component.octet] at this
      omega
    · rintro s t _ _ _ _ ip ⟨hteam, hvpn⟩
      have hteam' := hteam 1 (by decide)
      have hvpn' := hvpn 1 (by decide)
      rw [hvpn'] at hteam'
      simp [exampleRange, examplePeers, IpSpec.ofAddress, Component.octet] at hteam'
      omega
  have hlookup := h exampleRange examplePeers 5 hdistinct 5 (by norm_num) (by norm_num)
    #v[10, 32, 5, 3] (Or.inl (by decide))
  rw [getTeamIdFromIp_eq (exampleRange_answers _) (examplePeers_answers _) (by decide)
    (by decide)] at hlookup
  exact absurd hlookup (by decide)

end Gameserver.Network
