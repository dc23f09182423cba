import Gameserver.Network.IpSpec

/-!
# From a team to its addresses and back

* `Reaches` — what the search for one octet looks for: `id / a_i = d_i - c_i + k_i * b_i`.
* `hits_cursor_iff` — the runs of a cursor are the ids that reach its octet.
* `common_cursors_iff` — the search looks for the ids that reach all its octets.
* `ip_round_trip` — for every address of a team, both searches return the team.
-/

namespace Gameserver.Network

open Firewall (Component)
open IntervalSearch

/-! ## What is searched -/

/-- `id / a_i = d_i - c_i + k_i * b_i`. -/
def Reaches (component : Component) (octet : UInt8) (id : ℤ) : Prop :=
  ∃ k : ℕ, id / component.a = (octet.toNat : ℤ) - component.c + k * component.b

theorem hits_cursor_iff (component : Component) (octet : UInt8) (id : ℤ) :
    (cursor component octet).Hits id ↔ Reaches component octet id := by
  have ha : (0 : ℤ) < component.a := by exact_mod_cast component.a.pos
  refine exists_congr fun k => ?_
  have hstart : (cursor component octet).pos + k * (cursor component octet).period =
      ((octet.toNat : ℤ) - component.c + k * component.b) * component.a := by
    simp only [cursor, startPos, PNat.mul_coe]
    push_cast
    ring
  rw [hstart]
  show _ ∧ id < _ + (component.a : ℤ) ↔ _
  rw [Int.ediv_eq_iff_of_pos ha]

namespace IpSpec

variable {spec : IpSpec} {ip : Octets}

theorem mem_zip {entry : Component × UInt8} :
    entry ∈ spec.zip ip ↔ ∃ i : Fin 4, entry = (spec.components[i], ip[i]) := by
  rw [zip, List.mem_iff_getElem]
  constructor
  · rintro ⟨i, hi, rfl⟩
    have hi' : i < 4 := by simpa using hi
    exact ⟨⟨i, hi'⟩, by simp⟩
  · rintro ⟨i, rfl⟩
    exact ⟨i, by simp, by simp⟩

theorem mem_searched {entry : Component × UInt8} :
    entry ∈ spec.searched ip ↔ ∃ i : Fin 4, (i : ℕ) < spec.size / 8 ∧
      1 < (spec.components[i].b : ℕ) ∧ entry = (spec.components[i], ip[i]) := by
  rw [searched, List.mem_filter, List.mem_take_iff_getElem]
  constructor
  · rintro ⟨⟨i, hi, rfl⟩, hb⟩
    have hi' : i < 4 := by
      have := lt_min_iff.1 hi
      simpa [zip] using this.2
    refine ⟨⟨i, hi'⟩, (lt_min_iff.1 hi).1, ?_, by simp [zip]⟩
    simpa [zip] using hb
  · rintro ⟨i, hi, hb, rfl⟩
    exact ⟨⟨i, lt_min_iff.2 ⟨hi, by simp [zip]⟩, by simp [zip]⟩, by simpa using hb⟩

/-- The ids the search looks for. -/
theorem common_cursors_iff {id : ℤ} :
    Common (spec.cursors ip) id ↔ ∀ i : Fin 4, (i : ℕ) < spec.size / 8 →
      1 < (spec.components[i].b : ℕ) → Reaches spec.components[i] ip[i] id := by
  unfold Common cursors
  rw [List.forall_mem_map]
  constructor
  · intro h i hi hb
    exact (hits_cursor_iff spec.components[i] ip[i] id).1
      (h (spec.components[i], ip[i]) (mem_searched.2 ⟨i, hi, hb, rfl⟩))
  · intro h entry hentry
    obtain ⟨i, hi, hb, rfl⟩ := mem_searched.1 hentry
    exact (hits_cursor_iff spec.components[i] ip[i] id).2 (h i hi hb)

/-! ## The addresses of a team -/

/-- The ids have the same octets in the part of the address that the size covers. -/
def SameRange (spec : IpSpec) (s t : ℕ) : Prop :=
  ∀ i : Fin 4, (i : ℕ) < spec.size / 8 → spec.components[i].octet s = spec.components[i].octet t

/-- The address is in `team_id_to_network_range(t)`. -/
def InRange (spec : IpSpec) (t : ℕ) (ip : Octets) : Prop :=
  ∀ i : Fin 4, (i : ℕ) < spec.size / 8 → ip[i].toNat = spec.components[i].octet t

instance (spec : IpSpec) (s t : ℕ) : Decidable (spec.SameRange s t) :=
  inferInstanceAs (Decidable (∀ _ : Fin 4, _ → _))

instance (spec : IpSpec) (t : ℕ) (ip : Octets) : Decidable (spec.InRange t ip) :=
  inferInstanceAs (Decidable (∀ _ : Fin 4, _ → _))

/-- The products that are computed for an address are `int`s. -/
def ProductsFit (spec : IpSpec) (ip : Octets) : Prop :=
  ∀ i : Fin 4, IsInt (startPos spec.components[i] ip[i]) ∧
    IsInt (spec.components[i].a * spec.components[i].b)

instance (spec : IpSpec) (ip : Octets) : Decidable (spec.ProductsFit ip) :=
  inferInstanceAs (Decidable (∀ _ : Fin 4, _ ∧ _))

/-- The id reaches all variable octets that the size covers. -/
def Reached (spec : IpSpec) (ip : Octets) (id : ℕ) : Prop :=
  ∀ i : Fin 4, (i : ℕ) < spec.size / 8 → 1 < (spec.components[i].b : ℕ) →
    Reaches spec.components[i] ip[i] id

/-- All octets that the size covers are octets of some team. -/
def InPattern (spec : IpSpec) (ip : Octets) : Prop :=
  ∀ i : Fin 4, (i : ℕ) < spec.size / 8 →
    spec.components[i].c ≤ ip[i].toNat ∧ ip[i].toNat < spec.components[i].c + spec.components[i].b

instance (spec : IpSpec) (ip : Octets) : Decidable (spec.InPattern ip) :=
  inferInstanceAs (Decidable (∀ _ : Fin 4, _ → _ ∧ _))

/-- Some octet that the size covers depends on the team. -/
def SomeOctetVaries (spec : IpSpec) : Prop :=
  ∃ i : Fin 4, (i : ℕ) < spec.size / 8 ∧ 1 < (spec.components[i].b : ℕ)

instance (spec : IpSpec) : Decidable spec.SomeOctetVaries :=
  inferInstanceAs (Decidable (∃ _ : Fin 4, _ ∧ _))

theorem cursors_ne_nil {spec : IpSpec} {ip : Octets} (hvariable : spec.SomeOctetVaries) :
    spec.cursors ip ≠ [] := by
  obtain ⟨i, hi, hb⟩ := hvariable
  exact List.ne_nil_of_mem (List.mem_map_of_mem (mem_searched.2 ⟨i, hi, hb, rfl⟩))

/-- The numbers of the pattern are so small that no `int` overflows. -/
def Small (spec : IpSpec) : Prop :=
  ∀ i : Fin 4, spec.components[i].c ≤ 255 ∧ 256 * (spec.components[i].a : ℕ) ≤ 2 ^ 30 ∧
    (spec.components[i].a * spec.components[i].b : ℕ) ≤ 2 ^ 29

instance (spec : IpSpec) : Decidable spec.Small :=
  inferInstanceAs (Decidable (∀ _ : Fin 4, _ ∧ _ ∧ _))

end IpSpec

/-- A team reaches the octets of its addresses. -/
theorem reaches_octet (component : Component) {octet : UInt8} {t : ℕ}
    (h : octet.toNat = component.octet t) : Reaches component octet t := by
  refine ⟨t / component.a / component.b, ?_⟩
  rw [h, Component.octet]
  have hdiv := Nat.mod_add_div (t / component.a) component.b
  have hdiv' : ((t / component.a % component.b : ℕ) : ℤ) +
      component.b * ((t / component.a / component.b : ℕ) : ℤ) = (t / component.a : ℕ) := by
    exact_mod_cast hdiv
  push_cast at hdiv' ⊢
  linarith

/-- An id that reaches an octet of a team's address has the same octet. -/
theorem octet_eq_of_reaches (component : Component) {octet : UInt8} {s t : ℕ}
    (h : octet.toNat = component.octet t) (hs : Reaches component octet s) :
    component.octet s = component.octet t := by
  obtain ⟨k, hk⟩ := hs
  rw [h, Component.octet] at hk
  have hlt : t / component.a % component.b < component.b := Nat.mod_lt _ component.b.pos
  have hdiv : s / component.a = t / component.a % component.b + component.b * k := by
    have : ((s / component.a : ℕ) : ℤ) = (t / component.a % component.b : ℕ) + component.b * k := by
      push_cast at hk ⊢
      linarith
    exact_mod_cast this
  rw [Component.octet, Component.octet, hdiv, Nat.add_mul_mod_self_left, Nat.mod_mod]

namespace IpSpec

variable {spec : IpSpec} {ip : Octets} {t : ℕ}

theorem InRange.common (hip : spec.InRange t ip) : Common (spec.cursors ip) t :=
  common_cursors_iff.2 fun i hi _ => reaches_octet _ (hip i hi)

/-- The search for an address of a team finds ids with the same range. -/
theorem InRange.sameRange (hip : spec.InRange t ip) {s : ℕ} (hs : Common (spec.cursors ip) s) :
    spec.SameRange s t := by
  intro i hi
  by_cases hb : 1 < (spec.components[i].b : ℕ)
  · exact octet_eq_of_reaches _ (hip i hi) (common_cursors_iff.1 hs i hi hb)
  · -- constant octets
    have hone : (spec.components[i].b : ℕ) = 1 := by
      have := spec.components[i].b.pos
      omega
    rw [Component.octet, Component.octet, hone, Nat.mod_one, Nat.mod_one]

/-- The search for an address of a team starts at no negative number. -/
theorem InRange.pos_nonneg (hip : spec.InRange t ip) {c : Cursor} (hc : c ∈ spec.cursors ip) :
    0 ≤ c.pos := by
  obtain ⟨entry, hentry, rfl⟩ := List.mem_map.1 hc
  obtain ⟨i, hi, -, rfl⟩ := mem_searched.1 hentry
  show 0 ≤ ((ip[i].toNat : ℤ) - spec.components[i].c) * spec.components[i].a
  rw [hip i hi, Component.octet, Nat.cast_add, add_sub_cancel_right]
  positivity

/-- The common points of such a search are at or after the least id with the same range. -/
theorem InRange.least (hip : spec.InRange t ip) (hleast : ∀ s < t, ¬ spec.SameRange s t) {y : ℤ}
    (hy : 0 ≤ y) (hcommon : Common (spec.cursors ip) y) : (t : ℤ) ≤ y := by
  obtain ⟨s, rfl⟩ := Int.eq_ofNat_of_zero_le hy
  by_contra hlt
  exact hleast s (by omega) (hip.sameRange hcommon)

theorem InRange.fitsUpTo (hip : spec.InRange t ip) (hprod : spec.ProductsFit ip) (ht : t < 0xffff) :
    FitsUpTo t (spec.cursors ip) := by
  intro c hc
  refine ⟨(by norm_num : (-2 ^ 31 : ℤ) ≤ 0).trans (hip.pos_nonneg hc), ?_⟩
  obtain ⟨entry, hentry, rfl⟩ := List.mem_map.1 hc
  obtain ⟨i, hi, hb, rfl⟩ := mem_searched.1 hentry
  obtain ⟨-, -, hlt⟩ := hprod i
  have htwice : 2 * (spec.components[i].a : ℤ) ≤ spec.components[i].a * spec.components[i].b := by
    have hb' : (2 : ℤ) ≤ spec.components[i].b := by exact_mod_cast hb
    nlinarith [spec.components[i].a.pos]
  constructor
  · show (t : ℤ) + (spec.components[i].a : ℤ) < 2 ^ 31
    omega
  · show ((spec.components[i].a * spec.components[i].b : ℕ+) : ℤ) < 2 ^ 31
    push_cast
    exact hlt

end IpSpec

/-- **From a team to its addresses and back.**  For a pattern with a variable octet, a team id
below `0xffff` that is the least one with its range, and every address of that range, both
implementations return the team id. -/
theorem ip_round_trip (spec : IpSpec) (ip : Octets) (t : ℕ)
    (hvariable : ∃ i : Fin 4, (i : ℕ) < spec.size / 8 ∧ 1 < (spec.components[i].b : ℕ))
    (hprod : spec.ProductsFit ip) (ht : t < 0xffff) (hleast : ∀ s < t, ¬ spec.SameRange s t)
    (hip : spec.InRange t ip) :
    spec.networkIpToId ip = .ok (some (t : ℤ)) ∧
      spec.getTeamIdFromIpSpec ip = some t.toUInt16 := by
  constructor
  · refine networkIpToIdLoop_eq ?_ hip.common (fun y hy => ?_) (by omega)
    · obtain ⟨i, hi, hb⟩ := hvariable
      exact List.ne_nil_of_mem (List.mem_map_of_mem (IpSpec.mem_searched.2 ⟨i, hi, hb, rfl⟩))
    · obtain ⟨i, hi, hb⟩ := hvariable
      have hmem : cursor spec.components[i] ip[i] ∈ spec.cursors ip :=
        List.mem_map_of_mem (IpSpec.mem_searched.2 ⟨i, hi, hb, rfl⟩)
      exact hip.least hleast ((hip.pos_nonneg hmem).trans (hy _ hmem).pos_le) hy
  · have hstart : ∀ entry ∈ spec.zip ip, IsInt (startPos entry.1 entry.2) := by
      intro entry hentry
      obtain ⟨i, rfl⟩ := IpSpec.mem_zip.1 hentry
      exact (hprod i).1
    rw [IpSpec.getTeamIdFromIpSpec, if_pos hstart]
    exact specLoop_eq hip.common (by omega) (fun y hy hcommon => hip.least hleast hy hcommon)
      (by omega) (hip.fitsUpTo hprod ht)

/-- `team_range` of the sample configuration. -/
def sampleTeamRange : IpSpec where
  components := #v[⟨Nat.succPNat 0, Nat.succPNat 0, 127⟩, ⟨Nat.succPNat 199, Nat.succPNat 255, 0⟩,
    ⟨Nat.succPNat 0, Nat.succPNat 199, 0⟩, ⟨Nat.succPNat 0, Nat.succPNat 0, 0⟩]
  size := 24
  size_mem := size_mem_24

theorem ip_round_trip_sample :
    sampleTeamRange.networkIpToId #v[127, 0, 5, 77] = .ok (some (5 : ℕ)) ∧
      sampleTeamRange.getTeamIdFromIpSpec #v[127, 0, 5, 77] = some (5 : ℕ).toUInt16 :=
  ip_round_trip sampleTeamRange #v[127, 0, 5, 77] 5 ⟨1, by decide⟩ (by decide) (by decide)
    (by decide) (by decide)

end Gameserver.Network
