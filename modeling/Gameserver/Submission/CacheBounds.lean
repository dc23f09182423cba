import Gameserver.Submission.Cache

/-!
# When the flag cache stays in bounds

`resize` multiplies the sizes in 32 bits, `checkFlag` calculates the index in 64 bits.

* `IndexingSafe` — all indices are in bounds, and different submitters, victims or services have
  different cells.
* `index_eq_mod` — the index is the exact one, modulo `2 ^ 64`.
* `exists_multiple` — steps that are not too long do not jump over an interval.
* `maxIndex_lt_of_inBounds` — if all indices are in bounds, then so is the largest one in exact
  arithmetic.
* `indexingSafe_iff` — the sizes for which the cache is safe.
-/

namespace Gameserver.Submission

namespace FlagCache

/-- What `checkFlag` relies on: no access outside of the table, and no cell is shared. -/
structure IndexingSafe (teamCount serviceCount : UInt32) : Prop where
  inBounds : ∀ submittingTeam teamId serviceId round payload,
    (resize teamCount serviceCount).InBounds submittingTeam teamId serviceId →
    (resize teamCount serviceCount).index submittingTeam teamId serviceId round payload <
      (resize teamCount serviceCount).size
  disjoint : ∀ submittingTeam teamId serviceId round payload
    submittingTeam' teamId' serviceId' round' payload',
    (resize teamCount serviceCount).InBounds submittingTeam teamId serviceId →
    (resize teamCount serviceCount).InBounds submittingTeam' teamId' serviceId' →
    (submittingTeam, teamId, serviceId) ≠ (submittingTeam', teamId', serviceId') →
    (resize teamCount serviceCount).index submittingTeam teamId serviceId round payload ≠
      (resize teamCount serviceCount).index submittingTeam' teamId' serviceId' round' payload'

/-! ## The index -/

section Index

variable {c : FlagCache} {submittingTeam teamId serviceId round payload submittingTeam' teamId'
  serviceId' round' payload' : UInt16}

theorem index_eq_mod : c.index submittingTeam teamId serviceId round payload =
    c.exactIndex submittingTeam teamId serviceId round payload % 2 ^ 64 := by
  simp only [index, exactIndex, Nat.add_mod, Nat.mul_mod, Nat.mod_mod]

/-- Indices that do not overflow tell submitters, victims and services apart. -/
theorem exactIndex_inj (hin : c.InBounds submittingTeam teamId serviceId)
    (hin' : c.InBounds submittingTeam' teamId' serviceId')
    (h : c.exactIndex submittingTeam teamId serviceId round payload =
      c.exactIndex submittingTeam' teamId' serviceId' round' payload') :
    (submittingTeam, teamId, serviceId) = (submittingTeam', teamId', serviceId') := by
  obtain ⟨h, -⟩ := mul_add_inj (Nat.mod_lt _ (by decide)) (Nat.mod_lt _ (by decide)) h
  obtain ⟨h, -⟩ := mul_add_inj (Nat.mod_lt _ (by decide)) (Nat.mod_lt _ (by decide)) h
  obtain ⟨h, hteam⟩ := mul_add_inj hin.2.1 hin'.2.1 h
  obtain ⟨hsubmitter, hservice⟩ := mul_add_inj hin.2.2 hin'.2.2 h
  rw [(UInt16.sub_left_inj 1).1 (UInt16.toNat.inj hsubmitter),
    (UInt16.sub_left_inj 1).1 (UInt16.toNat.inj hteam),
    (UInt16.sub_left_inj 1).1 (UInt16.toNat.inj hservice)]

end Index

/-- The number of a cell, from the positions of submitter, service, victim, round and payload. -/
def cellNumber (teamCount serviceCount i k j r p : ℕ) : ℕ :=
  (((i * serviceCount + k) * teamCount + j) * roundBuckets + r) * payloadBuckets + p

/-- The positions are those of a call. -/
theorem exists_call {teamCount serviceCount : UInt32} {i k j r p : ℕ}
    (hi : i < min teamCount.toNat 65536) (hk : k < min serviceCount.toNat 65536)
    (hj : j < min teamCount.toNat 65536) (hr : r < roundBuckets) (hp : p < payloadBuckets) :
    ∃ submittingTeam teamId serviceId round payload,
      (resize teamCount serviceCount).InBounds submittingTeam teamId serviceId ∧
      (resize teamCount serviceCount).exactIndex submittingTeam teamId serviceId round payload =
        cellNumber teamCount.toNat serviceCount.toNat i k j r p := by
  have hpos : ∀ n < 65536, (UInt16.ofNat n + 1 - 1).toNat = n := by
    intro n hn
    rw [UInt16.add_sub_cancel, UInt16.toNat_ofNat']
    exact Nat.mod_eq_of_lt hn
  have hsmall : ∀ n m, n < m → m ≤ 65536 → (UInt16.ofNat n).toNat % m = n := by
    intro n m hn hm
    rw [UInt16.toNat_ofNat', Nat.mod_eq_of_lt (hn.trans_le hm), Nat.mod_eq_of_lt hn]
  refine ⟨.ofNat i + 1, .ofNat j + 1, .ofNat k + 1, .ofNat r, .ofNat p, ⟨?_, ?_, ?_⟩, ?_⟩
  · rw [hpos i (by omega)]
    exact lt_of_lt_of_le hi (min_le_left _ _)
  · rw [hpos j (by omega)]
    exact lt_of_lt_of_le hj (min_le_left _ _)
  · rw [hpos k (by omega)]
    exact lt_of_lt_of_le hk (min_le_left _ _)
  · rw [exactIndex, hpos i (by omega), hpos j (by omega), hpos k (by omega),
      hsmall r _ hr (by decide), hsmall p _ hp (by decide)]
    rfl

/-! ## The largest index -/

/-- Steps that are not longer than an interval do not jump over it. -/
theorem exists_multiple {low high step K : ℕ} (hlow : 0 < low) (hK : low ≤ K * step)
    (hstep : low + step ≤ high) : ∃ k ≤ K, low ≤ k * step ∧ k * step < high := by
  have hex : ∃ k, low ≤ k * step := ⟨K, hK⟩
  refine ⟨Nat.find hex, Nat.find_min' hex hK, Nat.find_spec hex, ?_⟩
  obtain ⟨k, hk⟩ : ∃ k, Nat.find hex = k + 1 := by
    refine Nat.exists_eq_succ_of_ne_zero fun hzero => ?_
    have hspec := Nat.find_spec hex
    rw [hzero, Nat.zero_mul] at hspec
    omega
  have hbefore : k * step < low := not_le.1 (Nat.find_min hex (by omega))
  rw [hk, Nat.succ_mul]
  omega

section Largest

variable {t s i k j r p M : ℕ}

/-- The cells of one submitter. -/
theorem cellNumber_lt (hk : k < s) (hj : j < t) (hr : r < roundBuckets) (hp : p < payloadBuckets) :
    cellNumber t s i k j r p < (i + 1) * (s * (t * 130)) := by
  have hlt := mul_add_lt_mul (mul_add_lt_mul (mul_add_lt_mul (mul_add_lt_mul i.lt_succ_self hk) hj)
    hr) hp
  calc cellNumber t s i k j r p < (i + 1) * s * t * roundBuckets * payloadBuckets := hlt
    _ = (i + 1) * (s * (t * 130)) := by
      rw [roundBuckets, payloadBuckets]
      ring

theorem cellNumber_submitter : cellNumber t s i 0 0 0 0 = i * (s * (t * 130)) := by
  simp only [cellNumber, roundBuckets, payloadBuckets]
  ring

theorem cellNumber_service : cellNumber t s 0 k 0 0 0 = k * (t * 130) := by
  simp only [cellNumber, roundBuckets, payloadBuckets]
  ring

/-- If a submitter has almost `2 ^ 64` cells, the services of the first one are beyond `2 ^ 32`. -/
theorem services_beyond (ht : t < 2 ^ 32) (hs : 0 < s) (hs' : s < 2 ^ 32)
    (hlarge : 2 ^ 64 < s * (t * 130) + 2 ^ 32) : 2 ^ 32 ≤ (min s 65536 - 1) * (t * 130) := by
  by_cases hsmall : s ≤ 65536
  · obtain ⟨s', rfl⟩ := Nat.exists_eq_add_of_lt hs
    rw [Nat.min_eq_left hsmall]
    rw [Nat.zero_add, Nat.succ_mul] at hlarge
    rw [Nat.zero_add, Nat.add_sub_cancel]
    omega
  · have hrow : 2 ^ 32 ≤ t * 130 := by
      by_contra hshort
      have hle : s * (t * 130) ≤ (2 ^ 32 - 1) * (2 ^ 32 - 1) := Nat.mul_le_mul (by omega) (by omega)
      omega
    rw [Nat.min_eq_right (by omega)]
    omega

/-- **If no cell number leaves the table modulo `2 ^ 64`, then the largest one does not leave it in
exact arithmetic.** -/
theorem cellNumber_lt_of_mod_lt (ht : 0 < t) (ht' : t < 2 ^ 32) (hs : 0 < s) (hs' : s < 2 ^ 32)
    (hM : M < 2 ^ 32) (h : ∀ i < min t 65536, ∀ k < min s 65536, ∀ j < min t 65536,
      ∀ r < roundBuckets, ∀ p < payloadBuckets, cellNumber t s i k j r p % 2 ^ 64 < M) :
    cellNumber t s (min t 65536 - 1) (min s 65536 - 1) (min t 65536 - 1) 25 4 < M := by
  -- no exact number is in the gap between the table and `2 ^ 64`
  have hgap : ∀ i < min t 65536, ∀ k < min s 65536, cellNumber t s i k 0 0 0 < 2 ^ 64 →
      cellNumber t s i k 0 0 0 < 2 ^ 32 := by
    intro i hi k hk hlt
    have hmod := h i hi k hk 0 (by omega) 0 (by decide) 0 (by decide)
    rw [Nat.mod_eq_of_lt hlt] at hmod
    omega
  have hmax : cellNumber t s (min t 65536 - 1) (min s 65536 - 1)
      (min t 65536 - 1) 25 4 < 2 ^ 64 := by
    by_cases hstep : 2 ^ 32 + s * (t * 130) ≤ 2 ^ 64
    · -- the first cells of the submitters
      have hfirst : (min t 65536 - 1) * (s * (t * 130)) < 2 ^ 32 := by
        by_contra hbeyond
        obtain ⟨i, hi, hlow, hhigh⟩ := exists_multiple (by decide) (not_lt.1 hbeyond) hstep
        rw [← cellNumber_submitter] at hlow hhigh
        exact absurd (hgap i (by omega) 0 (by omega) hhigh) (not_lt.2 hlow)
      have hcells : cellNumber t s (min t 65536 - 1) (min s 65536 - 1) (min t 65536 - 1) 25 4 <
          (min t 65536 - 1 + 1) * (s * (t * 130)) :=
        cellNumber_lt (by omega) (by omega) (by decide) (by decide)
      rw [Nat.succ_mul] at hcells
      omega
    · -- the first cells of the services of the first submitter
      have hbeyond := services_beyond ht' hs hs' (by omega)
      have hservice : 2 ^ 32 + t * 130 ≤ 2 ^ 64 := by omega
      obtain ⟨k, hk, hlow, hhigh⟩ := exists_multiple (by decide) hbeyond hservice
      rw [← cellNumber_service (s := s)] at hlow hhigh
      exact absurd (hgap 0 (by omega) k (by omega) hhigh) (not_lt.2 hlow)
  have hlast :=
    h (min t 65536 - 1) (by omega) (min s 65536 - 1) (by omega) (min t 65536 - 1) (by omega)
    25 (by decide) 4 (by decide)
  rwa [Nat.mod_eq_of_lt hmax] at hlast

/-- If the largest cell number is below the size modulo `2 ^ 32`, the size fits, or there is one
team. -/
theorem sizes_of_cellNumber_lt (ht : 0 < t) (hs : 0 < s)
    (h : cellNumber t s (min t 65536 - 1) (min s 65536 - 1) (min t 65536 - 1) 25 4 <
      t * (s * (t * 130)) % 2 ^ 32) :
    t * (s * (t * 130)) < 2 ^ 32 ∨ (t = 1 ∧ 65536 * 130 ≤ s * 130 % 2 ^ 32) := by
  by_contra hnot
  rw [not_or, not_lt] at hnot
  obtain ⟨hwrap, hone⟩ := hnot
  have hfirst : (min t 65536 - 1) * (s * (t * 130)) ≤
      cellNumber t s (min t 65536 - 1) (min s 65536 - 1) (min t 65536 - 1) 25 4 := by
    rw [← cellNumber_submitter]
    simp only [cellNumber, roundBuckets, payloadBuckets]
    gcongr <;> omega
  have hsize := Nat.mod_lt (t * (s * (t * 130))) (y := 2 ^ 32) (by decide)
  have hrow : t * 130 ≤ s * (t * 130) := Nat.le_mul_of_pos_left _ hs
  by_cases hlarge : 65536 < t
  · -- 65535 submitters have too many cells already
    rw [Nat.min_eq_right (by omega)] at hfirst h
    omega
  rw [Nat.min_eq_left (by omega)] at hfirst h
  obtain ⟨t', rfl⟩ : ∃ t', t = t' + 1 := ⟨t - 1, by omega⟩
  rw [Nat.add_sub_cancel] at hfirst h
  by_cases hteams : t' = 0
  · subst hteams
    have hservices : 65536 < s := by omega
    rw [Nat.min_eq_right (by omega)] at h
    refine hone ⟨rfl, ?_⟩
    simp only [cellNumber, roundBuckets, payloadBuckets, Nat.zero_add, Nat.zero_mul, Nat.one_mul,
      Nat.mul_one] at h
    omega
  · -- what the size loses modulo `2 ^ 32` is more than the cells of one submitter
    rw [Nat.succ_mul] at h hwrap hsize
    have hcells : s * ((t' + 1) * 130) ≤ t' * (s * ((t' + 1) * 130)) :=
      Nat.le_mul_of_pos_left _ (by omega)
    omega

end Largest

/-- **The sizes for which all indices are in bounds and no cell is shared**: their product fits in
32 bits, or there is only one team, and what is left of the product is still enough for all ids. -/
theorem indexingSafe_iff (teamCount serviceCount : UInt32) :
    IndexingSafe teamCount serviceCount ↔
      SizesFit teamCount serviceCount ∨
        (teamCount = 1 ∧ 65536 * 130 ≤ serviceCount.toNat * 130 % 2 ^ 32) := by
  have hsizes : teamCount.toNat * teamCount.toNat * serviceCount.toNat * roundBuckets *
    payloadBuckets =
      teamCount.toNat * (serviceCount.toNat * (teamCount.toNat * 130)) := by
    rw [roundBuckets, payloadBuckets]
    ring
  have hone : teamCount = 1 ↔ teamCount.toNat = 1 := UInt32.toNat_inj.symm
  constructor
  · intro hsafe
    rw [SizesFit, hsizes, hone]
    by_cases hzero : 0 < teamCount.toNat ∧ 0 < serviceCount.toNat
    · refine sizes_of_cellNumber_lt hzero.1 hzero.2 ?_
      refine cellNumber_lt_of_mod_lt hzero.1 teamCount.toNat_lt hzero.2 serviceCount.toNat_lt
        (Nat.mod_lt _ (by decide)) ?_
      intro i hi k hk j hj r hr p hp
      obtain ⟨submittingTeam, teamId, serviceId, round, payload, hin, hindex⟩ :=
        exists_call hi hk hj hr hp
      have hlt := hsafe.inBounds submittingTeam teamId serviceId round payload hin
      rwa [index_eq_mod, hindex, resize, newSize, hsizes] at hlt
    · left
      have hproduct : teamCount.toNat * (serviceCount.toNat * (teamCount.toNat * 130)) = 0 := by
        rcases not_and_or.1 hzero with h | h
        · rw [Nat.eq_zero_of_not_pos h, Nat.zero_mul]
        · rw [Nat.eq_zero_of_not_pos h, Nat.zero_mul, Nat.mul_zero]
      omega
  · intro hsizes'
    -- in both cases the exact index is less than the size
    have hexact : ∀ submittingTeam teamId serviceId round payload,
        (resize teamCount serviceCount).InBounds submittingTeam teamId serviceId →
        (resize teamCount serviceCount).exactIndex submittingTeam teamId serviceId round payload <
          (resize teamCount serviceCount).size := by
      intro submittingTeam teamId serviceId round payload hin
      rcases hsizes' with hfit | ⟨hteams, hservices⟩
      · rw [(allocated_resize hfit).size]
        exact exactIndex_lt hin
      · -- one team: the positions of the services are 16-bit numbers
        obtain rfl := hteams
        have hlt := mul_add_lt_mul (mul_add_lt_mul (serviceId - 1).toNat_lt
          (Nat.mod_lt round.toNat (y := roundBuckets) (by decide)))
          (Nat.mod_lt payload.toNat (y := payloadBuckets) (by decide))
        have hsubmitter : (submittingTeam - 1).toNat = 0 := Nat.lt_one_iff.1 hin.1
        have hteam : (teamId - 1).toNat = 0 := Nat.lt_one_iff.1 hin.2.1
        have hcount : (1 : UInt32).toNat = 1 := rfl
        have hsize : (resize 1 serviceCount).size = serviceCount.toNat * 130 % 2 ^ 32 := by
          simp only [resize, newSize, roundBuckets, payloadBuckets, hcount, Nat.one_mul,
            Nat.mul_assoc, Nat.reduceMul]
        rw [hsize]
        refine lt_of_lt_of_le ?_ hservices
        simp only [exactIndex, resize, hsubmitter, hteam, hcount, Nat.zero_mul, Nat.zero_add,
          Nat.mul_one, Nat.add_zero]
        exact hlt
    have hsize : (resize teamCount serviceCount).size < 2 ^ 64 :=
      (Nat.mod_lt _ (by decide)).trans (by decide)
    have hindex : ∀ submittingTeam teamId serviceId round payload,
        (resize teamCount serviceCount).InBounds submittingTeam teamId serviceId →
        (resize teamCount serviceCount).index submittingTeam teamId serviceId round payload =
          (resize teamCount serviceCount).exactIndex submittingTeam teamId serviceId round
              payload := by
      intro submittingTeam teamId serviceId round payload hin
      rw [index_eq_mod]
      exact Nat.mod_eq_of_lt ((hexact _ _ _ _ _ hin).trans hsize)
    constructor
    · intro submittingTeam teamId serviceId round payload hin
      rw [hindex _ _ _ _ _ hin]
      exact hexact _ _ _ _ _ hin
    · intro submittingTeam teamId serviceId round payload submittingTeam' teamId' serviceId' round'
        payload' hin hin' hne heq
      rw [hindex _ _ _ _ _ hin, hindex _ _ _ _ _ hin'] at heq
      exact hne (exactIndex_inj hin hin' heq)

/-- With 1500 teams and 15 services, the size is calculated as 92532704 and not as 4387500000. -/
theorem not_indexingSafe : ¬ IndexingSafe 1500 15 := by
  intro h
  have hlt := h.inBounds 1500 1500 15 25 4 (by decide)
  revert hlt
  decide +kernel

end FlagCache

end Gameserver.Submission
