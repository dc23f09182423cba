import Gameserver.Network.Lookup

/-!
# Addresses of nobody

Both searches look only at the octets that vary from team to team, and treat the pattern as if every
difference to the offset could be the octet of a team.  So they also answer for addresses that
belong to no team.

* `SoundLookup` — an id that is returned belongs to the address, and the two searches agree.
* `networkIpToIdLoop_eq_none`, `specLoop_eq_or_zero` — what the loops return.
* `inRange_iff_of_reached` — an id that is found belongs to the address exactly if all octets are in
  the pattern.
* `specLoop_eq_zero_of_stopsBefore`, `specLoop_eq_of_comesTo` — the limit of the search in C++ is
  not a limit of its answers.
* `soundLookup_iff` — the addresses for which the lookup is sound.
-/

namespace Gameserver.Network

open Firewall (Component)
open IntervalSearch

/-- What is returned belongs to the address, and is the same in both languages. -/
structure IpSpec.SoundLookup (spec : IpSpec) (ip : Octets) : Prop where
  python : ∀ t : ℕ, 1 ≤ t → spec.networkIpToId ip = .ok (some (t : ℤ)) → spec.InRange t ip
  server : ∀ v : UInt16, 1 ≤ v.toNat → spec.getTeamIdFromIpSpec ip = some v →
    spec.InRange v.toNat ip
  /-- `None` is 0 in C++. -/
  agree : ∃ id v, spec.networkIpToId ip = .ok id ∧ spec.getTeamIdFromIpSpec ip = some v ∧
    id.getD 0 = v.toNat

/-! ## What the loops return -/

section Loops

variable {cs : List Cursor} {x s : ℤ} {v : UInt16}

/-- Without a common point below `0xFFFF`, the Python loop finds nothing. -/
theorem networkIpToIdLoop_eq_none (hne : cs ≠ []) (hnone : ∀ y, Common cs y → 0xFFFF ≤ y) :
    networkIpToIdLoop cs = .ok none := by
  fun_induction networkIpToIdLoop cs with
  | case1 => exact absurd rfl hne
  | case2 c cs smallest hsmall => rfl
  | case3 c cs smallest largest hsmall hlarge =>
    have hcommon : Common (c :: cs) smallest :=
      List.forall_mem_cons.2 ⟨Cursor.hits_of_mem low_le_latest (lt_earliestEnd_iff.1 hlarge).1,
        common_latest hlarge⟩
    exact absurd (hnone _ hcommon) hsmall
  | case4 c cs smallest largest hsmall hlarge cs' hadv ih =>
    refine ih ?_ fun y hy => hnone y (common_of_advanceAll hadv hy)
    rintro rfl
    cases advanceAll_eq_some hadv
  | case5 c cs smallest largest hsmall hlarge hadv => rfl

/-- If the C++ loop ends, it returns the least common point that is not negative, or 0 if that is
not below the limit. -/
theorem specLoop_eq_or_zero (h : specLoop cs = some v) (hx : Common cs x) (h0 : 0 ≤ x)
    (hleast : ∀ y, 0 ≤ y → Common cs y → x ≤ y) :
    v = x.toNat.toUInt16 ∨ 0xffff ≤ x ∧ v = 0 := by
  fun_induction specLoop cs with
  | case1 cs hend => cases h
  | case2 cs hend smallest largest hlarge =>
    have hle : smallest ≤ x := latest_le_of_common h0 hx
    rw [← le_antisymm hle (hleast _ low_le_latest (common_latest hlarge))]
    exact .inl (Option.some.inj h).symm
  | case3 cs hend smallest largest hlarge hadv => cases h
  | case4 cs hend smallest largest hlarge cs' hadv hsmall ih =>
    exact ih h (common_advanceAll hadv (latest_le_of_common h0 hx) hx)
      fun y hy hcommon => hleast y hy (common_of_advanceAll hadv hcommon)
  | case5 cs hend smallest largest hlarge cs' hadv hsmall =>
    have hle : smallest ≤ x := latest_le_of_common h0 hx
    exact .inr ⟨(not_lt.1 hsmall).trans hle, (Option.some.inj h).symm⟩

/-! ### Beyond the limit -/

/-- Without a common point below `0xffffff`, the C++ loop returns 0. -/
theorem specLoop_eq_zero_of_forall_le (h : specLoop cs = some v)
    (hnone : ∀ y, 0 ≤ y → Common cs y → 0xffffff ≤ y) : v = 0 := by
  fun_induction specLoop cs with
  | case1 cs hend => cases h
  | case2 cs hend smallest largest hlarge =>
    have hle := hnone _ low_le_latest (common_latest hlarge)
    exact absurd (lt_earliestEnd_iff.1 hlarge).1 (not_lt.2 hle)
  | case3 cs hend smallest largest hlarge hadv => cases h
  | case4 cs hend smallest largest hlarge cs' hadv hsmall ih =>
    exact ih h fun y hy hcommon => hnone y hy (common_of_advanceAll hadv hcommon)
  | case5 cs hend smallest largest hlarge cs' hadv hsmall => exact (Option.some.inj h).symm

/-- The C++ loop returns 0 if it has stopped before the least common point. -/
theorem specLoop_eq_zero_of_stopsBefore (h : specLoop cs = some v)
    (hsize : ∀ c ∈ cs, (c.size : ℤ) ≤ c.period) (hx : Common cs x) (h0 : 0 ≤ x)
    (hleast : ∀ y, 0 ≤ y → Common cs y → x ≤ y) (hstops : StopsBefore 0 0xffff cs x) : v = 0 := by
  fun_induction specLoop cs with
  | case1 cs hend => cases h
  | case2 cs hend smallest largest hlarge =>
    have hle : x ≤ smallest := hleast _ low_le_latest (common_latest hlarge)
    have hfirst := (lt_earliestEnd_iff.1 hlarge).2
    exact absurd hstops (not_stopsBefore fun c hc => hle.trans_lt (hfirst c hc))
  | case3 cs hend smallest largest hlarge hadv => cases h
  | case4 cs hend smallest largest hlarge cs' hadv hsmall ih =>
    have hlast : ∀ e, LastEnd 0 cs x e → smallest < e := fun e he =>
      hstops.latest_lt hsize h0 hsmall he
    have hstops' := hstops.after low_le_latest hsmall hlast
    rw [← advanceAll_eq_map hadv] at hstops'
    refine ih h (forall_advanceAll hadv (fun c c' hc hle => ?_) hsize)
      (common_advanceAll hadv (latest_le_of_common h0 hx) hx)
      (fun y hy hcommon => hleast y hy (common_of_advanceAll hadv hcommon)) hstops'
    rwa [hc.size_eq, hc.period_eq]
  | case5 cs hend smallest largest hlarge cs' hadv hsmall => exact (Option.some.inj h).symm

/-- The C++ loop returns the least common point if it comes to it. -/
theorem specLoop_eq_of_comesTo (h : specLoop cs = some v) (hx : Common cs x) (h0 : 0 ≤ x)
    (hleast : ∀ y, 0 ≤ y → Common cs y → x ≤ y) (hlt : x < 0xffffff)
    (hcomes : ComesTo 0 0xffff cs x) : v = x.toNat.toUInt16 := by
  fun_induction specLoop cs with
  | case1 cs hend => cases h
  | case2 cs hend smallest largest hlarge =>
    have hle : smallest ≤ x := latest_le_of_common h0 hx
    rw [← le_antisymm hle (hleast _ low_le_latest (common_latest hlarge))]
    exact (Option.some.inj h).symm
  | case3 cs hend smallest largest hlarge hadv => cases h
  | case4 cs hend smallest largest hlarge cs' hadv hsmall ih =>
    have hcomes' := hcomes.after (low_le_latest : 0 ≤ smallest)
    rw [← advanceAll_eq_map hadv] at hcomes'
    exact ih h (common_advanceAll hadv (latest_le_of_common h0 hx) hx)
      (fun y hy hcommon => hleast y hy (common_of_advanceAll hadv hcommon)) hcomes'
  | case5 cs hend smallest largest hlarge cs' hadv hsmall =>
    have hle : smallest ≤ x := latest_le_of_common h0 hx
    obtain ⟨c, hc, hend'⟩ := exists_end_le hlarge (by omega)
    exact absurd (hcomes.latest_lt h0 hle hc (by omega) (by norm_num)) hsmall

end Loops

/-! ## Sound lookups -/

namespace IpSpec

variable {spec : IpSpec} {ip : Octets}

/-- **An id that is found belongs to the address exactly if all octets are in the pattern.** -/
theorem inRange_iff_of_reached {t : ℕ} (h : spec.Reached ip t) :
    spec.InRange t ip ↔ spec.InPattern ip := by
  constructor
  · intro hip i hi
    have hlt : t / spec.components[i].a % spec.components[i].b < spec.components[i].b :=
      Nat.mod_lt _ spec.components[i].b.pos
    rw [hip i hi, Component.octet]
    omega
  · intro hpattern i hi
    obtain ⟨hlow, hhigh⟩ := hpattern i hi
    by_cases hb : 1 < (spec.components[i].b : ℕ)
    · obtain ⟨k, hk⟩ := h i hi hb
      obtain ⟨d, hd⟩ := Nat.exists_eq_add_of_le hlow
      have hquot : t / spec.components[i].a = d + spec.components[i].b * k := by
        have hcast : ((t / spec.components[i].a : ℕ) : ℤ) = d + spec.components[i].b * k := by
          rw [hd] at hk
          push_cast at hk ⊢
          linarith
        exact_mod_cast hcast
      rw [Component.octet, hquot, Nat.add_mul_mod_self_left, Nat.mod_eq_of_lt (by omega), hd,
        Nat.add_comm]
    · -- constant octets
      have hone : (spec.components[i].b : ℕ) = 1 := by
        have := spec.components[i].b.pos
        omega
      rw [Component.octet, hone, Nat.mod_one]
      omega

/-- What an address needs, for a sound lookup. -/
structure Decodes (spec : IpSpec) (ip : Octets) : Prop where
  nonneg : ∀ id : ℤ, Common (spec.cursors ip) id → 0 ≤ id
  inPattern : ∀ id : ℕ, 1 ≤ id → id < 0xffff → spec.FirstReached ip id → spec.InPattern ip

/-- An id of `0xffffff` or more is not found, and a multiple of 65536 is 0 in 16 bits. -/
def Harmless (id : ℕ) : Prop := 0xffffff ≤ id ∨ id % 65536 = 0

/-- The search in C++ stops before an id that is not below its limit, or finding it does no harm. -/
def RespectsLimit (spec : IpSpec) (ip : Octets) : Prop :=
  ∀ id : ℕ, spec.FirstReached ip id → 0xffff ≤ id →
    Harmless id ∨ StopsBefore 0 0xffff (spec.cursors ip) id

/-- The first id is harmless if it is not below the limit and the search in C++ comes to it. -/
def HarmlessIfMet (spec : IpSpec) (ip : Octets) : Prop :=
  ∀ id : ℕ, spec.FirstReached ip id → 0xffff ≤ id → ComesTo 0 0xffff (spec.cursors ip) id →
    Harmless id

theorem size_le_period {c : Cursor} (hc : c ∈ spec.cursors ip) : (c.size : ℤ) ≤ c.period := by
  obtain ⟨entry, -, rfl⟩ := List.mem_map.1 hc
  have hle : entry.1.a ≤ entry.1.a * entry.1.b := le_mul_of_one_le_right' one_le
  exact_mod_cast hle

theorem specLoop_of_getTeamIdFromIpSpec {v : UInt16} (h : spec.getTeamIdFromIpSpec ip = some v) :
    specLoop (spec.cursors ip) = some v := by
  rw [getTeamIdFromIpSpec] at h
  split_ifs at h
  exact h

/-- A negative id is returned in Python. -/
theorem not_soundLookup_of_neg (hne : spec.cursors ip ≠ []) {y : ℤ} (hy : y < 0)
    (hcommon : Common (spec.cursors ip) y) : ¬ spec.SoundLookup ip := by
  obtain ⟨c, hc⟩ := List.exists_mem_of_ne_nil _ hne
  obtain ⟨x, hx, hleast⟩ :=
    Int.exists_least_of_bdd ⟨c.pos, fun z hz => (hz c hc).pos_le⟩ ⟨y, hcommon⟩
  have hneg : x < 0 := (hleast y hcommon).trans_lt hy
  rintro ⟨-, -, id, v, hid, -, hagree⟩
  have hpython := networkIpToIdLoop_eq hne hx hleast (by omega)
  rw [networkIpToId, hpython] at hid
  obtain rfl : some x = id := Except.ok.inj hid
  rw [Option.getD_some] at hagree
  omega

/-- An id below the limit is returned in both languages. -/
theorem soundLookup_iff_of_firstReached (hne : spec.cursors ip ≠ []) {v : UInt16}
    (hv : spec.getTeamIdFromIpSpec ip = some v)
    (hnonneg : ∀ id : ℤ, Common (spec.cursors ip) id → 0 ≤ id)
    {x : ℕ} (hx : spec.FirstReached ip x) (hlt : x < 0xffff) :
    spec.SoundLookup ip ↔ (1 ≤ x → spec.InPattern ip) := by
  have hcommon : Common (spec.cursors ip) x := reached_iff.1 hx.1
  have hleast : ∀ y, Common (spec.cursors ip) y → (x : ℤ) ≤ y := by
    intro y hy
    obtain ⟨n, rfl⟩ := Int.eq_ofNat_of_zero_le (hnonneg y hy)
    by_contra hlt'
    exact hx.2 n (by omega) (reached_iff.2 hy)
  have hpython : spec.networkIpToId ip = .ok (some (x : ℤ)) :=
    networkIpToIdLoop_eq hne hcommon hleast (by omega)
  have hserver : v.toNat = x := by
    rcases specLoop_eq_or_zero (specLoop_of_getTeamIdFromIpSpec hv) hcommon (by omega)
      (fun y _ hy => hleast y hy) with rfl | ⟨hle, -⟩
    · simp
      omega
    · omega
  rw [← inRange_iff_of_reached hx.1]
  constructor
  · exact fun h hpos => h.python x hpos hpython
  · intro h
    refine ⟨fun t ht hid => ?_, fun w hw hid => ?_, some (x : ℤ), v, hpython, hv, by simp [hserver]⟩
    · rw [hpython] at hid
      obtain rfl : x = t := by simpa using hid
      exact h ht
    · obtain rfl : v = w := Option.some.inj (hv.symm.trans hid)
      rw [hserver] at hw ⊢
      exact h hw

/-- Without an id below the limit, Python returns `None`. -/
theorem soundLookup_iff_of_none (hne : spec.cursors ip ≠ []) {v : UInt16}
    (hv : spec.getTeamIdFromIpSpec ip = some v)
    (hnone : ∀ y, Common (spec.cursors ip) y → 0xffff ≤ y) : spec.SoundLookup ip ↔ v = 0 := by
  have hpython : spec.networkIpToId ip = .ok none := networkIpToIdLoop_eq_none hne hnone
  constructor
  · rintro ⟨-, -, id, w, hid, hw, hagree⟩
    obtain rfl : none = id := Except.ok.inj (hpython.symm.trans hid)
    obtain rfl : v = w := Option.some.inj (hv.symm.trans hw)
    rw [Option.getD_none] at hagree
    exact UInt16.toNat_inj.1 (by exact_mod_cast hagree.symm)
  · rintro rfl
    refine ⟨fun t _ hid => ?_, fun w hw hid => ?_, none, 0, hpython, hv, rfl⟩
    · rw [hpython] at hid
      exact absurd (Except.ok.inj hid).symm (Option.some_ne_none _)
    · obtain rfl : (0 : UInt16) = w := Option.some.inj (hv.symm.trans hid)
      exact absurd hw (by decide)

theorem FirstReached.le_of_common {id : ℕ} (h : spec.FirstReached ip id) {y : ℤ} (hy : 0 ≤ y)
    (hcommon : Common (spec.cursors ip) y) : (id : ℤ) ≤ y := by
  obtain ⟨n, rfl⟩ := Int.eq_ofNat_of_zero_le hy
  by_contra hlt
  exact h.2 n (by omega) (reached_iff.2 hcommon)

/-- The server answers 0 instead of a harmless id. -/
theorem eq_zero_of_harmless {v : UInt16} (hv : spec.getTeamIdFromIpSpec ip = some v) {id : ℕ}
    (hid : spec.FirstReached ip id) (h : Harmless id) : v = 0 := by
  have hloop := specLoop_of_getTeamIdFromIpSpec hv
  rcases h with hle | hmod
  · refine specLoop_eq_zero_of_forall_le hloop fun y hy hcommon => ?_
    have := hid.le_of_common hy hcommon
    omega
  · rcases specLoop_eq_or_zero hloop (reached_iff.1 hid.1) (by omega)
      (fun y hy hcommon => hid.le_of_common hy hcommon) with rfl | ⟨-, hzero⟩
    · rw [← UInt16.toNat_inj]
      simpa using hmod
    · exact hzero

theorem eq_zero_of_respectsLimit {v : UInt16} (hv : spec.getTeamIdFromIpSpec ip = some v)
    (hnone : ∀ id < 0xffff, ¬ spec.Reached ip id) (h : spec.RespectsLimit ip) : v = 0 := by
  classical
  have hloop := specLoop_of_getTeamIdFromIpSpec hv
  by_cases hfound : ∃ id, spec.Reached ip id
  · have hfirst : spec.FirstReached ip (Nat.find hfound) :=
      ⟨Nat.find_spec hfound, fun s hs => Nat.find_min hfound hs⟩
    have hle : 0xffff ≤ Nat.find hfound := not_lt.1 fun hlt => hnone _ hlt hfirst.1
    rcases h _ hfirst hle with hharmless | hstops
    · exact eq_zero_of_harmless hv hfirst hharmless
    · exact specLoop_eq_zero_of_stopsBefore hloop (fun c hc => size_le_period hc)
        (reached_iff.1 hfirst.1) (by omega)
          (fun y hy hcommon => hfirst.le_of_common hy hcommon) hstops
  · refine specLoop_eq_zero_of_forall_le hloop fun y hy hcommon => ?_
    obtain ⟨n, rfl⟩ := Int.eq_ofNat_of_zero_le hy
    exact absurd ⟨n, reached_iff.2 hcommon⟩ hfound

theorem harmlessIfMet_of_eq_zero (hv : spec.getTeamIdFromIpSpec ip = some 0) :
    spec.HarmlessIfMet ip := by
  intro id hid _ hcomes
  by_cases hlt : id < 0xffffff
  · have heq := specLoop_eq_of_comesTo (specLoop_of_getTeamIdFromIpSpec hv) (reached_iff.1 hid.1)
      (by omega) (fun y hy hcommon => hid.le_of_common hy hcommon) (by omega) hcomes
    rw [← UInt16.toNat_inj] at heq
    exact .inr (by simpa using heq.symm)
  · exact .inl (by omega)

/-- With at most two variable octets, there is nothing between the two conditions. -/
theorem HarmlessIfMet.respectsLimit (h : spec.HarmlessIfMet ip)
    (htwo : (spec.searched ip).length ≤ 2) : spec.RespectsLimit ip := by
  intro id hid hle
  have hlength : (spec.cursors ip).length ≤ 2 := by rwa [cursors, List.length_map]
  rcases stopsBefore_or_comesTo hlength (fun c hc => size_le_period hc) (Int.natCast_nonneg id)
    with hstops | hcomes
  · exact .inr hstops
  · exact .inl (h id hid hle hcomes)

end IpSpec

/-- **The addresses for which the lookup is sound and the languages agree**, among those for which
both searches end: no negative id reaches the variable octets; if the first id that does is positive
and below `0xffff`, all octets are in the pattern; and the server respects its limit.  This is exact
for patterns with at most two variable octets.  With more of them, the order in which the search
moves the intervals may save an address whose first id is beyond the limit. -/
theorem soundLookup_iff (spec : IpSpec) (ip : Octets)
    (hvariable : spec.SomeOctetVaries) {v : UInt16} (hv : spec.getTeamIdFromIpSpec ip = some v) :
    (spec.Decodes ip ∧ spec.RespectsLimit ip → spec.SoundLookup ip) ∧
      (spec.SoundLookup ip → spec.Decodes ip ∧ spec.HarmlessIfMet ip) ∧
      ((spec.searched ip).length ≤ 2 → spec.SoundLookup ip →
        spec.Decodes ip ∧ spec.RespectsLimit ip) := by
  have hne : spec.cursors ip ≠ [] := IpSpec.cursors_ne_nil hvariable
  suffices hboth : (spec.Decodes ip ∧ spec.RespectsLimit ip → spec.SoundLookup ip) ∧
      (spec.SoundLookup ip → spec.Decodes ip ∧ spec.HarmlessIfMet ip) from
    ⟨hboth.1, hboth.2, fun htwo h => ⟨(hboth.2 h).1, (hboth.2 h).2.respectsLimit htwo⟩⟩
  by_cases hnonneg : ∀ id : ℤ, Common (spec.cursors ip) id → 0 ≤ id
  · by_cases hfound : ∃ id < 0xffff, spec.FirstReached ip id
    · -- the first id is below the limit
      obtain ⟨x, hlt, hfirst⟩ := hfound
      rw [IpSpec.soundLookup_iff_of_firstReached hne hv hnonneg hfirst hlt]
      constructor
      · exact fun h hpos => h.1.inPattern x hpos hlt hfirst
      · intro h
        refine ⟨⟨hnonneg, fun id hpos _ hid => h (hid.unique hfirst ▸ hpos)⟩, fun id hid hle => ?_⟩
        have := hid.unique hfirst
        omega
    · have hnone : ∀ id < 0xffff, ¬ spec.Reached ip id := by
        intro id
        induction id using Nat.strong_induction_on with
        | _ id ih => exact fun hid h => hfound ⟨id, hid, h, fun s hs => ih s hs (by omega)⟩
      rw [IpSpec.soundLookup_iff_of_none hne hv fun y hy => ?_]
      · constructor
        · exact fun h => IpSpec.eq_zero_of_respectsLimit hv hnone h.2
        · rintro rfl
          exact ⟨⟨hnonneg, fun id _ hlt hid => absurd hid.1 (hnone id hlt)⟩,
            IpSpec.harmlessIfMet_of_eq_zero hv⟩
      · obtain ⟨n, rfl⟩ := Int.eq_ofNat_of_zero_le (hnonneg y hy)
        by_contra hlt
        exact hnone n (by omega) (IpSpec.reached_iff.2 hy)
  · have hfalse : ¬ spec.SoundLookup ip := by
      obtain ⟨y, hy⟩ := not_forall.1 hnonneg
      rw [Classical.not_imp, not_le] at hy
      exact IpSpec.not_soundLookup_of_neg hne hy.2 hy.1
    exact ⟨fun h => absurd h.1.nonneg hnonneg, fun h => absurd h hfalse⟩

/-- The address `10.32.5.77` is found, for team 5. -/
theorem soundLookup_iff_example : exampleRange.SoundLookup #v[10, 32, 5, 77] := by
  have hanswers := exampleRange_answers #v[10, 32, 5, 77]
  refine (soundLookup_iff exampleRange #v[10, 32, 5, 77] (by decide)
    (hanswers.getTeamIdFromIpSpec (by decide))).1 ⟨⟨?_, ?_⟩, ?_⟩
  · intro id hid
    have hpos : (5 : ℤ) ≤ id := (hid ⟨5, 1, 200⟩ (by decide)).pos_le
    omega
  · exact fun _ _ _ _ => by decide
  · intro id hid hle
    have heq : 5 = id := (hanswers.firstReached_iff (by omega)).1 hid
    omega

/-- `8.8.5.8` is said to be in the range `10.32.5.0/24`. -/
theorem not_soundLookup : exampleRange.getTeamIdFromIpSpec #v[8, 8, 5, 8] = some 5 ∧
    ¬ exampleRange.SoundLookup #v[8, 8, 5, 8] := by
  have hserver : exampleRange.getTeamIdFromIpSpec #v[8, 8, 5, 8] = some 5 :=
    (exampleRange_answers _).getTeamIdFromIpSpec (by decide)
  refine ⟨hserver, fun h => ?_⟩
  exact absurd (h.server 5 (by decide) hserver) (by decide)

end Gameserver.Network
