import Gameserver.Firewall.Manager
import Gameserver.Lib.IntervalSearch

/-!
# From addresses to teams

An address pattern turns a team id into an address, octet by octet.  The way back is a search:
`network_ip_to_id` of `saarctf_commons/config.py`, and `IpSpec::getTeamIdFromIpSpec` of
`flag-submission-server/src/config.cpp`, which `Config::getTeamIdFromIp` uses for two patterns.

* `IpSpec`, `Octets` — patterns and addresses.
* `networkIpToId` — the search in Python, with unbounded integers.
* `getTeamIdFromIpSpec`, `getTeamIdFromIp` — the search in C++, with `int`; `none` if the
  result of an operation does not fit, which is undefined behaviour.
* `networkIpToIdLoop_eq`, `specLoop_eq`, `specLoop_eq_zero` — what the loops return.
-/

namespace Gameserver.Network

open Firewall (Component)
open IntervalSearch

/-- The octets of an address. -/
abbrev Octets := Vector UInt8 4

/-- `struct IpSpec`; in Python, `network_ip` and `network_size`. -/
structure IpSpec where
  components : Vector Component 4
  /-- In bits. -/
  size : ℕ
  size_mem : size ∈ [8, 16, 24, 32]

theorem size_mem_24 : 24 ∈ [8, 16, 24, 32] := by simp

/-- An address pattern without size. -/
def IpSpec.ofAddress (components : Vector Component 4) : IpSpec := ⟨components, 32, by simp⟩

/-- `(d_i - c_i) * a_i`: where the search for an octet starts. -/
def startPos (component : Component) (octet : UInt8) : ℤ :=
  ((octet.toNat : ℤ) - component.c) * component.a

/-- The ids of one octet: runs of length `a`, every `a * b`. -/
def cursor (component : Component) (octet : UInt8) : Cursor where
  pos := startPos component octet
  size := component.a
  period := component.a * component.b

namespace IpSpec

variable (spec : IpSpec) (ip : Octets)

/-- The components and the octets of an address. -/
def zip : List (Component × UInt8) := spec.components.toList.zip ip.toList

/-- What the loops look at: `i < size / 8` and `b_i > 1`. -/
def searched : List (Component × UInt8) :=
  ((spec.zip ip).take (spec.size / 8)).filter fun entry => 1 < (entry.1.b : ℕ)

def cursors : List Cursor := (spec.searched ip).map fun entry => cursor entry.1 entry.2

end IpSpec

/-! ## Python -/

theorem exists_end_le {cs : List Cursor} {high x : ℤ} (h : ¬ x < earliestEnd high cs)
    (hhigh : x < high) : ∃ c ∈ cs, c.pos + c.size ≤ x := by
  by_contra hall
  refine h (lt_earliestEnd_iff.2 ⟨hhigh, fun c hc => ?_⟩)
  by_contra hle
  exact hall ⟨c, hc, by omega⟩

/-- The `while` loop of `network_ip_to_id`; `max` of an empty list raises `ValueError`. -/
def networkIpToIdLoop : List Cursor → Except String (Option ℤ)
  | [] => .error "ValueError"
  | c :: cs =>
    let smallest := latest c.pos cs
    let largest := earliestEnd (c.pos + c.size) cs
    if _hsmall : 0xFFFF ≤ smallest then .ok none
    else if _hlarge : smallest < largest then .ok (some smallest)
    else
      match _hadv : advanceAll (fun _ => True) (c :: cs) smallest with
      | some cs' => networkIpToIdLoop cs'
      | none => .ok none  -- all integers fit
termination_by cs => gap 0xFFFF cs
decreasing_by
  obtain ⟨d, hd, hend⟩ : ∃ d ∈ c :: cs, d.pos + d.size ≤ smallest := by
    by_cases hhead : smallest < c.pos + c.size
    · obtain ⟨d, hd, hend⟩ := exists_end_le _hlarge hhead
      exact ⟨d, List.mem_cons_of_mem _ hd, hend⟩
    · exact ⟨c, List.mem_cons_self, by omega⟩
  exact gap_advanceAll_lt _hadv (by omega) hd hend

/-- `network_ip_to_id`. -/
def IpSpec.networkIpToId (spec : IpSpec) (ip : Octets) : Except String (Option ℤ) :=
  networkIpToIdLoop (spec.cursors ip)

/-! ## C++ -/

/-- The range of `int`. -/
def IsInt (x : ℤ) : Prop := -2 ^ 31 ≤ x ∧ x < 2 ^ 31

instance : DecidablePred IsInt := fun _ => inferInstanceAs (Decidable (_ ∧ _))

/-- The `do` loop of `getTeamIdFromIpSpec`. -/
def specLoop (cs : List Cursor) : Option UInt16 :=
  if ¬ ∀ c ∈ cs, IsInt (c.pos + c.size) then none
  else
    let smallest := latest 0 cs
    let largest := earliestEnd 0xffffff cs
    if _hlarge : smallest < largest then some smallest.toNat.toUInt16
    else
      match _hadv : advanceAll IsInt cs smallest with
      | none => none
      | some cs' => if _hsmall : smallest < 0xffff then specLoop cs' else some 0
termination_by gap 0xffff cs
decreasing_by
  obtain ⟨d, hd, hend⟩ := exists_end_le _hlarge (by omega)
  exact gap_advanceAll_lt _hadv _hsmall hd hend

/-- `IpSpec::getTeamIdFromIpSpec`. -/
def IpSpec.getTeamIdFromIpSpec (spec : IpSpec) (ip : Octets) : Option UInt16 :=
  if ∀ entry ∈ spec.zip ip, IsInt (startPos entry.1 entry.2) then specLoop (spec.cursors ip)
  else none

/-- `Config::getTeamIdFromIp`. -/
def getTeamIdFromIp (teamRange vpnPeersRange : IpSpec) (ip : Octets) : Option UInt16 := do
  let v1 ← teamRange.getTeamIdFromIpSpec ip
  let v2 ← vpnPeersRange.getTeamIdFromIpSpec ip
  return if 0 < v2 ∧ v2 < v1 then v2 else v1

/-! ## What the loops return -/

variable {cs : List Cursor} {x : ℤ}

/-- The Python loop finds the least common point below `0xFFFF`. -/
theorem networkIpToIdLoop_eq (hne : cs ≠ []) (hx : Common cs x)
    (hleast : ∀ y, Common cs y → x ≤ y) (hlt : x < 0xFFFF) :
    networkIpToIdLoop cs = .ok (some x) := by
  fun_induction networkIpToIdLoop cs with
  | case1 => exact absurd rfl hne
  | case2 c cs smallest hsmall =>
    have hle : smallest ≤ x :=
      latest_le_of_common (hx c (by simp)).pos_le fun d hd => hx d (by simp [hd])
    omega
  | case3 c cs smallest largest hsmall hlarge =>
    have hle : smallest ≤ x :=
      latest_le_of_common (hx c (by simp)).pos_le fun d hd => hx d (by simp [hd])
    have hcommon : Common (c :: cs) smallest :=
      List.forall_mem_cons.2 ⟨Cursor.hits_of_mem low_le_latest (lt_earliestEnd_iff.1 hlarge).1,
        common_latest hlarge⟩
    rw [le_antisymm hle (hleast _ hcommon)]
  | case4 c cs smallest largest hsmall hlarge cs' hadv ih =>
    have hle : smallest ≤ x :=
      latest_le_of_common (hx c (by simp)).pos_le fun d hd => hx d (by simp [hd])
    refine ih ?_ (common_advanceAll hadv hle hx) fun y hy => hleast y (common_of_advanceAll hadv hy)
    rintro rfl
    cases advanceAll_eq_some hadv
  | case5 c cs smallest largest hsmall hlarge hadv =>
    have hall : ∃ cs', advanceAll (fun _ => True) (c :: cs) smallest = some cs' :=
      exists_advanceAll fun d _ => Cursor.exists_advance (max (d.pos + d.size)
        (smallest + d.period))
        (fun _ _ _ => trivial) trivial (le_max_left _ _) fun k hk => by
          push_cast [add_mul] at hk ⊢
          refine le_trans ?_ (le_max_right _ _)
          omega
    obtain ⟨cs', hcs'⟩ := hall
    rw [hadv] at hcs'
    cases hcs'

/-- The values that the search for `x` computes fit. -/
def FitsUpTo (x : ℤ) (cs : List Cursor) : Prop :=
  ∀ c ∈ cs, -2 ^ 31 ≤ c.pos ∧ x + c.size < 2 ^ 31 ∧ (c.period : ℤ) < 2 ^ 31

theorem FitsUpTo.exists_advanceAll {bound : ℤ} (h : FitsUpTo x cs) (hx : Common cs x)
    (hbound : bound ≤ x) : ∃ cs', advanceAll IsInt cs bound = some cs' := by
  refine IntervalSearch.exists_advanceAll fun c hc => ?_
  obtain ⟨hlow, htop, hperiod⟩ := h c hc
  obtain ⟨k₀, hk₀, hk₀'⟩ := hx c hc
  have hpos : (0 : ℤ) < c.period := by exact_mod_cast c.period.pos
  have hmul : (0 : ℤ) ≤ k₀ * c.period := by positivity
  refine Cursor.exists_advance (x + c.size) (fun y hy hy' => ⟨by omega, by omega⟩)
    ⟨by omega, hperiod⟩ (by omega) fun k hk => ?_
  -- the repetitions that end before the bound come before the one with `x`
  have hlt : k < k₀ := by
    by_contra hnot
    have : (k₀ : ℤ) * c.period ≤ k * c.period := by
      exact mul_le_mul_of_nonneg_right (by exact_mod_cast not_lt.1 hnot) hpos.le
    omega
  have hle : ((k + 1 : ℕ) : ℤ) * c.period ≤ k₀ * c.period :=
    mul_le_mul_of_nonneg_right (by exact_mod_cast hlt) hpos.le
  omega

theorem FitsUpTo.advanceAll {bound : ℤ} {cs' : List Cursor} (h : FitsUpTo x cs)
    (hadv : advanceAll IsInt cs bound = some cs') : FitsUpTo x cs' := by
  refine forall_advanceAll hadv (fun c c' hc hfit => ?_) h
  obtain ⟨hlow, htop, hperiod⟩ := hfit
  rw [hc.size_eq, hc.period_eq]
  exact ⟨hlow.trans hc.le, htop, hperiod⟩

/-- The C++ loop finds the least common point that is not negative, below `0xffff`. -/
theorem specLoop_eq (hx : Common cs x) (h0 : 0 ≤ x) (hleast : ∀ y, 0 ≤ y → Common cs y → x ≤ y)
    (hlt : x < 0xffff) (hfits : FitsUpTo x cs) : specLoop cs = some x.toNat.toUInt16 := by
  fun_induction specLoop cs with
  | case1 cs hend =>
    refine absurd (fun c hc => ?_) hend
    obtain ⟨hlow, htop, -⟩ := hfits c hc
    have := (hx c hc).pos_le
    have : (0 : ℤ) < c.size := by exact_mod_cast c.size.pos
    exact ⟨by omega, by omega⟩
  | case2 cs hend smallest largest hlarge =>
    have hle : smallest ≤ x := latest_le_of_common h0 hx
    rw [le_antisymm hle (hleast _ low_le_latest (common_latest hlarge))]
  | case3 cs hend smallest largest hlarge hadv =>
    obtain ⟨cs', hcs'⟩ := hfits.exists_advanceAll hx (latest_le_of_common h0 hx)
    rw [hadv] at hcs'
    cases hcs'
  | case4 cs hend smallest largest hlarge cs' hadv hsmall ih =>
    exact ih (common_advanceAll hadv (latest_le_of_common h0 hx) hx)
      (fun y hy hcommon => hleast y hy (common_of_advanceAll hadv hcommon)) (hfits.advanceAll hadv)
  | case5 cs hend smallest largest hlarge cs' hadv hsmall =>
    have hle : smallest ≤ x := latest_le_of_common h0 hx
    omega

/-- The values of a search that finds nothing fit. -/
def FitsBelow (top : ℤ) (cs : List Cursor) : Prop :=
  ∀ c ∈ cs, -2 ^ 31 ≤ c.pos ∧ c.pos ≤ top ∧ (c.size : ℤ) ≤ c.period ∧ 0xffff + c.period ≤ top ∧
    top + c.period < 2 ^ 31

theorem FitsBelow.exists_advanceAll {top bound : ℤ} (h : FitsBelow top cs) (hbound : bound ≤ top) :
    ∃ cs', advanceAll IsInt cs bound = some cs' := by
  refine IntervalSearch.exists_advanceAll fun c hc => ?_
  obtain ⟨hlow, htop, hsize, hperiod, hmax⟩ := h c hc
  have hpos : (0 : ℤ) < c.period := by exact_mod_cast c.period.pos
  refine Cursor.exists_advance (top + c.period) (fun y hy hy' => ⟨by omega, by omega⟩)
    ⟨by omega, by omega⟩ (by omega) fun k hk => ?_
  push_cast [add_mul] at hk ⊢
  omega

theorem FitsBelow.advanceAll {top bound : ℤ} {cs' : List Cursor} (h : FitsBelow top cs)
    (hbound : bound < 0xffff) (hadv : advanceAll IsInt cs bound = some cs') :
    FitsBelow top cs' := by
  refine forall_advanceAll hadv (fun c c' hc hfit => ?_) h
  obtain ⟨hlow, htop, hsize, hperiod, hmax⟩ := hfit
  have hpos : (0 : ℤ) < c.size := by exact_mod_cast c.size.pos
  rw [hc.size_eq, hc.period_eq]
  refine ⟨hlow.trans hc.le, ?_, hsize, hperiod, hmax⟩
  rcases hc.pos_le with heq | hle
  · omega
  · omega

/-- Without a common point that is not negative, the C++ loop returns 0. -/
theorem specLoop_eq_zero (top : ℤ) (hnone : ∀ y, 0 ≤ y → ¬ Common cs y) (htop : 0 ≤ top)
    (hfits : FitsBelow top cs) : specLoop cs = some 0 := by
  have hlatest : ∀ {cs : List Cursor}, FitsBelow top cs → latest 0 cs ≤ top := fun hfits =>
    latest_le_iff.2 ⟨htop, fun c hc => (hfits c hc).2.1⟩
  fun_induction specLoop cs with
  | case1 cs hend =>
    refine absurd (fun c hc => ?_) hend
    obtain ⟨hlow, hpos, hsize, hperiod, hmax⟩ := hfits c hc
    have : (0 : ℤ) < c.size := by exact_mod_cast c.size.pos
    exact ⟨by omega, by omega⟩
  | case2 cs hend smallest largest hlarge =>
    exact absurd (common_latest hlarge) (hnone _ low_le_latest)
  | case3 cs hend smallest largest hlarge hadv =>
    obtain ⟨cs', hcs'⟩ := hfits.exists_advanceAll (hlatest hfits)
    rw [hadv] at hcs'
    cases hcs'
  | case4 cs hend smallest largest hlarge cs' hadv hsmall ih =>
    exact ih (fun y hy hcommon => hnone y hy (common_of_advanceAll hadv hcommon))
      (hfits.advanceAll hsmall hadv)
  | case5 cs hend smallest largest hlarge cs' hadv hsmall => rfl

end Gameserver.Network
