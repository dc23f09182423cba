import Gameserver.Scoring.Database

/-!
# Ranks

`_order_by_points` sorts by points and then counts, in a loop that remembers the entry before.
The ranks it gives have a closed form that does not speak of an order.

* `rankAmong` — one more than the number of entries with more points that are positive.
* `assignRanks_eq` — the loop on a sorted list, from any place in it.
* `orderByPoints_ranks` — the result is the entries with these ranks, in the order of their points,
  and up to the order of equal points it is the same for every order of the input.
-/

namespace Gameserver.Scoring.Database

variable {K : Type*} [Field K] [LinearOrder K]

/-- The entries that come before these points: those with more points that are positive. -/
def above (ranking : List (TeamRanking K)) (points : K) : ℕ :=
  ranking.countP fun y => points < y.points ∧ 0 < y.points

/-- The rank for these points. -/
def rankAmong (ranking : List (TeamRanking K)) (points : K) : ℕ+ := (above ranking points).succPNat

/-- An entry with its rank. -/
def withRank (ranking : List (TeamRanking K)) (entry : TeamRanking K) : TeamRanking K :=
  { entry with rank := rankAmong ranking entry.points }

theorem above_append (l l' : List (TeamRanking K)) (points : K) :
    above (l ++ l') points = above l points + above l' points := List.countP_append

theorem above_perm {l l' : List (TeamRanking K)} (h : l.Perm l') (points : K) :
    above l points = above l' points := h.countP_eq _

theorem withRank_perm {l l' : List (TeamRanking K)} (h : l.Perm l') : withRank l = withRank l' := by
  funext entry
  rw [withRank, withRank, rankAmong, rankAmong, above_perm h]

/-- Nothing comes before points that are the most. -/
theorem above_eq_zero {l : List (TeamRanking K)} {points : K} (h : ∀ y ∈ l, y.points ≤ points) :
    above l points = 0 := by
  refine List.countP_eq_zero.2 fun y hy => ?_
  rw [decide_eq_true_eq]
  exact fun hlt => absurd hlt.1 (not_lt.2 (h y hy))

/-- Before points that are less than all others come the positive ones. -/
theorem above_eq_countP {l : List (TeamRanking K)} {points : K} (h : ∀ y ∈ l, points < y.points) :
    above l points = l.countP fun y => 0 < y.points :=
  List.countP_congr fun y hy => by simp [h y hy]

/-- All points that are not positive come behind the same entries. -/
theorem above_of_nonpos {l : List (TeamRanking K)} {p q : K} (hp : p ≤ 0) (hq : q ≤ 0) :
    above l p = above l q := by
  refine List.countP_congr fun y _ => ?_
  rw [decide_eq_true_eq, decide_eq_true_eq]
  exact ⟨fun h => ⟨hq.trans_lt h.2, h.2⟩, fun h => ⟨hp.trans_lt h.2, h.2⟩⟩

/-- One entry: it has the rank of the entry before, or the next one. -/
theorem assignRanks_cons (i : ℕ+) {previous : Option (TeamRanking K)} {entry : TeamRanking K}
    {rank : ℕ+}
    (rest : List (TeamRanking K)) (hnone : previous = none → i = rank)
    (hsome : ∀ p, previous = some p → (if p.points = entry.points then p.rank else i) = rank) :
    assignRanks i previous (entry :: rest) = { entry with rank := rank } ::
      assignRanks (if 0 < entry.points then i + 1 else i)
          (some { entry with rank := rank }) rest := by
  cases previous with
  | none => rw [assignRanks, hnone rfl]
  | some p => rw [assignRanks, hsome p rfl]

/-- **The loop of `_order_by_points`**, after the entries `done` of a sorted list. -/
theorem assignRanks_eq (done rest : List (TeamRanking K)) (i : ℕ+)
    (hsorted : (done ++ rest).Pairwise fun a b => b.points ≤ a.points)
    (hi : (i : ℕ) = (done.countP fun y => 0 < y.points) + 1) :
    assignRanks i (done.getLast?.map (withRank (done ++ rest))) rest =
      rest.map (withRank (done ++ rest)) := by
  induction rest generalizing done i with
  | nil => rfl
  | cons entry rest ih =>
    obtain ⟨hdone, hrest, hcross⟩ := List.pairwise_append.1 hsorted
    -- the entry has the rank that the loop gives it
    have hbelow : above (entry :: rest) entry.points = 0 := by
      refine above_eq_zero fun y hy => ?_
      rcases List.mem_cons.1 hy with rfl | hy
      · exact le_rfl
      · exact (List.pairwise_cons.1 hrest).1 y hy
    have hfresh : (∀ y ∈ done, entry.points < y.points) →
        i = rankAmong (done ++ entry :: rest) entry.points := by
      intro hlt
      refine PNat.coe_injective ?_
      rw [rankAmong, Nat.succPNat_coe, above_append, hbelow, above_eq_countP hlt, hi]
    have hnone : done.getLast?.map (withRank (done ++ entry :: rest)) = none →
        i = rankAmong (done ++ entry :: rest) entry.points := by
      intro hlast
      rw [Option.map_eq_none_iff, List.getLast?_eq_none_iff] at hlast
      subst hlast
      exact hfresh (by simp)
    have hsome : ∀ p, done.getLast?.map (withRank (done ++ entry :: rest)) = some p →
        (if p.points = entry.points then p.rank else i) =
          rankAmong (done ++ entry :: rest) entry.points := by
      intro p hp
      obtain ⟨last, hlast, rfl⟩ := Option.map_eq_some_iff.1 hp
      obtain ⟨init, rfl⟩ := List.getLast?_eq_some_iff.1 hlast
      show (if last.points = entry.points then rankAmong _ last.points else i) = _
      split_ifs with heq
      · rw [heq]
      · have hlt : entry.points < last.points :=
          lt_of_le_of_ne (hcross last (by simp) entry List.mem_cons_self) (Ne.symm heq)
        refine hfresh fun y hy => ?_
        rcases List.mem_append.1 hy with hy | hy
        · exact hlt.trans_le ((List.pairwise_append.1 hdone).2.2 y hy last (by simp))
        · rwa [List.mem_singleton.1 hy]
    have hassoc : done ++ entry :: rest = (done ++ [entry]) ++ rest := by simp
    have hnext := ih (done ++ [entry]) (if 0 < entry.points then i + 1 else i)
      (by rwa [← hassoc]) (by
        rw [List.countP_append, List.countP_singleton]
        by_cases hpos : 0 < entry.points
        · simp only [hpos, if_true, decide_true, PNat.add_coe, hi, PNat.one_coe]
        · simp only [hpos, if_false, decide_false, Bool.false_eq_true, hi, add_zero])
    rw [List.getLast?_concat, ← hassoc] at hnext
    rw [assignRanks_cons i rest hnone hsome, List.map_cons]
    exact congrArg _ hnext

/-- The sort of `_order_by_points`. -/
def sorted (ranking : List (TeamRanking K)) : List (TeamRanking K) :=
  ranking.insertionSort fun a b => b.points ≤ a.points

omit [Field K] in
theorem sorted_perm (ranking : List (TeamRanking K)) : (sorted ranking).Perm ranking :=
  List.perm_insertionSort _ ranking

omit [Field K] in
theorem pairwise_sorted (ranking : List (TeamRanking K)) :
    (sorted ranking).Pairwise fun a b => b.points ≤ a.points := by
  have : Std.Total fun a b : TeamRanking K => b.points ≤ a.points :=
    ⟨fun a b => le_total b.points a.points⟩
  have : IsTrans (TeamRanking K) fun a b => b.points ≤ a.points :=
    ⟨fun _ _ _ hab hbc => hbc.trans hab⟩
  exact List.pairwise_insertionSort _ _

/-- `_order_by_points` sorts, and gives each entry its rank. -/
theorem orderByPoints_eq (ranking : List (TeamRanking K)) :
    orderByPoints ranking = (sorted ranking).map (withRank ranking) := by
  have hloop := assignRanks_eq [] _ 1 (pairwise_sorted ranking) rfl
  rw [List.nil_append] at hloop
  rw [orderByPoints, ← withRank_perm (sorted_perm ranking)]
  exact hloop

theorem orderByPoints_perm (ranking : List (TeamRanking K)) :
    (orderByPoints ranking).Perm (ranking.map (withRank ranking)) := by
  rw [orderByPoints_eq]
  exact (sorted_perm ranking).map _

theorem rank_of_mem_orderByPoints {ranking : List (TeamRanking K)} {x : TeamRanking K}
    (h : x ∈ orderByPoints ranking) : x.rank = rankAmong ranking x.points := by
  rw [orderByPoints_eq] at h
  obtain ⟨entry, -, rfl⟩ := List.mem_map.1 h
  rfl

omit [Field K] in
/-- The points in their order are the same for every order of the input. -/
theorem map_points_sorted {ranking ranking' : List (TeamRanking K)} (h : ranking'.Perm ranking) :
    (sorted ranking').map TeamRanking.points = (sorted ranking).map TeamRanking.points := by
  have hperm := ((sorted_perm ranking').trans (h.trans (sorted_perm ranking).symm)).map
    TeamRanking.points
  have hsorted : ∀ l : List (TeamRanking K),
      ((sorted l).map TeamRanking.points).Pairwise fun p q => q ≤ p := fun l =>
    List.pairwise_map.2 (pairwise_sorted l)
  exact List.Perm.eq_of_pairwise (fun _ _ _ _ hab hba => le_antisymm hba hab) (hsorted ranking')
    (hsorted ranking) hperm

/-- **Ranking by points.**  The result of `_order_by_points` is the entries with their ranks in the
order of their points, and the rank is one more than the number of entries with more points that
are positive.  The order of the input only matters for the places of equal points. -/
theorem orderByPoints_ranks (ranking : List (TeamRanking K)) :
    (orderByPoints ranking).Perm (ranking.map (withRank ranking)) ∧
    (orderByPoints ranking).Pairwise (fun a b => b.points ≤ a.points) ∧
    (∀ x ∈ orderByPoints ranking,
      (x.rank : ℕ) = 1 + ranking.countP fun y => x.points < y.points ∧ 0 < y.points) ∧
    (∀ x ∈ orderByPoints ranking, ∀ y ∈ orderByPoints ranking,
      x.points = y.points ∨ (x.points ≤ 0 ∧ y.points ≤ 0) → x.rank = y.rank) ∧
    ∀ ranking', ranking'.Perm ranking →
      (orderByPoints ranking').Perm (orderByPoints ranking) ∧
      (orderByPoints ranking').map (fun x => (x.points, x.rank)) =
        (orderByPoints ranking).map fun x => (x.points, x.rank) := by
  refine ⟨orderByPoints_perm ranking, ?_, fun x hx => ?_, fun x hx y hy h => ?_, fun ranking' h =>
    ⟨?_, ?_⟩⟩
  · rw [orderByPoints_eq]
    exact List.pairwise_map.2 (pairwise_sorted ranking)
  · rw [rank_of_mem_orderByPoints hx, rankAmong, Nat.succPNat_coe, Nat.add_comm]
    rfl
  · rw [rank_of_mem_orderByPoints hx, rank_of_mem_orderByPoints hy]
    rcases h with heq | ⟨hx0, hy0⟩
    · rw [heq]
    · rw [rankAmong, rankAmong, above_of_nonpos hx0 hy0]
  · refine (orderByPoints_perm ranking').trans
      (List.Perm.trans ?_ (orderByPoints_perm ranking).symm)
    rw [withRank_perm h]
    exact h.map _
  · have hpoints : ∀ l : List (TeamRanking K), (orderByPoints l).map (fun x => (x.points, x.rank)) =
        ((sorted l).map TeamRanking.points).map fun p => (p, rankAmong l p) := by
      intro l
      rw [orderByPoints_eq, List.map_map, List.map_map]
      rfl
    rw [hpoints, hpoints, map_points_sorted h]
    refine List.map_congr_left fun p _ => ?_
    rw [rankAmong, rankAmong, above_perm h]

end Gameserver.Scoring.Database
