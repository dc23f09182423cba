import Gameserver.Scoring.CatchUp
import Gameserver.Scoring.Ranking

/-!
# Rankings without some teams

`FilteredScoringCalculation` of `controlserver/scoring/filtered_scoring.py` "acts like some teams
don't exist": it goes through the stored ranking, drops the excluded teams, and moves every other
team up by the number of teams dropped before it.

* `getRankingForTick`, `getFilteredRankingForTick` — the ranking of a tick, whole and filtered.
* `StaysRanking` — the ranks are those `_order_by_points` gives the remaining teams.
* `NoneBefore` — no excluded team comes before a remaining one of the same rank.
* `filtered_ranking_iff` — the two say the same.
-/

namespace Gameserver.Scoring

variable {K : Type*} [Field K] [LinearOrder K]

/-! ## The model -/

/-- `ORDER BY rank, team_id` -/
def RankBefore (a b : TeamRanking K) : Prop :=
  a.rank < b.rank ∨ (a.rank = b.rank ∧ a.teamId ≤ b.teamId)

instance : DecidableRel (RankBefore (K := K)) := fun a b =>
  inferInstanceAs (Decidable (a.rank < b.rank ∨ (a.rank = b.rank ∧ a.teamId ≤ b.teamId)))

namespace Database

/-- The query of `get_ranking_for_tick`. -/
def rankingQuery (db : Database K) (tick : ℤ) : List (TeamRanking K) :=
  (db.rankingRows tick).insertionSort RankBefore

/-- `get_ranking_for_tick`: a missing ranking is computed. -/
def getRankingForTick (S : Setup K) (db : Database K) (tick : ℤ) :
    Raising PyError (Database K × List (TeamRanking K)) :=
  if tick ≤ 0 then
    .ok (db, (db.teams.insertionSort (· ≤ ·)).map fun teamId =>
      { tick := 0, teamId := teamId, rank := Nat.succPNat 0, points := 0 })
  else if db.rankingQuery tick = [] then
    (db.calculateRankingPerTick S tick.toNat).andThen (fun db => (db, [])) fun db =>
      .ok (db, db.rankingQuery tick)
  else .ok (db, db.rankingQuery tick)

end Database

/-- An entry of a filtered ranking, where a rank is a number like any other. -/
structure FilteredRanking (K : Type*) where
  tick : ℤ
  teamId : ℕ
  rank : ℤ
  points : K
  deriving DecidableEq, Repr

/-- `class FilteredScoringCalculation`, as far as rankings go. -/
structure FilteredScoringCalculation where
  excludeTeamIds : Finset ℕ
  subtractNopPoints : Bool
  /-- `config.nop_team_id` -/
  nopTeamId : ℕ
  deriving DecidableEq

namespace FilteredScoringCalculation

variable (F : FilteredScoringCalculation)

/-- Anyone worse than the NOP team will get 0 points. -/
def pointOffset (rankings : List (TeamRanking K)) : K :=
  if F.subtractNopPoints then
    ((rankings.find? fun r => r.teamId = F.nopTeamId).map TeamRanking.points).getD 0
  else 0

/-- The loop, with the number of teams removed so far. -/
def filterRankings (pointOffset : K) : ℤ → List (TeamRanking K) → List (FilteredRanking K)
  | _, [] => []
  | removed, ranking :: rankings =>
    if ranking.teamId ∈ F.excludeTeamIds then filterRankings pointOffset (removed + 1) rankings
    else
      { tick := ranking.tick, teamId := ranking.teamId, rank := ranking.rank - removed
        points :=
          max 0 (ranking.points - pointOffset) } :: filterRankings pointOffset removed rankings

/-- What `get_ranking_for_tick` does with the ranking of all teams. -/
def filtered (rankings : List (TeamRanking K)) : List (FilteredRanking K) :=
  let rankings := rankings.insertionSort fun a b => a.rank ≤ b.rank
  F.filterRankings (F.pointOffset rankings) 0 rankings

/-- `FilteredScoringCalculation.get_ranking_for_tick`. -/
def getRankingForTick (S : Setup K) (db : Database K) (tick : ℤ) :
    Raising PyError (Database K × List (FilteredRanking K)) :=
  (db.getRankingForTick S tick).andThen (fun r => (r.1, [])) fun r => .ok (r.1, F.filtered r.2)

end FilteredScoringCalculation

/-- The teams that are not excluded. -/
def remaining (exclude : Finset ℕ) (ranking : List (TeamRanking K)) : List (TeamRanking K) :=
  ranking.filter fun y => y.teamId ∉ exclude

/-- A filtered ranking is that of the remaining teams. -/
def StaysRanking (exclude : Finset ℕ) (ranking : List (TeamRanking K))
    (filtered : List (FilteredRanking K)) : Prop :=
  (filtered.map FilteredRanking.teamId).Perm ((remaining exclude ranking).map TeamRanking.teamId) ∧
  ∀ f ∈ filtered, ∀ x ∈ Database.orderByPoints (remaining exclude ranking),
    x.teamId = f.teamId → f.rank = (x.rank : ℤ)

/-- No excluded team comes before a remaining team of the same rank. -/
def NoneBefore (exclude : Finset ℕ) (ranking : List (TeamRanking K)) : Prop :=
  ∀ x ∈ ranking, ∀ y ∈ ranking, x.teamId ∉ exclude → y.teamId ∈ exclude → x.rank = y.rank →
    x.teamId < y.teamId

/-! ## Counting -/

/-- Entries of two kinds are counted apart. -/
theorem countP_split {α : Type*} {l : List α} {p q r : α → Prop} [DecidablePred p] [DecidablePred q]
    [DecidablePred r] (h : ∀ y ∈ l, (p y ↔ q y ∨ r y) ∧ ¬ (q y ∧ r y)) :
    (l.countP fun y => p y) = (l.countP fun y => q y) + l.countP fun y => r y := by
  induction l with
  | nil => rfl
  | cons y l ih =>
    obtain ⟨hor, hand⟩ := h y List.mem_cons_self
    rw [List.countP_cons, List.countP_cons, List.countP_cons,
      ih fun z hz => h z (List.mem_cons_of_mem _ hz)]
    by_cases hq : q y
    · have hr : ¬ r y := fun hr => hand ⟨hq, hr⟩
      simp only [hor.2 (Or.inl hq), hq, hr, decide_true, decide_false, if_true, Bool.false_eq_true,
        if_false]
      omega
    · by_cases hr : r y
      · simp only [hor.2 (Or.inr hr), hq, hr, decide_true, decide_false, if_true,
          Bool.false_eq_true, if_false]
        omega
      · simp only [mt hor.1 (not_or.2 ⟨hq, hr⟩), hq, hr, decide_false, Bool.false_eq_true, if_false,
          add_zero]

open Database

/-- A list of teams with the ranks that `_order_by_points` gives. -/
structure Ranked (ranking : List (TeamRanking K)) : Prop where
  nodup : (ranking.map TeamRanking.teamId).Nodup
  rank : ∀ x ∈ ranking, x.rank = rankAmong ranking x.points

variable {ranking : List (TeamRanking K)} {exclude : Finset ℕ} {x y : TeamRanking K}

theorem ranked_orderByPoints (h : (ranking.map TeamRanking.teamId).Nodup) :
    Ranked (orderByPoints ranking) where
  nodup := by
    have hids : (ranking.map (withRank ranking)).map TeamRanking.teamId =
        ranking.map TeamRanking.teamId := by
      rw [List.map_map]
      rfl
    rw [((orderByPoints_perm ranking).map _).nodup_iff, hids]
    exact h
  rank x hx := by
    have hpoints : above (orderByPoints ranking) x.points = above ranking x.points := by
      rw [above_perm (orderByPoints_perm ranking), above, List.countP_map]
      rfl
    rw [rank_of_mem_orderByPoints hx, rankAmong, rankAmong, hpoints]

theorem Ranked.perm {ranking' : List (TeamRanking K)} (h : Ranked ranking)
    (hperm : ranking'.Perm ranking) : Ranked ranking' where
  nodup := (hperm.map _).nodup_iff.2 h.nodup
  rank x hx := by
    rw [h.rank x (hperm.mem_iff.1 hx), rankAmong, rankAmong, above_perm hperm]

theorem Ranked.eq_of_teamId (h : Ranked ranking) (hx : x ∈ ranking) (hy : y ∈ ranking)
    (heq : x.teamId = y.teamId) : x = y :=
  List.inj_on_of_nodup_map h.nodup hx hy heq

/-- A rank is better if there are more points, and they are positive. -/
theorem Ranked.rank_lt_iff (h : Ranked ranking) (hx : x ∈ ranking) (hy : y ∈ ranking) :
    y.rank < x.rank ↔ x.points < y.points ∧ 0 < y.points := by
  rw [h.rank x hx, h.rank y hy, rankAmong, rankAmong, Nat.succPNat_lt_succPNat]
  constructor
  · intro hlt
    by_contra hnot
    refine absurd hlt (not_lt.2 ?_)
    by_cases hle : y.points ≤ x.points
    · refine List.countP_mono_left fun z _ hz => ?_
      rw [decide_eq_true_eq] at hz ⊢
      exact ⟨hle.trans_lt hz.1, hz.2⟩
    · have hy0 : y.points ≤ 0 := not_lt.1 fun hpos => hnot ⟨not_le.1 hle, hpos⟩
      exact (above_of_nonpos ((not_le.1 hle).le.trans hy0) hy0).le
  · rintro ⟨hlt, hpos⟩
    -- `y` itself is before `x`, and not before itself
    have hsplit : above ranking x.points = above ranking y.points + ranking.countP fun z =>
        (x.points < z.points ∧ z.points ≤ y.points) ∧ 0 < z.points := by
      refine countP_split fun z _ => ⟨⟨fun hz => ?_, ?_⟩, ?_⟩
      · by_cases hle : z.points ≤ y.points
        · exact Or.inr ⟨⟨hz.1, hle⟩, hz.2⟩
        · exact Or.inl ⟨not_le.1 hle, hz.2⟩
      · rintro (hz | hz)
        · exact ⟨hlt.trans hz.1, hz.2⟩
        · exact ⟨hz.1.1, hz.2⟩
      · rintro ⟨hz, hz'⟩
        exact absurd hz.1 (not_lt.2 hz'.1.2)
    rw [hsplit]
    refine Nat.lt_add_of_pos_right (List.countP_pos_iff.2 ⟨y, hy, ?_⟩)
    rw [decide_eq_true_eq]
    exact ⟨⟨hlt, le_rfl⟩, hpos⟩

/-- The excluded teams before an entry. -/
def removedBefore (exclude : Finset ℕ) (ranking : List (TeamRanking K)) (x : TeamRanking K) : ℕ :=
  ranking.countP fun y => y.teamId ∈ exclude ∧
    (y.rank < x.rank ∨ y.rank = x.rank ∧ y.teamId < x.teamId)

/-- Excluded teams of the same rank that come before an entry. -/
def removedBeside (exclude : Finset ℕ) (ranking : List (TeamRanking K)) (x : TeamRanking K) : ℕ :=
  ranking.countP fun y => y.teamId ∈ exclude ∧ y.rank = x.rank ∧ y.teamId < x.teamId

/-- A rank counts the remaining teams and the removed ones, but not those beside it. -/
theorem Ranked.above_eq (h : Ranked ranking) (hx : x ∈ ranking) :
    above ranking x.points + removedBeside exclude ranking x =
      above (remaining exclude ranking) x.points + removedBefore exclude ranking x := by
  have hexcluded : (ranking.countP fun y => y.teamId ∈ exclude ∧ y.rank < x.rank) =
      ranking.countP fun y => y.teamId ∈ exclude ∧ x.points < y.points ∧ 0 < y.points := by
    refine List.countP_congr fun y hy => ?_
    rw [decide_eq_true_eq, decide_eq_true_eq, h.rank_lt_iff hx hy]
  have hbefore : removedBefore exclude ranking x =
      (ranking.countP fun y => y.teamId ∈ exclude ∧ y.rank < x.rank) +
        removedBeside exclude ranking x := by
    refine countP_split fun y _ => ⟨?_, ?_⟩
    · rw [← and_or_left]
    · rintro ⟨⟨-, hlt⟩, -, heq, -⟩
      exact absurd heq hlt.ne
  have habove : above ranking x.points = above (remaining exclude ranking) x.points +
      ranking.countP fun y => y.teamId ∈ exclude ∧ x.points < y.points ∧ 0 < y.points := by
    have hremaining : above (remaining exclude ranking) x.points =
        ranking.countP fun y => y.teamId ∉ exclude ∧ x.points < y.points ∧ 0 < y.points := by
      rw [above, remaining, List.countP_filter]
      refine List.countP_congr fun y _ => ?_
      rw [Bool.and_eq_true, decide_eq_true_eq, decide_eq_true_eq, decide_eq_true_eq, and_comm]
    rw [hremaining]
    refine countP_split fun y _ => ⟨?_, fun hboth => hboth.1.1 hboth.2.1⟩
    by_cases hmem : y.teamId ∈ exclude <;> simp [hmem]
  omega

/-! ## The loop -/

/-- An entry of the filtered ranking. -/
def shown (exclude : Finset ℕ) (ranking : List (TeamRanking K)) (pointOffset : K)
    (x : TeamRanking K) : FilteredRanking K where
  tick := x.tick
  teamId := x.teamId
  rank := x.rank - removedBefore exclude ranking x
  points := max 0 (x.points - pointOffset)

omit [Field K] [LinearOrder K] in
/-- What comes before an entry in a sorted list is what is removed before it. -/
theorem removedBefore_cons {done rest : List (TeamRanking K)}
    (hsorted : (done ++ x :: rest).Pairwise RankBefore)
    (hnodup : ((done ++ x :: rest).map TeamRanking.teamId).Nodup) :
    removedBefore exclude (done ++ x :: rest) x = done.countP fun y => y.teamId ∈ exclude := by
  obtain ⟨-, hrest, hcross⟩ := List.pairwise_append.1 hsorted
  have hafter : (x :: rest).countP (fun y => decide (y.teamId ∈ exclude ∧
      (y.rank < x.rank ∨ y.rank = x.rank ∧ y.teamId < x.teamId))) = 0 := by
    refine List.countP_eq_zero.2 fun y hy => ?_
    rw [decide_eq_true_eq]
    rintro ⟨-, hbefore⟩
    rcases List.mem_cons.1 hy with rfl | hy
    · rcases hbefore with hlt | ⟨-, hlt⟩ <;> exact absurd hlt (lt_irrefl _)
    · rcases (List.pairwise_cons.1 hrest).1 y hy with hlt | ⟨heq, hle⟩
      · rcases hbefore with hlt' | ⟨heq, -⟩
        · exact absurd hlt (lt_asymm hlt')
        · exact absurd heq hlt.ne'
      · rcases hbefore with hlt | ⟨-, hlt⟩
        · exact absurd heq hlt.ne'
        · exact absurd hle (not_le.2 hlt)
  rw [removedBefore, List.countP_append, hafter, Nat.add_zero]
  refine List.countP_congr fun y hy => ?_
  rw [decide_eq_true_eq, decide_eq_true_eq, and_iff_left]
  have hne : y.teamId ≠ x.teamId := by
    rw [List.map_append, List.nodup_append] at hnodup
    exact hnodup.2.2 _ (List.mem_map_of_mem hy) _ (List.mem_map_of_mem List.mem_cons_self)
  rcases hcross y hy x List.mem_cons_self with hlt | ⟨heq, hle⟩
  · exact Or.inl hlt
  · exact Or.inr ⟨heq, lt_of_le_of_ne hle hne⟩

/-- **The loop over a ranking**, after the entries `done`. -/
theorem filterRankings_eq (F : FilteredScoringCalculation) (pointOffset : K)
    (done rest : List (TeamRanking K)) (hsorted : (done ++ rest).Pairwise RankBefore)
    (hnodup : ((done ++ rest).map TeamRanking.teamId).Nodup) :
    F.filterRankings pointOffset (done.countP fun y => y.teamId ∈ F.excludeTeamIds) rest =
      (remaining F.excludeTeamIds rest).map
      (shown F.excludeTeamIds (done ++ rest) pointOffset) := by
  induction rest generalizing done with
  | nil => rfl
  | cons x rest ih =>
    have hassoc : done ++ x :: rest = (done ++ [x]) ++ rest := by simp
    have hnext := ih (done ++ [x]) (by rwa [← hassoc]) (by rwa [← hassoc])
    rw [← hassoc, List.countP_append, List.countP_singleton] at hnext
    rw [FilteredScoringCalculation.filterRankings]
    by_cases hmem : x.teamId ∈ F.excludeTeamIds
    · rw [if_pos hmem, remaining, List.filter_cons_of_neg (by simpa using hmem), ← remaining,
        ← hnext]
      simp [hmem]
    · have hshown : removedBefore F.excludeTeamIds (done ++ x :: rest) x =
          done.countP fun y => y.teamId ∈ F.excludeTeamIds := removedBefore_cons hsorted hnodup
      rw [if_neg hmem, remaining, List.filter_cons_of_pos (by simpa using hmem), ← remaining,
        List.map_cons, shown, hshown, ← hnext]
      simp [hmem]

omit [Field K] [LinearOrder K] in
theorem pairwise_insertionSort_rankBefore (ranking : List (TeamRanking K)) :
    (ranking.insertionSort RankBefore).Pairwise RankBefore := by
  have : Std.Total (RankBefore (K := K)) := ⟨fun a b => by
    rcases lt_trichotomy a.rank b.rank with hlt | heq | hlt
    · exact Or.inl (Or.inl hlt)
    · rcases le_total a.teamId b.teamId with hle | hle
      · exact Or.inl (Or.inr ⟨heq, hle⟩)
      · exact Or.inr (Or.inr ⟨heq.symm, hle⟩)
    · exact Or.inr (Or.inl hlt)⟩
  have : IsTrans (TeamRanking K) RankBefore := ⟨by
    rintro a b c (hab | ⟨hab, hab'⟩) (hbc | ⟨hbc, hbc'⟩)
    · exact Or.inl (hab.trans hbc)
    · exact Or.inl (hbc ▸ hab)
    · exact Or.inl (hab ▸ hbc)
    · exact Or.inr ⟨hab.trans hbc, hab'.trans hbc'⟩⟩
  exact List.pairwise_insertionSort _ _

/-- Sorting by the rank alone changes nothing. -/
theorem filtered_eq (F : FilteredScoringCalculation) (hoffset : F.subtractNopPoints = false)
    (hnodup : (ranking.map TeamRanking.teamId).Nodup) :
    F.filtered (ranking.insertionSort RankBefore) =
      (remaining F.excludeTeamIds (ranking.insertionSort RankBefore)).map
        (shown F.excludeTeamIds (ranking.insertionSort RankBefore) 0) := by
  have hsorted := pairwise_insertionSort_rankBefore ranking
  have hrank : (ranking.insertionSort RankBefore).Pairwise fun a b => a.rank ≤ b.rank :=
    hsorted.imp fun hbefore => hbefore.elim le_of_lt fun heq => heq.1.le
  have hnodup' : ((ranking.insertionSort RankBefore).map TeamRanking.teamId).Nodup :=
    ((List.perm_insertionSort _ ranking).map _).nodup_iff.2 hnodup
  have hloop := filterRankings_eq F (0 : K) [] _ hsorted hnodup'
  rw [List.nil_append] at hloop
  rw [FilteredScoringCalculation.filtered, hrank.insertionSort_eq,
    FilteredScoringCalculation.pointOffset, hoffset]
  exact hloop

/-- **The filtered list of a ranking.** -/
theorem Ranked.filtered_iff (h : Ranked ranking) (F : FilteredScoringCalculation)
    (hoffset : F.subtractNopPoints = false) :
    StaysRanking F.excludeTeamIds ranking (F.filtered (ranking.insertionSort RankBefore)) ↔
      NoneBefore F.excludeTeamIds ranking := by
  have hperm := List.perm_insertionSort RankBefore ranking
  have hremaining : (remaining F.excludeTeamIds (ranking.insertionSort RankBefore)).Perm
      (remaining F.excludeTeamIds ranking) := hperm.filter _
  -- the two ranks of a remaining team differ by what is removed beside it
  have hranks : ∀ x ∈ ranking, x.teamId ∉ F.excludeTeamIds →
      ((shown F.excludeTeamIds (ranking.insertionSort RankBefore) 0 x).rank =
        (rankAmong (remaining F.excludeTeamIds ranking) x.points : ℕ+) ↔
      removedBeside F.excludeTeamIds ranking x = 0) := by
    intro x hx hmem
    have habove : above ranking x.points + removedBeside F.excludeTeamIds ranking x =
        above (remaining F.excludeTeamIds ranking) x.points +
          removedBefore F.excludeTeamIds ranking x := h.above_eq hx
    have hbefore : removedBefore F.excludeTeamIds (ranking.insertionSort RankBefore) x =
        removedBefore F.excludeTeamIds ranking x := hperm.countP_eq _
    have hcast : ∀ p, ((rankAmong (remaining F.excludeTeamIds ranking) p : ℕ+) : ℤ) =
        (above (remaining F.excludeTeamIds ranking) p : ℤ) + 1 := by
      intro p
      rw [rankAmong]
      push_cast [Nat.succPNat_coe]
      rfl
    have hx' : ((x.rank : ℕ+) : ℤ) = (above ranking x.points : ℤ) + 1 := by
      rw [h.rank x hx, rankAmong]
      push_cast [Nat.succPNat_coe]
      rfl
    rw [shown, hbefore, hcast]
    show ((x.rank : ℕ+) : ℤ) - _ = _ ↔ _
    rw [hx']
    omega
  have hbeside : ∀ x ∈ ranking, removedBeside F.excludeTeamIds ranking x = 0 ↔
      ∀ y ∈ ranking, y.teamId ∈ F.excludeTeamIds → y.rank = x.rank → ¬ y.teamId < x.teamId := by
    intro x _
    rw [removedBeside, List.countP_eq_zero]
    refine forall₂_congr fun y _ => ?_
    rw [decide_eq_true_eq, not_and, not_and]
  rw [filtered_eq F hoffset h.nodup]
  constructor
  · rintro ⟨-, hstays⟩ x hx y hy hxmem hymem heq
    have hx' : x ∈ remaining F.excludeTeamIds ranking :=
      List.mem_filter.2 ⟨hx, by simpa using hxmem⟩
    have hrank := hstays _ (List.mem_map_of_mem (hremaining.mem_iff.2 hx')) _
      ((orderByPoints_perm _).mem_iff.2 (List.mem_map_of_mem hx')) rfl
    have hnot := (hbeside x hx).1 ((hranks x hx hxmem).1 hrank) y hy hymem heq.symm
    refine lt_of_le_of_ne (not_lt.1 hnot) fun hid => hxmem ?_
    rwa [hid]
  · intro hnone
    refine ⟨?_, ?_⟩
    · rw [List.map_map]
      exact hremaining.map _
    · intro f hf x hx hid
      obtain ⟨x₀, hx₀, rfl⟩ := List.mem_map.1 hf
      obtain ⟨x₁, hx₁, rfl⟩ := List.mem_map.1 ((orderByPoints_perm _).mem_iff.1 hx)
      have hmem := List.mem_filter.1 (hremaining.mem_iff.1 hx₀)
      obtain rfl : x₁ = x₀ := h.eq_of_teamId (List.mem_filter.1 hx₁).1 hmem.1 hid
      have hxmem : x₁.teamId ∉ F.excludeTeamIds := by simpa using hmem.2
      refine (hranks x₁ hmem.1 hxmem).2 ((hbeside x₁ hmem.1).2 fun y hy hymem heq hlt => ?_)
      exact absurd (hnone x₁ hmem.1 y hy hxmem hymem heq.symm) (lt_asymm hlt)

/-! ## The ranking of a tick -/

namespace Database

variable {S : Setup K} {db db' : Database K}

theorem tables_scoreTick {tick : ℤ} {lastTickPoints : PointsDict K}
    (h : db.scoreTick S tick lastTickPoints = .ok db') :
    db'.teams = db.teams ∧ db'.teamRankings = db.teamRankings := by
  rw [scoreTick] at h
  cases hscore : S.calculateScoringForTick db.roster (db.tickInput S tick lastTickPoints) with
  | ok points =>
    rw [hscore] at h
    obtain rfl := Raising.ok.inj h
    exact ⟨rfl, rfl⟩
  | raised e points =>
    rw [hscore] at h
    cases h

/-- Scoring leaves the teams and the rankings alone. -/
theorem tables_calculateScoringForTick {tick : ℕ}
    (h : db.calculateScoringForTick S tick = .ok db') :
    db'.teams = db.teams ∧ db'.teamRankings = db.teamRankings := by
  induction tick generalizing db' with
  | zero => exact tables_scoreTick h
  | succ tick ih =>
    cases tick with
    | zero => exact tables_scoreTick h
    | succ tick =>
      rw [calculateScoringForTick] at h
      split_ifs at h
      · cases hlast : db.calculateScoringForTick S (tick + 1) with
        | ok db₁ =>
          rw [hlast] at h
          obtain ⟨hteams, hrankings⟩ := ih hlast
          obtain ⟨hteams', hrankings'⟩ := tables_scoreTick h
          exact ⟨hteams'.trans hteams, hrankings'.trans hrankings⟩
        | raised e db₁ =>
          rw [hlast] at h
          cases h
      · exact tables_scoreTick h

/-- `calculate_ranking_per_tick` stores what `_order_by_points` makes of the teams. -/
theorem rankingRows_of_calculateRankingPerTick {tick : ℕ}
    (h : db.calculateRankingPerTick S tick = .ok db') :
    db'.teams = db.teams ∧
      ∃ results, db'.rankingRows tick = orderByPoints (db'.unranked tick results) := by
  rw [calculateRankingPerTick] at h
  dsimp only at h
  generalize hcleared : ({ db with
    teamRankings := db.teamRankings.filter fun row => row.tick ≠ tick } : Database K) = cleared at h
  cases hresults : cleared.getResultsForTickLite S tick with
  | raised e r =>
    rw [hresults] at h
    cases h
  | ok r =>
    rw [hresults] at h
    obtain rfl := Raising.ok.inj h
    have htables : r.1.teams = cleared.teams ∧ r.1.teamRankings = cleared.teamRankings := by
      rw [getResultsForTickLite] at hresults
      split_ifs at hresults
      · obtain rfl := Raising.ok.inj hresults
        exact ⟨rfl, rfl⟩
      · cases hscore : cleared.calculateScoringForTick S tick with
        | ok db₁ =>
          rw [hscore] at hresults
          obtain rfl := Raising.ok.inj hresults
          exact tables_calculateScoringForTick hscore
        | raised e db₁ =>
          rw [hscore] at hresults
          cases hresults
      · obtain rfl := Raising.ok.inj hresults
        exact ⟨rfl, rfl⟩
    refine ⟨by rw [htables.1, ← hcleared], r.1.roster.pairs.filterMap r.2, ?_⟩
    have hold : r.1.teamRankings.filter (fun row => decide (row.tick = (tick : ℤ))) = [] := by
      rw [htables.2, ← hcleared, List.filter_filter]
      exact List.filter_eq_nil_iff.2 (by simp)
    rw [rankingRows, List.filter_append, hold, List.nil_append]
    exact List.filter_eq_self.2 fun e he =>
      decide_eq_true (orderByPoints_tick (unranked_tick _ _) e he)

/-- Without a stored ranking there are no teams. -/
theorem teams_of_rankingRows_eq_nil {tick : ℕ} (h : db.calculateRankingPerTick S tick = .ok db')
    (hnil : db'.rankingRows tick = []) : db'.teams = [] := by
  obtain ⟨-, results, hrows⟩ := rankingRows_of_calculateRankingPerTick h
  have hlength := (orderByPoints_perm (db'.unranked tick results)).length_eq
  rw [← hrows, hnil, List.length_map, unranked, List.length_map] at hlength
  exact List.eq_nil_of_length_eq_zero hlength.symm

/-- `get_ranking_for_tick` finds the stored ranking. -/
theorem getRankingForTick_eq {tick : ℕ} (htick : 0 < tick)
    (h : db.calculateRankingPerTick S tick = .ok db') :
    ∃ db'', db'.getRankingForTick S tick = .ok (db'', db'.rankingQuery tick) := by
  have hpos : ¬ (tick : ℤ) ≤ 0 := by omega
  rw [getRankingForTick, if_neg hpos]
  by_cases hnil : db'.rankingQuery tick = []
  · have hrows : db'.rankingRows tick = [] := by
      rw [← List.length_eq_zero_iff, ← List.length_insertionSort RankBefore]
      exact List.length_eq_zero_iff.2 hnil
    have hteams := teams_of_rankingRows_eq_nil h hrows
    have hcomplete : db'.resultsMissing tick = false := by simp [resultsMissing, hteams]
    have hself : (db'.ranked tick).rankingQuery tick = [] := by
      rw [rankingQuery, rankingRows_ranked_self, unranked, hteams]
      rfl
    refine ⟨db'.ranked tick, ?_⟩
    rw [if_pos hnil, Int.toNat_natCast, calculateRankingPerTick_eq htick.ne' hcomplete,
      Raising.andThen_ok, hself, hnil]
  · exact ⟨db', if_neg hnil⟩

end Database

/-- **The filtered ranking is a ranking exactly if no excluded team comes before a remaining one of
the same rank.** -/
theorem filtered_ranking_iff (S : Setup K) (db db' : Database K) {tick : ℕ} (htick : 0 < tick)
    (hteams : db.teams.Nodup) (h : db.calculateRankingPerTick S tick = .ok db')
    (F : FilteredScoringCalculation) (hoffset : F.subtractNopPoints = false) :
    (∃ db'' rankings, F.getRankingForTick S db' tick = .ok (db'', rankings) ∧
      StaysRanking F.excludeTeamIds (db'.rankingRows tick) rankings) ↔
    NoneBefore F.excludeTeamIds (db'.rankingRows tick) := by
  obtain ⟨hsame, results, hrows⟩ := rankingRows_of_calculateRankingPerTick h
  have hids : (db'.unranked tick results).map TeamRanking.teamId = db'.teams := by
    rw [unranked, List.map_map]
    exact List.map_id _
  have hranked : Ranked (db'.rankingRows tick) := by
    rw [hrows]
    exact ranked_orderByPoints (by rwa [hids, hsame])
  obtain ⟨db'', hget⟩ := getRankingForTick_eq htick h
  rw [← hranked.filtered_iff F hoffset, FilteredScoringCalculation.getRankingForTick, hget,
    Raising.andThen_ok]
  constructor
  · rintro ⟨_, rankings, hok, hstays⟩
    obtain ⟨-, rfl⟩ := Prod.mk.inj (Raising.ok.inj hok)
    exact hstays
  · exact fun hstays => ⟨db'', _, rfl, hstays⟩

/-! ### Two teams with the same points -/

/-- A setup without points. -/
def plainSetup : Setup ℚ where
  config := ⟨10, 1, 1, 1, none⟩
  fn := ⟨id, id⟩
  algorithm := saarctfScoreAlgorithm ⟨id, id⟩

theorem nodup_map_uniqueKey_nil : (([] : List SubmittedFlag).map SubmittedFlag.uniqueKey).Nodup :=
  List.nodup_nil

theorem nodup_map_id_nil : (([] : List SubmittedFlag).map SubmittedFlag.id).Nodup := List.nodup_nil

/-- Teams 1 and 2 have one point each in their only service. -/
def tiedDatabase : Database ℚ where
  teams := [1, 2]
  services := [Service.new 1 1]
  submittedFlags := ⟨[], nodup_map_id_nil, nodup_map_uniqueKey_nil⟩
  checkerResults := []
  teamPoints := [⟨1, 1, 1, 0, 0, 1, 0, 0, 0⟩, ⟨2, 1, 1, 0, 0, 1, 0, 0, 0⟩]
  teamRankings := []

theorem calculateRankingPerTick_tied :
    tiedDatabase.calculateRankingPerTick plainSetup 1 = .ok (tiedDatabase.ranked 1) :=
  calculateRankingPerTick_eq one_ne_zero (by decide)

/-- Without team 2, team 1 stays where it is. -/
theorem filtered_ranking_without_last :
    ∃ db'' rankings, (⟨{2}, false, 2⟩ : FilteredScoringCalculation).getRankingForTick plainSetup
        (tiedDatabase.ranked 1) 1 = .ok (db'', rankings) ∧
      StaysRanking {2} ((tiedDatabase.ranked 1).rankingRows 1) rankings :=
  (filtered_ranking_iff plainSetup tiedDatabase _ Nat.one_pos (by decide)
    calculateRankingPerTick_tied ⟨{2}, false, 2⟩ rfl).2 (by
      unfold NoneBefore
      decide +kernel)

/-- Without team 1, team 2 has the rank 0. -/
theorem not_filtered_ranking :
    ¬ ∃ db'' rankings, (⟨{1}, false, 1⟩ : FilteredScoringCalculation).getRankingForTick plainSetup
        (tiedDatabase.ranked 1) 1 = .ok (db'', rankings) ∧
      StaysRanking {1} ((tiedDatabase.ranked 1).rankingRows 1) rankings := by
  rintro ⟨db'', rankings, hget, hstays⟩
  obtain ⟨db₁, hall⟩ := getRankingForTick_eq Nat.one_pos calculateRankingPerTick_tied
  change ((tiedDatabase.ranked 1).getRankingForTick plainSetup (1 : ℕ)).andThen _ _ = _ at hget
  rw [hall, Raising.andThen_ok] at hget
  obtain ⟨-, rfl⟩ := Prod.mk.inj (Raising.ok.inj hget)
  have hnot : ¬ StaysRanking {1} ((tiedDatabase.ranked 1).rankingRows 1)
      ((⟨{1}, false, 1⟩ : FilteredScoringCalculation).filtered
        ((tiedDatabase.ranked 1).rankingQuery 1)) := by
    unfold StaysRanking
    decide +kernel
  exact hnot hstays

end Gameserver.Scoring
