import Gameserver.Calculation.Basic

/-!
# The keys of the tables

`teams`, `services` and `team_points` have keys that the scoring relies on and keeps.

* `Constraints` — the primary keys, the unique constraint and the foreign keys.
* `Constraints.covered` — no results are missing if there are enough rows.
* `Constraints.scored` — scoring a tick keeps them, with one row for every pair.
-/

namespace Gameserver.Calculation

open Gameserver.Scoring Gameserver.FirstBlood

variable {K : Type*}

/-! ## Constraints of the tables -/

/-- The primary keys of `teams` and `services`, and `team_points_unique_1` with the foreign
keys of `team_points`. -/
structure Constraints (db : Database K) : Prop where
  teams : db.teams.Nodup
  services : (db.services.map Service.id).Nodup
  points_unique : (db.teamPoints.map fun row => (row.tick, row.teamId, row.serviceId)).Nodup
  points_known : ∀ row ∈ db.teamPoints, (row.teamId, row.serviceId) ∈ db.roster.pairs

/-- The pair of a row. -/
def pairOf (row : TeamPointsLite K) : TeamServicePair := (row.teamId, row.serviceId)

theorem pairs_nodup {roster : Roster} (hteams : roster.teamIds.Nodup)
    (hservices : (roster.services.map Service.id).Nodup) : roster.pairs.Nodup := by
  have heq : roster.pairs = roster.teamIds.product (roster.services.map Service.id) := by
    simp only [Roster.pairs, List.product, List.map_map]
    rfl
  rw [heq]
  exact hteams.product hservices

theorem length_pairs (roster : Roster) :
    roster.pairs.length = roster.teamIds.length * roster.services.length := by
  simp [Roster.pairs]

/-- The rows of a tick have different pairs. -/
theorem Constraints.pointsRows_nodup {db : Database K} (h : Constraints db) (tick : ℤ) :
    ((db.pointsRows tick).map pairOf).Nodup := by
  have hrows : ((db.pointsRows tick).map fun row => (row.tick, row.teamId, row.serviceId)).Nodup :=
    h.points_unique.sublist (List.filter_sublist.map _)
  have heq : (db.pointsRows tick).map (fun row => (row.tick, row.teamId, row.serviceId)) =
      ((db.pointsRows tick).map pairOf).map fun pair => (tick, pair) := by
    rw [List.map_map]
    apply List.map_congr_left
    intro row hrow
    have htick : row.tick = tick := of_decide_eq_true (List.mem_filter.1 hrow).2
    simp [pairOf, htick]
  rw [heq] at hrows
  exact hrows.of_map _

/-- As many rows as there are pairs: none is missing. -/
theorem Constraints.covered {db : Database K} (h : Constraints db) {tick : ℕ}
    (hcomplete : db.resultsMissing tick = false) :
    ∀ key ∈ db.roster.pairs, (db.pointsDict tick key).isSome := by
  have hsubset : ((db.pointsRows tick).map pairOf).toFinset ⊆ db.roster.pairs.toFinset := by
    intro pair hpair
    obtain ⟨row, hrow, rfl⟩ := List.mem_map.1 (List.mem_toFinset.1 hpair)
    exact List.mem_toFinset.2 (h.points_known row (List.mem_filter.1 hrow).1)
  have hcard : db.roster.pairs.toFinset.card ≤ ((db.pointsRows tick).map pairOf).toFinset.card := by
    rw [List.toFinset_card_of_nodup (pairs_nodup h.teams h.services),
      List.toFinset_card_of_nodup (h.pointsRows_nodup tick), length_pairs, List.length_map]
    exact not_lt.1 (of_decide_eq_false hcomplete)
  have heq := Finset.eq_of_subset_of_card_le hsubset hcard
  intro key hkey
  have hmem : key ∈ ((db.pointsRows tick).map pairOf).toFinset := by
    rw [heq]
    exact List.mem_toFinset.2 hkey
  obtain ⟨row, hrow, rfl⟩ := List.mem_map.1 (List.mem_toFinset.1 hmem)
  exact List.find?_isSome.2 ⟨row, hrow, decide_eq_true rfl⟩

/-- The rows of a dictionary that covers the roster have the pairs of the roster. -/
theorem map_pairOf_filterMap {points : PointsDict K} {keys : List TeamServicePair}
    (hsome : ∀ key ∈ keys, (points key).isSome)
    (hkeys : ∀ key p, points key = some p → (p.teamId, p.serviceId) = key) :
    (keys.filterMap points).map pairOf = keys := by
  induction keys with
  | nil => rfl
  | cons key keys ih =>
    obtain ⟨p, hp⟩ := Option.isSome_iff_exists.1 (hsome key List.mem_cons_self)
    rw [List.filterMap_cons_some hp, List.map_cons,
      ih fun k hk => hsome k (List.mem_cons_of_mem _ hk)]
    exact congrArg (· :: keys) (hkeys key p hp)

section Scored

variable [Field K] [LinearOrder K] (S : Setup K) {db : Database K} (tick : ℤ)
  {lastTickPoints : PointsDict K} (hlast : ∀ key ∈ db.roster.pairs, (lastTickPoints key).isSome)

include hlast

theorem pairs_scored :
    ((db.scored S tick lastTickPoints).pointsRows tick).map pairOf = db.roster.pairs := by
  rw [Database.scored,
    Database.pointsRows_saveTeampoints_self fun _ _ hp => (Database.tickResults_tick _ _ hp).1]
  exact map_pairOf_filterMap
    (fun key hkey => (Database.tickResults_covers (S := S) hlast key).2 hkey)
    (fun _ _ hp => (Database.tickResults_tick _ _ hp).2)

/-- Scoring a tick keeps the constraints. -/
theorem Constraints.scored (h : Constraints db) :
    Constraints (db.scored S tick lastTickPoints) := by
  have hnew := pairs_scored S tick hlast
  set results := tickResults S db.roster (db.tickInput S tick lastTickPoints)
  have hrows : (db.scored S tick lastTickPoints).teamPoints =
      (db.teamPoints.filter fun row => row.tick ≠ tick) ++ db.roster.pairs.filterMap results := rfl
  have htick : ∀ row ∈ db.roster.pairs.filterMap results, row.tick = tick := by
    intro row hrow
    obtain ⟨key, -, hkey⟩ := List.mem_filterMap.1 hrow
    exact (Database.tickResults_tick _ _ hkey).1
  have hpairs : (db.roster.pairs.filterMap results).map pairOf = db.roster.pairs := by
    rw [Database.scored, Database.pointsRows_saveTeampoints_self
      fun _ _ hp => (Database.tickResults_tick _ _ hp).1] at hnew
    exact hnew
  refine ⟨h.teams, h.services, ?_, ?_⟩
  · rw [hrows, List.map_append, List.nodup_append]
    refine ⟨h.points_unique.sublist (List.filter_sublist.map _), ?_, ?_⟩
    · have hkeys : ((db.roster.pairs.filterMap results).map fun row =>
          (row.tick, row.teamId, row.serviceId)) =
            db.roster.pairs.map fun pair => (tick, pair) := by
        conv_rhs => rw [← hpairs]
        rw [List.map_map]
        apply List.map_congr_left
        intro row hrow
        simp [pairOf, htick row hrow]
      rw [hkeys]
      exact (pairs_nodup h.teams h.services).map fun _ _ heq => congrArg Prod.snd heq
    · intro a ha b hb hab
      obtain ⟨row, hrow, rfl⟩ := List.mem_map.1 ha
      obtain ⟨row', hrow', rfl⟩ := List.mem_map.1 hb
      have hne : row.tick ≠ tick := by simpa using (List.mem_filter.1 hrow).2
      exact hne ((congrArg Prod.fst hab).trans (htick row' hrow'))
  · intro row hrow
    rw [hrows] at hrow
    rcases List.mem_append.1 hrow with hold | hnew
    · exact h.points_known row (List.mem_filter.1 hold).1
    · have hmem : pairOf row ∈ (db.roster.pairs.filterMap results).map pairOf :=
        List.mem_map_of_mem hnew
      rwa [hpairs] at hmem

end Scored

/-- The rows of a pair in a tick. -/
def rowsOf (db : Database K) (tick : ℤ) (pair : TeamServicePair) : List (TeamPointsLite K) :=
  (db.pointsRows tick).filter fun row => pairOf row = pair

theorem length_rowsOf (db : Database K) (tick : ℤ) (pair : TeamServicePair) :
    (rowsOf db tick pair).length = ((db.pointsRows tick).map pairOf).count pair := by
  rw [rowsOf, List.count, List.countP_map, List.countP_eq_length_filter]
  congr 1
  exact List.filter_congr fun row _ => (beq_eq_decide (pairOf row) pair).symm

end Gameserver.Calculation
