import Gameserver.Board.Generator

/-!
# The policy of the statistics files

`StatisticJsonGenerator.update_file` states its policy: what is beyond the current tick is
ignored and kept, the file is updated if that is possible, and recreated if not.

* `FastUpdates` — successive updates of an empty file, all of them on the fast path.
* `FollowsPolicy`, `UpdatesByPolicy` — the policy, for one update.
* `updatesByPolicy_iff` — the updates that follow it, for any statistic.
-/

namespace Gameserver.Board

open Gameserver.Scoring Gameserver.Calculation

/-! ## The policy -/

section Policy

variable {V : Type} (services : List Service) (name : ℕ → String) (gen : ℕ → Statistic V)

/-- The file after `n` updates of an empty one, for the ticks below `n`. -/
inductive FastUpdates : ℕ → Option (StatisticFile V) → Prop
  | empty : FastUpdates 0 none
  | update {n : ℕ} {file : Option (StatisticFile V)} {new : StatisticFile V}
      (h : FastUpdates n file) (hfits : fits services name n file = true)
      (hnew : updateFile services (gen n) name n file = .ok new) : FastUpdates (n + 1) (some new)

/-- The file is `new` after the update for tick `n`; `value` are the true values. -/
structure FollowsPolicy (value : ℕ → Service → V) (n : ℕ) (file : Option (StatisticFile V))
    (new : StatisticFile V) : Prop where
  names : new.services = serviceNames services name n
  reaches : ∀ i < services.length, ∃ row, new.rows[i]? = some row ∧ n < row.length
  current : ∀ (i : ℕ) (service : Service), services[i]? = some service →
    cell new.rows i n = some (value n service)
  /-- the fast path -/
  unchanged : fits services name n file = true → ∀ i < services.length, ∀ t < n,
    cell new.rows i t = oldCell file i t
  /-- the file is recreated -/
  recreated : ¬ fits services name n file = true → ∀ (i : ℕ) (service : Service),
    services[i]? = some service → ∀ t < n, cell new.rows i t = some (value t service)
  kept : ∀ i t v, n < t → oldCell file i t = some v → cell new.rows i t = some v
  successive : ¬ fits services name n file = true →
    ∃ fast, FastUpdates services name gen (n + 1) fast ∧
      ∀ i < services.length, ∀ t ≤ n, cell new.rows i t = oldCell fast i t

/-- The update for tick `n` follows the policy. -/
def UpdatesByPolicy (value : ℕ → Service → V) (n : ℕ) (file : Option (StatisticFile V)) : Prop :=
  ∃ new, updateFile services (gen n) name n file = .ok new ∧
    FollowsPolicy services name gen value n file new

/-- The file has the current names, or no row. -/
def NamesCurrent (n : ℕ) (file : Option (StatisticFile V)) : Prop :=
  ∀ old, file = some old → old.rows ≠ [] → old.services = serviceNames services name n

/-- The file has no value beyond the tick. -/
def NothingAbove (n : ℕ) (file : Option (StatisticFile V)) : Prop :=
  ∀ i t, n < t → oldCell file i t = none

end Policy

section Iff

variable {V : Type} {services : List Service} {name : ℕ → String} {gen : ℕ → Statistic V}
  {value : ℕ → Service → V} {n : ℕ} {file : Option (StatisticFile V)}

theorem services_readFile_iff :
    (readFile services name n file).services = serviceNames services name n ↔
    NamesCurrent services name n file := by
  cases file with
  | none =>
    refine iff_of_true ?_ fun old h => absurd h.symm (Option.some_ne_none old)
    rw [readFile]
    split_ifs <;> rfl
  | some old =>
    rw [readFile, Option.getD_some]
    split_ifs with hlength
    · exact iff_of_true rfl fun _ h hrows => absurd (List.length_eq_zero_iff.1 hlength)
        ((Option.some.inj h) ▸ hrows)
    · refine ⟨fun h _ heq _ => (Option.some.inj heq) ▸ h, fun h => h old rfl fun hrows =>
        hlength ?_⟩
      rw [hrows, List.length_nil]

/-! ### Successive updates -/

/-- The values of the ticks so far, and no more. -/
theorem exists_fastUpdates (name : ℕ → String) (hnodup : (services.map Service.id).Nodup) (n : ℕ)
    (hsingle : ∀ t < n, (gen t).singleTickInfo =
      .ok (services.map fun service => (service.id, value t service))) :
    ∃ fast, FastUpdates services name gen n fast ∧ fits services name n fast = true ∧
      ∀ (i : ℕ) (service : Service), services[i]? = some service →
        ∀ t, oldCell fast i t = if t < n then some (value t service) else none := by
  induction n with
  | zero =>
    refine ⟨none, .empty, ?_, fun i service _ t => by simp [oldCell, oldRows, cell]⟩
    refine (fits_iff name).2 ⟨services_readFile_iff.2 fun _ h => ?_, ?_, fun _ _ => Nat.zero_le _⟩
    · exact absurd h.symm (Option.some_ne_none _)
    · simp [rows_readFile]
  | succ n ih =>
    obtain ⟨fast, hfast, hfits, hcells⟩ := ih fun t ht => hsingle t (by omega)
    obtain ⟨rows, hnew, hlength, hreach, hrows⟩ :=
      updateFile_of_fits hnodup (hsingle n (by omega)) hfits
    refine ⟨_, .update hfast hfits hnew, ?_, fun i service hi t => ?_⟩
    · refine (fits_iff name).2 ⟨services_readFile_iff.2 ?_, ?_, ?_⟩
      · rintro _ ⟨⟩ -
        rw [serviceNames_natCast, serviceNames_natCast]
      · rw [rows_readFile]
        exact hlength
      · rw [rows_readFile]
        exact hreach
    · show cell rows i t = _
      rw [hrows i service t hi, hcells i service hi]
      by_cases ht : t = n
      · simp [ht]
      · rw [if_neg ht]
        exact if_congr (by omega) rfl rfl

/-! ### The slow path -/

theorem cell_replicate (services : List Service) (n : ℕ) (emptyValue : V) (i t : ℕ) :
    cell (services.map fun _ => List.replicate (n + 1) emptyValue) i t =
      if i < services.length ∧ t ≤ n then some emptyValue else none := by
  rw [cell, List.getElem?_map]
  by_cases hi : i < services.length
  · rw [List.getElem?_eq_getElem hi, Option.map_some, Option.bind_some, List.getElem?_replicate]
    exact if_congr (by omega) rfl rfl
  · rw [List.getElem?_eq_none (not_lt.1 hi), if_neg (by omega)]
    rfl

/-- The rows of the slow path reach the tick. -/
theorem slowRows_reaches (name : ℕ → String) (n : ℕ) (file : Option (StatisticFile V)) {i : ℕ}
    (hi : i < services.length) (emptyValue : V) :
    ∃ row, (slowRows services emptyValue n (readFile services name n file).rows)[i]? = some row ∧
      n < row.length := by
  classical
  rw [slowRows_readFile]
  split_ifs with hkept
  · have hlt : i < (oldRows file).length := hkept.1.symm ▸ hi
    exact ⟨_, List.getElem?_eq_getElem hlt, hkept.2 _ (List.getElem_mem hlt)⟩
  · refine ⟨List.replicate (n + 1) emptyValue, ?_, by simp⟩
    rw [List.getElem?_map, List.getElem?_eq_getElem hi, Option.map_some]

/-- What the query leaves out is in the rows of the slow path. -/
def LeftOutHolds (services : List Service) (gen : Statistic V) (value : ℕ → Service → V) (n : ℕ)
    (file : Option (StatisticFile V)) : Prop :=
  ∀ (i : ℕ) (service : Service), services[i]? = some service → ∀ t ≤ n,
    (t, service.id) ∉ gen.allTickInfo.map Prod.fst →
      (Kept services n file → oldCell file i t = some (value t service)) ∧
      (¬ Kept services n file → gen.emptyValue = value t service)

theorem leftOutHolds_iff {gen : Statistic V} {rows : List (List V)}
    (hrows : ∀ (i : ℕ) (service : Service) (t : ℕ), services[i]? = some service → cell rows i t =
      (cell (slowRows services gen.emptyValue n (readFile services name n file).rows) i t).map
        fun old => if (t, service.id) ∈ gen.allTickInfo.map Prod.fst then value t service
          else old) :
    (∀ (i : ℕ) (service : Service), services[i]? = some service → ∀ t ≤ n,
      cell rows i t = some (value t service)) ↔ LeftOutHolds services gen value n file := by
  classical
  refine forall₃_congr fun i service hi => forall₂_congr fun t ht => ?_
  have hlt : i < services.length := (List.getElem?_eq_some_iff.1 hi).1
  rw [hrows i service t hi, slowRows_readFile]
  by_cases hkept : Kept services n file
  · have hlt' : i < (oldRows file).length := hkept.1.symm ▸ hlt
    have hreach := ht.trans_lt (hkept.2 _ (List.getElem_mem hlt'))
    obtain ⟨old, hold⟩ : ∃ old, oldCell file i t = some old :=
      ⟨_, (cell_of_getElem? (List.getElem?_eq_getElem hlt')).trans
        (List.getElem?_eq_getElem hreach)⟩
    rw [if_pos hkept, ← oldCell, hold, Option.map_some]
    split_ifs with hmem <;> simp [hmem, hkept]
  · rw [if_neg hkept, cell_replicate, if_pos ⟨hlt, ht⟩, Option.map_some]
    split_ifs with hmem <;> simp [hmem, hkept]

theorem kept_or_nothingAbove_iff {gen : Statistic V} {rows : List (List V)}
    (hticks : ∀ tick id v, ((tick, id), v) ∈ gen.allTickInfo → tick ≤ n)
    (hlength : ∀ i : ℕ, rows[i]?.map List.length =
      (slowRows services gen.emptyValue n (readFile services name n file).rows)[i]?.map List.length)
    (hrows : ∀ (i : ℕ) (service : Service) (t : ℕ), services[i]? = some service → cell rows i t =
      (cell (slowRows services gen.emptyValue n (readFile services name n file).rows) i t).map
        fun old => if (t, service.id) ∈ gen.allTickInfo.map Prod.fst then value t service
          else old) :
    (∀ i t v, n < t → oldCell file i t = some v → cell rows i t = some v) ↔
      Kept services n file ∨ NothingAbove n file := by
  classical
  simp only [slowRows_readFile] at hlength hrows
  have habove : ∀ (i : ℕ) (service : Service), services[i]? = some service → ∀ t, n < t →
      cell rows i t = cell (if Kept services n file then oldRows file
        else services.map fun _ => List.replicate (n + 1) gen.emptyValue) i t := by
    intro i service hi t ht
    have hnot : (t, service.id) ∉ gen.allTickInfo.map Prod.fst := by
      intro hmem
      obtain ⟨⟨⟨tick, id⟩, v⟩, he, heq⟩ := List.mem_map.1 hmem
      obtain ⟨rfl, rfl⟩ := Prod.mk.inj heq
      exact absurd (hticks _ _ _ he) (not_le.2 ht)
    rw [hrows i service t hi]
    simp only [if_neg hnot, Option.map_id']
  by_cases hkept : Kept services n file
  · simp only [if_pos hkept] at hlength habove
    refine iff_of_true (fun i t v ht hold => ?_) (Or.inl hkept)
    rcases lt_or_ge i services.length with hi | hi
    · rw [habove i _ (List.getElem?_eq_getElem hi) t ht]
      exact hold
    · rw [oldCell, cell_eq_none_of_le (hkept.1.trans_le hi)] at hold
      exact absurd hold.symm (Option.some_ne_none v)
  · simp only [if_neg hkept] at hlength habove
    rw [or_iff_right hkept]
    have hnone : ∀ i t, n < t → cell rows i t = none := by
      intro i t ht
      rcases lt_or_ge i services.length with hi | hi
      · rw [habove i _ (List.getElem?_eq_getElem hi) t ht, cell_replicate, if_neg (by omega)]
      · have hlen := hlength i
        rw [List.getElem?_map, List.getElem?_eq_none hi] at hlen
        rw [cell, Option.map_eq_none_iff.1 hlen]
        rfl
    constructor
    · intro h i t ht
      by_contra hsome
      obtain ⟨v, hv⟩ := Option.ne_none_iff_exists'.1 hsome
      exact absurd ((h i t v ht hv).symm.trans (hnone i t ht)) (Option.some_ne_none v)
    · intro h i t v ht hold
      exact absurd (hold.symm.trans (h i t ht)) (Option.some_ne_none v)

/-! ### All updates -/

theorem updatesByPolicy_of_fits (hnodup : (services.map Service.id).Nodup)
    (hsingle : (gen n).singleTickInfo =
      .ok (services.map fun service => (service.id, value n service)))
    (hfits : fits services name n file = true) :
    UpdatesByPolicy services name gen value n file := by
  obtain ⟨rows, hnew, hlength, hreach, hrows⟩ := updateFile_of_fits hnodup hsingle hfits
  refine ⟨_, hnew, ?_⟩
  refine { names := rfl, reaches := ?_, current := ?_, unchanged := ?_, recreated := ?_, kept := ?_,
           successive := ?_ }
  · intro i hi
    have hlt : i < rows.length := hlength.symm ▸ hi
    exact ⟨_, List.getElem?_eq_getElem hlt, hreach _ (List.getElem_mem hlt)⟩
  · intro i service hi
    rw [hrows i service n hi, if_pos rfl]
  · intro _ i hi t ht
    rw [hrows i _ t (List.getElem?_eq_getElem hi), if_neg ht.ne]
  · exact fun hnot => absurd hfits hnot
  · intro i t v ht hold
    have hi : i < services.length := by
      by_contra hge
      obtain ⟨-, hlen, -⟩ := (fits_iff name).1 hfits
      rw [← cell_readFile name n, cell_eq_none_of_le (hlen.trans_le (not_lt.1 hge))] at hold
      exact Option.some_ne_none v hold.symm
    rw [hrows i _ t (List.getElem?_eq_getElem hi), if_neg ht.ne']
    exact hold
  · exact fun hnot => absurd hfits hnot

/-- **The updates that follow the policy.** -/
theorem updatesByPolicy_iff (hnodup : (services.map Service.id).Nodup)
    (hsingle : ∀ t ≤ n, (gen t).singleTickInfo =
      .ok (services.map fun service => (service.id, value t service)))
    (hall : ∀ tick id v, ((tick, id), v) ∈ (gen n).allTickInfo →
      ∃ service ∈ services, service.id = id ∧ value tick service = v)
    (hticks : ∀ tick id v, ((tick, id), v) ∈ (gen n).allTickInfo → tick ≤ n) :
    UpdatesByPolicy services name gen value n file ↔ fits services name n file = true ∨
      (0 < n ∨ NamesCurrent services name n file) ∧ (Kept services n file ∨ NothingAbove n file) ∧
        LeftOutHolds services (gen n) value n file := by
  by_cases hfits : fits services name n file = true
  · exact iff_of_true (updatesByPolicy_of_fits hnodup (hsingle n le_rfl) hfits) (Or.inl hfits)
  obtain ⟨rows, hnew, hlength, hrows⟩ := updateFile_of_not_fits hnodup hall hfits
  have hcells := leftOutHolds_iff hrows
  have habove := kept_or_nothingAbove_iff hticks hlength hrows
  have hnames : (if 0 < n then serviceNames services name n
      else (readFile services name n file).services) = serviceNames services name n ↔
        0 < n ∨ NamesCurrent services name n file := by
    split_ifs with hn
    · simp [hn]
    · rw [services_readFile_iff, or_iff_right hn]
  rw [or_iff_right hfits]
  constructor
  · rintro ⟨new, hnew', hpolicy⟩
    obtain rfl := Except.ok.inj (hnew.symm.trans hnew')
    refine ⟨hnames.1 hpolicy.names, habove.1 hpolicy.kept, hcells.1 fun i service hi t ht => ?_⟩
    rcases ht.lt_or_eq with hlt | rfl
    · exact hpolicy.recreated hfits i service hi t hlt
    · exact hpolicy.current i service hi
  · rintro ⟨hcurrent, hkept, hleft⟩
    have htrue := hcells.2 hleft
    refine ⟨_, hnew, ?_⟩
    refine { names := hnames.2 hcurrent, reaches := ?_, current := ?_, unchanged := ?_,
             recreated := ?_, kept := habove.2 hkept, successive := ?_ }
    · intro i hi
      obtain ⟨old, hold, hreach⟩ := slowRows_reaches name n file hi (gen n).emptyValue
      have hlen := hlength i
      rw [hold, Option.map_some] at hlen
      obtain ⟨row, hrow, heq⟩ := Option.map_eq_some_iff.1 hlen
      exact ⟨row, hrow, heq.symm ▸ hreach⟩
    · exact fun i service hi => htrue i service hi n le_rfl
    · exact fun h => absurd h hfits
    · exact fun _ i service hi t ht => htrue i service hi t ht.le
    · intro _
      obtain ⟨fast, hfast, -, hfastCells⟩ := exists_fastUpdates name hnodup (n + 1) fun t ht =>
        hsingle t (Nat.lt_succ_iff.1 ht)
      refine ⟨fast, hfast, fun i hi t ht => ?_⟩
      rw [hfastCells i _ (List.getElem?_eq_getElem hi), if_pos (Nat.lt_succ_iff.2 ht)]
      exact htrue i _ (List.getElem?_eq_getElem hi) t ht

end Iff

/-! ## The two generators -/

section Generators

variable {K : Type}

/-- A complete history up to tick `n`: `points` are the points of all teams, which the data of the
ticks and the rows of `team_points` have in common. -/
structure History (teams : List ℕ) (services : List Service) (db : Database K)
    (info : ℤ → TickInformation K) (points : ℤ → TeamServicePair → TeamPointsLite K) (n : ℕ) :
    Prop where
  services_nodup : (services.map Service.id).Nodup
  tick_eq : ∀ t key, (points t key).tick = t
  pairOf_eq : ∀ t key, pairOf (points t key) = key
  ticknumber : ∀ t : ℤ, -1 ≤ t → t ≤ n → (info t).ticknumber = t
  teamPoints : ∀ t : ℤ, -1 ≤ t → t ≤ n →
    (info t).teamPoints.Perm ((⟨teams, services⟩ : Roster).pairs.map (points t))
  complete : ∀ t : ℤ, 0 ≤ t → t ≤ n → ∀ key ∈ (⟨teams, services⟩ : Roster).pairs,
    points t key ∈ db.teamPoints
  sound : ∀ row ∈ db.teamPoints, 0 ≤ row.tick → row.tick ≤ n →
    pairOf row ∈ (⟨teams, services⟩ : Roster).pairs ∧ row = points row.tick (pairOf row)

/-- The points of a team for a service. -/
def teamValue [Field K] (points : ℤ → TeamServicePair → TeamPointsLite K) (teamId t : ℕ)
    (service : Service) : K :=
  Scoreboard.totalPoints (points t (teamId, service.id))

/-- How many teams have a larger count than in the tick before. -/
def increased (pairs : List TeamServicePair) (points : ℤ → TeamServicePair → TeamPointsLite K)
    (count : TeamPointsLite K → ℕ) (t : ℤ) (serviceId : ℕ) : ℕ :=
  pairs.countP fun key => key.2 = serviceId ∧ count (points (t - 1) key) < count (points t key)

/-- The attackers and victims of a service. -/
def serviceValue (pairs : List TeamServicePair) (points : ℤ → TeamServicePair → TeamPointsLite K)
    (t : ℕ) (service : Service) : ServiceStat :=
  ⟨.number (increased pairs points TeamPointsLite.flagCapturedCount t service.id),
    .number (increased pairs points TeamPointsLite.flagStolenCount t service.id)⟩

namespace TickInformation

variable {info previousInfo : TickInformation K}

theorem points_eq {pairs : List TeamServicePair} {points : TeamServicePair → TeamPointsLite K}
    (hpairOf : ∀ key, pairOf (points key) = key) (hperm : info.teamPoints.Perm (pairs.map points))
    {key : TeamServicePair} (hkey : key ∈ pairs) : info.points key = .ok (points key) := by
  have hfind : (info.teamPoints.find? fun row => pairOf row = key) = some (points key) := by
    have hsome : (info.teamPoints.find? fun row => pairOf row = key).isSome :=
      List.find?_isSome.2
        ⟨points key, hperm.mem_iff.2 (List.mem_map_of_mem hkey), by simpa using hpairOf key⟩
    obtain ⟨row, hrow⟩ := Option.isSome_iff_exists.1 hsome
    obtain ⟨other, -, rfl⟩ := List.mem_map.1 (hperm.mem_iff.1 (List.mem_of_find?_eq_some hrow))
    have heq := List.find?_some hrow
    rw [decide_eq_true_eq, hpairOf] at heq
    rw [hrow, heq]
  rw [TickInformation.points, hfind]

/-- The counts go through the rows one by one. -/
theorem foldlM_count {prev : TeamServicePair → TeamPointsLite K} (rows : List (TeamPointsLite K))
    (hprev : ∀ row ∈ rows, previousInfo.points (pairOf row) = .ok (prev (pairOf row)))
    (count : (ℕ → ℕ) × (ℕ → ℕ)) :
    (rows.foldlM (fun count pts => do
      let prevPts ← previousInfo.points (pairOf pts)
      let attackers := if prevPts.flagCapturedCount < pts.flagCapturedCount then
        Function.update count.1 pts.serviceId (count.1 pts.serviceId + 1) else count.1
      let victims := if prevPts.flagStolenCount < pts.flagStolenCount then
        Function.update count.2 pts.serviceId (count.2 pts.serviceId + 1) else count.2
      return (attackers, victims)) count : Except Error ((ℕ → ℕ) × (ℕ → ℕ))) =
    .ok (fun serviceId => count.1 serviceId + rows.countP fun row => row.serviceId = serviceId ∧
        (prev (pairOf row)).flagCapturedCount < row.flagCapturedCount,
      fun serviceId => count.2 serviceId + rows.countP fun row => row.serviceId = serviceId ∧
        (prev (pairOf row)).flagStolenCount < row.flagStolenCount) := by
  induction rows generalizing count with
  | nil => rfl
  | cons row rows ih =>
    rw [List.foldlM_cons, hprev row List.mem_cons_self]
    refine (ih (fun _ h => hprev _ (List.mem_cons_of_mem _ h)) _).trans ?_
    congr 2
    all_goals
      funext serviceId
      simp only [List.countP_cons]
      split_ifs <;> grind [Function.update_apply]

end TickInformation

/-- Every row is compared with itself, if no other row has its key. -/
theorem Scoreboard.countedRows_eq_nil_of_unique {Cache : Type} (sb : Scoreboard K Cache)
    {db : Database K} {scoreboardFreeze : Bool} {maxTick : ℤ} {count : TeamPointsLite K → ℕ}
    (h : ∀ row, row ∈ db.teamPoints ∧ 0 ≤ row.tick ∧ row.tick ≤ maxTick →
      ∀ last, last ∈ db.teamPoints ∧ 0 ≤ last.tick ∧ last.tick ≤ maxTick →
        last.tick = row.tick → pairOf last = pairOf row → last = row) :
    sb.countedRows db scoreboardFreeze maxTick count = [] := by
  have hmem : ∀ row, row ∈ (db.teamPoints.filter fun row => 0 ≤ row.tick ∧ row.tick ≤ maxTick) →
      row ∈ db.teamPoints ∧ 0 ≤ row.tick ∧ row.tick ≤ maxTick := by
    intro row hrow
    obtain ⟨hdb, htick⟩ := List.mem_filter.1 hrow
    exact ⟨hdb, of_decide_eq_true htick⟩
  rw [countedRows, List.filter_eq_nil_iff]
  intro row hrow
  have hsame : ∀ last, (db.teamPoints.filter fun row => 0 ≤ row.tick ∧
    row.tick ≤ maxTick).reverse.find?
      (fun last => last.tick = row.tick ∧ pairOf last = pairOf row) = some last → last = row := by
    intro last hlast
    have hkey := List.find?_some hlast
    rw [decide_eq_true_eq] at hkey
    have hlastMem := List.mem_reverse.1 (List.mem_of_find?_eq_some hlast)
    exact h row (hmem row hrow) last (hmem last hlastMem) hkey.1 hkey.2
  split
  · rename_i last hlast
    rw [hsame last hlast]
    simp
  · simp

namespace History

variable {teams : List ℕ} {services : List Service} {db : Database K} {info : ℤ → TickInformation K}
  {points : ℤ → TeamServicePair → TeamPointsLite K} {n : ℕ}

theorem points_eq (h : History teams services db info points n) {t : ℤ} (hlow : -1 ≤ t)
    (hhigh : t ≤ n)
    {key : TeamServicePair} (hkey : key ∈ (⟨teams, services⟩ : Roster).pairs) :
    (info t).points key = .ok (points t key) :=
  TickInformation.points_eq (h.pairOf_eq t) (h.teamPoints t hlow hhigh) hkey

theorem pair_mem {teamId : ℕ} (hteam : teamId ∈ teams) {service : Service}
    (hservice : service ∈ services) :
    (teamId, service.id) ∈ (⟨teams, services⟩ : Roster).pairs :=
  List.mem_flatMap.2 ⟨teamId, hteam, List.mem_map_of_mem hservice⟩

theorem serviceId_of_pair_mem {key : TeamServicePair}
    (hkey : key ∈ (⟨teams, services⟩ : Roster).pairs) :
    ∃ service ∈ services, service.id = key.2 := by
  obtain ⟨teamId, -, hmem⟩ := List.mem_flatMap.1 hkey
  obtain ⟨service, hservice, rfl⟩ := List.mem_map.1 hmem
  exact ⟨service, hservice, rfl⟩

/-! ### Teams -/

section Team

variable {Cache : Type} [Field K] (sb : Scoreboard K Cache)

theorem mapM_ok {α β ε : Type} {f : α → Except ε β} {g : α → β} (l : List α)
    (h : ∀ a ∈ l, f a = .ok (g a)) : l.mapM f = .ok (l.map g) := by
  induction l with
  | nil => rfl
  | cons a l ih =>
    rw [List.mapM_cons, h a List.mem_cons_self, ih fun b hb => h b (List.mem_cons_of_mem _ hb)]
    rfl

theorem teamStatistic_singleTickInfo (h : History teams services db info points n) {teamId : ℕ}
    (hteam : teamId ∈ teams) {t : ℕ} (ht : t ≤ n) :
    (sb.teamStatistic services (info t) (info (t - 1)) db false teamId).singleTickInfo =
      .ok (services.map fun service => (service.id, teamValue points teamId t service)) := by
  refine mapM_ok services fun service hservice => ?_
  rw [Bool.false_and, if_neg Bool.false_ne_true,
    h.points_eq (by omega) (by exact_mod_cast ht) (pair_mem hteam hservice)]
  rfl

theorem mem_teamStatistic_allTickInfo (h : History teams services db info points n) {teamId : ℕ}
    {e : (ℕ × ℕ) × K}
    (he : e ∈ (sb.teamStatistic services (info n) (info (n - 1)) db false teamId).allTickInfo) :
    e.1.1 ≤ n ∧ ∃ service ∈ services, service.id = e.1.2 ∧
      teamValue points teamId e.1.1 service = e.2 := by
  obtain ⟨row, hmem, rfl⟩ := List.mem_map.1 he
  obtain ⟨hrow, hfilter⟩ := List.mem_filter.1 hmem
  rw [decide_eq_true_eq, h.ticknumber n (by omega) le_rfl] at hfilter
  obtain ⟨rfl, hlow, hhigh⟩ := hfilter
  obtain ⟨hpair, heq⟩ := h.sound row hrow hlow hhigh
  obtain ⟨service, hservice, hid⟩ := serviceId_of_pair_mem hpair
  refine ⟨by simpa using hhigh, service, hservice, hid, ?_⟩
  rw [teamValue, Int.toNat_of_nonneg hlow, hid]
  exact congrArg Scoreboard.totalPoints heq.symm

theorem mem_teamStatistic_keys (h : History teams services db info points n) {teamId : ℕ}
    (hteam : teamId ∈ teams) {service : Service} (hservice : service ∈ services) {t : ℕ}
    (ht : t ≤ n) :
    (t, service.id) ∈ ((sb.teamStatistic services (info n) (info (n - 1)) db false
      teamId).allTickInfo.map Prod.fst) := by
  have hrow := h.complete t (by omega) (by exact_mod_cast ht) _ (pair_mem hteam hservice)
  have hpair := Prod.mk.inj (h.pairOf_eq t (teamId, service.id))
  refine List.mem_map.2 ⟨_, List.mem_map_of_mem (List.mem_filter.2 ⟨hrow, ?_⟩), ?_⟩
  · rw [decide_eq_true_eq, h.ticknumber n (by omega) le_rfl, h.tick_eq]
    exact ⟨hpair.1, by omega, by exact_mod_cast ht⟩
  · show ((points t (teamId, service.id)).tick.toNat, (points t (teamId, service.id)).serviceId) = _
    rw [h.tick_eq, hpair.2, Int.toNat_natCast]

/-- The file of a team: its query has all values. -/
theorem teamStatistic_by_policy_iff (h : History teams services db info points n) {teamId : ℕ}
    (hteam : teamId ∈ teams) (file : Option (StatisticFile K)) :
    UpdatesByPolicy services sb.texts.serviceName
        (fun t => sb.teamStatistic services (info t) (info (t - 1)) db false teamId)
        (teamValue points teamId) n file ↔
      fits services sb.texts.serviceName n file = true ∨
        (0 < n ∨ NamesCurrent services sb.texts.serviceName n file) ∧
          (Kept services n file ∨ NothingAbove n file) := by
  rw [updatesByPolicy_iff h.services_nodup (fun t ht => h.teamStatistic_singleTickInfo sb hteam ht)
    (fun t id v he => (h.mem_teamStatistic_allTickInfo sb he).2)
    (fun t id v he => (h.mem_teamStatistic_allTickInfo sb he).1)]
  refine or_congr_right (and_congr_right fun _ => and_iff_left fun i service hi t ht hnot => ?_)
  exact absurd (h.mem_teamStatistic_keys sb hteam (List.mem_of_getElem? hi) ht) hnot

end Team

/-! ### Services -/

section Service

variable {Cache : Type} (sb : Scoreboard K Cache)

theorem getAttackerVictimCount_eq (h : History teams services db info points n) {t : ℕ}
    (ht : t ≤ n) :
    (info t).getAttackerVictimCount (info (t - 1)) =
      .ok (increased (⟨teams, services⟩ : Roster).pairs points TeamPointsLite.flagCapturedCount t,
        increased (⟨teams, services⟩ : Roster).pairs points TeamPointsLite.flagStolenCount t) := by
  have hperm := h.teamPoints t (by omega) (by exact_mod_cast ht)
  have hprev : ∀ row ∈ (info t).teamPoints,
      (info (t - 1)).points (pairOf row) = .ok (points (t - 1) (pairOf row)) := by
    intro row hrow
    obtain ⟨key, hkey, rfl⟩ := List.mem_map.1 (hperm.mem_iff.1 hrow)
    rw [h.pairOf_eq]
    exact h.points_eq (by omega) (by omega) hkey
  have hcount : ∀ (count : TeamPointsLite K → ℕ) (serviceId : ℕ),
      ((info t).teamPoints.countP fun row => row.serviceId = serviceId ∧
        count (points (t - 1) (pairOf row)) < count row) =
      increased (⟨teams, services⟩ : Roster).pairs points count t serviceId := by
    intro count serviceId
    rw [hperm.countP_eq, List.countP_map, increased]
    refine List.countP_congr fun key _ => ?_
    have hid : (points t key).serviceId = key.2 := congrArg Prod.snd (h.pairOf_eq t key)
    simp [h.pairOf_eq, hid]
  refine (TickInformation.foldlM_count _ hprev _).trans ?_
  simp only [hcount TeamPointsLite.flagCapturedCount, hcount TeamPointsLite.flagStolenCount,
    Nat.zero_add]

theorem serviceStatistic_singleTickInfo (h : History teams services db info points n) {t : ℕ}
    (ht : t ≤ n) : (sb.serviceStatistic services (info t) (info (t - 1)) db false).singleTickInfo =
      .ok (services.map fun service =>
        (service.id, serviceValue (⟨teams, services⟩ : Roster).pairs points t service)) := by
  simp only [Scoreboard.serviceStatistic, Bool.false_and, Bool.false_eq_true, if_false,
    h.getAttackerVictimCount_eq ht]
  rfl

theorem countedRows_eq_nil (h : History teams services db info points n)
    (count : TeamPointsLite K → ℕ) : sb.countedRows db false n count = [] := by
  refine sb.countedRows_eq_nil_of_unique fun row hrow last hlast htick hpair => ?_
  obtain ⟨hdbRow, hlow, hhigh⟩ := hrow
  obtain ⟨hdbLast, hlastLow, hlastHigh⟩ := hlast
  calc last = points last.tick (pairOf last) := (h.sound last hdbLast hlastLow hlastHigh).2
    _ = points row.tick (pairOf row) := by rw [htick, hpair]
    _ = row := (h.sound row hdbRow hlow hhigh).2.symm

theorem serviceStatistic_allTickInfo (h : History teams services db info points n) :
    (sb.serviceStatistic services (info n) (info (n - 1)) db false).allTickInfo = [] := by
  simp only [Scoreboard.serviceStatistic, h.ticknumber n (by omega) le_rfl, h.countedRows_eq_nil sb]
  rfl

/-- The file of the services: its query has no value. -/
theorem serviceStatistic_by_policy_iff (h : History teams services db info points n)
    (file : Option (StatisticFile ServiceStat)) :
    UpdatesByPolicy services sb.texts.serviceName
        (fun t => sb.serviceStatistic services (info t) (info (t - 1)) db false)
        (serviceValue (⟨teams, services⟩ : Roster).pairs points) n file ↔
      fits services sb.texts.serviceName n file = true ∨
        (0 < n ∨ NamesCurrent services sb.texts.serviceName n file) ∧
          (Kept services n file ∨ NothingAbove n file) ∧
          (Kept services n file → ∀ (i : ℕ) (service : Service), services[i]? = some service →
            ∀ t ≤ n, oldCell file i t =
              some (serviceValue (⟨teams, services⟩ : Roster).pairs points t service)) ∧
          (¬ Kept services n file → ∀ service ∈ services, ∀ t ≤ n,
            serviceValue (⟨teams, services⟩ : Roster).pairs points t service =
              ⟨.number 0, .number 0⟩) := by
  have hnone : ∀ e,
      e ∉ (sb.serviceStatistic services (info n) (info (n - 1)) db false).allTickInfo := fun e => by
    simp [h.serviceStatistic_allTickInfo]
  rw [updatesByPolicy_iff h.services_nodup (fun t ht => h.serviceStatistic_singleTickInfo sb ht)
    (fun t id v he => absurd he (hnone _)) (fun t id v he => absurd he (hnone _))]
  refine or_congr_right (and_congr_right fun _ => and_congr_right fun _ => ?_)
  rw [LeftOutHolds, h.serviceStatistic_allTickInfo]
  constructor
  · intro hleft
    refine ⟨fun hkept i service hi t ht => (hleft i service hi t ht List.not_mem_nil).1 hkept,
      fun hkept service hservice t ht => ?_⟩
    obtain ⟨i, hi⟩ := List.mem_iff_getElem?.1 hservice
    exact ((hleft i service hi t ht List.not_mem_nil).2 hkept).symm
  · rintro ⟨hkept, hempty⟩ i service hi t ht -
    exact ⟨fun h => hkept h i service hi t ht,
      fun h => (hempty h service (List.mem_of_getElem? hi) t ht).symm⟩

end Service

end History

/-- **The updates of the two files that follow the policy**, without freeze.  A file that does not
fit needs the current names if the tick is 0, and no value beyond the tick unless its rows are kept;
the values of the services are not recreated at all, so they must be in the rows, or zero. -/
theorem statistics_by_policy_iff {Cache : Type} [Field K] (sb : Scoreboard K Cache) {teams : List ℕ}
    {services : List Service} {db : Database K} {info : ℤ → TickInformation K}
    {points : ℤ → TeamServicePair → TeamPointsLite K} {n : ℕ}
    (h : History teams services db info points n) {teamId : ℕ} (hteam : teamId ∈ teams)
    (file : Option (StatisticFile K)) (stats : Option (StatisticFile ServiceStat)) :
    (UpdatesByPolicy services sb.texts.serviceName
        (fun t => sb.teamStatistic services (info t) (info (t - 1)) db false teamId)
        (teamValue points teamId) n file ↔
      fits services sb.texts.serviceName n file = true ∨
        (0 < n ∨ NamesCurrent services sb.texts.serviceName n file) ∧
          (Kept services n file ∨ NothingAbove n file)) ∧
    (UpdatesByPolicy services sb.texts.serviceName
        (fun t => sb.serviceStatistic services (info t) (info (t - 1)) db false)
        (serviceValue (⟨teams, services⟩ : Roster).pairs points) n stats ↔
      fits services sb.texts.serviceName n stats = true ∨
        (0 < n ∨ NamesCurrent services sb.texts.serviceName n stats) ∧
          (Kept services n stats ∨ NothingAbove n stats) ∧
          (Kept services n stats → ∀ (i : ℕ) (service : Service), services[i]? = some service →
            ∀ t ≤ n, oldCell stats i t =
              some (serviceValue (⟨teams, services⟩ : Roster).pairs points t service)) ∧
          (¬ Kept services n stats → ∀ service ∈ services, ∀ t ≤ n,
            serviceValue (⟨teams, services⟩ : Roster).pairs points t service =
              ⟨.number 0, .number 0⟩)) :=
  ⟨h.teamStatistic_by_policy_iff sb hteam file, h.serviceStatistic_by_policy_iff sb stats⟩

end Generators

/-! ### Two stolen flags -/

/-- The pairs of three teams and a service. -/
abbrev samplePairs : List TeamServicePair := (⟨[1, 2, 3], [.new 1 0]⟩ : Roster).pairs

/-- In tick 1, team 1 captures flags of the other teams. -/
def samplePoints (t : ℤ) (key : TeamServicePair) : TeamPointsLite ℚ :=
  ⟨key.1, key.2, t, if 1 ≤ t ∧ key.1 = 1 then 2 else 0,
    if 1 ≤ t ∧ key.1 ≠ 1 then 1 else 0, 0, 0, 0, 0⟩

def sampleInfo (t : ℤ) : TickInformation ℚ :=
  ⟨t, [], samplePairs.map (samplePoints t), fun _ => (.success, "")⟩

/-- The database after tick 1. -/
def sampleDatabase : Database ℚ :=
  { (sampleState .default (1, 2, 1) (1, 3, 1)).db with
    teamPoints := [0, 1].flatMap fun t => samplePairs.map (samplePoints t) }

def sampleScoreboard : Scoreboard ℚ FirstBloodChoice.default.Cache where
  calculation := FirstBloodChoice.default.calculation sampleSetup [.new 1 0]
  firstbloodLevel := 1
  isPublic := true
  scoreboardFreeze := none
  texts := ⟨fun _ => "team", fun _ => "service", fun _ _ => ""⟩

theorem sample_history :
    History [1, 2, 3] [.new 1 0] sampleDatabase sampleInfo samplePoints 1 where
  services_nodup := by decide
  tick_eq _ _ := rfl
  pairOf_eq _ _ := rfl
  ticknumber _ _ _ := rfl
  teamPoints _ _ _ := List.Perm.refl _
  complete t hlow hhigh key hkey := by
    have ht : t = 0 ∨ t = 1 := by
      rw [Nat.cast_one] at hhigh
      omega
    exact List.mem_flatMap.2 ⟨t, by simpa using ht, List.mem_map_of_mem hkey⟩
  sound row hrow _ _ := by
    obtain ⟨t, -, hmem⟩ := List.mem_flatMap.1 hrow
    obtain ⟨key, hkey, rfl⟩ := List.mem_map.1 hmem
    exact ⟨hkey, rfl⟩

/-- A new file of a team, and a file of the services that has been written for tick 0. -/
theorem statistics_by_policy_sample :
    UpdatesByPolicy [.new 1 0] sampleScoreboard.texts.serviceName
        (fun t => sampleScoreboard.teamStatistic [.new 1 0] (sampleInfo t) (sampleInfo (t - 1))
          sampleDatabase false 1)
        (teamValue samplePoints 1) 1 none ∧
      UpdatesByPolicy [.new 1 0] sampleScoreboard.texts.serviceName
        (fun t => sampleScoreboard.serviceStatistic [.new 1 0] (sampleInfo t) (sampleInfo (t - 1))
          sampleDatabase false)
        (serviceValue samplePairs samplePoints) 1
        (some ⟨["service"], [[⟨.number 0, .number 0⟩]]⟩) := by
  have hpolicy := statistics_by_policy_iff sampleScoreboard sample_history
    (by decide : 1 ∈ [1, 2, 3]) none (some ⟨["service"], [[⟨.number 0, .number 0⟩]]⟩)
  refine ⟨hpolicy.1.2 (.inr ⟨.inl one_pos, .inr ?_⟩), hpolicy.2.2 (.inl (by decide))⟩
  exact fun _ _ _ => rfl

/-- A new file for tick 1 says that there were no attackers and no victims. -/
theorem not_statistics_by_policy :
    History [1, 2, 3] [.new 1 0] sampleDatabase sampleInfo samplePoints 1 ∧
    ¬ UpdatesByPolicy [.new 1 0] sampleScoreboard.texts.serviceName
      (fun t => sampleScoreboard.serviceStatistic [.new 1 0] (sampleInfo t) (sampleInfo (t - 1))
        sampleDatabase false)
      (serviceValue samplePairs samplePoints) 1 none := by
  refine ⟨sample_history, fun hpolicy => ?_⟩
  rcases (sample_history.serviceStatistic_by_policy_iff sampleScoreboard none).1 hpolicy with
    hfits | ⟨-, -, -, hempty⟩
  · exact absurd hfits (by decide)
  · have hkept : ¬ Kept [.new 1 0] 1 (none : Option (StatisticFile ServiceStat)) := fun h =>
      absurd h.1 (by decide)
    exact absurd (hempty hkept (.new 1 0) List.mem_cons_self 1 le_rfl) (by decide)

end Gameserver.Board
