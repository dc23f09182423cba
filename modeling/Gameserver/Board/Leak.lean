import Gameserver.Board.Reveal
import Gameserver.Scoring.Filtered

/-!
# When the frozen scoreboard leaks

Where `create_scoreboard` and `reset_to_tick` do not meet their conditions, there is another
history that is the same up to the freeze, but whose files are different.

* `bump`, `leader` — histories that differ in a result, or in a ranking.
* `reveals_nothing_iff` — the operations reveal nothing exactly when their conditions hold.
-/

namespace Gameserver.Board

open Gameserver.Scoring Gameserver.Calculation

variable {K Cache : Type}

/-! ## Other histories -/

section Rows

variable {α : Type} {f : α → α} {t : α → ℤ} {p : ℤ → Bool}

/-- Rows that are changed keep their tick. -/
theorem filter_map_rows (h : ∀ a, t (f a) = t a) (l : List α) :
    ((l.map f).filter fun a => p (t a)) = (l.filter fun a => p (t a)).map f := by
  rw [List.filter_map]
  congr 1
  refine List.filter_congr fun a _ => ?_
  rw [Function.comp_apply, h]

theorem filter_map_rows_eq_self (h : ∀ a, t (f a) = t a) (hself : ∀ a, p (t a) = true → f a = a)
    (l : List α) : ((l.map f).filter fun a => p (t a)) = l.filter fun a => p (t a) := by
  rw [filter_map_rows h]
  refine (List.map_congr_left fun a ha => ?_).trans (List.map_id _)
  exact hself a (List.mem_filter.1 ha).2

end Rows

section Bump

variable [Field K]

/-- One more point for a pair in one tick. -/
def bumpRow (tick : ℤ) (pair : TeamServicePair) (row : TeamPointsLite K) : TeamPointsLite K :=
  if row.tick = tick ∧ pairOf row = pair then { row with offPoints := row.offPoints + 1 } else row

/-- The history with one more point for a pair in one tick. -/
def bump (tick : ℤ) (pair : TeamServicePair) (w : World K Cache) : World K Cache :=
  { w with st := { w.st with db := { w.st.db with
      teamPoints := w.st.db.teamPoints.map (bumpRow tick pair) } } }

variable {w : World K Cache} {tick u v : ℤ} {pair : TeamServicePair}

theorem tick_bumpRow (row : TeamPointsLite K) : (bumpRow u pair row).tick = row.tick := by
  unfold bumpRow
  split_ifs <;> rfl

theorem pairOf_bumpRow (row : TeamPointsLite K) : pairOf (bumpRow u pair row) = pairOf row := by
  unfold bumpRow
  split_ifs <;> rfl

theorem bumpRow_of_ne {row : TeamPointsLite K} (h : row.tick ≠ u) : bumpRow u pair row = row :=
  if_neg fun hand => h hand.1

theorem pointsRows_bump (w : World K Cache) (u v : ℤ) (pair : TeamServicePair) :
    (bump u pair w).st.db.pointsRows v = (w.st.db.pointsRows v).map (bumpRow u pair) :=
  filter_map_rows (p := fun tick => tick = v) tick_bumpRow w.st.db.teamPoints

variable (u pair) in
theorem scored_bump (h : ScoredUntil w tick) : ScoredUntil (bump u pair w) tick where
  constraints := by
    have hkeys : ((bump u pair w).st.db.teamPoints.map fun row =>
        (row.tick, row.teamId, row.serviceId)) =
        w.st.db.teamPoints.map fun row => (row.tick, row.teamId, row.serviceId) := by
      show List.map _ (List.map _ _) = _
      rw [List.map_map]
      refine List.map_congr_left fun row _ => ?_
      exact congrArg₂ Prod.mk (tick_bumpRow row) (pairOf_bumpRow row)
    refine ⟨h.constraints.teams, h.constraints.services, hkeys ▸ h.constraints.points_unique, ?_⟩
    intro row hrow
    obtain ⟨old, hold, rfl⟩ := List.mem_map.1 hrow
    show pairOf (bumpRow u pair old) ∈ w.st.db.roster.pairs
    rw [pairOf_bumpRow]
    exact h.constraints.points_known old hold
  points_pos := by
    intro row hrow
    obtain ⟨old, hold, rfl⟩ := List.mem_map.1 hrow
    rw [tick_bumpRow]
    exact h.points_pos old hold
  results := by
    intro v hpos hle
    have hthere := h.results v hpos hle
    refine ⟨?_, hthere.rankings, hthere.ne_nil⟩
    rw [pointsRows_bump, List.map_map]
    refine (List.Perm.of_eq (List.map_congr_left fun row _ => pairOf_bumpRow row)).trans
      hthere.points
  firstBloods := h.firstBloods
  loaded := h.loaded

variable (pair) in
theorem agree_bump (hlt : tick < u) : AgreeUntil tick w (bump u pair w) where
  teams := rfl
  services := rfl
  checkerResults := rfl
  teamPoints := by
    refine filter_map_rows_eq_self (p := fun v => v ≤ tick) tick_bumpRow (fun row hrow => ?_) _
    exact bumpRow_of_ne ((of_decide_eq_true hrow).trans_lt hlt).ne
  teamRankings := rfl
  submittedFlags := rfl
  isFirstblood _ _ _ := rfl
  loadedTeams := rfl
  loadedServices := rfl
  folder := rfl

variable (sb : Scoreboard K Cache)

/-- The pair has one more point. -/
theorem row_bump (h : ScoredUntil w tick) (hpos : 1 ≤ u) (hle : u ≤ tick)
    (hpair : pair ∈ w.st.db.roster.pairs) :
    ((sb.infoAt (bump u pair w) u).row pair).offPoints =
        ((sb.infoAt w u).row pair).offPoints + 1 ∧
      Scoreboard.totalPoints ((sb.infoAt (bump u pair w) u).row pair) =
        Scoreboard.totalPoints ((sb.infoAt w u).row pair) + 1 := by
  obtain ⟨row, hmem, hkey⟩ := List.mem_map.1 ((h.results u hpos hle).points.mem_iff.2 hpair)
  obtain ⟨hrow, htick⟩ := List.mem_filter.1 hmem
  have htick : row.tick = u := of_decide_eq_true htick
  have hold : (sb.infoAt w u).row pair = row := by
    rw [← htick, ← hkey]
    exact Scoreboard.row_eq sb h hrow
  have hnew : (sb.infoAt (bump u pair w) u).row pair =
      { row with offPoints := row.offPoints + 1 } := by
    have hbump : bumpRow u pair row = { row with offPoints := row.offPoints + 1 } :=
      if_pos ⟨htick, hkey⟩
    have hthere := Scoreboard.row_eq sb (scored_bump u pair h)
      (List.mem_map_of_mem hrow)
    rwa [tick_bumpRow, pairOf_bumpRow, htick, hkey, hbump] at hthere
  rw [hold, hnew]
  refine ⟨rfl, ?_⟩
  show row.offPoints + 1 + row.defPoints + row.slaPoints =
    row.offPoints + row.defPoints + row.slaPoints + 1
  ring

end Bump

section Leader

/-- In one tick the team is before all others. -/
def leadRow (tick : ℤ) (teamId : ℕ) (row : TeamRanking K) : TeamRanking K :=
  if row.tick = tick then
    { row with rank := if row.teamId = teamId then ⟨1, Nat.one_pos⟩ else Nat.succPNat row.rank }
  else row

/-- The history in which a team leads the ranking of one tick. -/
def leader (tick : ℤ) (teamId : ℕ) (w : World K Cache) : World K Cache :=
  { w with st := { w.st with db := { w.st.db with
      teamRankings := w.st.db.teamRankings.map (leadRow tick teamId) } } }

variable {w : World K Cache} {tick u v : ℤ} {b : ℕ}

theorem tick_leadRow (row : TeamRanking K) : (leadRow u b row).tick = row.tick := by
  unfold leadRow
  split_ifs <;> rfl

theorem teamId_leadRow (row : TeamRanking K) : (leadRow u b row).teamId = row.teamId := by
  unfold leadRow
  split_ifs <;> rfl

theorem leadRow_of_ne {row : TeamRanking K} (h : row.tick ≠ u) : leadRow u b row = row := if_neg h

theorem rank_leadRow {row : TeamRanking K} (h : row.tick = u) :
    (leadRow u b row).rank = 1 ↔ (leadRow u b row).teamId = b := by
  rw [teamId_leadRow, leadRow, if_pos h]
  show (if row.teamId = b then 1 else Nat.succPNat row.rank) = 1 ↔ _
  split_ifs with hb
  · simp [hb]
  · refine iff_of_false (fun hone => ?_) hb
    exact row.rank.ne_zero (Nat.succ.inj (congrArg PNat.val hone))

theorem rankingRows_leader (w : World K Cache) (u v : ℤ) (b : ℕ) :
    (leader u b w).st.db.rankingRows v = (w.st.db.rankingRows v).map (leadRow u b) :=
  filter_map_rows (p := fun tick => tick = v) tick_leadRow w.st.db.teamRankings

variable (u b) in
theorem scored_leader (h : ScoredUntil w tick) : ScoredUntil (leader u b w) tick where
  constraints := ⟨h.constraints.teams, h.constraints.services, h.constraints.points_unique,
    h.constraints.points_known⟩
  points_pos := h.points_pos
  results := by
    intro v hpos hle
    have hthere := h.results v hpos hle
    refine ⟨hthere.points, ?_, ?_⟩
    · rw [rankingRows_leader, List.map_map]
      refine (List.Perm.of_eq (List.map_congr_left fun row _ => teamId_leadRow row)).trans
        hthere.rankings
    · rw [rankingRows_leader]
      exact mt List.map_eq_nil_iff.1 hthere.ne_nil
  firstBloods := h.firstBloods
  loaded := h.loaded

variable (b) in
theorem agree_leader (hlt : tick < u) : AgreeUntil tick w (leader u b w) where
  teams := rfl
  services := rfl
  checkerResults := rfl
  teamPoints := rfl
  teamRankings := by
    refine filter_map_rows_eq_self (p := fun v => v ≤ tick) tick_leadRow (fun row hrow => ?_) _
    exact leadRow_of_ne ((of_decide_eq_true hrow).trans_lt hlt).ne
  submittedFlags := rfl
  isFirstblood _ _ _ := rfl
  loadedTeams := rfl
  loadedServices := rfl
  folder := rfl

variable [Field K] {sb : Scoreboard K Cache}

theorem infoAt_leader_of_ne (h : v ≠ u) : sb.infoAt (leader u b w) v = sb.infoAt w v := by
  have hrows : (leader u b w).st.db.rankingRows v = w.st.db.rankingRows v := by
    refine filter_map_rows_eq_self (p := fun tick => tick = v) tick_leadRow (fun row hrow => ?_) _
    exact leadRow_of_ne ((of_decide_eq_true hrow).trans_ne h)
  unfold Scoreboard.infoAt Scoreboard.storedRanking
  rw [hrows]
  rfl

variable (sb) in
/-- The leader is the first one in the ranking. -/
theorem ranking_leader (h : ScoredUntil w tick) (hpos : 1 ≤ u) (hle : u ≤ tick)
    (hb : b ∈ w.st.db.teams) :
    ∃ rest, (sb.infoAt (leader u b w) u).ranking.map TeamRanking.teamId = b :: rest := by
  have hperm := Scoreboard.teams_ranking sb (scored_leader u b h) hle
  have hsorted : (sb.infoAt (leader u b w) u).ranking.Pairwise RankBefore := by
    rw [Scoreboard.infoAt_ranking, if_neg (by omega)]
    exact pairwise_insertionSort_rankBefore _
  have hrank : ∀ row ∈ (sb.infoAt (leader u b w) u).ranking, row.rank = 1 ↔ row.teamId = b := by
    intro row hrow
    rw [Scoreboard.infoAt_ranking, if_neg (by omega)] at hrow
    have hrow := (List.perm_insertionSort _ _).mem_iff.1 hrow
    rw [rankingRows_leader] at hrow
    obtain ⟨old, hold, rfl⟩ := List.mem_map.1 hrow
    exact rank_leadRow (of_decide_eq_true (List.mem_filter.1 hold).2)
  have hnodup : (sb.infoAt (leader u b w) u).ranking.Pairwise fun x y => x.teamId ≠ y.teamId :=
    List.pairwise_map.1 (hperm.nodup_iff.2 h.constraints.teams)
  have hfirst : ((sb.infoAt (leader u b w) u).ranking.map TeamRanking.teamId).Pairwise
      fun _ y => y ≠ b := by
    refine List.pairwise_map.2 ((hsorted.and hnodup).imp_of_mem ?_)
    rintro x y hx hy ⟨hbefore, hne⟩ hyb
    have hone : y.rank = 1 := (hrank y hy).2 hyb
    have hxone : x.rank = 1 := le_antisymm
      (hone ▸ hbefore.elim le_of_lt fun heq => heq.1.le) one_le
    exact hne (((hrank x hx).1 hxone).trans hyb.symm)
  have hmem := hperm.mem_iff.2 hb
  cases hids : (sb.infoAt (leader u b w) u).ranking.map TeamRanking.teamId with
  | nil =>
    rw [hids] at hmem
    exact absurd hmem List.not_mem_nil
  | cons x rest =>
    rw [hids] at hmem hfirst
    rcases List.mem_cons.1 hmem with rfl | hrest
    · exact ⟨rest, rfl⟩
    · exact absurd rfl ((List.pairwise_cons.1 hfirst).1 b hrest)

end Leader

namespace Scoreboard

variable [Field K] {sb : Scoreboard K Cache} {w : World K Cache} {tick u freeze : ℤ}

/-! ## The files of the teams -/

section Team

variable {n : ℕ} {teamId : ℕ} {service : Service}

/-- The slow path shows the points of the tick. -/
theorem teamFile_bump_of_not_fits (h : ScoredUntil w n) (hl : Loaded w) (hn : 1 ≤ n)
    (prev prev' : TickInformation K) (hteam : teamId ∈ w.teams) (hservice : service ∈ w.services)
    (hfits : ¬ fits w.services sb.texts.serviceName n (w.folder.teams teamId) = true) :
    (sb.teamFile (sb.infoAt (bump n (teamId, service.id) w) n) prev'
      (bump n (teamId, service.id) w) teamId).toOption ≠
      (sb.teamFile (sb.infoAt w n) prev w teamId).toOption := by
  obtain ⟨i, hi⟩ := List.mem_iff_getElem?.1 hservice
  obtain ⟨names, rows, hfile, hcells⟩ := teamFile_of_not_fits sb h hl hn prev hteam hfits
  obtain ⟨names', rows', hfile', hcells'⟩ := teamFile_of_not_fits sb
    (scored_bump n (teamId, service.id) h)
    (hl.of_agree (agree_bump _ (sub_one_lt (n : ℤ)))) hn prev' hteam hfits
  rw [hfile, hfile']
  intro heq
  obtain ⟨-, rfl⟩ := StatisticFile.mk.inj (Option.some.inj heq)
  have htotal := Option.some.inj ((hcells' i service hi).symm.trans (hcells i service hi))
  rw [(row_bump sb h (by omega) le_rfl (hl.pair_mem hteam hservice)).2] at htotal
  exact add_ne_left.2 one_ne_zero htotal

/-- The fast path shows the points of the tick before. -/
theorem teamFile_bump_of_fits (h : ScoredUntil w n) (hl : Loaded w) (hpos : 1 ≤ u) (hu : u ≤ n)
    (hfrozen : sb.frozenAt n = true) (hteam : teamId ∈ w.teams) (hservice : service ∈ w.services)
    (hfits : fits w.services sb.texts.serviceName n (w.folder.teams teamId) = true) :
    (sb.teamFile (sb.infoAt (bump u (teamId, service.id) w) n)
      (sb.infoAt (bump u (teamId, service.id) w) u)
      (bump u (teamId, service.id) w) teamId).toOption ≠
      (sb.teamFile (sb.infoAt w n) (sb.infoAt w u) w teamId).toOption := by
  obtain ⟨i, hi⟩ := List.mem_iff_getElem?.1 hservice
  obtain ⟨rows, hfile, hcells⟩ := teamFile_of_fits sb h hl hu hfrozen hteam hfits
  obtain ⟨rows', hfile', hcells'⟩ := teamFile_of_fits sb
    (scored_bump u (teamId, service.id) h)
    (hl.of_agree (agree_bump _ (sub_one_lt u))) hu hfrozen hteam hfits
  rw [hfile, hfile']
  intro heq
  obtain ⟨-, rfl⟩ := StatisticFile.mk.inj (Option.some.inj heq)
  have htotal := Option.some.inj ((hcells' i service hi).symm.trans (hcells i service hi))
  rw [(row_bump sb h hpos hu (hl.pair_mem hteam hservice)).2] at htotal
  exact add_ne_left.2 one_ne_zero htotal

variable (sb) in
theorem teams_createStatistics (h : ScoredUntil w tick) (hu : u ≤ tick)
    (hfrozen : sb.frozenAt tick = true) (hteam : teamId ∈ w.teams) :
    (folderAfter (sb.createStatistics (sb.infoAt w tick) (sb.infoAt w u)) w).teams teamId =
      (sb.teamFile (sb.infoAt w tick) (sb.infoAt w u) w teamId).toOption := by
  rw [folderAfter_createStatistics sb (teams_nodup h) (exists_teamFile_of_mem h hu hfrozen)]
  exact if_pos hteam

end Team

omit [Field K] in
/-- A game that has been scored has a team. -/
theorem exists_team (h : ScoredUntil w tick) (hpos : 1 ≤ tick) (hservices : w.services ≠ []) :
    ∃ teamId, teamId ∈ w.teams := by
  obtain ⟨-, hnil⟩ | ⟨hteams, -⟩ := h.loaded
  · exact absurd hnil hservices
  · have hthere := h.results tick hpos le_rfl
    obtain ⟨row, hrow⟩ := List.exists_mem_of_ne_nil _ hthere.ne_nil
    exact ⟨row.teamId, hteams.mem_iff.2 (hthere.rankings.mem_iff.1 (List.mem_map_of_mem hrow))⟩

/-! ## `reset_to_tick` -/

theorem resetFits_of_reveals_nothing (h : ScoredUntil w tick) (hlt : freeze < tick)
    (hfrozen : sb.frozenAt tick = true)
    (hnothing : ∀ w', AgreeUntil freeze w w' → ScoredUntil w' tick →
      folderAfter (sb.createStatistics (sb.infoAt w' tick) (sb.infoAt w' (tick - 1))) w' =
        folderAfter (sb.createStatistics (sb.infoAt w tick) (sb.infoAt w (tick - 1))) w) :
    sb.ResetFits w freeze tick := by
  rw [ResetFits, or_iff_not_imp_left, or_iff_not_imp_left]
  intro hpos hservices
  lift tick to ℕ using by omega
  obtain ⟨service, hservice⟩ := List.exists_mem_of_ne_nil _ hservices
  have hfits : ∀ teamId ∈ w.teams,
      fits w.services sb.texts.serviceName tick (w.folder.teams teamId) = true := by
    intro teamId hteam
    by_contra hnot
    have hsame := hnothing _ (agree_bump (teamId, service.id) hlt)
      (scored_bump _ _ h)
    have hfile := congrFun (congrArg Folder.teams hsame) teamId
    rw [teams_createStatistics sb h (by omega) hfrozen hteam,
      teams_createStatistics sb (scored_bump _ _ h) (by omega) hfrozen hteam] at hfile
    exact teamFile_bump_of_not_fits h (loaded_of_mem h hteam)
      (by omega) _ _ hteam hservice hnot hfile
  refine ⟨?_, hfits⟩
  by_contra hunknown
  obtain ⟨teamId, hteam⟩ := exists_team h (by omega) hservices
  have hsame := hnothing _ (agree_bump (u := tick - 1) (teamId, service.id) (by omega))
    (scored_bump _ _ h)
  have hfile := congrFun (congrArg Folder.teams hsame) teamId
  rw [teams_createStatistics sb h (by omega) hfrozen hteam,
    teams_createStatistics sb (scored_bump _ _ h) (by omega) hfrozen hteam] at hfile
  exact teamFile_bump_of_fits h (loaded_of_mem h hteam) (by omega) (by omega) hfrozen hteam hservice
    (hfits teamId hteam) hfile

/-! ## `create_scoreboard` -/

section Create

variable [LinearOrder K]

variable (sb) in
omit [Field K] [LinearOrder K] in
/-- First bloods are shown if they are those of known teams. -/
theorem exists_firstBloodInfo (h : ScoredUntil w tick) (u : ℤ) :
    ∃ firstBloodInfo, sb.getFirstBloodInfo w.st u = .ok firstBloodInfo := by
  have hloop : ∀ (flags : List SubmittedFlag) (result : ℕ → List FirstBloodTeam × List ℕ),
      (∀ flag ∈ flags, flag.submittedBy ∈ w.st.db.teams) →
      ∃ firstBloodInfo, flags.foldlM (sb.addFirstBlood w.st) result = .ok firstBloodInfo := by
    intro flags
    induction flags with
    | nil => exact fun result _ => ⟨result, rfl⟩
    | cons flag flags ih =>
      intro result hknown
      have hrest := fun result => ih result fun f hf => hknown f (List.mem_cons_of_mem _ hf)
      obtain ⟨next, hnext⟩ : ∃ next, sb.addFirstBlood w.st result flag = .ok next := by
        unfold addFirstBlood
        rw [if_pos (hknown flag List.mem_cons_self)]
        split_ifs
        · exact ⟨_, rfl⟩
        · exact ⟨_, rfl⟩
      rw [List.foldlM_cons, hnext]
      exact hrest next
  refine hloop _ _ fun flag hflag => ?_
  obtain ⟨hrow, hselect⟩ := List.mem_filter.1 ((List.perm_insertionSort _ _).mem_iff.1 hflag)
  exact h.firstBloods flag hrow (of_decide_eq_true hselect).2.1

variable (sb) in
theorem exists_roundFile (h : ScoredUntil w tick) (hl : Loaded w) (hlt : freeze < tick)
    (hservices : w.services ≠ []) : ∃ firstBloodInfo, sb.roundFile w freeze tick =
      .ok (sb.frozenRound w.services (sb.infoAt w (shownTick freeze tick))
        (sb.getCheckerResultsLite w.st.db tick) (sb.lastCheckerResults w.st.db tick) tick
        ((sb.infoAt w tick).ranking.map TeamRanking.teamId) firstBloodInfo) := by
  obtain ⟨firstBloodInfo, hinfo⟩ := exists_firstBloodInfo sb h (shownTick freeze tick)
  refine ⟨firstBloodInfo, ?_⟩
  rw [roundFile_eq h hl hlt hservices, hinfo]
  rfl

/-- The file of the tick stays when the statistics are written. -/
theorem rounds_createFrozen (h : ScoredUntil w tick) (hlt : freeze < tick)
    (hfrozen : sb.frozenAt tick = true) {file : RoundFile K}
    (hfile : sb.roundFile w freeze tick = .ok file) :
    (folderAfter (sb.createFrozen w freeze tick) w).rounds tick = some file := by
  rw [folderAfter_createFrozen_of_ok hfile]
  have hw :=
    h.with_folder { w.folder with rounds := Function.update w.folder.rounds tick (some file) }
  have hleft := folderAfter_createStatistics sb (teams_nodup hw)
    (exists_teamFile_of_mem hw (shownTick_le hlt) hfrozen)
  refine (congrFun (congrArg Folder.rounds hleft) tick).trans ?_
  exact Function.update_self ..

theorem teams_createFrozen (h : ScoredUntil w tick) (hlt : freeze < tick)
    (hfrozen : sb.frozenAt tick = true) {file : RoundFile K}
    (hfile : sb.roundFile w freeze tick = .ok file) {teamId : ℕ} (hteam : teamId ∈ w.teams) :
    (folderAfter (sb.createFrozen w freeze tick) w).teams teamId =
      (sb.teamFile (sb.infoAt w tick) (sb.infoAt w (shownTick freeze tick)) w teamId).toOption := by
  rw [folderAfter_createFrozen_of_ok hfile]
  have hw :=
    h.with_folder { w.folder with rounds := Function.update w.folder.rounds tick (some file) }
  exact teams_createStatistics sb hw (shownTick_le hlt) hfrozen hteam

/-- A team as it is shown on the frozen scoreboard. -/
def shownTeam (sb : Scoreboard K Cache) (w : World K Cache) (freeze tick : ℤ) : ℕ → TeamEntry K :=
  frozenEntry w.services (sb.infoAt w (shownTick freeze tick))
    (sb.getCheckerResultsLite w.st.db tick)
    (sb.lastCheckerResults w.st.db tick)

/-- The teams in the order of the frozen scoreboard. -/
def shownTeams (sb : Scoreboard K Cache) (w : World K Cache) (freeze tick : ℤ) :
    List (TeamEntry K) :=
  (((sb.infoAt w tick).ranking.map TeamRanking.teamId).map
    (sb.shownTeam w freeze tick)).insertionSort
    fun a b => b.points ≤ a.points

variable (sb freeze) in
theorem shownTeams_perm (h : ScoredUntil w tick) :
    (sb.shownTeams w freeze tick).Perm (w.st.db.teams.map (sb.shownTeam w freeze tick)) :=
  (List.perm_insertionSort _ _).trans ((teams_ranking sb h le_rfl).map _)

theorem shownTeams_eq {w' : World K Cache} (h : ScoredUntil w tick) (h' : ScoredUntil w' tick)
    (hl : Loaded w) (hagree : AgreeUntil freeze w w') (hlt : freeze < tick)
    (hfrozen : sb.frozenAt tick = true) (hservices : w.services ≠ [])
    (hsame : folderAfter (sb.createFrozen w' freeze tick) w' =
      folderAfter (sb.createFrozen w freeze tick) w) :
    sb.shownTeams w' freeze tick = sb.shownTeams w freeze tick := by
  obtain ⟨first, hfile⟩ := exists_roundFile sb h hl hlt hservices
  obtain ⟨first', hfile'⟩ := exists_roundFile sb h' (hl.of_agree hagree) hlt
    (hagree.loadedServices ▸ hservices)
  have hround := congrFun (congrArg Folder.rounds hsame) tick
  rw [rounds_createFrozen h hlt hfrozen hfile, rounds_createFrozen h' hlt hfrozen hfile'] at hround
  exact congrArg RoundFile.scoreboard (Option.some.inj hround)

/-- The scoreboard shows the points of the tick. -/
theorem shownTeams_bump_ne (h : ScoredUntil w tick) (hl : Loaded w)
    (hpos : 1 ≤ shownTick freeze tick)
    (hle : shownTick freeze tick ≤ tick) {teamId : ℕ} (hteam : teamId ∈ w.teams) {service : Service}
    (hservice : service ∈ w.services) :
    sb.shownTeams (bump (shownTick freeze tick) (teamId, service.id) w) freeze tick ≠
      sb.shownTeams w freeze tick := by
  intro heq
  have hknown := hl.teams.mem_iff.1 hteam
  have hmem := (shownTeams_perm sb freeze
    (scored_bump (shownTick freeze tick) (teamId, service.id) h)).mem_iff.2
    (List.mem_map_of_mem hknown)
  rw [heq, (shownTeams_perm sb freeze h).mem_iff] at hmem
  obtain ⟨other, -, hsame⟩ := List.mem_map.1 hmem
  obtain rfl : other = teamId := congrArg TeamEntry.teamId hsame
  have hcell := List.map_inj_left.1 (congrArg TeamEntry.services hsame) service hservice
  have hoff : ((sb.infoAt w (shownTick freeze tick)).row (other, service.id)).offPoints = _ :=
    congrArg ServiceCell.offPoints hcell
  have hbump := (row_bump sb h hpos hle (hl.pair_mem hteam hservice)).1
  exact add_ne_left.2 one_ne_zero (hbump.symm.trans hoff.symm)

theorem shownTick_lt (hlt : freeze < tick) : shownTick freeze tick < tick := by
  unfold shownTick
  split_ifs <;> omega

variable (sb) in
/-- Of two teams with the same points, the one that leads the ranking of the tick is shown first. -/
theorem shownTeams_leader (h : ScoredUntil w tick) (hlt : freeze < tick) (hpos : 1 ≤ tick) {a b : ℕ}
    (ha : a ∈ w.st.db.teams) (hb : b ∈ w.st.db.teams) (hne : a ≠ b)
    (hpoints : (sb.shownTeam w freeze tick a).points ≤ (sb.shownTeam w freeze tick b).points) :
    [sb.shownTeam w freeze tick b, sb.shownTeam w freeze tick a].Sublist
      (sb.shownTeams (leader tick b w) freeze tick) := by
  have hteam : sb.shownTeam (leader tick b w) freeze tick = sb.shownTeam w freeze tick := by
    unfold shownTeam
    rw [infoAt_leader_of_ne (shownTick_lt hlt).ne]
    rfl
  obtain ⟨rest, hids⟩ := ranking_leader sb h hpos le_rfl hb
  have hmem := (teams_ranking sb (scored_leader tick b h) le_rfl).mem_iff.2 ha
  rw [hids] at hmem
  have hrest : a ∈ rest := (List.mem_cons.1 hmem).resolve_left hne
  unfold shownTeams
  rw [hteam, hids]
  exact List.pair_sublist_insertionSort hpoints
    (((List.singleton_sublist.2 hrest).cons_cons b).map (sb.shownTeam w freeze tick))

omit [Field K] [LinearOrder K] in
/-- Two different elements have one order in a list. -/
theorem not_sublist_swap {l : List ℕ} (h : l.Nodup) {a b : ℕ} (hab : [a, b].Sublist l) :
    ¬ [b, a].Sublist l := by
  induction l with
  | nil => cases hab
  | cons x l ih =>
    obtain ⟨hx, hl⟩ := List.nodup_cons.1 h
    intro hba
    rcases List.sublist_cons_iff.1 hab with hleft | ⟨r, hr, hleft⟩
    · rcases List.sublist_cons_iff.1 hba with hright | ⟨r, hr, hright⟩
      · exact ih hl hleft hright
      · obtain ⟨rfl, rfl⟩ := List.cons.inj hr
        exact hx (hleft.subset (List.mem_cons_of_mem _ List.mem_cons_self))
    · obtain ⟨rfl, rfl⟩ := List.cons.inj hr
      rcases List.sublist_cons_iff.1 hba with hright | ⟨r, hr, hright⟩
      · exact hx (hright.subset (List.mem_cons_of_mem _ List.mem_cons_self))
      · obtain ⟨rfl, rfl⟩ := List.cons.inj hr
        exact hx (hright.subset List.mem_cons_self)

/-- If nothing is revealed, the condition of `create_scoreboard` holds. -/
theorem createFits_of_reveals_nothing (h : ScoredUntil w tick) (hl : Loaded w) (hlt : freeze < tick)
    (hfrozen : sb.frozenAt tick = true)
    (hnothing : ∀ w', AgreeUntil freeze w w' → ScoredUntil w' tick →
      folderAfter (sb.createFrozen w' freeze tick) w' =
        folderAfter (sb.createFrozen w freeze tick) w) :
    sb.CreateFits w freeze tick := by
  rw [CreateFits, or_iff_not_imp_left, or_iff_not_imp_left]
  intro hpos hservices
  have hpos : 1 ≤ tick := by omega
  have hshown := shownTick_lt hlt
  obtain ⟨service, hservice⟩ := List.exists_mem_of_ne_nil _ hservices
  obtain ⟨teamId, hteam⟩ := exists_team h hpos hservices
  obtain ⟨first, hround⟩ := exists_roundFile sb h hl hlt hservices
  refine ⟨?_, ?_, ?_⟩
  · intro a ha b hb hpoints
    by_contra hne
    have hsame : ∀ c ∈ w.st.db.teams, sb.shownTeams (leader tick c w) freeze tick =
        sb.shownTeams w freeze tick := fun c _ =>
      shownTeams_eq h (scored_leader _ _ h) hl (agree_leader _ hlt) hlt hfrozen hservices
        (hnothing _ (agree_leader _ hlt) (scored_leader _ _ h))
    have hba := shownTeams_leader sb h hlt hpos ha hb hne (show _ ≤ _ from hpoints.le)
    have hab := shownTeams_leader sb h hlt hpos hb ha (Ne.symm hne)
      (show _ ≤ _ from hpoints.ge)
    rw [hsame b hb] at hba
    rw [hsame a ha] at hab
    have hnodup : ((sb.shownTeams w freeze tick).map TeamEntry.teamId).Nodup := by
      refine ((shownTeams_perm sb freeze h).map _).nodup_iff.2 ?_
      rw [List.map_map]
      show (List.map id _).Nodup
      rw [List.map_id]
      exact h.constraints.teams
    exact not_sublist_swap hnodup (hba.map TeamEntry.teamId) (hab.map TeamEntry.teamId)
  · by_contra hunknown
    have hlater : freeze < shownTick freeze tick := by omega
    have hagree := agree_bump (w := w) (teamId, service.id) hlater
    exact shownTeams_bump_ne h hl (by omega) hshown.le hteam hservice
      (shownTeams_eq h (scored_bump _ _ h) hl hagree hlt hfrozen hservices
        (hnothing _ hagree (scored_bump _ _ h)))
  · intro teamId hteam
    by_contra hnot
    have hagree := agree_bump (w := w) (teamId, service.id) hlt
    obtain ⟨first', hround'⟩ := exists_roundFile sb
      (scored_bump tick (teamId, service.id) h) (hl.of_agree hagree) hlt hservices
    have hfile := congrFun (congrArg Folder.teams (hnothing _ hagree (scored_bump _ _ h))) teamId
    rw [teams_createFrozen h hlt hfrozen hround hteam,
      teams_createFrozen (scored_bump _ _ h) hlt hfrozen hround' hteam] at hfile
    lift tick to ℕ using by omega
    exact teamFile_bump_of_not_fits h hl (by omega) _ _ hteam hservice hnot hfile

/-! ### Loading teams and services -/

omit [Field K] [LinearOrder K] in
theorem loaded_update (w : World K Cache) : Loaded (updateTeamServiceList w) where
  teams := List.perm_insertionSort _ _
  services := List.perm_insertionSort _ _

omit [Field K] [LinearOrder K] in
theorem scored_update (h : ScoredUntil w tick) : ScoredUntil (updateTeamServiceList w) tick :=
  ⟨h.constraints, h.points_pos, h.results, h.firstBloods,
    .inr ⟨(loaded_update w).teams, (loaded_update w).services⟩⟩

omit [Field K] [LinearOrder K] in
theorem agree_update {w' : World K Cache} (h : AgreeUntil freeze w w') :
    AgreeUntil freeze (updateTeamServiceList w) (updateTeamServiceList w') := by
  refine ⟨h.teams, h.services, h.checkerResults, h.teamPoints, h.teamRankings, h.submittedFlags,
    h.isFirstblood, ?_, ?_, h.folder⟩
  · show w'.st.db.teams.insertionSort _ = _
    rw [h.teams]
    rfl
  · show w'.st.db.services.insertionSort _ = _
    rw [h.services]
    rfl

omit [Field K] [LinearOrder K] in
/-- What agrees after loading can be loaded. -/
theorem exists_update_eq {w₁ : World K Cache} (h : ScoredUntil w tick)
    (hagree : AgreeUntil freeze (updateTeamServiceList w) w₁) (h₁ : ScoredUntil w₁ tick) :
    ∃ w', AgreeUntil freeze w w' ∧ ScoredUntil w' tick ∧ updateTeamServiceList w' = w₁ := by
  have hteams : w₁.st.db.teams = w.st.db.teams := hagree.teams
  have hservices : w₁.st.db.services = w.st.db.services := hagree.services
  refine ⟨{ w₁ with teams := w.teams, services := w.services }, ?_, ?_, ?_⟩
  · exact ⟨hteams, hservices, hagree.checkerResults, hagree.teamPoints, hagree.teamRankings,
      hagree.submittedFlags, hagree.isFirstblood, rfl, rfl, hagree.folder⟩
  · refine ⟨h₁.constraints, h₁.points_pos, h₁.results, h₁.firstBloods, ?_⟩
    show _ ∨ (w.teams.Perm w₁.st.db.teams ∧ w.services.Perm w₁.st.db.services)
    rw [hteams, hservices]
    exact h.loaded
  · have hloadedTeams : w₁.teams = w.st.db.teams.insertionSort (· ≤ ·) := hagree.loadedTeams
    have hloadedServices : w₁.services = w.st.db.services.insertionSort fun a b => a.id ≤ b.id :=
      hagree.loadedServices
    unfold updateTeamServiceList
    dsimp only
    rw [hteams, hservices, ← hloadedTeams, ← hloadedServices]

theorem createScoreboard_revealsNothing_iff (hpublic : sb.isPublic = true)
    (hfreeze : sb.scoreboardFreeze = some freeze) {ticknumber : ℤ} {hasStarted : Bool}
    (hlt : freeze < fileTick ticknumber hasStarted)
    (h : ScoredUntil w (fileTick ticknumber hasStarted)) :
    RevealsNothing (sb.createScoreboard ticknumber hasStarted) freeze
        (fileTick ticknumber hasStarted) w ↔
      sb.CreateFits (updateTeamServiceList w) freeze (fileTick ticknumber hasStarted) := by
  have hfrozen : sb.frozenAt (fileTick ticknumber hasStarted) = true := by
    simp [frozenAt, hfreeze, hlt]
  have hrun : ∀ {v : World K Cache}, ScoredUntil v (fileTick ticknumber hasStarted) →
      folderAfter (sb.createScoreboard ticknumber hasStarted) v =
        folderAfter (sb.createFrozen (updateTeamServiceList v) freeze
          (fileTick ticknumber hasStarted)) (updateTeamServiceList v) := by
    intro v hv
    rw [folderAfter, createScoreboard_eq hpublic hfreeze hlt (scored_update hv)]
    rfl
  constructor
  · intro hnothing
    refine createFits_of_reveals_nothing (scored_update h) (loaded_update w) hlt hfrozen
      fun w₁ hagree h₁ => ?_
    obtain ⟨w', hagree', h', rfl⟩ := exists_update_eq h hagree h₁
    have hsame := hnothing w' hagree' h'
    rwa [hrun h, hrun h'] at hsame
  · intro hfit w' hagree h'
    rw [hrun h, hrun h']
    exact createFrozen_eq (agree_update hagree) (scored_update h) (scored_update h')
      (loaded_update w)
      hlt hfrozen hfit

theorem resetToTick_revealsNothing_iff (hpublic : sb.isPublic = true)
    (hfreeze : sb.scoreboardFreeze = some freeze) (hlt : freeze < tick) (h : ScoredUntil w tick) :
    RevealsNothing (sb.resetToTick tick) freeze tick w ↔ sb.ResetFits w freeze tick := by
  have hfrozen : sb.frozenAt tick = true := by simp [frozenAt, hfreeze, hlt]
  have hrun : ∀ {v : World K Cache}, ScoredUntil v tick → folderAfter (sb.resetToTick tick) v =
      folderAfter (sb.createStatistics (sb.infoAt v tick) (sb.infoAt v (tick - 1))) v := by
    intro v hv
    rw [folderAfter, resetToTick_eq hpublic hfreeze hlt hv]
    rfl
  constructor
  · intro hnothing
    refine resetFits_of_reveals_nothing h hlt hfrozen fun w' hagree h' => ?_
    rw [← hrun h, ← hrun h']
    exact hnothing w' hagree h'
  · intro hfit w' hagree h'
    rw [hrun h, hrun h']
    exact createStatistics_eq hagree h h' (by omega) hfrozen hfit

end Create

end Scoreboard

open Scoreboard

/-- **When the frozen scoreboard reveals nothing.**  The files of a team must fit, since they are
recreated with all points; the points that are shown must be those of the freeze, which they are not
after a freeze in tick 0, or if `reset_to_tick` goes to a later tick than the first one after the
freeze; and teams with the same points keep the order of the hidden ranking. -/
theorem reveals_nothing_iff [Field K] [LinearOrder K] {sb : Scoreboard K Cache} {freeze tick : ℤ}
    {w : World K Cache} (hpublic : sb.isPublic = true) (hfreeze : sb.scoreboardFreeze = some freeze)
    (hlt : freeze < tick) (h : ScoredUntil w tick) :
    (∀ ticknumber hasStarted, fileTick ticknumber hasStarted = tick →
      (RevealsNothing (sb.createScoreboard ticknumber hasStarted) freeze tick w ↔
        sb.CreateFits (updateTeamServiceList w) freeze tick)) ∧
    (RevealsNothing (sb.resetToTick tick) freeze tick w ↔ sb.ResetFits w freeze tick) := by
  refine ⟨?_, resetToTick_revealsNothing_iff hpublic hfreeze hlt h⟩
  rintro ticknumber hasStarted rfl
  exact createScoreboard_revealsNothing_iff hpublic hfreeze hlt h

/-! ### A freeze after the first tick -/

/-- The public scoreboard, frozen after tick 1. -/
def frozenScoreboard : Scoreboard ℚ FirstBloodChoice.default.Cache :=
  { sampleScoreboard with scoreboardFreeze := some 1 }

/-- Two teams after tick 2; in both ticks team 1 has one point, and team 2 has none. -/
def frozenDatabase : Database ℚ where
  teams := [1, 2]
  services := [.new 1 0]
  submittedFlags := ⟨[], nodup_map_id_nil, nodup_map_uniqueKey_nil⟩
  checkerResults := []
  teamPoints := [⟨1, 1, 1, 0, 0, 1, 0, 0, 0⟩, ⟨2, 1, 1, 0, 0, 0, 0, 0, 0⟩,
    ⟨1, 1, 2, 0, 0, 1, 0, 0, 0⟩, ⟨2, 1, 2, 0, 0, 0, 0, 0, 0⟩]
  teamRankings := [⟨1, 1, Nat.succPNat 0, 1⟩, ⟨1, 2, Nat.succPNat 1, 0⟩,
    ⟨2, 1, Nat.succPNat 0, 1⟩, ⟨2, 2, Nat.succPNat 1, 0⟩]

/-- The output folder has this file for each team. -/
def frozenWorld (file : Option (StatisticFile ℚ)) : World ℚ FirstBloodChoice.default.Cache where
  st := ⟨frozenDatabase, fun _ => 0, (FirstBloodChoice.default.algorithm [.new 1 0]).empty⟩
  teams := []
  services := []
  folder := ⟨fun _ => none, fun _ => file, none⟩

theorem scored_frozenWorld (file : Option (StatisticFile ℚ)) :
    ScoredUntil (frozenWorld file) 2 where
  constraints :=
    show Constraints frozenDatabase from ⟨by decide, by decide, by decide, by decide⟩
  points_pos := show ∀ row ∈ frozenDatabase.teamPoints, 1 ≤ row.tick by decide
  results u hpos hle := by
    show ResultsThere frozenDatabase u
    obtain rfl | rfl : u = 1 ∨ u = 2 := by omega
    · exact ⟨by decide, by decide, by decide⟩
    · exact ⟨by decide, by decide, by decide⟩
  firstBloods := by
    intro flag hflag
    exact absurd hflag List.not_mem_nil
  loaded := .inl ⟨rfl, rfl⟩

theorem distinct_frozenWorld (file : Option (StatisticFile ℚ)) :
    frozenScoreboard.DistinctPoints (frozenWorld file) 1 :=
  show frozenScoreboard.DistinctPoints (frozenWorld none) 1 from by
    unfold DistinctPoints
    decide +kernel

/-- With files up to tick 1, tick 2 reveals nothing. -/
theorem reveals_nothing_fitting :
    RevealsNothing (frozenScoreboard.createScoreboard 2 true) 1 2
      (updateTeamServiceList (frozenWorld (some ⟨["service"], [[0, 1]]⟩))) ∧
    RevealsNothing (frozenScoreboard.resetToTick 2) 1 2
      (updateTeamServiceList (frozenWorld (some ⟨["service"], [[0, 1]]⟩))) := by
  have hscored := scored_update (scored_frozenWorld (some ⟨["service"], [[0, 1]]⟩))
  have hfits : frozenScoreboard.StatisticsFit
      (updateTeamServiceList (frozenWorld (some ⟨["service"], [[0, 1]]⟩))) 1 2 1 :=
    ⟨by decide, by decide⟩
  have hfreeze : frozenScoreboard.scoreboardFreeze = some 1 := rfl
  obtain ⟨hcreate, hreset⟩ := reveals_nothing_iff rfl hfreeze (by decide) hscored
  exact ⟨(hcreate 2 true rfl).2 (.inr
    (.inr ⟨distinct_frozenWorld (some ⟨["service"], [[0, 1]]⟩), hfits⟩)),
    hreset.2 (.inr (.inr hfits))⟩

/-- A new file of team 1 shows what it has scored after the freeze. -/
theorem not_reveals_nothing :
    ScoredUntil (frozenWorld none) 2 ∧ ScoredUntil (bump 2 (1, 1) (frozenWorld none)) 2 ∧
    AgreeUntil 1 (frozenWorld none) (bump 2 (1, 1) (frozenWorld none)) ∧
    (folderAfter (frozenScoreboard.createScoreboard 2 true) (frozenWorld none)).teams 1 =
      some ⟨["service"], [[0, 1, 1]]⟩ ∧
    (folderAfter (frozenScoreboard.createScoreboard 2 true)
      (bump 2 (1, 1) (frozenWorld none))).teams 1 = some ⟨["service"], [[0, 1, 2]]⟩ ∧
    ¬ RevealsNothing (frozenScoreboard.createScoreboard 2 true) 1 2 (frozenWorld none) := by
  have hscored := scored_frozenWorld none
  have hagree : AgreeUntil 1 (frozenWorld none) (bump 2 (1, 1) (frozenWorld none)) :=
    agree_bump _ (by decide)
  have hfile : (folderAfter (frozenScoreboard.createScoreboard 2 true) (frozenWorld none)).teams 1 =
      some ⟨["service"], [[0, 1, 1]]⟩ := by decide +kernel
  have hother : (folderAfter (frozenScoreboard.createScoreboard 2 true)
      (bump 2 (1, 1) (frozenWorld none))).teams 1 = some ⟨["service"], [[0, 1, 2]]⟩ := by
    decide +kernel
  refine ⟨hscored, scored_bump _ _ hscored, hagree, hfile, hother, fun hnothing => ?_⟩
  have hsame := congrFun (congrArg Folder.teams (hnothing _ hagree (scored_bump _ _ hscored))) 1
  rw [hfile, hother] at hsame
  exact absurd hsame (by decide)

end Gameserver.Board
