import Gameserver.Board.Freeze

/-!
# What the frozen scoreboard reveals

`create_scoreboard` and `reset_to_tick` of the public scoreboard, for ticks after the freeze.

* `folderAfter_createFrozen`, `folderAfter_createStatistics` — the files they leave.
* `CreateFits`, `ResetFits` — when these files reveal nothing about the ticks after the freeze.
-/

namespace Gameserver.Board

open Gameserver.Scoring Gameserver.Calculation

variable {K Cache : Type}

/-! ## The files an operation leaves -/

section Folder

theorem folderAfter_of_ok {m : EStateM Error (World K Cache) Unit} {w w₁ : World K Cache}
    (h : m w = .ok () w₁) : folderAfter m w = w₁.folder := by
  rw [folderAfter, h]

theorem folderAfter_of_error {m : EStateM Error (World K Cache) Unit} {w w₁ : World K Cache}
    {e : Error} (h : m w = .error e w₁) : folderAfter m w = w₁.folder := by
  rw [folderAfter, h]

variable {m : EStateM Error (World K Cache) Unit} {f : Unit → EStateM Error (World K Cache) Unit}
  {w w₁ : World K Cache}

theorem bind_of_ok (h : m w = .ok () w₁) : (m >>= f) w = f () w₁ := by
  show EStateM.bind m f w = _
  rw [EStateM.bind, h]

theorem bind_of_error {e : Error} (h : m w = .error e w₁) : (m >>= f) w = .error e w₁ := by
  show EStateM.bind m f w = _
  rw [EStateM.bind, h]

theorem write_of_ok {α : Type} {content : World K Cache → Except Error α}
    {store : World K Cache → α → Folder K} {file : α} (h : content w = .ok file) :
    Scoreboard.write content store w = .ok () { w with folder := store w file } := by
  rw [Scoreboard.write, h]

theorem write_of_error {α : Type} {content : World K Cache → Except Error α}
    {store : World K Cache → α → Folder K} {e : Error} (h : content w = .error e) :
    Scoreboard.write content store w = .error e w := by
  rw [Scoreboard.write, h]

end Folder

theorem ScoredUntil.with_folder {w : World K Cache} {tick : ℤ} (h : ScoredUntil w tick)
    (folder : Folder K) : ScoredUntil { w with folder := folder } tick :=
  ⟨h.constraints, h.points_pos, h.results, h.firstBloods, h.loaded⟩

theorem AgreeUntil.with_round {w w' : World K Cache} {freeze tick : ℤ} (h : AgreeUntil freeze w w')
    (file : RoundFile K) : AgreeUntil freeze
      { w with folder :=
        { w.folder with rounds := Function.update w.folder.rounds tick (some file) } }
      { w' with folder :=
        { w'.folder with rounds := Function.update w'.folder.rounds tick (some file) } } where
  teams := h.teams
  services := h.services
  checkerResults := h.checkerResults
  teamPoints := h.teamPoints
  teamRankings := h.teamRankings
  submittedFlags := h.submittedFlags
  isFirstblood := h.isFirstblood
  loadedTeams := h.loadedTeams
  loadedServices := h.loadedServices
  folder := by rw [h.folder]

namespace Scoreboard

variable [Field K] (sb : Scoreboard K Cache) (info prev : TickInformation K)

/-- What `update_file` makes of the file of a team. -/
def teamFile (w : World K Cache) (teamId : ℕ) : Except Error (StatisticFile K) :=
  updateFile w.services (sb.teamStatistic w.services info prev w.st.db true teamId)
    sb.texts.serviceName info.ticknumber (w.folder.teams teamId)

/-- What `update_file` makes of the file of the services. -/
def statsFile (w : World K Cache) : Except Error (StatisticFile ServiceStat) :=
  updateFile w.services (sb.serviceStatistic w.services info prev w.st.db true)
    sb.texts.serviceName info.ticknumber w.folder.serviceStats

variable {sb info prev} {w : World K Cache}

theorem createJsonForTeam_ok {teamId : ℕ} {file : StatisticFile K}
    (h : sb.teamFile info prev w teamId = .ok file) :
    sb.createJsonForTeam info prev true teamId w = .ok ()
      { w with folder :=
        { w.folder with teams := Function.update w.folder.teams teamId (some file) } } :=
  write_of_ok h

/-- The loop over the teams writes their files one by one. -/
theorem createJsonForTeams_ok (hnodup : w.teams.Nodup) {file : ℕ → StatisticFile K}
    (h : ∀ teamId ∈ w.teams, sb.teamFile info prev w teamId = .ok (file teamId)) :
    sb.createJsonForTeams info prev true w = .ok ()
      { w with folder :=
        { w.folder with
          teams := fun k => if k ∈ w.teams then some (file k) else w.folder.teams k } } := by
  have hloop : ∀ (l : List ℕ) (w : World K Cache), l.Nodup →
      (∀ teamId ∈ l, sb.teamFile info prev w teamId = .ok (file teamId)) →
      (forIn l PUnit.unit fun teamId _ => do
        sb.createJsonForTeam info prev true teamId
        return ForInStep.yield PUnit.unit : EStateM Error (World K Cache) PUnit) w = .ok PUnit.unit
          { w with folder :=
            { w.folder with
              teams := fun k => if k ∈ l then some (file k) else w.folder.teams k } } := by
    intro l
    induction l with
    | nil =>
      intro w _ _
      simp only [List.not_mem_nil, if_false]
      rfl
    | cons teamId l ih =>
      intro w hnodup h
      obtain ⟨hnew, hnodup⟩ := List.nodup_cons.1 hnodup
      have hfirst := createJsonForTeam_ok (h teamId List.mem_cons_self)
      have hrest := ih { w with folder :=
          { w.folder with teams := Function.update w.folder.teams teamId (some (file teamId)) } }
        hnodup fun k hk => by
          have hne : k ≠ teamId := fun heq => hnew (heq ▸ hk)
          show updateFile _ _ _ _ (Function.update w.folder.teams teamId _ k) = _
          rw [Function.update_of_ne hne]
          exact h k (List.mem_cons_of_mem _ hk)
      have hteams : (fun k => if k ∈ teamId :: l then some (file k) else w.folder.teams k) =
          fun k => if k ∈ l then some (file k)
            else Function.update w.folder.teams teamId (some (file teamId)) k := by
        funext k
        by_cases hk : k = teamId
        · simp [hk, hnew]
        · simp [hk]
      rw [List.forIn_cons]
      show EStateM.bind (EStateM.bind _ _) _ w = _
      rw [EStateM.bind, EStateM.bind, hfirst, hteams]
      exact hrest
  show EStateM.bind (forIn w.teams _ _) _ w = _
  rw [EStateM.bind, hloop w.teams w hnodup h]
  rfl

/-! ## The statistics of a frozen tick -/

section Statistics

variable {tick u : ℤ}

/-- The generator has loaded all teams and services. -/
structure Loaded (w : World K Cache) : Prop where
  teams : w.teams.Perm w.st.db.teams
  services : w.services.Perm w.st.db.services

omit [Field K] in
theorem Loaded.pair_mem (hl : Loaded w) {teamId : ℕ} (hteam : teamId ∈ w.teams) {service : Service}
    (hservice : service ∈ w.services) : (teamId, service.id) ∈ w.st.db.roster.pairs :=
  History.pair_mem (hl.teams.mem_iff.1 hteam) (hl.services.mem_iff.1 hservice)

omit [Field K] in
theorem Loaded.services_nodup (hl : Loaded w) (h : ScoredUntil w tick) :
    (w.services.map Service.id).Nodup :=
  (hl.services.map _).nodup_iff.2 h.constraints.services

theorem prev_pair_mem (h : ScoredUntil w tick) (hl : Loaded w) (hu : u ≤ tick) {teamId : ℕ}
    (hteam : teamId ∈ w.teams) {service : Service} (hservice : service ∈ w.services) :
    (teamId, service.id) ∈ (sb.infoAt w u).teamPoints.map pairOf :=
  (pairs_teamPoints h hl.teams hu).mem_iff.2 (hl.pair_mem hteam hservice)

variable (sb) in
/-- The data of a tick has the rows of the table. -/
theorem row_eq (h : ScoredUntil w tick) {row : TeamPointsLite K} (hrow : row ∈ w.st.db.teamPoints) :
    (sb.infoAt w row.tick).row (pairOf row) = row := by
  have hpos := h.points_pos row hrow
  have hmem : row ∈ w.st.db.pointsRows row.tick :=
    List.mem_filter.2 ⟨hrow, decide_eq_true rfl⟩
  unfold TickInformation.row
  rw [infoAt_teamPoints, if_neg (by omega)]
  cases hfind : (w.st.db.pointsRows row.tick).find? fun other => pairOf other = pairOf row with
  | none => exact absurd (decide_eq_true rfl) (List.find?_eq_none.1 hfind row hmem)
  | some found =>
    have hpair : pairOf found = pairOf row := by simpa using List.find?_some hfind
    exact List.inj_on_of_nodup_map (h.constraints.pointsRows_nodup row.tick)
      (List.mem_of_find?_eq_some hfind) hmem hpair

theorem teamStatistic_single (h : ScoredUntil w tick) (hl : Loaded w) (hu : u ≤ tick)
    (hfrozen : sb.frozenAt tick = true) {teamId : ℕ} (hteam : teamId ∈ w.teams) :
    (sb.teamStatistic w.services (sb.infoAt w tick) (sb.infoAt w u) w.st.db true
      teamId).singleTickInfo = .ok (w.services.map fun service =>
        (service.id, totalPoints ((sb.infoAt w u).row (teamId, service.id)))) := by
  refine History.mapM_ok w.services fun service hservice => ?_
  have hfreeze : (true && sb.frozenAt (sb.infoAt w tick).ticknumber) = true := hfrozen
  rw [if_pos hfreeze, (sb.infoAt w u).points_eq_row (prev_pair_mem h hl hu hteam hservice)]
  rfl

theorem teamStatistic_all (h : ScoredUntil w tick) (hl : Loaded w) (prev : TickInformation K)
    (teamId : ℕ) : ∀ t id v, ((t, id), v) ∈ (sb.teamStatistic w.services (sb.infoAt w tick) prev
      w.st.db true teamId).allTickInfo → ∃ service ∈ w.services, service.id = id ∧
        totalPoints ((sb.infoAt w t).row (teamId, service.id)) = v := by
  intro t id v hentry
  obtain ⟨row, hmem, heq⟩ := List.mem_map.1 hentry
  obtain ⟨hrow, hselect⟩ := List.mem_filter.1 hmem
  obtain ⟨rfl, hlow, -⟩ := of_decide_eq_true hselect
  obtain ⟨hkey, rfl⟩ := Prod.mk.inj heq
  obtain ⟨rfl, rfl⟩ := Prod.mk.inj hkey
  obtain ⟨service, hservice, hid⟩ :=
    History.serviceId_of_pair_mem (h.constraints.points_known row hrow)
  refine ⟨service, hl.services.mem_iff.2 hservice, hid, ?_⟩
  rw [hid, Int.toNat_of_nonneg hlow]
  exact congrArg totalPoints (row_eq sb h hrow)

/-! ### The file of a team -/

variable {n : ℕ} {teamId : ℕ}

variable (sb) in
/-- A file that fits shows the points of the tick before. -/
theorem teamFile_of_fits (h : ScoredUntil w n) (hl : Loaded w) (hu : u ≤ n)
    (hfrozen : sb.frozenAt n = true) (hteam : teamId ∈ w.teams)
    (hfits : fits w.services sb.texts.serviceName n (w.folder.teams teamId) = true) :
    ∃ rows, sb.teamFile (sb.infoAt w n) (sb.infoAt w u) w teamId =
        .ok ⟨serviceNames w.services sb.texts.serviceName n, rows⟩ ∧
      ∀ (i : ℕ) (service : Service), w.services[i]? = some service →
        cell rows i n = some (totalPoints ((sb.infoAt w u).row (teamId, service.id))) := by
  obtain ⟨rows, hfile, -, -, hcells⟩ := updateFile_of_fits (hl.services_nodup h)
    (teamStatistic_single h hl hu hfrozen hteam) hfits
  exact ⟨rows, hfile, fun i service hi => by rw [hcells i service n hi, if_pos rfl]⟩

variable (sb) in
/-- A file that does not fit shows the points of the tick itself. -/
theorem teamFile_of_not_fits (h : ScoredUntil w n) (hl : Loaded w) (hn : 1 ≤ n)
    (prev : TickInformation K) (hteam : teamId ∈ w.teams)
    (hfits : ¬ fits w.services sb.texts.serviceName n (w.folder.teams teamId) = true) :
    ∃ services rows, sb.teamFile (sb.infoAt w n) prev w teamId = .ok ⟨services, rows⟩ ∧
      ∀ (i : ℕ) (service : Service), w.services[i]? = some service →
        cell rows i n = some (totalPoints ((sb.infoAt w n).row (teamId, service.id))) := by
  obtain ⟨rows, hfile, -, hcells⟩ := updateFile_of_not_fits (hl.services_nodup h)
    (teamStatistic_all h hl prev teamId) hfits
  refine ⟨_, rows, hfile, fun i service hi => ?_⟩
  have hservice := List.mem_of_getElem? hi
  have hlt : i < w.services.length := (List.getElem?_eq_some_iff.1 hi).1
  obtain ⟨old, hold, hreach⟩ := slowRows_reaches sb.texts.serviceName n (w.folder.teams teamId) hlt
    (sb.teamStatistic w.services (sb.infoAt w n) prev w.st.db true teamId).emptyValue
  have hkey : (n, service.id) ∈ (sb.teamStatistic w.services (sb.infoAt w n) prev w.st.db true
      teamId).allTickInfo.map Prod.fst := by
    have hpair := (h.results n (by omega) le_rfl).points.mem_iff.2 (hl.pair_mem hteam hservice)
    obtain ⟨row, hrow, heq⟩ := List.mem_map.1 hpair
    obtain ⟨hmem, htick⟩ := List.mem_filter.1 hrow
    have htick : row.tick = n := of_decide_eq_true htick
    obtain ⟨hrowTeam, hrowService⟩ := Prod.mk.inj heq
    refine List.mem_map.2 ⟨((row.tick.toNat, row.serviceId), totalPoints row),
      List.mem_map_of_mem (List.mem_filter.2 ⟨hmem, decide_eq_true ⟨hrowTeam, ?_, htick.le⟩⟩), ?_⟩
    · omega
    · rw [htick, hrowService, Int.toNat_natCast]
  rw [hcells i service n hi, cell_of_getElem? hold, List.getElem?_eq_getElem hreach,
    Option.map_some,
    if_pos hkey]

/-- The files of the teams can always be written. -/
theorem exists_teamFile (h : ScoredUntil w tick) (hl : Loaded w) (hu : u ≤ tick)
    (hfrozen : sb.frozenAt tick = true) (hteam : teamId ∈ w.teams) :
    ∃ file, sb.teamFile (sb.infoAt w tick) (sb.infoAt w u) w teamId = .ok file := by
  rcases lt_or_ge tick 0 with hneg | hpos
  · exact ⟨_, if_neg (show ¬ 0 ≤ (sb.infoAt w tick).ticknumber by exact not_le.2 hneg)⟩
  · lift tick to ℕ using hpos
    by_cases hfits : fits w.services sb.texts.serviceName tick (w.folder.teams teamId) = true
    · obtain ⟨rows, hfile, -⟩ := teamFile_of_fits sb h hl hu hfrozen hteam hfits
      exact ⟨_, hfile⟩
    · obtain ⟨rows, hfile, -⟩ := updateFile_of_not_fits (hl.services_nodup h)
        (teamStatistic_all h hl (sb.infoAt w u) teamId) hfits
      exact ⟨_, hfile⟩

/-! ### What both operations leave -/

variable (sb) in
theorem folderAfter_createStatistics (hnodup : w.teams.Nodup)
    (h : ∀ teamId ∈ w.teams, ∃ file, sb.teamFile info prev w teamId = .ok file) :
    folderAfter (sb.createStatistics info prev) w =
      { w.folder with
        teams := fun k => if k ∈ w.teams then (sb.teamFile info prev w k).toOption
          else w.folder.teams k
        serviceStats := match sb.statsFile info prev w with
          | .ok file => some file
          | .error _ => w.folder.serviceStats } := by
  have : Nonempty (StatisticFile K) := ⟨⟨[], []⟩⟩
  choose! file hfile using h
  have hteams : (fun k => if k ∈ w.teams then (sb.teamFile info prev w k).toOption
      else w.folder.teams k) = fun k => if k ∈ w.teams then some (file k)
          else w.folder.teams k := by
    funext k
    by_cases hk : k ∈ w.teams
    · rw [if_pos hk, if_pos hk, hfile k hk]
      rfl
    · rw [if_neg hk, if_neg hk]
  have hloop := createJsonForTeams_ok hnodup hfile
  have hrun := bind_of_ok (f := fun _ => sb.createServiceStatJson info prev true) hloop
  rw [hteams]
  cases hstats : sb.statsFile info prev w with
  | ok stats => exact folderAfter_of_ok (hrun.trans (write_of_ok hstats))
  | error e => exact folderAfter_of_error (hrun.trans (write_of_error hstats))

end Statistics

/-! ## When nothing is revealed -/

variable (sb) in
/-- The files of the teams fit, and the tick whose points they show is known: it is not after the
freeze, or the game had not begun. -/
def StatisticsFit (w : World K Cache) (freeze tick shown : ℤ) : Prop :=
  shown ≤ max freeze 0 ∧
    ∀ teamId ∈ w.teams, fits w.services sb.texts.serviceName tick (w.folder.teams teamId) = true

section Agree

variable {w' : World K Cache} {tick u freeze : ℤ} {teamId : ℕ}

omit [Field K] in
theorem Loaded.of_agree (hl : Loaded w) (hagree : AgreeUntil freeze w w') : Loaded w' where
  teams := by rw [hagree.loadedTeams, hagree.teams]; exact hl.teams
  services := by rw [hagree.loadedServices, hagree.services]; exact hl.services

/-- Nothing has been scored yet, or there is nothing to score. -/
theorem teamStatistic_all_eq_nil (h : ScoredUntil w tick)
    (hnone : tick ≤ 0 ∨ w.st.db.services = []) (services : List Service) :
    (sb.teamStatistic services (sb.infoAt w tick) info w.st.db true teamId).allTickInfo = [] := by
  refine List.map_eq_nil_iff.2 (List.filter_eq_nil_iff.2 fun row hrow hselect => ?_)
  obtain ⟨-, hlow, hhigh⟩ := of_decide_eq_true hselect
  rcases hnone with hpos | hservices
  · have hrowPos := h.points_pos row hrow
    have hhigh : row.tick ≤ tick := hhigh
    omega
  · obtain ⟨service, hservice, -⟩ :=
      History.serviceId_of_pair_mem (h.constraints.points_known row hrow)
    rw [hservices] at hservice
    exact List.not_mem_nil hservice

/-- The file of the services hides all numbers, and keeps those before the freeze. -/
theorem serviceStatistic_eq (h : ScoredUntil w tick) (hfrozen : sb.frozenAt tick = true)
    (services : List Service) :
    sb.serviceStatistic services (sb.infoAt w tick) info w.st.db true =
      ⟨.ok (services.map fun service => (service.id, ⟨.hidden, .hidden⟩)), [],
        ⟨.number 0, .number 0⟩⟩ := by
  have hcounted : ∀ count, sb.countedRows w.st.db true (sb.infoAt w tick).ticknumber count =
      [] := by
    intro count
    refine sb.countedRows_eq_nil_of_unique fun row hrow last hlast htick hpair => ?_
    rw [← row_eq sb h hrow.1, ← row_eq sb h hlast.1, htick, hpair]
  have hhidden : (true && sb.frozenAt (sb.infoAt w tick).ticknumber) = true := hfrozen
  unfold serviceStatistic
  rw [if_pos hhidden, hcounted, hcounted]
  rfl

theorem updateFile_congr {V : Type} {services : List Service} {gen gen' : Statistic V}
    {name : ℕ → String} {file : Option (StatisticFile V)}
    (hsingle : gen'.singleTickInfo = gen.singleTickInfo)
    (h : fits services name tick file = true ∨ (gen'.allTickInfo = gen.allTickInfo ∧
      gen'.emptyValue = gen.emptyValue)) :
    updateFile services gen' name tick file = updateFile services gen name tick file := by
  unfold updateFile
  rw [hsingle]
  rcases h with hfits | ⟨hall, hempty⟩
  · simp only [if_pos hfits]
  · rw [hall, hempty]

/-- The file of a team is the same in both histories. -/
theorem teamFile_eq (hagree : AgreeUntil freeze w w') (h : ScoredUntil w tick)
    (h' : ScoredUntil w' tick) (hl : Loaded w) (hu : u ≤ tick) (hfrozen : sb.frozenAt tick = true)
    (hteam : teamId ∈ w.teams)
    (hfit : tick ≤ 0 ∨ w.st.db.services = [] ∨ sb.StatisticsFit w freeze tick u) :
    sb.teamFile (sb.infoAt w' tick) (sb.infoAt w' u) w' teamId =
      sb.teamFile (sb.infoAt w tick) (sb.infoAt w u) w teamId := by
  have hservices : w.st.db.services = [] → w.services = [] := fun hnil =>
    (hnil ▸ hl.services).eq_nil
  have hsingle : (sb.teamStatistic w.services (sb.infoAt w' tick) (sb.infoAt w' u) w'.st.db true
      teamId).singleTickInfo = (sb.teamStatistic w.services (sb.infoAt w tick)
        (sb.infoAt w u) w.st.db
      true teamId).singleTickInfo := by
    have hsame := teamStatistic_single h' (hl.of_agree hagree) hu hfrozen
      (hagree.loadedTeams ▸ hteam)
    rw [hagree.loadedServices] at hsame
    rw [hsame, teamStatistic_single h hl hu hfrozen hteam]
    rcases hfit with hpos | hnil | ⟨hknown, -⟩
    · rw [infoAt_eq hagree (by omega)]
    · rw [hservices hnil]
      rfl
    · rw [infoAt_eq hagree hknown]
  unfold teamFile
  rw [hagree.loadedServices, hagree.folder]
  refine updateFile_congr hsingle ?_
  have hnone : tick ≤ 0 ∨ w.st.db.services = [] →
      (sb.teamStatistic w.services (sb.infoAt w' tick) (sb.infoAt w' u) w'.st.db true
        teamId).allTickInfo = (sb.teamStatistic w.services (sb.infoAt w tick)
          (sb.infoAt w u) w.st.db
        true teamId).allTickInfo := by
    intro hnone
    rw [teamStatistic_all_eq_nil h hnone,
      teamStatistic_all_eq_nil h' (hnone.imp_right hagree.services.trans)]
  rcases hfit with hpos | hnil | ⟨-, hfits⟩
  · exact .inr ⟨hnone (.inl hpos), rfl⟩
  · exact .inr ⟨hnone (.inr hnil), rfl⟩
  · exact .inl (hfits teamId hteam)

omit [Field K] in
theorem loaded_of_mem (h : ScoredUntil w tick) (hteam : teamId ∈ w.teams) : Loaded w := by
  rcases h.loaded with ⟨hteams, -⟩ | ⟨hteams, hservices⟩
  · rw [hteams] at hteam
    exact absurd hteam List.not_mem_nil
  · exact ⟨hteams, hservices⟩

omit [Field K] in
theorem teams_nodup (h : ScoredUntil w tick) : w.teams.Nodup := by
  rcases h.loaded with ⟨hteams, -⟩ | ⟨hteams, -⟩
  · rw [hteams]
    exact List.nodup_nil
  · exact hteams.nodup_iff.2 h.constraints.teams

theorem exists_teamFile_of_mem (h : ScoredUntil w tick) (hu : u ≤ tick)
    (hfrozen : sb.frozenAt tick = true) :
    ∀ teamId ∈ w.teams, ∃ file, sb.teamFile (sb.infoAt w tick) (sb.infoAt w u) w teamId =
      .ok file :=
  fun _ hteam => exists_teamFile h (loaded_of_mem h hteam) hu hfrozen hteam

/-- Teams and services have the same files in both histories. -/
theorem createStatistics_eq (hagree : AgreeUntil freeze w w') (h : ScoredUntil w tick)
    (h' : ScoredUntil w' tick) (hu : u ≤ tick) (hfrozen : sb.frozenAt tick = true)
    (hfit : tick ≤ 0 ∨ w.services = [] ∨ sb.StatisticsFit w freeze tick u) :
    folderAfter (sb.createStatistics (sb.infoAt w' tick) (sb.infoAt w' u)) w' =
      folderAfter (sb.createStatistics (sb.infoAt w tick) (sb.infoAt w u)) w := by
  have hteams : ∀ k ∈ w.teams, sb.teamFile (sb.infoAt w' tick) (sb.infoAt w' u) w' k =
      sb.teamFile (sb.infoAt w tick) (sb.infoAt w u) w k := by
    intro k hk
    have hl := loaded_of_mem h hk
    refine teamFile_eq hagree h h' hl hu hfrozen hk (hfit.imp_right (Or.imp_left fun hnil => ?_))
    exact (hl.services.symm.trans (by rw [hnil])).eq_nil
  have hstats : sb.statsFile (sb.infoAt w' tick) (sb.infoAt w' u) w' =
      sb.statsFile (sb.infoAt w tick) (sb.infoAt w u) w := by
    unfold statsFile
    rw [serviceStatistic_eq h hfrozen, serviceStatistic_eq h' hfrozen, hagree.loadedServices,
      hagree.folder]
    rfl
  rw [folderAfter_createStatistics sb (teams_nodup h) (exists_teamFile_of_mem h hu hfrozen),
    folderAfter_createStatistics sb (teams_nodup h') (exists_teamFile_of_mem h' hu hfrozen), hstats,
    hagree.folder, hagree.loadedTeams]
  refine Folder.ext rfl (funext fun k => ?_) rfl
  exact ite_congr rfl (fun hk => by rw [hteams k hk]) fun _ => rfl

end Agree

/-! ### The file of the tick -/

section Round

variable [LinearOrder K] {w' : World K Cache} {tick freeze : ℤ}

variable (sb) in
/-- The points shown on the frozen scoreboard are different for different teams. -/
def DistinctPoints (w : World K Cache) (shown : ℤ) : Prop :=
  ∀ a ∈ w.st.db.teams, ∀ b ∈ w.st.db.teams,
    ((sb.infoAt w shown).rankingOf a).points = ((sb.infoAt w shown).rankingOf b).points → a = b

omit [Field K] in
/-- Teams with different points are shown in the order of their points. -/
theorem sort_eq_of_distinct {entry : ℕ → TeamEntry K} {ids ids' teams : List ℕ}
    (hids : ids.Perm teams) (hids' : ids'.Perm teams)
    (h : ∀ a ∈ teams, ∀ b ∈ teams, (entry a).points = (entry b).points → a = b) :
    ((ids'.map entry).insertionSort fun a b => b.points ≤ a.points) =
      (ids.map entry).insertionSort fun a b => b.points ≤ a.points := by
  have : Std.Total fun a b : TeamEntry K => b.points ≤ a.points :=
    ⟨fun a b => le_total b.points a.points⟩
  have : IsTrans (TeamEntry K) fun a b => b.points ≤ a.points :=
    ⟨fun _ _ _ hab hbc => hbc.trans hab⟩
  have hmem : ∀ {ids : List ℕ}, ids.Perm teams → ∀ e ∈ (ids.map entry).insertionSort
      (fun a b => b.points ≤ a.points), ∃ a ∈ teams, entry a = e := by
    intro ids hids e he
    obtain ⟨a, ha, rfl⟩ := List.mem_map.1 ((List.perm_insertionSort _ _).mem_iff.1 he)
    exact ⟨a, hids.mem_iff.1 ha, rfl⟩
  refine List.Perm.eq_of_pairwise ?_ (List.pairwise_insertionSort _ _)
    (List.pairwise_insertionSort _ _) ?_
  · intro a b ha hb hab hba
    obtain ⟨i, hi, rfl⟩ := hmem hids' a ha
    obtain ⟨j, hj, rfl⟩ := hmem hids b hb
    rw [h i hi j hj (le_antisymm hba hab)]
  · exact (List.perm_insertionSort _ _).trans (((hids'.trans hids.symm).map entry).trans
      (List.perm_insertionSort _ _).symm)

/-- The file of the tick, once the data is fetched. -/
def roundFile (sb : Scoreboard K Cache) (w : World K Cache) (freeze tick : ℤ) :
    Except Error (RoundFile K) :=
  sb.roundJson w.services (sb.infoAt w tick) (sb.infoAt w (shownTick freeze tick))
    (sb.lastCheckerResults w.st.db tick) true w.st

theorem shownTick_le (hlt : freeze < tick) : shownTick freeze tick ≤ tick := by
  unfold shownTick
  split_ifs <;> omega

theorem roundFile_eq (h : ScoredUntil w tick) (hl : Loaded w) (hlt : freeze < tick)
    (hservices : w.services ≠ []) : sb.roundFile w freeze tick =
      (sb.getFirstBloodInfo w.st (shownTick freeze tick)).map
        (sb.frozenRound w.services (sb.infoAt w (shownTick freeze tick))
          (sb.getCheckerResultsLite w.st.db tick) (sb.lastCheckerResults w.st.db tick) tick
          ((sb.infoAt w tick).ranking.map TeamRanking.teamId)) := by
  have hshown := shownTick_le hlt
  have hteam : ∀ {teamId}, teamId ∈ w.st.db.teams → teamId ∈ w.teams := hl.teams.mem_iff.2
  exact roundJson_frozen hservices (teams_ranking sb h le_rfl).subset
    (fun _ hmem _ hservice => prev_pair_mem h hl le_rfl (hteam hmem) hservice)
    (fun _ hmem _ hservice => prev_pair_mem h hl hshown (hteam hmem) hservice)
    (teams_ranking sb h hshown).symm.subset w.st

theorem roundFile_without_services (h : ScoredUntil w tick) (hlt : freeze < tick) (hpos : 1 ≤ tick)
    (hservices : w.services = []) : sb.roundFile w freeze tick = .error .valueError := by
  have hranking : (sb.infoAt w tick).ranking ≠ [] := by
    intro hnil
    have hteams := (teams_ranking sb h le_rfl).length_eq
    rw [hnil, List.map_nil, List.length_nil, ← (h.results tick hpos le_rfl).rankings.length_eq,
      List.length_map] at hteams
    exact (h.results tick hpos le_rfl).ne_nil (List.length_eq_zero_iff.1 hteams.symm)
  unfold roundFile
  rw [hservices]
  exact roundJson_without_services hranking
    ((teams_ranking sb h le_rfl).trans (teams_ranking sb h (shownTick_le hlt)).symm).subset w.st

variable (sb) in
/-- When `create_scoreboard` reveals nothing. -/
def CreateFits (w : World K Cache) (freeze tick : ℤ) : Prop :=
  tick ≤ 0 ∨ w.services = [] ∨ (sb.DistinctPoints w (shownTick freeze tick) ∧
    sb.StatisticsFit w freeze tick (shownTick freeze tick))

variable (sb) in
/-- When `reset_to_tick` reveals nothing. -/
def ResetFits (w : World K Cache) (freeze tick : ℤ) : Prop :=
  tick ≤ 0 ∨ w.services = [] ∨ sb.StatisticsFit w freeze tick (tick - 1)

theorem shownTick_le_freeze (hknown : shownTick freeze tick ≤ max freeze 0) :
    shownTick freeze tick ≤ freeze := by
  unfold shownTick at *
  split_ifs at * <;> omega

/-- The file of the tick is the same in both histories. -/
theorem roundFile_same (hagree : AgreeUntil freeze w w') (h : ScoredUntil w tick)
    (h' : ScoredUntil w' tick) (hl : Loaded w) (hlt : freeze < tick)
    (hfit : sb.CreateFits w freeze tick) :
    sb.roundFile w' freeze tick = sb.roundFile w freeze tick := by
  rcases le_or_gt tick 0 with hpos | hpos
  · have hshown : shownTick freeze tick = freeze := if_pos (by omega)
    have hfirst := getFirstBloodInfo_eq sb hagree hshown.le
    unfold roundFile roundJson
    rw [infoAt_eq hagree (show tick ≤ max freeze 0 by omega),
      infoAt_eq hagree (show shownTick freeze tick ≤ max freeze 0 by omega),
      lastCheckerResults_eq hagree, hagree.loadedServices]
    simp only [if_true]
    rw [show (sb.infoAt w (shownTick freeze tick)).ticknumber = shownTick freeze tick from rfl,
      hfirst]
  · rcases hfit with hneg | hservices | ⟨hdistinct, hknown, -⟩
    · omega
    · rw [roundFile_without_services h hlt hpos hservices, roundFile_without_services h' hlt hpos
        (hagree.loadedServices.trans hservices)]
    · by_cases hservices : w.services = []
      · rw [roundFile_without_services h hlt hpos hservices, roundFile_without_services h' hlt hpos
          (hagree.loadedServices.trans hservices)]
      have hservices' : w'.services ≠ [] := hagree.loadedServices ▸ hservices
      rw [roundFile_eq h hl hlt hservices, roundFile_eq h' (hl.of_agree hagree) hlt hservices',
        getFirstBloodInfo_eq sb hagree (shownTick_le_freeze hknown), infoAt_eq hagree hknown,
        getCheckerResultsLite_eq hagree, lastCheckerResults_eq hagree, hagree.loadedServices]
      congr 1
      funext firstBloodInfo
      have hids := teams_ranking sb h' le_rfl
      rw [hagree.teams] at hids
      unfold frozenRound
      rw [sort_eq_of_distinct (teams_ranking sb h le_rfl) hids fun a ha b hb heq =>
        hdistinct a ha b hb heq]

/-! ### The operations -/

theorem folderAfter_createFrozen_of_ok {file : RoundFile K}
    (h : sb.roundFile w freeze tick = .ok file) :
    folderAfter (sb.createFrozen w freeze tick) w =
      folderAfter (sb.createStatistics (sb.infoAt w tick) (sb.infoAt w (shownTick freeze tick)))
        { w with folder :=
          { w.folder with rounds := Function.update w.folder.rounds tick (some file) } } := by
  have hround : sb.createJsonForTick (sb.infoAt w tick) (sb.infoAt w (shownTick freeze tick))
      (sb.lastCheckerResults w.st.db tick) true w = .ok () _ := write_of_ok h
  unfold folderAfter
  rw [show sb.createFrozen w freeze tick w = _ from bind_of_ok hround]
  rfl

theorem folderAfter_createFrozen_of_error {e : Error} (h : sb.roundFile w freeze tick = .error e) :
    folderAfter (sb.createFrozen w freeze tick) w = w.folder := by
  have hround : sb.createJsonForTick (sb.infoAt w tick) (sb.infoAt w (shownTick freeze tick))
      (sb.lastCheckerResults w.st.db tick) true w = .error e w := write_of_error h
  exact folderAfter_of_error (bind_of_error hround)

/-- The files of `create_scoreboard` are the same in both histories. -/
theorem createFrozen_eq (hagree : AgreeUntil freeze w w') (h : ScoredUntil w tick)
    (h' : ScoredUntil w' tick) (hl : Loaded w) (hlt : freeze < tick)
    (hfrozen : sb.frozenAt tick = true) (hfit : sb.CreateFits w freeze tick) :
    folderAfter (sb.createFrozen w' freeze tick) w' =
      folderAfter (sb.createFrozen w freeze tick) w := by
  have hround := roundFile_same hagree h h' hl hlt hfit
  cases hfile : sb.roundFile w freeze tick with
  | error e =>
    rw [folderAfter_createFrozen_of_error hfile,
      folderAfter_createFrozen_of_error (hround.trans hfile), hagree.folder]
  | ok file =>
    rw [folderAfter_createFrozen_of_ok hfile, folderAfter_createFrozen_of_ok (hround.trans hfile)]
    exact createStatistics_eq (hagree.with_round file) (h.with_folder _) (h'.with_folder _)
      (shownTick_le hlt) hfrozen (hfit.imp_right (Or.imp_right And.right))

end Round

end Scoreboard

end Gameserver.Board
