import Gameserver.Board.Generator
import Gameserver.Lib.Machine
import Gameserver.Timer.Basic
import Mathlib.Logic.Function.Basic

/-!
# The scoreboard daemon

`run_scoreboard_generator` first prepares the files of all old ticks, one scoreboard after the
other, while the timer goes on; then it waits for messages, and creates the files of the ticks
up to the one that a message names.

* `Files` — the ticks that have a file in an output folder.
* `Daemon`, `Daemon.step` — the two loops, one turn at a time, and the messages.
* `Fits` — what a turn of the last scoreboard's loop, or a message, relies on.
* `gap_step` — a tick that was passed over without a file is never made up for.
* `noGap_iff_fits` — the runs in which no message leaves a gap.
-/

namespace Gameserver.Board

open Machine
open Gameserver.Scoring Gameserver.Calculation
open Gameserver.Timer (CTFState)

/-! ## Folders -/

/-- The ticks that have a file `scoreboard_round_{tick}.json`. -/
abbrev Files := ℤ → Bool

/-- Before the game has started, the informal tick `-1` stands for tick 0. -/
def fileTick (ticknumber : ℤ) (hasStarted : Bool) : ℤ :=
  if ticknumber = 0 ∧ ¬ hasStarted then -1 else ticknumber

/-- `Scoreboard.exists` -/
def Files.has (files : Files) (ticknumber : ℤ) (hasStarted : Bool) : Bool :=
  files (fileTick ticknumber hasStarted)

/-- A successful `create_scoreboard`. -/
def Files.create (files : Files) (ticknumber : ℤ) (hasStarted : Bool) : Files :=
  Function.update files (fileTick ticknumber hasStarted) true

theorem fileTick_eq_self {tick : ℤ} {hasStarted : Bool} (h : tick = 0 → hasStarted = true) :
    fileTick tick hasStarted = tick := by
  unfold fileTick
  split_ifs with hzero
  · exact absurd (h hzero.1) hzero.2
  · rfl

theorem Files.create_of_has {files : Files} {k : ℤ} (h : files k = true) (tick : ℤ)
    (hasStarted : Bool) : files.create tick hasStarted k = true := by
  unfold Files.create
  rw [Function.update_apply]
  split_ifs
  · rfl
  · exact h

theorem Files.create_eq_self {files : Files} {tick : ℤ} {hasStarted : Bool}
    (h : files.has tick hasStarted = true) : files.create tick hasStarted = files := by
  rw [Files.create, ← h]
  exact Function.update_eq_self _ _

theorem Files.create_self (files : Files) {tick : ℤ} {hasStarted : Bool}
    (h : tick = 0 → hasStarted = true) : files.create tick hasStarted tick = true := by
  rw [Files.create, fileTick_eq_self h, Function.update_self]

/-! ## The folder of a scoreboard -/

section Folder

variable {K Cache α β : Type}

/-- A computation of the generator that leaves the round files alone, if it succeeds. -/
def KeepsRounds (m : EStateM Error (World K Cache) α) : Prop :=
  ∀ w a w', m w = .ok a w' → w'.folder.rounds = w.folder.rounds

theorem ok_bind {m : EStateM Error (World K Cache) α} {f : α → EStateM Error (World K Cache) β}
    {w w' : World K Cache} {b : β} (h : (m >>= f) w = .ok b w') :
    ∃ a w₁, m w = .ok a w₁ ∧ f a w₁ = .ok b w' := by
  change EStateM.bind m f w = .ok b w' at h
  unfold EStateM.bind at h
  split at h
  · rename_i a w₁ hm
    exact ⟨a, w₁, hm, h⟩
  · cases h

theorem KeepsRounds.bind {m : EStateM Error (World K Cache) α}
    {f : α → EStateM Error (World K Cache) β} (hm : KeepsRounds m) (hf : ∀ a, KeepsRounds (f a)) :
    KeepsRounds (m >>= f) := by
  intro w b w' h
  obtain ⟨a, w₁, h₁, h₂⟩ := ok_bind h
  exact (hf a _ _ _ h₂).trans (hm _ _ _ h₁)

theorem KeepsRounds.pure (a : α) : KeepsRounds (pure a : EStateM Error (World K Cache) α) := by
  intro w b w' h
  cases h
  rfl

theorem KeepsRounds.map {m : EStateM Error (World K Cache) α} (hm : KeepsRounds m) (f : α → β) :
    KeepsRounds (f <$> m) :=
  hm.bind fun a => KeepsRounds.pure (f a)

theorem KeepsRounds.get : KeepsRounds (get : EStateM Error (World K Cache) (World K Cache)) := by
  intro w b w' h
  cases h
  rfl

theorem KeepsRounds.forIn (l : List β) (f : β → EStateM Error (World K Cache) PUnit)
    (hf : ∀ c, KeepsRounds (f c)) :
    KeepsRounds (ForIn.forIn l PUnit.unit fun c _ => do
      f c
      return ForInStep.yield PUnit.unit) := by
  induction l with
  | nil => exact KeepsRounds.pure _
  | cons c l ih =>
    rw [List.forIn_cons]
    refine ((hf c).bind fun _ => KeepsRounds.pure _).bind fun next => ?_
    cases next with
    | done _ => exact KeepsRounds.pure _
    | yield _ => exact ih

theorem keepsRounds_write {content : World K Cache → Except Error α}
    {store : World K Cache → α → Folder K}
    (hstore : ∀ w file, (store w file).rounds = w.folder.rounds) :
    KeepsRounds (Scoreboard.write content store) := by
  intro w a w' h
  unfold Scoreboard.write at h
  split at h
  · cases h
    exact hstore w _
  · cases h

theorem keepsRounds_calculate (f : State K Cache → Raising Failure (State K Cache)) :
    KeepsRounds (Scoreboard.calculate f) := by
  intro w a w' h
  unfold Scoreboard.calculate at h
  split at h
  · cases h
    rfl
  · cases h

variable (sb : Scoreboard K Cache)

theorem keepsRounds_createServiceStatJson (info previousInfo : TickInformation K) (freeze : Bool) :
    KeepsRounds (sb.createServiceStatJson info previousInfo freeze) :=
  keepsRounds_write fun _ _ => rfl

variable [Field K]

theorem keepsRounds_createJsonForTeams (info previousInfo : TickInformation K) (freeze : Bool) :
    KeepsRounds (sb.createJsonForTeams info previousInfo freeze) := by
  have hteam : ∀ teamId, KeepsRounds (sb.createJsonForTeam info previousInfo freeze teamId) :=
    fun _ => keepsRounds_write fun _ _ => rfl
  exact KeepsRounds.get.bind fun w =>
    (KeepsRounds.forIn w.teams _ hteam).bind fun _ => KeepsRounds.pure _

variable [LinearOrder K]

theorem keepsRounds_getRankingForTick (tick : ℤ) : KeepsRounds (sb.getRankingForTick tick) := by
  refine KeepsRounds.get.bind fun w => ?_
  split_ifs
  · exact KeepsRounds.pure _
  · exact (keepsRounds_calculate _).bind fun _ => KeepsRounds.get.bind fun _ => KeepsRounds.pure _
  · exact KeepsRounds.pure _

theorem keepsRounds_getResultsForTick (tick : ℤ) : KeepsRounds (sb.getResultsForTick tick) := by
  refine KeepsRounds.get.bind fun w => ?_
  split_ifs
  · exact KeepsRounds.pure _
  · exact (keepsRounds_calculate _).bind fun _ => KeepsRounds.get.bind fun _ => KeepsRounds.pure _
  · exact KeepsRounds.pure _

/-- The data that is fetched is that of the tick. -/
theorem fetchData_ok {tick : ℤ} {w w' : World K Cache} {info : TickInformation K}
    (h : sb.fetchData tick w = .ok info w') :
    info.ticknumber = tick ∧ w'.folder.rounds = w.folder.rounds := by
  obtain ⟨ranking, w₁, h₁, h⟩ := ok_bind h
  obtain ⟨points, w₂, h₂, h⟩ := ok_bind h
  cases h
  exact ⟨rfl, (keepsRounds_getResultsForTick sb tick _ _ _ h₂).trans
    (keepsRounds_getRankingForTick sb tick _ _ _ h₁)⟩

theorem keepsRounds_fetchData (tick : ℤ) : KeepsRounds (sb.fetchData tick) :=
  fun _ _ _ h => (fetchData_ok sb h).2

theorem createJsonForTick_ok {info previousInfo : TickInformation K}
    {results : List (TeamServicePair → CheckerStatus × String)} {frozen : Bool}
    {w w' : World K Cache}
    (h : sb.createJsonForTick info previousInfo results frozen w = .ok () w') :
    ∃ file, w'.folder.rounds = Function.update w.folder.rounds info.ticknumber (some file) := by
  unfold Scoreboard.createJsonForTick Scoreboard.write at h
  split at h
  · rename_i file _
    cases h
    exact ⟨file, rfl⟩
  · cases h

/-- The ticks that have a file. -/
def Folder.files (folder : Folder K) : Files := fun tick => (folder.rounds tick).isSome

/-- The three files of a tick. -/
theorem createJson_ok {info previousInfo : TickInformation K}
    {results : List (TeamServicePair → CheckerStatus × String)} {frozen freeze freeze' : Bool}
    {w w' : World K Cache}
    (h : (do
      sb.createJsonForTick info previousInfo results frozen
      sb.createJsonForTeams info previousInfo freeze
      sb.createServiceStatJson info previousInfo freeze') w = .ok () w') :
    w'.folder.files = Function.update w.folder.files info.ticknumber true := by
  obtain ⟨_, w₁, h₁, h⟩ := ok_bind h
  obtain ⟨_, w₂, h₂, h₃⟩ := ok_bind h
  obtain ⟨file, hfile⟩ := createJsonForTick_ok sb h₁
  have hteams := keepsRounds_createJsonForTeams sb _ _ _ _ _ _ h₂
  have hstats := keepsRounds_createServiceStatJson sb _ _ _ _ _ _ h₃
  funext tick
  show (w'.folder.rounds tick).isSome = _
  rw [hstats, hteams, hfile, Function.update_apply, Function.update_apply]
  split_ifs <;> rfl

/-- **`create_scoreboard` that succeeds adds the file of its tick**, and no other. -/
theorem createScoreboard_files {ticknumber : ℤ} {hasStarted : Bool} {w w' : World K Cache}
    (h : sb.createScoreboard ticknumber hasStarted w = .ok () w') :
    w'.folder.files = w.folder.files.create ticknumber hasStarted := by
  have htick : fileTick ticknumber hasStarted =
      if ticknumber = 0 ∧ (!hasStarted) = true then -1 else ticknumber := by
    cases hasStarted <;> simp [fileTick]
  unfold Scoreboard.createScoreboard at h
  obtain ⟨_, w₀, h₀, h⟩ := ok_bind h
  cases h₀
  rw [← htick] at h
  obtain ⟨info, w₁, h₁, h⟩ := ok_bind h
  obtain ⟨previousInfo, w₂, h₂, h⟩ := ok_bind h
  obtain ⟨hnumber, hrounds₁⟩ := fetchData_ok sb h₁
  have hrounds₂ := keepsRounds_fetchData sb _ _ _ _ h₂
  have hfinish : ∀ w₃ : World K Cache, w₃.folder.rounds = w₂.folder.rounds →
      w'.folder.files = Function.update w₃.folder.files info.ticknumber true →
      w'.folder.files = w.folder.files.create ticknumber hasStarted := by
    intro w₃ hrounds₃ hfiles
    have hsame : w₃.folder.files = w.folder.files := by
      funext tick
      show (w₃.folder.rounds tick).isSome = _
      rw [hrounds₃, hrounds₂, hrounds₁]
      rfl
    rw [hfiles, hnumber, hsame]
    rfl
  dsimp only at h
  cases hfreeze : sb.scoreboardFreeze with
  | some freeze =>
    simp only [hfreeze] at h
    split_ifs at h
    · obtain ⟨frozenInfo, w₃, h₃, h⟩ := ok_bind h
      obtain ⟨_, w₄, h₄, h⟩ := ok_bind h
      cases h₄
      refine hfinish w₃ ?_ (createJson_ok sb h)
      exact ((keepsRounds_fetchData sb freeze).map _) _ _ _ h₃
    · obtain ⟨frozenInfo, w₃, h₃, h⟩ := ok_bind h
      obtain ⟨_, w₄, h₄, h⟩ := ok_bind h
      cases h₃
      cases h₄
      exact hfinish w₂ rfl (createJson_ok sb h)
  | none =>
    simp only [hfreeze] at h
    obtain ⟨frozenInfo, w₃, h₃, h⟩ := ok_bind h
    obtain ⟨_, w₄, h₄, h⟩ := ok_bind h
    cases h₃
    cases h₄
    exact hfinish w₂ rfl (createJson_ok sb h)

end Folder

/-! ## The daemon -/

/-- What the timer shows. -/
structure Reading where
  state : CTFState
  currentTick : ℤ
deriving DecidableEq, Repr

/-- `prepare_until` -/
def Reading.prepareUntil (reading : Reading) : ℤ :=
  if reading.state = .running then reading.currentTick - 1 else reading.currentTick

/-- The variables of the daemon, and the folders of its scoreboards. -/
structure Daemon where
  /-- The number of scoreboards. -/
  count : ℕ
  folders : ℕ → Files
  hasStarted : Bool
  prepareUntil : ℤ
  current : ℤ
  /-- The scoreboards that are prepared; with all of them, the daemon waits for messages. -/
  prepared : ℕ

/-- A turn of the loops that prepare old ticks, with what the timer shows after it, or a message,
with the state of the timer at each tick and scoreboard that is created for it. -/
inductive Event where
  | turn (reading : Reading)
  | message (tick : ℤ) (states : ℤ → ℕ → CTFState)

namespace Daemon

/-- The head of the loop over the scoreboards. -/
def begin (d : Daemon) : Daemon :=
  if d.prepared < d.count then
    { d with
      current := -1
      folders :=
        if (d.folders d.prepared).has 0 false then d.folders
        else Function.update d.folders d.prepared ((d.folders d.prepared).create 0 false) }
  else d

/-- The daemon when it starts on these folders. -/
def init (count : ℕ) (folders : ℕ → Files) (state : CTFState) (reading : Reading) : Daemon :=
  begin
    { count := count
      folders := folders
      hasStarted := state ≠ .stopped
      prepareUntil := reading.prepareUntil
      current := -1
      prepared := 0 }

/-- One turn: a tick of the scoreboard that is being prepared, or the next scoreboard. -/
def turn (d : Daemon) (reading : Reading) : Daemon :=
  if d.prepared < d.count then
    if d.current ≤ d.prepareUntil then
      if (d.folders d.prepared).has d.current d.hasStarted then { d with current := d.current + 1 }
      else
        { d with
          folders := Function.update d.folders d.prepared
            ((d.folders d.prepared).create d.current d.hasStarted)
          prepareUntil := reading.prepareUntil
          current := d.current + 1 }
    else begin { d with prepared := d.prepared + 1 }
  else d

/-- The loop over the scoreboards for one tick of a message. -/
def createAll (count : ℕ) (folders : ℕ → Files) (tick : ℤ) (states : ℕ → CTFState) : ℕ → Files :=
  fun i => if i < count then (folders i).create tick (states i ≠ .stopped) else folders i

/-- The loop over the ticks of a message, from this one on. -/
def catchUp (count : ℕ) (states : ℤ → ℕ → CTFState) : ℕ → ℤ → (ℕ → Files) → ℕ → Files
  | 0, _, folders => folders
  | n + 1, current, folders =>
    catchUp count states n (current + 1) (createAll count folders current (states current))

/-- A message; before the daemon has subscribed it is lost. -/
def message (d : Daemon) (tick : ℤ) (states : ℤ → ℕ → CTFState) : Daemon :=
  if d.prepared < d.count then d
  else
    { d with
      prepareUntil := tick
      folders := catchUp d.count states (tick + 1 - d.current).toNat d.current d.folders
      current := max d.current (tick + 1) }

def step (d : Daemon) : Event → Daemon
  | .turn reading => d.turn reading
  | .message tick states => d.message tick states

end Daemon

open Daemon

/-! ## Gaps -/

/-- A message that is handled leaves a file for every tick up to the one it names. -/
def NoGap (d : Daemon) : Event → Prop
  | .turn _ => True
  | .message tick states => d.count ≤ d.prepared → ∀ i < d.count, ∀ k, 0 ≤ k → k ≤ tick →
    (d.message tick states).folders i k = true

/-- What a step relies on.  When the loop of the last scoreboard comes to a tick, the scoreboards
before it have the file, and for tick 0 the game had started or the file is there; when a message
comes to tick 0, the game is not stopped or the file is there. -/
def Fits (d : Daemon) : Event → Prop
  | .turn _ => d.prepared + 1 = d.count → d.current ≤ d.prepareUntil → 0 ≤ d.current →
    (∀ i < d.prepared, d.folders i d.current = true) ∧
      (d.current = 0 → d.hasStarted = true ∨ d.folders d.prepared 0 = true)
  | .message tick states => d.count ≤ d.prepared → d.current ≤ 0 → 0 ≤ tick →
    ∀ i < d.count, states 0 i ≠ .stopped ∨ d.folders i 0 = true

/-- From the last scoreboard on, the cursor has only passed ticks with files. -/
def Covered (d : Daemon) : Prop :=
  d.count ≤ d.prepared + 1 → ∀ i < d.count, ∀ k, 0 ≤ k → k < d.current → d.folders i k = true

/-! ### What the steps do -/

variable {d : Daemon}

theorem begin_of_lt (h : d.prepared < d.count) :
    d.begin.current = -1 ∧ d.begin.count = d.count ∧ d.begin.prepared = d.prepared := by
  rw [begin, if_pos h]
  exact ⟨rfl, rfl, rfl⟩

theorem begin_of_ge (h : d.count ≤ d.prepared) : d.begin = d := if_neg (Nat.not_lt.mpr h)

/-- A turn that comes to a tick leaves its file, whether or not it was there. -/
theorem turn_of_le (hlt : d.prepared < d.count) (hle : d.current ≤ d.prepareUntil)
    (reading : Reading) :
    ∃ prepareUntil, d.turn reading = { d with
      folders := Function.update d.folders d.prepared
        ((d.folders d.prepared).create d.current d.hasStarted)
      prepareUntil := prepareUntil
      current := d.current + 1 } := by
  rw [turn, if_pos hlt, if_pos hle]
  by_cases hhas : (d.folders d.prepared).has d.current d.hasStarted = true
  · refine ⟨d.prepareUntil, ?_⟩
    rw [if_pos hhas, Files.create_eq_self hhas, Function.update_eq_self]
  · exact ⟨reading.prepareUntil, if_neg hhas⟩

theorem createAll_of_has {count : ℕ} {folders : ℕ → Files} {i : ℕ} {k : ℤ}
    (h : folders i k = true) (tick : ℤ) (states : ℕ → CTFState) :
    createAll count folders tick states i k = true := by
  unfold createAll
  split_ifs
  · exact Files.create_of_has h ..
  · exact h

theorem catchUp_of_has {count : ℕ} {states : ℤ → ℕ → CTFState} {i : ℕ} {k : ℤ} (n : ℕ)
    {current : ℤ} {folders : ℕ → Files} (h : folders i k = true) :
    catchUp count states n current folders i k = true := by
  induction n generalizing current folders with
  | zero => exact h
  | succ n ih => exact ih (createAll_of_has h ..)

/-- The ticks that a message comes to have a file afterwards. -/
theorem catchUp_created {count : ℕ} {states : ℤ → ℕ → CTFState} {i : ℕ} (hi : i < count) {k : ℤ}
    (hk : k = 0 → states 0 i ≠ .stopped) (n : ℕ) {current : ℤ} {folders : ℕ → Files}
    (hlow : current ≤ k) (hhigh : k < current + n) :
    catchUp count states n current folders i k = true := by
  induction n generalizing current folders with
  | zero => omega
  | succ n ih =>
    rcases hlow.eq_or_lt with rfl | hlt
    · refine catchUp_of_has n ?_
      have hstarted : current = 0 → decide (states current i ≠ .stopped) = true := by
        intro hzero
        rw [hzero]
        exact decide_eq_true (hk hzero)
      rw [createAll, if_pos hi]
      exact Files.create_self _ hstarted
    · exact ih (by omega) (by push_cast at hhigh; omega)

/-! ### The invariant -/

theorem covered_begin (h : d.count ≤ d.prepared → Covered d) : Covered d.begin := by
  by_cases hlt : d.prepared < d.count
  · obtain ⟨hcurrent, -, -⟩ := begin_of_lt hlt
    intro _ i _ k hk hlow
    omega
  · rw [begin_of_ge (by omega)]
    exact h (by omega)

/-- The invariant when the daemon starts. -/
theorem covered_init (count : ℕ) (folders : ℕ → Files) (state : CTFState) (reading : Reading) :
    Covered (init count folders state reading) := by
  refine covered_begin fun _ _ i _ k hk hlow => ?_
  change k < -1 at hlow
  omega

/-- A turn that passes a tick. -/
theorem covered_pass {folders : ℕ → Files} {prepareUntil : ℤ} (hinv : Covered d)
    (hlt : d.prepared < d.count) (hkept : ∀ i k, d.folders i k = true → folders i k = true)
    (hpassed : d.prepared + 1 = d.count → 0 ≤ d.current →
      ∀ i < d.count, folders i d.current = true) :
    Covered { d with
      folders := folders, prepareUntil := prepareUntil, current := d.current + 1 } := by
  intro hlast i hi k hk hlow
  change d.count ≤ d.prepared + 1 at hlast
  change i < d.count at hi
  change k < d.current + 1 at hlow
  rcases (show k ≤ d.current by omega).eq_or_lt with rfl | hbelow
  · exact hpassed (by omega) hk i hi
  · exact hkept i k (hinv hlast i hi k hk hbelow)

theorem covered_turn (reading : Reading) (hinv : Covered d) (hfits : Fits d (.turn reading)) :
    Covered (d.turn reading) := by
  by_cases hlt : d.prepared < d.count
  · by_cases hle : d.current ≤ d.prepareUntil
    · obtain ⟨prepareUntil, hturn⟩ := turn_of_le hlt hle reading
      rw [hturn]
      have hkept : ∀ i k, d.folders i k = true →
          Function.update d.folders d.prepared
            ((d.folders d.prepared).create d.current d.hasStarted) i k = true := by
        intro i k h
        rcases eq_or_ne i d.prepared with rfl | hne
        · rw [Function.update_self]
          exact Files.create_of_has h ..
        · rwa [Function.update_of_ne hne]
      refine covered_pass hinv hlt hkept fun hlast hpos i hi => ?_
      obtain ⟨hbefore, hzero⟩ := hfits hlast hle hpos
      rcases (show i < d.prepared ∨ i = d.prepared by omega) with hi | rfl
      · exact hkept i _ (hbefore i hi)
      · by_cases hstart : d.current ≠ 0 ∨ d.hasStarted = true
        · rw [Function.update_self]
          exact Files.create_self _ fun hzero => hstart.resolve_left (not_not_intro hzero)
        · rw [not_or, not_not] at hstart
          refine hkept _ _ ?_
          rw [hstart.1]
          exact (hzero hstart.1).resolve_left hstart.2
    · rw [turn, if_pos hlt, if_neg hle]
      exact covered_begin fun hall _ i hi k hk hlow =>
        hinv (show d.count ≤ d.prepared + 1 from hall) i hi k hk hlow
  · rw [turn, if_neg hlt]
    exact hinv

/-- A message comes to every tick that it names. -/
theorem covered_message {tick : ℤ} {states : ℤ → ℕ → CTFState} (hinv : Covered d)
    (hfits : Fits d (.message tick states)) : Covered (d.message tick states) := by
  by_cases hlt : d.prepared < d.count
  · rw [message, if_pos hlt]
    exact hinv
  · rw [message, if_neg hlt]
    intro _ i hi k hk hlow
    change i < d.count at hi
    change k < max d.current (tick + 1) at hlow
    show catchUp d.count states _ d.current d.folders i k = true
    by_cases hbelow : k < d.current
    · exact catchUp_of_has _ (hinv (by omega) i hi k hk hbelow)
    · by_cases hzero : k = 0 ∧ states 0 i = .stopped
      · have hthere := hfits (by omega) (by omega) (by omega) i hi
        rw [hzero.1]
        exact catchUp_of_has _ (hthere.resolve_left (not_not_intro hzero.2))
      · exact catchUp_created hi (fun hk hstopped => hzero ⟨hk, hstopped⟩) _ (by omega) (by omega)

theorem covered_step {e : Event} (hinv : Covered d) (hfits : Fits d e) : Covered (d.step e) := by
  cases e with
  | turn reading => exact covered_turn reading hinv hfits
  | message tick states => exact covered_message hinv hfits

theorem noGap_of_covered {e : Event} (hinv : Covered d) (hfits : Fits d e) : NoGap d e := by
  cases e with
  | turn reading => trivial
  | message tick states =>
    intro hall i hi k hk hle
    have hafter := covered_message hinv hfits
    rw [message, if_neg (by omega)] at hafter ⊢
    exact hafter (show d.count ≤ d.prepared + 1 by omega) i hi k hk
      (lt_max_of_lt_right (by omega))

/-! ### Gaps stay -/

/-- The cursor has passed a tick without a file, for good. -/
structure Gap (d : Daemon) (i : ℕ) (k : ℤ) : Prop where
  last : d.count ≤ d.prepared + 1
  scoreboard : i < d.count
  tick : 0 ≤ k
  passed : k < d.current
  missing : d.folders i k = false

theorem Files.create_of_ne {files : Files} {k tick : ℤ} {hasStarted : Bool}
    (h : k ≠ fileTick tick hasStarted) : files.create tick hasStarted k = files k :=
  Function.update_of_ne h ..

theorem fileTick_of_ne_zero {tick : ℤ} (h : tick ≠ 0) (hasStarted : Bool) :
    fileTick tick hasStarted = tick := fileTick_eq_self fun hzero => absurd hzero h

/-- Creating other ticks does not make up for a missing file. -/
theorem ne_fileTick {k tick : ℤ} {hasStarted : Bool} (hk : 0 ≤ k)
    (h : k < tick ∨ (k = 0 ∧ hasStarted = false)) : k ≠ fileTick tick hasStarted := by
  unfold fileTick
  split_ifs with hzero
  · omega
  · rcases h with h | ⟨rfl, h⟩
    · omega
    · exact fun heq => hzero ⟨heq.symm, by simp [h]⟩

theorem catchUp_missing {count : ℕ} {states : ℤ → ℕ → CTFState} {i : ℕ} {k : ℤ} (hk : 0 ≤ k)
    (n : ℕ) {current : ℤ} {folders : ℕ → Files} (hmissing : folders i k = false)
    (h : k < current ∨ (k = 0 ∧ states 0 i = .stopped)) :
    catchUp count states n current folders i k = false := by
  induction n generalizing current folders with
  | zero => exact hmissing
  | succ n ih =>
    refine ih ?_ (h.imp_left fun h => by omega)
    unfold createAll
    split_ifs
    · by_cases hcurrent : k < current
      · rw [Files.create_of_ne (ne_fileTick hk (.inl hcurrent))]
        exact hmissing
      · obtain ⟨rfl, hstopped⟩ := h.resolve_left hcurrent
        by_cases hzero : current = 0
        · rw [Files.create_of_ne (ne_fileTick hk (.inr ⟨rfl, by simp [hzero, hstopped]⟩))]
          exact hmissing
        · rw [Files.create_of_ne (by rw [fileTick_of_ne_zero hzero]; exact Ne.symm hzero)]
          exact hmissing
    · exact hmissing

theorem gap_begin {i : ℕ} {k : ℤ} (h : Gap d i k) :
    Gap ({ d with prepared := d.prepared + 1 } : Daemon).begin i k := by
  have hlast := h.last
  rw [begin_of_ge (show d.count ≤ d.prepared + 1 from hlast)]
  exact ⟨by show d.count ≤ d.prepared + 1 + 1; omega, h.scoreboard, h.tick, h.passed, h.missing⟩

/-- **A gap stays**, whatever the daemon does. -/
theorem gap_step {i : ℕ} {k : ℤ} (h : Gap d i k) (e : Event) : Gap (d.step e) i k := by
  obtain ⟨hlast, hi, hk, hpassed, hmissing⟩ := id h
  cases e with
  | turn reading =>
    show Gap (d.turn reading) i k
    by_cases hlt : d.prepared < d.count
    · by_cases hle : d.current ≤ d.prepareUntil
      · obtain ⟨prepareUntil, hturn⟩ := turn_of_le hlt hle reading
        rw [hturn]
        refine ⟨hlast, hi, hk, by show k < d.current + 1; omega, ?_⟩
        show Function.update d.folders d.prepared _ i k = false
        rcases eq_or_ne i d.prepared with rfl | hne
        · rw [Function.update_self, Files.create_of_ne (ne_fileTick hk (.inl hpassed))]
          exact hmissing
        · rwa [Function.update_of_ne hne]
      · rw [turn, if_pos hlt, if_neg hle]
        exact gap_begin h
    · rwa [turn, if_neg hlt]
  | message tick states =>
    show Gap (d.message tick states) i k
    unfold message
    split_ifs with hlt
    · exact h
    · exact ⟨hlast, hi, hk, lt_max_of_lt_left hpassed, catchUp_missing hk _ hmissing (.inl hpassed)⟩

/-- A step that cannot rely on what it relies on leaves a gap. -/
theorem exists_gap_of_not_fits {e : Event} (hfits : ¬ Fits d e) : ∃ i k, Gap (d.step e) i k := by
  cases e with
  | turn reading =>
    simp only [Fits, not_forall, exists_prop, not_and_or, not_or, Bool.not_eq_true] at hfits
    obtain ⟨hlast, hle, hpos, hcase⟩ := hfits
    obtain ⟨prepareUntil, hturn⟩ := turn_of_le (by omega) hle reading
    show ∃ i k, Gap (d.turn reading) i k
    rw [hturn]
    rcases hcase with ⟨i, hi, hmissing⟩ | ⟨hzero, hstarted, hmissing⟩
    · refine ⟨i, d.current, hlast.ge, by show i < d.count; omega, hpos, lt_add_one _, ?_⟩
      show Function.update d.folders d.prepared _ i d.current = false
      rwa [Function.update_of_ne hi.ne]
    · refine ⟨d.prepared, 0, hlast.ge, by show d.prepared < d.count; omega, le_rfl,
        by show (0 : ℤ) < d.current + 1; omega, ?_⟩
      show Function.update d.folders d.prepared _ d.prepared 0 = false
      rw [Function.update_self, Files.create_of_ne (ne_fileTick le_rfl (.inr ⟨rfl, hstarted⟩))]
      exact hmissing
  | message tick states =>
    simp only [Fits, not_forall, exists_prop, not_or, not_not, Bool.not_eq_true] at hfits
    obtain ⟨hall, hle, hpos, i, hi, hstopped, hmissing⟩ := hfits
    refine ⟨i, 0, ?_⟩
    show Gap (d.message tick states) i 0
    rw [message, if_neg (by omega)]
    exact ⟨by show d.count ≤ d.prepared + 1; omega, hi, le_rfl, lt_max_of_lt_right (by omega),
      catchUp_missing le_rfl _ hmissing (.inr ⟨rfl, hstopped⟩)⟩

/-- A message that comes to a gap does not close it. -/
theorem not_noGap_of_gap {i : ℕ} {k tick : ℤ} (h : Gap d i k) (hall : d.count ≤ d.prepared)
    (hk : k ≤ tick) (states : ℤ → ℕ → CTFState) : ¬ NoGap d (.message tick states) := by
  intro hno
  have hthere := hno hall i h.scoreboard k h.tick hk
  have hmissing := (gap_step h (.message tick states)).missing
  exact absurd (hthere.symm.trans hmissing) (by decide)

/-! ## Runs -/

/-- No message leaves a gap in a run whose steps can all rely on what they rely on. -/
theorem noGap_of_fits {events : List Event} (hinv : Covered d)
    (hfits : Along Daemon.step Fits d events) : Along Daemon.step NoGap d events :=
  Along.mono_inv (fun _ _ => covered_step) (fun _ _ => noGap_of_covered) hinv hfits

/-- With timers that run, the daemon can rely on what it relies on for the next message. -/
theorem fits_message_running (tick : ℤ) : Fits d (.message tick fun _ _ => .running) :=
  fun _ _ _ _ _ => .inl CTFState.noConfusion

/-- A run in which some step does not fit ends with a gap. -/
theorem exists_gap_of_not_along {events : List Event}
    (hfits : ¬ Along Daemon.step Fits d events) : ∃ i k, Gap (exec Daemon.step d events) i k := by
  induction events generalizing d with
  | nil => exact absurd trivial hfits
  | cons e events ih =>
    by_cases hfirst : Fits d e
    · exact ih fun hrest => hfits ⟨hfirst, hrest⟩
    · obtain ⟨i, k, hgap⟩ := exists_gap_of_not_fits hfirst
      exact ⟨i, k, exec_invariant (Gap · i k) (fun _ e' h => gap_step h e') hgap events⟩

/-- **When no message leaves a gap.**  In a run that brings the daemon to wait for messages, no
message and none that may follow leaves a gap, if and only if every step could rely on what it
relies on. -/
theorem noGap_iff_fits (count : ℕ) (folders : ℕ → Files) (state : CTFState) (reading : Reading)
    (events : List Event)
    (hall : (exec Daemon.step (init count folders state reading) events).count ≤
      (exec Daemon.step (init count folders state reading) events).prepared) :
    (Along Daemon.step NoGap (init count folders state reading) events ∧
      ∀ tick, NoGap (exec Daemon.step (init count folders state reading) events)
        (.message tick fun _ _ => .running)) ↔
      Along Daemon.step Fits (init count folders state reading) events := by
  have hinv : Covered (init count folders state reading) := covered_init _ _ _ _
  constructor
  · rintro ⟨-, hnext⟩
    by_contra hfits
    obtain ⟨i, k, hgap⟩ := exists_gap_of_not_along hfits
    exact not_noGap_of_gap hgap hall le_rfl _ (hnext k)
  · intro hfits
    refine ⟨noGap_of_fits hinv hfits, fun tick => ?_⟩
    exact noGap_of_covered (Along.invariant (fun _ _ => covered_step) hinv hfits)
      (fits_message_running tick)

instance (d : Daemon) (e : Event) : Decidable (Fits d e) :=
  match e with
  | .turn _ => inferInstanceAs (Decidable (_ → _ → _ → _ ∧ (_ → _)))
  | .message _ _ => inferInstanceAs (Decidable (_ → _ → _ → ∀ i < d.count, _))

/-- The turns of the daemon while the timer shows the same. -/
def turns (n : ℕ) (reading : Reading) : List Event := List.replicate n (.turn reading)

/-- Two scoreboards are prepared while tick 2 is running, and a message for it follows. -/
theorem noGap_steady :
    Along Daemon.step NoGap (init 2 (fun _ _ => false) .running ⟨.running, 2⟩)
        (turns 8 ⟨.running, 2⟩ ++ [.message 2 fun _ _ => .running]) ∧
      ∀ tick, NoGap (exec Daemon.step (init 2 (fun _ _ => false) .running ⟨.running, 2⟩)
          (turns 8 ⟨.running, 2⟩ ++ [.message 2 fun _ _ => .running]))
        (.message tick fun _ _ => .running) :=
  (noGap_iff_fits 2 (fun _ _ => false) .running ⟨.running, 2⟩ _ (by decide +kernel)).mpr
    (by decide +kernel)

/-- Tick 2 ends while the second of two scoreboards is prepared: the first one has no file for it
when the message for tick 3 has been handled.  And a daemon that is started before the game has no
file for tick 0 after the message for tick 1. -/
theorem not_noGap :
    ¬ Along Daemon.step NoGap (init 2 (fun _ _ => false) .running ⟨.running, 2⟩)
        (turns 4 ⟨.running, 2⟩ ++ turns 5 ⟨.running, 3⟩ ++ [.message 3 fun _ _ => .running]) ∧
      ¬ Along Daemon.step NoGap (init 1 (fun _ _ => false) .stopped ⟨.stopped, 0⟩)
        (turns 3 ⟨.stopped, 0⟩ ++ [.message 1 fun _ _ => .running]) := by
  constructor
  · intro h
    have hmessage : NoGap _ _ := (along_append.mp h).2.1
    have hfile := hmessage (by decide +kernel) 0 (by decide +kernel) 2 (by decide) (by decide)
    exact absurd hfile (by decide +kernel)
  · intro h
    have hmessage : NoGap _ _ := (along_append.mp h).2.1
    have hfile := hmessage (by decide +kernel) 0 (by decide +kernel) 0 (by decide) (by decide)
    exact absurd hfile (by decide +kernel)

end Gameserver.Board
