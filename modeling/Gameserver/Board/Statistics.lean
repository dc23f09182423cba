import Gameserver.Calculation.Basic

/-!
# Statistics files of the scoreboard

`class StatisticJsonGenerator` of `controlserver/scoring/scoreboard.py`: a file with one row
for each service and one value for each tick.  If the file fits, only the value of the tick
is set; otherwise the rows are written anew, from a query over all ticks.

* `StatisticFile`, `updateFile` — the file, and its update.
* `fits` — is the fast path taken?
* `setTick_eq`, `setAll_eq` — the loops of the two paths, cell by cell.
* `updateFile_of_fits`, `updateFile_of_not_fits` — the two paths, if all services are known.
-/

namespace Gameserver.Board

open Gameserver.Scoring Gameserver.Calculation

/-- What ends a statement of the generator. -/
inductive Error where
  | calculation (e : Failure)
  | keyError
  | valueError
  | attributeError
  deriving DecidableEq

/-- The content of a statistics file: the names of the services, and their rows. -/
structure StatisticFile (V : Type) where
  services : List String
  rows : List (List V)
  deriving DecidableEq

/-- What an implementation gives for one update. -/
structure Statistic (V : Type) where
  /-- `get_single_tick_info`, by service id -/
  singleTickInfo : Except Error (List (ℕ × V))
  /-- `get_all_tick_info`, by tick and service id; ticks are not negative -/
  allTickInfo : List ((ℕ × ℕ) × V)
  /-- `_empty_row` repeats this value. -/
  emptyValue : V

section Update

variable {V : Type} (services : List Service)

/-- `service_id_to_index`. -/
def serviceIndex (id : ℕ) : Except Error ℕ :=
  match services.findIdx? fun service => service.id = id with
  | some i => .ok i
  | none => .error .keyError

/-- The value of a tick is replaced, or it is the next one of the row. -/
def setOrAppend (tick : ℕ) (value : V) (row : List V) : List V :=
  if tick < row.length then row.set tick value else row ++ [value]

/-- The loop of the fast path. -/
def setTick (tick : ℕ) : List (ℕ × V) → List (List V) → Except Error (List (List V))
  | [], rows => .ok rows
  | (id, value) :: result, rows => do
    let i ← serviceIndex services id
    setTick tick result (rows.modify i (setOrAppend tick value))

/-- The loop of the slow path.  The rows reach up to the last tick of the query. -/
def setAll : List ((ℕ × ℕ) × V) → List (List V) → Except Error (List (List V))
  | [], rows => .ok rows
  | ((tick, id), value) :: result, rows => do
    let i ← serviceIndex services id
    setAll result (rows.modify i fun row => row.set tick value)

/-- The names in the file, hidden before the start. -/
def serviceNames (name : ℕ → String) (tick : ℤ) : List String :=
  services.map fun service => if 0 ≤ tick then name service.id else "???"

/-- What `_read` gives, after `services` is set in an empty file. -/
def readFile (name : ℕ → String) (tick : ℤ) (file : Option (StatisticFile V)) : StatisticFile V :=
  let data := file.getD ⟨serviceNames services name tick, services.map fun _ => []⟩
  if data.rows.length = 0 then { data with services := serviceNames services name tick } else data

/-- Update existing files if possible. -/
def fits (name : ℕ → String) (tick : ℤ) (file : Option (StatisticFile V)) : Bool :=
  (readFile services name tick file).services = serviceNames services name tick ∧
    (readFile services name tick file).rows.length = services.length ∧
    ∀ row ∈ (readFile services name tick file).rows, max 0 tick ≤ row.length

/-- The rows of the slow path: those of the file if they are long enough, or empty ones. -/
def slowRows (emptyValue : V) (tick : ℤ) (rows : List (List V)) : List (List V) :=
  if rows.length ≠ services.length ∨ ∃ row ∈ rows, (row.length : ℤ) ≤ tick then
    services.map fun _ => List.replicate (tick + 1).toNat emptyValue
  else rows

/-- `update_file`. -/
def updateFile (gen : Statistic V) (name : ℕ → String) (tick : ℤ)
    (file : Option (StatisticFile V)) :
    Except Error (StatisticFile V) :=
  let data := readFile services name tick file
  if 0 ≤ tick then
    if fits services name tick file then do
      let result ← gen.singleTickInfo
      let rows ← setTick services tick.toNat result data.rows
      return { data with rows := rows }
    else do
      let rows ← setAll services gen.allTickInfo (slowRows services gen.emptyValue tick data.rows)
      return { services := if 0 < tick then serviceNames services name tick else data.services
               rows := rows }
  else .ok data

end Update

/-! ## The two paths -/

section Paths

variable {V : Type} {services : List Service}

/-- The value of a tick in the row of a service. -/
def cell (rows : List (List V)) (i tick : ℕ) : Option V := (rows[i]?).bind (·[tick]?)

theorem cell_of_getElem? {rows : List (List V)} {i tick : ℕ} {row : List V}
    (h : rows[i]? = some row) :
    cell rows i tick = row[tick]? := by
  rw [cell, h, Option.bind_some]

theorem cell_eq_none_of_le {rows : List (List V)} {i tick : ℕ} (h : rows.length ≤ i) :
    cell rows i tick = none := by
  rw [cell, List.getElem?_eq_none h, Option.bind_none]

theorem serviceIndex_eq (hnodup : (services.map Service.id).Nodup) {i : ℕ} {service : Service}
    (h : services[i]? = some service) : serviceIndex services service.id = .ok i := by
  obtain ⟨hi, rfl⟩ := List.getElem?_eq_some_iff.1 h
  have hfind : services.findIdx? (fun other => other.id = services[i].id) = some i := by
    refine List.findIdx?_eq_some_iff_getElem.2 ⟨hi, by simp, fun j hj heq => hj.ne ?_⟩
    have hmap : (services.map Service.id)[j]? = (services.map Service.id)[i]? := by
      rw [List.getElem?_map, List.getElem?_map, List.getElem?_eq_getElem (hj.trans hi),
        List.getElem?_eq_getElem hi]
      simpa using heq
    exact (List.getElem?_inj (by simpa using hj.trans hi) hnodup).1 hmap
  rw [serviceIndex, hfind]

theorem eq_of_getElem?_id (hnodup : (services.map Service.id).Nodup) {i j : ℕ} {s t : Service}
    (hi : services[i]? = some s) (hj : services[j]? = some t) (hid : s.id = t.id) : i = j := by
  have hi' := serviceIndex_eq hnodup hi
  rw [hid, serviceIndex_eq hnodup hj] at hi'
  exact (Except.ok.inj hi').symm

/-! ### One tick -/

theorem getElem?_setOrAppend {row : List V} {n : ℕ} (h : n ≤ row.length) (value : V) (tick : ℕ) :
    (setOrAppend n value row)[tick]? = if tick = n then some value else row[tick]? := by
  rw [setOrAppend]
  split_ifs with hlt heq heq
  · rw [heq, List.getElem?_set_self hlt]
  · rw [List.getElem?_set_ne (Ne.symm heq)]
  · rw [heq, show n = row.length by omega, List.getElem?_concat_length]
  · rcases lt_or_ge tick row.length with hin | hout
    · rw [List.getElem?_append_left hin]
    · rw [List.getElem?_eq_none hout, List.getElem?_eq_none]
      simp
      omega

theorem lt_length_setOrAppend {row : List V} {n : ℕ} (h : n ≤ row.length) (value : V) :
    n < (setOrAppend n value row).length := by
  by_contra hnot
  have hcell := getElem?_setOrAppend h value n
  rw [if_pos rfl, List.getElem?_eq_none (not_lt.1 hnot)] at hcell
  exact Option.some_ne_none _ hcell.symm

/-- The fast path sets the tick in the rows of the services it is given. -/
theorem setTick_eq (hnodup : (services.map Service.id).Nodup) (n : ℕ) (value : Service → V)
    (given : List Service) (hgiven : (given.map Service.id).Nodup) (hsub : given ⊆ services)
    (rows : List (List V)) :
    ∃ rows', setTick services n (given.map fun service => (service.id, value service)) rows =
      .ok rows' ∧
      rows'.length = rows.length ∧ ∀ (i : ℕ) (service : Service), services[i]? = some service →
        rows'[i]? = rows[i]?.map
          (if service ∈ given then setOrAppend n (value service) else id) := by
  induction given generalizing rows with
  | nil =>
    refine ⟨rows, rfl, rfl, fun i service _ => ?_⟩
    rw [if_neg List.not_mem_nil, Option.map_id, id]
  | cons s given ih =>
    obtain ⟨j, hj⟩ := List.mem_iff_getElem?.1 (hsub List.mem_cons_self)
    obtain ⟨hnew, hgiven'⟩ := List.nodup_cons.1 hgiven
    obtain ⟨rows', hset, hlength, hrows⟩ :=
      ih hgiven' (fun _ h => hsub (List.mem_cons_of_mem _ h))
        (rows.modify j (setOrAppend n (value s)))
    refine ⟨rows', ?_, by rw [hlength, List.length_modify], fun i service hi => ?_⟩
    · rw [List.map_cons, setTick, serviceIndex_eq hnodup hj]
      exact hset
    · rw [hrows i service hi, List.getElem?_modify]
      by_cases heq : j = i
      · obtain rfl : s = service := Option.some.inj (hj.symm.trans (heq ▸ hi))
        have hnot : s ∉ given := fun hmem => hnew (List.mem_map_of_mem hmem)
        simp [hnot, heq]
      · have hne : service ≠ s := fun h =>
          heq (eq_of_getElem?_id hnodup hj hi (congrArg Service.id h.symm))
        simp [heq, hne]

/-! ### All ticks -/

theorem cell_modify_set (rows : List (List V)) (j n : ℕ) (value : V) (i tick : ℕ) :
    cell (rows.modify j fun row => row.set n value) i tick =
      (cell rows i tick).map fun old => if j = i ∧ tick = n then value else old := by
  rw [cell, cell, List.getElem?_modify]
  cases rows[i]? with
  | none => rfl
  | some row =>
    by_cases hi : j = i
    · by_cases htick : tick = n
      · rcases lt_or_ge n row.length with hin | hout
        · simp [hi, htick, hin]
        · simp [hi, htick, hout]
      · simp [hi, htick, List.getElem?_set_ne (Ne.symm htick)]
    · simp [hi]

/-- The slow path sets the cells it has an entry for. -/
theorem setAll_eq (hnodup : (services.map Service.id).Nodup) (value : ℕ → Service → V)
    (entries : List ((ℕ × ℕ) × V))
    (hentries : ∀ tick id v, ((tick, id), v) ∈ entries →
      ∃ service ∈ services, service.id = id ∧ value tick service = v)
    (rows : List (List V)) :
    ∃ rows', setAll services entries rows = .ok rows' ∧
      (∀ i : ℕ, rows'[i]?.map List.length = rows[i]?.map List.length) ∧
      ∀ (i : ℕ) (service : Service) (tick : ℕ), services[i]? = some service → cell rows' i tick =
        (cell rows i tick).map fun old =>
          if (tick, service.id) ∈ entries.map Prod.fst then value tick service else old := by
  induction entries generalizing rows with
  | nil => exact ⟨rows, rfl, fun _ => rfl, fun i service tick _ => by simp⟩
  | cons e entries ih =>
    obtain ⟨⟨n, id⟩, v⟩ := e
    obtain ⟨s, hs, rfl, rfl⟩ := hentries n id v List.mem_cons_self
    obtain ⟨j, hj⟩ := List.mem_iff_getElem?.1 hs
    obtain ⟨rows', hset, hlength, hrows⟩ :=
      ih (fun tick id v h => hentries tick id v (List.mem_cons_of_mem _ h))
        (rows.modify j fun row => row.set n (value n s))
    refine ⟨rows', ?_, fun i => ?_, fun i service tick hi => ?_⟩
    · rw [setAll, serviceIndex_eq hnodup hj]
      exact hset
    · rw [hlength i, List.getElem?_modify]
      cases rows[i]? with
      | none => rfl
      | some row => by_cases heq : j = i <;> simp [heq]
    · have hsame : (j = i ∧ tick = n) ↔ (tick, service.id) = (n, s.id) := by
        constructor
        · rintro ⟨rfl, rfl⟩
          rw [Option.some.inj (hj.symm.trans hi)]
        · intro h
          exact ⟨eq_of_getElem?_id hnodup hj hi (Prod.mk.inj h).2.symm, (Prod.mk.inj h).1⟩
      rw [hrows i service tick hi, cell_modify_set, Option.map_map]
      congr 1
      funext old
      simp only [Function.comp_apply, List.map_cons, List.mem_cons]
      by_cases heq : (tick, service.id) = (n, s.id)
      · obtain ⟨rfl, rfl⟩ := hsame.2 heq
        obtain rfl : s = service := Option.some.inj (hj.symm.trans hi)
        simp
      · simp only [if_neg (mt hsame.1 heq), or_iff_right heq]

/-! ### The update -/

/-- The rows of the file, as far as there is one. -/
def oldRows (file : Option (StatisticFile V)) : List (List V) :=
  (file.map StatisticFile.rows).getD []

/-- The value of a tick in the file. -/
def oldCell (file : Option (StatisticFile V)) (i tick : ℕ) : Option V := cell (oldRows file) i tick

/-- The slow path keeps the rows of the file. -/
def Kept (services : List Service) (n : ℕ) (file : Option (StatisticFile V)) : Prop :=
  (oldRows file).length = services.length ∧ ∀ row ∈ oldRows file, n < row.length

variable (name : ℕ → String)

theorem serviceNames_natCast (n : ℕ) :
    serviceNames services name n = services.map fun service => name service.id := by
  simp [serviceNames]

theorem rows_readFile (tick : ℤ) (file : Option (StatisticFile V)) :
    (readFile services name tick file).rows =
      (file.map StatisticFile.rows).getD (services.map fun _ => []) := by
  cases file <;> simp only [readFile] <;> split_ifs <;> rfl

theorem cell_readFile (tick : ℤ) (file : Option (StatisticFile V)) (i t : ℕ) :
    cell (readFile services name tick file).rows i t = oldCell file i t := by
  rw [rows_readFile, oldCell, oldRows]
  cases file with
  | none =>
    rw [Option.map_none, Option.getD_none, Option.getD_none, cell, cell, List.getElem?_map]
    cases services[i]? <;> rfl
  | some file => rfl

theorem fits_iff {n : ℕ} {file : Option (StatisticFile V)} : fits services name n file = true ↔
    (readFile services name n file).services = serviceNames services name n ∧
      (readFile services name n file).rows.length = services.length ∧
      ∀ row ∈ (readFile services name n file).rows, n ≤ row.length := by
  rw [fits, decide_eq_true_eq]
  refine and_congr_right fun _ => and_congr_right fun _ => forall₂_congr fun row _ => ?_
  omega

theorem slowRows_readFile (emptyValue : V) (n : ℕ) (file : Option (StatisticFile V))
    [Decidable (Kept services n file)] :
    slowRows services emptyValue n (readFile services name n file).rows =
      if Kept services n file then oldRows file
      else services.map fun _ => List.replicate (n + 1) emptyValue := by
  have hlength : ((n : ℤ) + 1).toNat = n + 1 := by omega
  rw [slowRows, rows_readFile, hlength]
  cases file with
  | none =>
    cases services with
    | nil => simp [Kept, oldRows]
    | cons service services => simp [Kept, oldRows]
  | some file =>
    have hkept : Kept services n (some file) ↔ ¬ (file.rows.length ≠ services.length ∨
        ∃ row ∈ file.rows, (row.length : ℤ) ≤ n) := by
      simp [Kept, oldRows]
    simp only [hkept, Option.map_some, Option.getD_some, oldRows]
    split_ifs <;> rfl

variable {name} {gen : Statistic V} {file : Option (StatisticFile V)} {n : ℕ}

/-- **The fast path**: only the cells of the tick change. -/
theorem updateFile_of_fits (hnodup : (services.map Service.id).Nodup) {value : Service → V}
    (hsingle : gen.singleTickInfo = .ok (services.map fun service => (service.id, value service)))
    (hfits : fits services name n file = true) :
    ∃ rows, updateFile services gen name n file = .ok ⟨serviceNames services name n, rows⟩ ∧
      rows.length = services.length ∧ (∀ row ∈ rows, n < row.length) ∧
      ∀ (i : ℕ) (service : Service) (t : ℕ), services[i]? = some service →
        cell rows i t = if t = n then some (value service) else oldCell file i t := by
  obtain ⟨hservices, hlength, hreach⟩ := (fits_iff name).1 hfits
  obtain ⟨rows, hset, hlength', hrows⟩ := setTick_eq hnodup n value services hnodup
    (List.Subset.refl _) (readFile services name n file).rows
  have hrow : ∀ (i : ℕ) service, services[i]? = some service → ∃ old : List V, n ≤ old.length ∧
      (readFile services name n file).rows[i]? = some old ∧
      rows[i]? = some (setOrAppend n (value service) old) := by
    intro i service hi
    have hlt : i < (readFile services name n file).rows.length := by
      rw [hlength]
      exact (List.getElem?_eq_some_iff.1 hi).1
    refine ⟨_, hreach _ (List.getElem_mem hlt), List.getElem?_eq_getElem hlt, ?_⟩
    rw [hrows i service hi, if_pos (List.mem_of_getElem? hi), List.getElem?_eq_getElem hlt,
      Option.map_some]
  refine ⟨rows, ?_, hlength'.trans hlength, fun row hmem => ?_, fun i service t hi => ?_⟩
  · rw [updateFile, if_pos (Int.natCast_nonneg n), if_pos hfits, hsingle]
    show (setTick services (n : ℤ).toNat _ _ >>= _) = _
    rw [Int.toNat_natCast, hset, ← hservices]
    rfl
  · obtain ⟨i, hi⟩ := List.mem_iff_getElem?.1 hmem
    have hlt : i < services.length := by
      rw [← hlength, ← hlength']
      exact (List.getElem?_eq_some_iff.1 hi).1
    obtain ⟨old, hold, -, hnew⟩ := hrow i _ (List.getElem?_eq_getElem hlt)
    obtain rfl := Option.some.inj (hi.symm.trans hnew)
    exact lt_length_setOrAppend hold _
  · obtain ⟨old, hold, hread, hnew⟩ := hrow i service hi
    rw [cell_of_getElem? hnew, getElem?_setOrAppend hold, ← cell_readFile name n,
      cell_of_getElem? hread]

/-- **The slow path**: the cells that the query has an entry for change. -/
theorem updateFile_of_not_fits (hnodup : (services.map Service.id).Nodup) {value : ℕ → Service → V}
    (hall : ∀ tick id v, ((tick, id), v) ∈ gen.allTickInfo →
      ∃ service ∈ services, service.id = id ∧ value tick service = v)
    (hfits : ¬ fits services name n file = true) :
    ∃ rows, updateFile services gen name n file =
        .ok ⟨if 0 < n then serviceNames services name n
          else (readFile services name n file).services,
          rows⟩ ∧
      (∀ i : ℕ, rows[i]?.map List.length =
        (slowRows services gen.emptyValue n (readFile services name n file).rows)[i]?.map
        List.length) ∧
      ∀ (i : ℕ) (service : Service) (t : ℕ), services[i]? = some service → cell rows i t =
        (cell (slowRows services gen.emptyValue n (readFile services name n file).rows) i t).map
          fun old => if (t, service.id) ∈ gen.allTickInfo.map Prod.fst then value t service
            else old := by
  obtain ⟨rows, hset, hlength, hrows⟩ := setAll_eq hnodup value gen.allTickInfo hall
    (slowRows services gen.emptyValue n (readFile services name n file).rows)
  refine ⟨rows, ?_, hlength, hrows⟩
  rw [updateFile, if_pos (Int.natCast_nonneg n), if_neg hfits, hset]
  simp only [Int.natCast_pos]
  rfl

end Paths

end Gameserver.Board
