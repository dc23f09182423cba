import Gameserver.Firewall.Confluence
import Gameserver.Firewall.Daemon

/-!
# The firewall follows the control server

The daemon ends up with what Redis holds when every PUBLISH that ends the last operation under
way on its item comes at the right time (`Orderly`): Redis still holds what it says, or, before
the daemon has subscribed, what the daemon has read.

* `Agrees` — the invariant, for a single item.
* `manager_converges` — what it gives once everything is quiet.
* `manager_does_not_converge` — a ban between the reading and the subscription is lost.
-/

namespace Gameserver.Firewall

open Machine Listener

variable {net : Network} {s : System} {op : Operation} {item : Item} {order : SetOrder}

/-! ## Steps and items -/

theorem value_change_of_ne (redis : Redis) (h : op.message.item ≠ item) :
    (redis.change op).value item = redis.value item := by
  cases op <;> cases item <;>
    simp_all [Redis.change, Redis.value, Operation.message, Message.item, eq_comm] <;> rfl

theorem value_handle_self (d : Daemon) (message : Message) :
    (d.handle net order message).value message.item = message.value := by
  cases message <;>
    simp [Daemon.handle, Daemon.value, Message.item, Message.value, Firewall.step]

theorem value_handle_of_ne (d : Daemon) {message : Message} (h : message.item ≠ item) :
    (d.handle net order message).value item = d.value item := by
  cases message <;> cases item <;>
    simp_all [Daemon.handle, Daemon.value, Message.item, Firewall.step, rewriteChain, eq_comm] <;>
    rfl

/-- The manager's network state is what its string says. -/
theorem manager_state_handle {d : Daemon} (h : d.manager.state = .ofString d.state)
    (message : Message) : (d.handle net order message).manager.state =
      .ofString (d.handle net order message).state := by
  cases message <;> first | exact h | rfl

/-! ## The invariant -/

/-- What the messages of the queue say about an item. -/
def System.said (s : System) (item : Item) : List Value :=
  (s.queue.filter fun message => message.item = item).map Message.value

/-- An operation on the item is under way. -/
def System.Busy (s : System) (item : Item) : Prop := ∃ op ∈ s.pending, op.message.item = item

/-- What the daemon knows of the item will be what Redis holds. -/
def System.Agrees (s : System) (item : Item) : Prop :=
  ∀ v, s.phase.known item = some v → latest v (s.said item) = s.redis.value item

/-- The invariant of orderly runs. -/
structure System.Invariant (s : System) : Prop where
  agrees : ∀ item, s.Busy item ∨ s.Agrees item
  unheard : s.phase.isSubscribed = false → s.queue = []
  state : ∀ d, s.phase = .running d → d.manager.state = .ofString d.state

/-- A PUBLISH that ends the last operation under way on its item says what Redis holds; if it is
not heard, what the daemon has read is what Redis holds. -/
def Orderly (s : System) : System.Event → Prop
  | .publish index => ∀ op, s.pending[index]? = some op →
      (∃ other ∈ s.pending.eraseIdx index, other.message.item = op.message.item) ∨
      if s.phase.isSubscribed then s.redis.value op.message.item = op.message.value
      else ∀ v, s.phase.known op.message.item = some v → s.redis.value op.message.item = v
  | _ => True

theorem invariant_start (redis : Redis) : (System.start redis).Invariant where
  agrees _ := Or.inr fun _ h => (nomatch h)
  unheard _ := rfl
  state _ h := (nomatch h)

theorem invariant_change (h : s.Invariant) (op : Operation) :
    (s.step net (.change op)).Invariant := by
  rw [System.step]
  split_ifs
  · exact h
  · refine ⟨fun item => ?_, h.unheard, h.state⟩
    by_cases hitem : op.message.item = item
    · exact Or.inl ⟨op, List.mem_append_right _ (List.mem_singleton_self op), hitem⟩
    · rcases h.agrees item with ⟨other, hother, heq⟩ | hagrees
      · exact Or.inl ⟨other, List.mem_append_left _ hother, heq⟩
      · refine Or.inr fun v hv => ?_
        show latest v (s.said item) = (s.redis.change op).value item
        rw [value_change_of_ne s.redis hitem]
        exact hagrees v hv

theorem mem_eraseIdx_of_ne {α : Type*} {l : List α} {i : ℕ} {a b : α} (ha : l[i]? = some a)
    (hb : b ∈ l) (hne : b ≠ a) : b ∈ l.eraseIdx i := by
  rw [List.mem_eraseIdx_iff_getElem?]
  obtain ⟨j, hj⟩ := List.mem_iff_getElem?.mp hb
  refine ⟨j, ?_, hj⟩
  rintro rfl
  exact hne (Option.some.inj (hj.symm.trans ha))

theorem invariant_publish (h : s.Invariant) {index : ℕ} (hok : Orderly s (.publish index)) :
    (s.step net (.publish index)).Invariant := by
  rw [System.step]
  cases hop : s.pending[index]? with
  | none => exact h
  | some op =>
    refine ⟨fun item => ?_, fun hphase => ?_, h.state⟩
    · by_cases hitem : op.message.item = item
      · subst hitem
        rcases hok op hop with hbusy | hvalue
        · exact Or.inl hbusy
        · refine Or.inr fun v hv => ?_
          cases hphase : s.phase.isSubscribed with
          | true =>
            rw [hphase, if_pos rfl] at hvalue
            rw [System.said]
            simp only [if_true, List.filter_append, List.map_append]
            rw [List.filter_singleton, decide_eq_true rfl]
            exact (latest_concat v _ _).trans hvalue.symm
          | false =>
            rw [hphase, if_neg Bool.false_ne_true] at hvalue
            rw [System.said]
            simp only [h.unheard hphase]
            exact (hvalue v hv).symm
      · rcases h.agrees item with ⟨other, hother, heq⟩ | hagrees
        · refine Or.inl ⟨other, mem_eraseIdx_of_ne hop hother ?_, heq⟩
          rintro rfl
          exact hitem heq
        · refine Or.inr fun v hv => ?_
          have hsaid : (if s.phase.isSubscribed then s.queue ++ [op.message] else s.queue).filter
              (fun message => message.item = item) =
              s.queue.filter fun message => message.item = item := by
            split_ifs
            · rw [List.filter_append, List.filter_singleton, decide_eq_false hitem]
              exact List.append_nil _
            · rfl
          rw [System.said]
          simp only [hsaid]
          exact hagrees v hv
    · simp only [if_neg (show ¬ s.phase.isSubscribed = true by rw [hphase]; nofun)]
      exact h.unheard hphase

/-- The next line of the start reads what Redis holds. -/
theorem invariant_advance (h : s.Invariant) : (s.step net (.advance order)).Invariant := by
  obtain ⟨redis, pending, queue, phase⟩ := s
  have hagrees := h.agrees
  have hunheard := h.unheard
  cases phase with
  | start =>
    obtain rfl : queue = [] := hunheard rfl
    obtain ⟨state, banned, permissions⟩ := redis
    rw [System.step, System.advance]
    cases hread : state.filter (· ≠ "") with
    | none =>
      exact ⟨fun _ => Or.inr fun _ hv => (nomatch hv), fun _ => rfl, nofun⟩
    | some read =>
      refine ⟨fun item => Or.inr fun v hv => ?_, fun _ => rfl, nofun⟩
      cases item with
      | state =>
        obtain rfl := (Option.filter_eq_some_iff.1 hread).1
        exact (Option.some.inj hv).symm
      | ban | permission => cases hv
  | missing =>
    obtain rfl : queue = [] := hunheard rfl
    refine ⟨fun item => Or.inr fun v hv => ?_, fun _ => rfl, nofun⟩
    cases item with
    | state => exact (Option.some.inj hv).symm
    | ban | permission => cases hv
  | gotState state =>
    obtain rfl : queue = [] := hunheard rfl
    refine ⟨fun item => ?_, fun _ => rfl, nofun⟩
    cases item with
    | state => exact hagrees .state
    | ban team => exact Or.inr fun v hv => (Option.some.inj hv).symm
    | permission team => exact Or.inr fun v hv => (nomatch hv)
  | gotBanned state banned =>
    obtain rfl : queue = [] := hunheard rfl
    refine ⟨fun item => ?_, fun _ => rfl, nofun⟩
    cases item with
    | state => exact hagrees .state
    | ban team => exact hagrees (.ban team)
    | permission team => exact Or.inr fun v hv => (Option.some.inj hv).symm
  | gotAllowed state banned allowed =>
    obtain rfl : queue = [] := hunheard rfl
    refine ⟨fun item => ?_, fun _ => rfl, nofun⟩
    cases item with
    | state => exact hagrees .state
    | ban team => exact hagrees (.ban team)
    | permission team => exact hagrees (.permission team)
  | subscribed state banned allowed =>
    refine ⟨fun item => ?_, nofun, ?_⟩
    · cases item with
      | state => exact hagrees .state
      | ban team => exact hagrees (.ban team)
      | permission team => exact hagrees (.permission team)
    · rintro d hd
      obtain rfl := Phase.running.inj hd
      rfl
  | running daemon => exact h

theorem invariant_handle (h : s.Invariant) : (s.step net (.handle order)).Invariant := by
  obtain ⟨redis, pending, queue, phase⟩ := s
  cases phase with
  | running daemon =>
    cases queue with
    | nil => exact h
    | cons message queue =>
      refine ⟨fun item => ?_, nofun, ?_⟩
      · rcases h.agrees item with hbusy | hagrees
        · exact Or.inl hbusy
        · refine Or.inr fun v hv => ?_
          obtain rfl := Option.some.inj hv
          have hold := hagrees _ rfl
          by_cases hitem : message.item = item
          · subst hitem
            rw [System.said] at hold ⊢
            simp only [List.filter_cons, decide_true, if_true, List.map_cons, latest_cons] at hold
            rw [value_handle_self]
            exact hold
          · rw [System.said] at hold ⊢
            simp only [List.filter_cons, decide_eq_false hitem, Bool.false_eq_true, if_false]
              at hold
            rw [value_handle_of_ne daemon hitem]
            exact hold
      · rintro d hd
        obtain rfl := Phase.running.inj hd
        exact manager_state_handle (h.state daemon rfl) message
  | start | missing | gotState | gotBanned | gotAllowed | subscribed => exact h

theorem invariant_step {e : System.Event} (h : s.Invariant) (hok : Orderly s e) :
    (s.step net e).Invariant := by
  cases e with
  | change op => exact invariant_change h op
  | publish index => exact invariant_publish h hok
  | advance order => exact invariant_advance h
  | handle order => exact invariant_handle h

/-! ## Convergence -/

/-- Nothing is under way: no operation is pending, the daemon runs, and all messages delivered
to it are handled. -/
def System.Quiet (s : System) (d : Daemon) : Prop :=
  s.pending = [] ∧ s.queue = [] ∧ s.phase = .running d

/-- The daemon has what Redis holds. -/
def Converged (redis : Redis) (d : Daemon) : Prop :=
  redis.state = some d.state ∧ d.manager.state = .ofString d.state ∧
    d.manager.banned = redis.banned ∧ d.manager.allowed = redis.permissions

theorem System.Invariant.converged {d : Daemon} (h : s.Invariant) (hquiet : s.Quiet d) :
    Converged s.redis d := by
  obtain ⟨hpending, hqueue, hphase⟩ := hquiet
  have hvalue : ∀ item, d.value item = s.redis.value item := by
    intro item
    rcases h.agrees item with ⟨op, hop, -⟩ | hagrees
    · rw [hpending] at hop
      cases hop
    · have hlatest := hagrees (d.value item) (by rw [hphase]; rfl)
      rwa [System.said, hqueue] at hlatest
  refine ⟨(Value.state.inj (hvalue .state)).symm, h.state d hphase, ?_, ?_⟩
  · ext team
    exact decide_eq_decide.mp (Value.member.inj (hvalue (.ban team)))
  · ext team
    exact decide_eq_decide.mp (Value.member.inj (hvalue (.permission team)))

/-- **The firewall manager converges** in every orderly run, however the steps of the operations,
of the daemon's start and of its handling of messages interleave. -/
theorem manager_converges (net : Network) (redis : Redis) (es : List System.Event)
    (h : Along (System.step net) Orderly (.start redis) es) (d : Daemon)
    (hquiet : (exec (System.step net) (.start redis) es).Quiet d) :
    Converged (exec (System.step net) (.start redis) es).redis d :=
  (Along.invariant (fun _ _ => invariant_step) (invariant_start redis) h).converged hquiet

/-- The lines of the start up to the subscription. -/
def reading : List System.Event :=
  [.advance .ascending, .advance .ascending, .advance .ascending]

/-- A run in which a team is banned during the start; the message comes after the subscription. -/
def bannedWhileReading : List System.Event :=
  reading ++ [.change (.banTeam 3), .advance .ascending, .publish 0, .advance .ascending,
    .handle .ascending]

theorem exec_ban :
    exec (System.step sampleNetwork) (.start ⟨some "on", ∅, ∅⟩) bannedWhileReading =
      ⟨⟨some "on", insert 3 ∅, ∅⟩, [], [],
        .running ((Daemon.init sampleNetwork .ascending "on" ∅ ∅).handle sampleNetwork .ascending
          (.ban 3))⟩ := rfl

theorem orderly_ban :
    Along (System.step sampleNetwork) Orderly (.start ⟨some "on", ∅, ∅⟩) bannedWhileReading := by
  refine ⟨trivial, trivial, trivial, trivial, trivial, fun op hop => Or.inr ?_, trivial, trivial,
    trivial⟩
  obtain rfl := Option.some.inj hop
  show Value.member (decide (3 ∈ insert 3 (∅ : Finset ℕ))) = .member true
  decide

/-- The daemon has the ban in the end. -/
theorem manager_converges_ban :
    Converged ⟨some "on", insert 3 ∅, ∅⟩
      ((Daemon.init sampleNetwork .ascending "on" ∅ ∅).handle sampleNetwork .ascending
        (.ban 3)) := by
  have h := manager_converges sampleNetwork ⟨some "on", ∅, ∅⟩ _ orderly_ban
    ((Daemon.init sampleNetwork .ascending "on" ∅ ∅).handle sampleNetwork .ascending (.ban 3))
  rw [exec_ban] at h
  exact h ⟨rfl, rfl, rfl⟩

/-- A team is banned between the reading of the bans and the subscription, and the message is
published before the subscription: the daemon never hears of the ban. -/
theorem manager_does_not_converge :
    ¬ ∀ (net : Network) (redis : Redis) (es : List System.Event) (d : Daemon),
      (exec (System.step net) (.start redis) es).Quiet d →
      Converged (exec (System.step net) (.start redis) es).redis d := by
  intro h
  have hconverged := h sampleNetwork ⟨some "on", ∅, ∅⟩
    (reading ++ [.change (.banTeam 3), .publish 0, .advance .ascending, .advance .ascending])
    _ ⟨rfl, rfl, rfl⟩
  have hbanned : (∅ : Finset ℕ) = insert 3 ∅ := hconverged.2.2.1
  exact absurd hbanned (by decide)

end Gameserver.Firewall
