import Mathlib.Data.Set.Insert
import Mathlib.Order.BooleanAlgebra.Set

/-!
# Chains of rules with first-match semantics

A packet filter keeps a list of rules; the first rule that applies to a packet decides.
Rules are appended or inserted at the front unless the chain has them already, and
deleted until no copy is left.

* `verdict` — the target of the first rule that applies.
* `add`, `insertFirst`, `deleteAll` — the updates.
* `Layered` — a chain in three layers: a set of rules at the front, a fixed list in the
  middle, a set of rules at the back.  The updates keep the layers apart.
* `Layered.verdict_eq` — **chains with the same layers give the same verdicts**, in
  whatever order and number the rules of the outer layers come.
-/

namespace Chain

variable {R P V : Type*}

/-! ## Verdicts -/

/-- The target of the first rule that applies, `none` at the end of the chain. -/
def verdict (applies : R → P → Bool) (target : R → V) (chain : List R) (p : P) : Option V :=
  (chain.find? fun rule => applies rule p).map target

section Verdict

variable {applies : R → P → Bool} {target : R → V} {chain chain' : List R} {p : P} {v : V}

theorem verdict_append (a b : List R) :
    verdict applies target (a ++ b) p =
      (verdict applies target a p).or (verdict applies target b p) := by
  simp [verdict, List.find?_append, Option.map_or]

theorem verdict_eq_none_iff :
    verdict applies target chain p = none ↔ ∀ rule ∈ chain, applies rule p = false := by
  simp [verdict]

/-- Where all rules have one target, the verdict is that target or none. -/
theorem verdict_eq_some_iff (htarget : ∀ rule ∈ chain, target rule = v) {w : V} :
    verdict applies target chain p = some w ↔ w = v ∧ ∃ rule ∈ chain, applies rule p = true := by
  constructor
  · intro h
    obtain ⟨rule, hfind, rfl⟩ := Option.map_eq_some_iff.1 h
    have hmem := List.mem_of_find?_eq_some hfind
    exact ⟨htarget rule hmem, rule, hmem, by simpa using List.find?_some hfind⟩
  · rintro ⟨rfl, rule, hmem, happlies⟩
    cases hfind : chain.find? fun rule => applies rule p with
    | none => exact absurd happlies (List.find?_eq_none.1 hfind rule hmem)
    | some found =>
      rw [verdict, hfind, Option.map_some, htarget found (List.mem_of_find?_eq_some hfind)]

/-- Order and number of rules with one target do not matter. -/
theorem verdict_congr (htarget : ∀ rule ∈ chain, target rule = v)
    (hmem : ∀ rule, rule ∈ chain ↔ rule ∈ chain') :
    verdict applies target chain p = verdict applies target chain' p := by
  have htarget' : ∀ rule ∈ chain', target rule = v := fun rule h => htarget rule ((hmem rule).2 h)
  apply Option.ext
  intro w
  rw [verdict_eq_some_iff htarget, verdict_eq_some_iff htarget']
  simp only [hmem]

end Verdict

/-! ## Updates -/

section Updates

variable [DecidableEq R]

/-- Append a rule, unless the chain has it. -/
def add (chain : List R) (rule : R) : List R := if rule ∈ chain then chain else chain ++ [rule]

/-- Insert a rule at the front, unless the chain has it. -/
def insertFirst (chain : List R) (rule : R) : List R :=
  if rule ∈ chain then chain else rule :: chain

/-- Delete a rule as often as there is one. -/
def deleteAll (chain : List R) (rule : R) : List R :=
  if rule ∈ chain then deleteAll (chain.erase rule) rule else chain
termination_by chain.length
decreasing_by
  have hpos := List.length_pos_of_mem ‹rule ∈ chain›
  have hlength := List.length_erase_of_mem ‹rule ∈ chain›
  omega

variable {a b chain : List R} {rule r : R}

theorem mem_add : r ∈ add chain rule ↔ r = rule ∨ r ∈ chain := by
  unfold add
  split
  · constructor
    · exact Or.inr
    · rintro (rfl | h) <;> assumption
  · rw [List.mem_append, List.mem_singleton, or_comm]

theorem mem_insertFirst : r ∈ insertFirst chain rule ↔ r = rule ∨ r ∈ chain := by
  unfold insertFirst
  split
  · constructor
    · exact Or.inr
    · rintro (rfl | h) <;> assumption
  · exact List.mem_cons

theorem deleteAll_eq_filter (chain : List R) (rule : R) :
    deleteAll chain rule = chain.filter fun r => r ≠ rule := by
  induction chain using deleteAll.induct rule with
  | case1 chain hmem ih =>
    rw [deleteAll, if_pos hmem, ih]
    obtain ⟨front, back, -, rfl, herase⟩ := List.exists_erase_eq hmem
    simp [herase]
  | case2 chain hmem =>
    rw [deleteAll, if_neg hmem]
    refine (List.filter_eq_self.2 ?_).symm
    intro r hr
    simpa using ne_of_mem_of_not_mem hr hmem

theorem mem_deleteAll : r ∈ deleteAll chain rule ↔ r ∈ chain ∧ r ≠ rule := by
  simp [deleteAll_eq_filter]

theorem deleteAll_append : deleteAll (a ++ b) rule = deleteAll a rule ++ deleteAll b rule := by
  simp [deleteAll_eq_filter]

theorem deleteAll_of_notMem (h : rule ∉ chain) : deleteAll chain rule = chain := by
  rw [deleteAll, if_neg h]

theorem add_append_of_notMem (h : rule ∉ a) : add (a ++ b) rule = a ++ add b rule := by
  unfold add
  by_cases hmem : rule ∈ b <;> simp [h, hmem]

theorem insertFirst_append_of_notMem (h : rule ∉ b) :
    insertFirst (a ++ b) rule = insertFirst a rule ++ b := by
  unfold insertFirst
  by_cases hmem : rule ∈ a <;> simp [h, hmem]

end Updates

/-! ## Layers -/

/-- The rules of `front`, then the list `middle`, then the rules of `back`. -/
def Layered (front : Set R) (middle : List R) (back : Set R) (chain : List R) : Prop :=
  ∃ a b, chain = a ++ (middle ++ b) ∧ (∀ r, r ∈ a ↔ r ∈ front) ∧ ∀ r, r ∈ b ↔ r ∈ back

theorem layered_middle (middle : List R) : Layered ∅ middle ∅ middle :=
  ⟨[], [], by simp, by simp, by simp⟩

namespace Layered

variable {front back : Set R} {middle rules chain chain' : List R} {rule : R}

/-! ### Updates of a layered chain -/

section Updates

variable [DecidableEq R]

/-- A rule is appended to the back layer, unless it is there. -/
theorem add (h : Layered front middle back chain) (hfront : rule ∉ front)
    (hmiddle : rule ∉ middle) :
    Layered front middle (insert rule back) (add chain rule) := by
  obtain ⟨a, b, rfl, ha, hb⟩ := h
  refine ⟨a, Chain.add b rule, ?_, ha, ?_⟩
  · rw [add_append_of_notMem fun hmem => hfront ((ha rule).1 hmem), add_append_of_notMem hmiddle]
  · intro r
    rw [mem_add, hb r]
    rfl

/-- A rule is inserted into the front layer, unless it is there. -/
theorem insertFirst (h : Layered front middle back chain) (hmiddle : rule ∉ middle)
    (hback : rule ∉ back) : Layered (insert rule front) middle back (insertFirst chain rule) := by
  obtain ⟨a, b, rfl, ha, hb⟩ := h
  have hrest : rule ∉ middle ++ b := by
    rw [List.mem_append, hb rule]
    exact not_or.2 ⟨hmiddle, hback⟩
  refine ⟨Chain.insertFirst a rule, b, insertFirst_append_of_notMem hrest, ?_, hb⟩
  intro r
  rw [mem_insertFirst, ha r]
  rfl

/-- A rule that the middle does not have is deleted from the outer layers. -/
theorem deleteAll (h : Layered front middle back chain) (hmiddle : rule ∉ middle) :
    Layered (front \ {rule}) middle (back \ {rule}) (deleteAll chain rule) := by
  obtain ⟨a, b, rfl, ha, hb⟩ := h
  refine ⟨Chain.deleteAll a rule, Chain.deleteAll b rule, ?_, ?_, ?_⟩
  · rw [deleteAll_append, deleteAll_append, deleteAll_of_notMem hmiddle]
  · intro r
    rw [mem_deleteAll, ha r]
    rfl
  · intro r
    rw [mem_deleteAll, hb r]
    rfl

theorem addAll (h : Layered front middle back chain) (hfront : ∀ r ∈ rules, r ∉ front)
    (hmiddle : ∀ r ∈ rules, r ∉ middle) :
    Layered front middle (back ∪ {r | r ∈ rules}) (rules.foldl Chain.add chain) := by
  induction rules generalizing back chain with
  | nil => simpa using h
  | cons rule rules ih =>
    have hnext := ih (h.add (hfront rule List.mem_cons_self) (hmiddle rule List.mem_cons_self))
      (fun r hr => hfront r (List.mem_cons_of_mem _ hr))
      (fun r hr => hmiddle r (List.mem_cons_of_mem _ hr))
    have hset : back ∪ {r | r ∈ rule :: rules} = insert rule back ∪ {r | r ∈ rules} := by
      ext r
      simp [or_left_comm, or_assoc]
    rw [hset]
    exact hnext

theorem insertAll (h : Layered front middle back chain) (hmiddle : ∀ r ∈ rules, r ∉ middle)
    (hback : ∀ r ∈ rules, r ∉ back) :
    Layered (front ∪ {r | r ∈ rules}) middle back (rules.foldl Chain.insertFirst chain) := by
  induction rules generalizing front chain with
  | nil => simpa using h
  | cons rule rules ih =>
    have hnext := ih
      (h.insertFirst (hmiddle rule List.mem_cons_self) (hback rule List.mem_cons_self))
      (fun r hr => hmiddle r (List.mem_cons_of_mem _ hr))
      (fun r hr => hback r (List.mem_cons_of_mem _ hr))
    have hset : front ∪ {r | r ∈ rule :: rules} = insert rule front ∪ {r | r ∈ rules} := by
      ext r
      simp [or_left_comm, or_assoc]
    rw [hset]
    exact hnext

theorem deleteEach (h : Layered front middle back chain) (hmiddle : ∀ r ∈ rules, r ∉ middle) :
    Layered (front \ {r | r ∈ rules}) middle (back \ {r | r ∈ rules})
      (rules.foldl Chain.deleteAll chain) := by
  induction rules generalizing front back chain with
  | nil =>
    have hdiff : ∀ s : Set R, s \ {r | r ∈ ([] : List R)} = s := by
      intro s
      ext r
      simp
    rw [hdiff, hdiff]
    exact h
  | cons rule rules ih =>
    have hnext := ih (h.deleteAll (hmiddle rule List.mem_cons_self))
      (fun r hr => hmiddle r (List.mem_cons_of_mem _ hr))
    have hdiff : ∀ s : Set R, s \ {r | r ∈ rule :: rules} = (s \ {rule}) \ {r | r ∈ rules} := by
      intro s
      ext r
      simp [and_assoc]
    rw [hdiff, hdiff]
    exact hnext

/-- Rules that only the back layer may have. -/
theorem deleteBack (h : Layered front middle back chain) (hfront : ∀ r ∈ rules, r ∉ front)
    (hmiddle : ∀ r ∈ rules, r ∉ middle) :
    Layered front middle (back \ {r | r ∈ rules}) (rules.foldl Chain.deleteAll chain) := by
  have hdelete := h.deleteEach hmiddle
  have hdisjoint : Disjoint front {r | r ∈ rules} := Set.disjoint_right.2 hfront
  rwa [hdisjoint.sdiff_eq_left] at hdelete

/-- Rules that only the front layer may have. -/
theorem deleteFront (h : Layered front middle back chain) (hmiddle : ∀ r ∈ rules, r ∉ middle)
    (hback : ∀ r ∈ rules, r ∉ back) :
    Layered (front \ {r | r ∈ rules}) middle back (rules.foldl Chain.deleteAll chain) := by
  have hdelete := h.deleteEach hmiddle
  have hdisjoint : Disjoint back {r | r ∈ rules} := Set.disjoint_right.2 hback
  rwa [hdisjoint.sdiff_eq_left] at hdelete

end Updates

/-! ### Verdicts of a layered chain -/

variable (applies : R → P → Bool) (target : R → V) (p : P)

/-- The layers decide one after the other. -/
theorem exists_verdict (h : Layered front middle back chain) :
    ∃ a b, (∀ r, r ∈ a ↔ r ∈ front) ∧ (∀ r, r ∈ b ↔ r ∈ back) ∧
      verdict applies target chain p = (verdict applies target a p).or
        ((verdict applies target middle p).or (verdict applies target b p)) := by
  obtain ⟨a, b, rfl, ha, hb⟩ := h
  exact ⟨a, b, ha, hb, by rw [verdict_append, verdict_append]⟩

variable {applies p}

/-- A packet that no rule of the front applies to goes on to the middle. -/
theorem verdict_of_front (h : Layered front middle back chain)
    (hfront : ∀ r ∈ front, applies r p = false) :
    ∃ b, (∀ r, r ∈ b ↔ r ∈ back) ∧ verdict applies target chain p =
      (verdict applies target middle p).or (verdict applies target b p) := by
  obtain ⟨a, b, ha, hb, heq⟩ := h.exists_verdict applies target p
  have hnone : verdict applies target a p = none :=
    verdict_eq_none_iff.2 fun r hr => hfront r ((ha r).1 hr)
  exact ⟨b, hb, by rw [heq, hnone, Option.none_or]⟩

variable {target} {v w : V}

/-- **Chains with the same layers give the same verdicts**, if each outer layer has one
target. -/
theorem verdict_eq (h : Layered front middle back chain) (h' : Layered front middle back chain')
    (hfront : ∀ r ∈ front, target r = v) (hback : ∀ r ∈ back, target r = w) :
    verdict applies target chain p = verdict applies target chain' p := by
  obtain ⟨a, b, ha, hb, heq⟩ := h.exists_verdict applies target p
  obtain ⟨a', b', ha', hb', heq'⟩ := h'.exists_verdict applies target p
  have hfronts : verdict applies target a p = verdict applies target a' p :=
    verdict_congr (fun r hr => hfront r ((ha r).1 hr)) fun r => (ha r).trans (ha' r).symm
  have hbacks : verdict applies target b p = verdict applies target b' p :=
    verdict_congr (fun r hr => hback r ((hb r).1 hr)) fun r => (hb r).trans (hb' r).symm
  rw [heq, heq', hfronts, hbacks]

end Layered

end Chain
