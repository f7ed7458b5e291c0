import Mathlib.Data.List.Basic
import SmallLisp.Builtin.Call

/-!
# Sequences

A sequence is a list, or nil, which has no elements (`Value.IsSequence`). The functions on sequences
take both, and what they do depends on the elements alone; `next` gives nil, and no empty list,
where no elements are left. So a walk along a list comes to all of its elements, also to those that
are nil, and stops, and `cons` makes the list again from them (`list_walked_and_rebuilt`).
-/

namespace SmallLisp

/-- The value is a sequence of these elements. -/
inductive Value.IsSequence : Value → List Value → Prop where
  | nil : IsSequence .nil []
  | list (vs : List Value) : IsSequence (.list vs) vs

/-- A sequence that has elements is a list. -/
theorem Value.IsSequence.eq_list {v : Value} {vs : List Value} (h : v.IsSequence vs)
    (hne : vs ≠ []) : v = .list vs := by
  cases h with
  | nil => exact absurd rfl hne
  | list => rfl

namespace Builtin

open Value (IsSequence)

theorem isSequence_listOrNil (vs : List Value) : (listOrNil vs).IsSequence vs := by
  cases vs with
  | nil => exact .nil
  | cons v vs => exact .list (v :: vs)

theorem listOrNil_of_ne_nil {vs : List Value} (h : vs ≠ []) : listOrNil vs = .list vs :=
  (isSequence_listOrNil vs).eq_list h

/-! ## Calls -/

section Calls

variable {v : Value} {vs : List Value} (h : v.IsSequence vs)
include h

theorem call_empty : empty.call [v] = .ok (.bool vs.isEmpty) := by
  cases h <;> rfl

theorem call_first : first.call [v] = .ok (vs.headD .nil) := by
  cases h <;> rfl

theorem call_next : next.call [v] = .ok (listOrNil vs.tail) := by
  cases h <;> rfl

theorem call_cons (x : Value) : cons.call [x, v] = .ok (.list (x :: vs)) := by
  cases h <;> rfl

end Calls

/-! ## Going along a sequence -/

/-- `next` so many times. -/
def nextTimes : Nat → Value → Except EvalError Value
  | 0, v => return v
  | k + 1, v => do nextTimes k (← next.call [v])

theorem nextTimes_succ {v : Value} {vs : List Value} (h : v.IsSequence vs) (k : Nat) :
    nextTimes (k + 1) v = .ok (listOrNil (vs.drop (k + 1))) := by
  induction k generalizing v vs with
  | zero =>
    rw [nextTimes, call_next h, List.drop_one]
    rfl
  | succ k ih =>
    rw [nextTimes, call_next h, ← List.drop_tail]
    exact ih (isSequence_listOrNil vs.tail)

/-- However often `next` is called, a sequence is left. -/
theorem exists_nextTimes {v : Value} {vs : List Value} (h : v.IsSequence vs) (k : Nat) :
    ∃ w, nextTimes k v = .ok w ∧ w.IsSequence (vs.drop k) := by
  cases k with
  | zero => exact ⟨v, rfl, h⟩
  | succ k => exact ⟨_, nextTimes_succ h k, isSequence_listOrNil _⟩

theorem first_nextTimes {v : Value} {vs : List Value} (h : v.IsSequence vs) (k : Nat) :
    (do first.call [← nextTimes k v]) = .ok (vs[k]?.getD .nil) := by
  obtain ⟨w, hw, hseq⟩ := exists_nextTimes h k
  rw [hw, ← List.head?_drop, ← List.headD_eq_head?_getD]
  exact call_first hseq

/-- A walk along a value comes to these elements: as long as what is left is not empty, it comes to
the first one, and goes on with what is next. -/
inductive Walk : Value → List Value → Prop where
  | stop {v : Value} : empty.call [v] = .ok (.bool true) → Walk v []
  | visit {v x w : Value} {visited : List Value} : empty.call [v] = .ok (.bool false) →
      first.call [v] = .ok x → next.call [v] = .ok w → Walk w visited → Walk v (x :: visited)

theorem walk_of_isSequence {v : Value} {vs : List Value} (h : v.IsSequence vs) : Walk v vs := by
  induction vs generalizing v with
  | nil => exact .stop (call_empty h)
  | cons x vs ih =>
    exact .visit (call_empty h) (call_first h) (call_next h) (ih (isSequence_listOrNil vs))

theorem Walk.eq {v : Value} {visited vs : List Value} (hwalk : Walk v visited)
    (h : v.IsSequence vs) : visited = vs := by
  -- What the calls of the walk give is known from the elements.
  induction hwalk generalizing vs with
  | stop hempty =>
    rw [call_empty h, Except.ok.injEq, Value.bool.injEq, List.isEmpty_iff] at hempty
    exact hempty.symm
  | visit hempty hfirst hnext _ ih =>
    rw [call_empty h, Except.ok.injEq, Value.bool.injEq] at hempty
    rw [call_first h] at hfirst
    rw [call_next h] at hnext
    cases vs with
    | nil => cases hempty
    | cons x vs =>
      cases hfirst
      cases hnext
      exact congrArg (x :: ·) (ih (isSequence_listOrNil vs))

theorem walk_iff {v : Value} {vs : List Value} (h : v.IsSequence vs) {visited : List Value} :
    Walk v visited ↔ visited = vs := by
  constructor
  · exact fun hwalk => hwalk.eq h
  · rintro rfl
    exact walk_of_isSequence h

/-! ## Putting elements back -/

/-- Puts the elements in front of a sequence, from the last one on. -/
def consBack (vs : List Value) (base : Value) : Except EvalError Value :=
  vs.reverse.foldlM (fun w x => cons.call [x, w]) base

theorem consBack_cons (x : Value) (vs : List Value) (base : Value) :
    consBack (x :: vs) base = consBack vs base >>= fun w => cons.call [x, w] := by
  rw [consBack, List.reverse_cons, List.foldlM_append]
  simp only [List.foldlM_cons, List.foldlM_nil, bind_pure]
  rfl

theorem exists_consBack {base : Value} {after : List Value} (h : base.IsSequence after)
    (vs : List Value) : ∃ w, consBack vs base = .ok w ∧ w.IsSequence (vs ++ after) := by
  induction vs with
  | nil => exact ⟨base, rfl, h⟩
  | cons x vs ih =>
    obtain ⟨w, hw, hseq⟩ := ih
    refine ⟨.list (x :: (vs ++ after)), ?_, .list _⟩
    rw [consBack_cons, hw]
    exact call_cons hseq x

end Builtin

open Builtin in
/-- `next` so many times leaves the elements of a list from that place on: the list of them, or nil
if there are none. The first one of those is the element at that place, or nil. A walk along the
list comes to each of its elements, in order, and to nothing else. The first element in front of
what is next is the list again, and so are the elements of a walk in front of nil or of the empty
list. Only if there are none, what they are put in front of is left, which is the same sequence. -/
theorem list_walked_and_rebuilt (l : List Value) :
    (∀ k, 1 ≤ k → (k < l.length → nextTimes k (.list l) = .ok (.list (l.drop k))) ∧
      (l.length ≤ k → nextTimes k (.list l) = .ok .nil) ∧
      nextTimes k (.list l) ≠ .ok (.list [])) ∧
    (∀ k, (do first.call [← nextTimes k (.list l)]) = .ok (l[k]?.getD .nil)) ∧
    (∀ visited, Walk (.list l) visited ↔ visited = l) ∧
    (l ≠ [] → (do cons.call [← first.call [.list l], ← next.call [.list l]]) = .ok (.list l)) ∧
    ∀ visited base, Walk (.list l) visited → base = .nil ∨ base = .list [] →
      ∃ w, consBack visited base = .ok w ∧ w.IsSequence l ∧ (l ≠ [] → w = .list l) ∧
        (l = [] → w = base) := by
  have hl : (Value.list l).IsSequence l := .list l
  refine ⟨fun k hk => ?_, first_nextTimes hl, fun visited => walk_iff hl, fun hne => ?_,
    fun visited base hwalk hbase => ?_⟩
  · obtain ⟨k, rfl⟩ := Nat.exists_eq_add_of_le' hk
    rw [nextTimes_succ hl]
    refine ⟨fun hlt => ?_, fun hle => ?_, ?_⟩
    · rw [listOrNil_of_ne_nil (List.drop_eq_nil_iff.not.2 (Nat.not_le_of_lt hlt))]
    · rw [List.drop_eq_nil_of_le hle]
      rfl
    · cases l.drop (k + 1) <;> nofun
  · obtain ⟨x, vs, rfl⟩ := List.exists_cons_of_ne_nil hne
    rw [call_first hl, call_next hl]
    exact call_cons (isSequence_listOrNil vs) x
  · obtain rfl := hwalk.eq hl
    have hbase : base.IsSequence [] := by
      rcases hbase with rfl | rfl
      · exact .nil
      · exact .list []
    obtain ⟨w, hw, hseq⟩ := exists_consBack hbase visited
    rw [List.append_nil] at hseq
    refine ⟨w, hw, hseq, hseq.eq_list, ?_⟩
    rintro rfl
    exact (Except.ok.inj hw).symm

open Builtin in
/-- Of the three elements one is nil, and one an empty list. -/
theorem list_walked_and_rebuilt_nil :
    let l : List Value := [.int 1, .nil, .list []]
    (1 ≤ 2 ∧ 2 < l.length ∧ nextTimes 2 (.list l) = .ok (.list [.list []])) ∧
    (1 ≤ 3 ∧ l.length ≤ 3 ∧ nextTimes 3 (.list l) = .ok .nil) ∧
    Walk (.list l) l ∧ l ≠ [] ∧
    (do cons.call [← first.call [.list l], ← next.call [.list l]]) = .ok (.list l) ∧
    consBack l .nil = .ok (.list l) := by
  intro l
  obtain ⟨hnext, -, hwalk, hcons, hback⟩ := list_walked_and_rebuilt l
  have hvisited : Walk (.list l) l := (hwalk l).2 rfl
  have hne : l ≠ [] := List.cons_ne_nil _ _
  obtain ⟨w, hw, -, hlist, -⟩ := hback l .nil hvisited (.inl rfl)
  refine ⟨⟨by decide, by decide, (hnext 2 (by decide)).1 (by decide)⟩,
    ⟨by decide, by decide, (hnext 3 (by decide)).2.1 (by decide)⟩, hvisited, hne, hcons hne, ?_⟩
  rw [hw, hlist hne]

end SmallLisp
