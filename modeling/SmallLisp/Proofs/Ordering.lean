import Mathlib.Data.List.Chain
import Mathlib.Data.Nat.Find
import Mathlib.Order.Bounds.Defs
import SmallLisp.Builtin.Call
import SmallLisp.Proofs.Comparison
import SmallLisp.Proofs.Equality
import SmallLisp.Proofs.Nesting

/-!
# Order relations called on values

An order relation called on many values asks whether neighbours are related. The first two that are
not decide the call, by an error if one of them is no number, whatever comes after them
(`decided_by_first_pair`). A strict relation that holds along a chain of numbers holds between any
two of them (`strict_throughout`). On two numbers the relations divide the work with equality
(`order_agrees_with_equality`).
-/

namespace SmallLisp

namespace Number

theorem toValue_injective : Function.Injective toValue := by
  intro a b h
  cases a <;> cases b <;> cases h <;> rfl

theorem admits_number_iff {v : Value} :
    TypeTest.number.admits v = true ↔ ∃ a : Number, v = a.toValue := by
  constructor
  · intro h
    cases v with
    | int n => exact ⟨int n, rfl⟩
    | double x => exact ⟨double x, rfl⟩
    | _ => cases h
  · rintro ⟨a, rfl⟩
    cases a <;> rfl

theorem ofArgument_of_not_admits (function : String) {v : Value}
    (h : ¬ TypeTest.number.admits v = true) :
    ofArgument function v = .error (.typeMismatch function .number v) := by
  cases v with
  | int | double => exact absurd rfl h
  | _ => rfl

end Number

/-! ## Neighbours -/

namespace Relation

/-- Two values are numbers between which the relation holds. -/
def Related (r : Relation) (v w : Value) : Prop :=
  ∃ a b : Number, v = a.toValue ∧ w = b.toValue ∧ r.Between a b

/-- The values at an index and after it are not related. -/
def DecidesAt (r : Relation) (vs : List Value) (i : Nat) : Prop :=
  ∃ v w, vs[i]? = some v ∧ vs[i + 1]? = some w ∧ ¬ r.Related v w

/-- What two neighbours that are not related decide. An error names the relation as a program calls
it. -/
def verdict (r : Relation) (v w : Value) : Except EvalError Value :=
  let function := match r with
    | less => "<"
    | lessEqual => "<="
    | greater => ">"
    | greaterEqual => ">="
  if ¬ TypeTest.number.admits v then .error (.typeMismatch function .number v)
  else if ¬ TypeTest.number.admits w then .error (.typeMismatch function .number w)
  else .ok (.bool false)

variable {r : Relation}

theorem verdict_eq (v w : Value) : r.verdict v w =
    if ¬ TypeTest.number.admits v then .error (.typeMismatch r.name .number v)
    else if ¬ TypeTest.number.admits w then .error (.typeMismatch r.name .number w)
    else .ok (.bool false) := by
  cases r <;> rfl

theorem related_toValue_iff {a b : Number} :
    r.Related a.toValue b.toValue ↔ r.Between a b := by
  constructor
  · rintro ⟨a', b', ha, hb, h⟩
    rwa [Number.toValue_injective ha, Number.toValue_injective hb]
  · intro h
    exact ⟨a, b, rfl, rfl, h⟩

theorem verdict_toValue {a b : Number} : r.verdict a.toValue b.toValue = .ok (.bool false) := by
  rw [verdict_eq]
  cases a <;> cases b <;> rfl

theorem not_related_nan {v w : Value} (h : v = .double .nan ∨ w = .double .nan) :
    ¬ r.Related v w := by
  rintro ⟨a, b, rfl, rfl, hab⟩
  obtain ⟨ha, hb⟩ := hab.ne_nan
  rcases h with h | h
  · exact ha (Number.toValue_injective h)
  · exact hb (Number.toValue_injective h)

end Relation

namespace Builtin

variable {r : Relation}

theorem call_order (vs : List Value) :
    call (.order r) vs = ordered r vs >>= fun b => pure (.bool b) := rfl

theorem call_order_of_length_lt {vs : List Value} (h : vs.length < 2) :
    call (.order r) vs = .ok (.bool true) := by
  rcases vs with _ | ⟨v, _ | ⟨w, vs⟩⟩
  · rfl
  · rfl
  · exact absurd h (by simp)

theorem call_order_of_related {v w : Value} (h : r.Related v w) (vs : List Value) :
    call (.order r) (v :: w :: vs) = call (.order r) (w :: vs) := by
  obtain ⟨a, b, rfl, rfl, h⟩ := h
  rw [call_order, ordered, Number.ofArgument_toValue, Number.ofArgument_toValue, pure_bind,
    pure_bind, if_pos (Relation.any_holds_compare_iff.2 h), ← call_order]

theorem call_order_of_not_related {v w : Value} (h : ¬ r.Related v w) (vs : List Value) :
    call (.order r) (v :: w :: vs) = r.verdict v w := by
  rw [call_order, ordered, Relation.verdict_eq]
  by_cases hv : TypeTest.number.admits v = true
  · obtain ⟨a, rfl⟩ := Number.admits_number_iff.1 hv
    rw [if_neg (not_not_intro hv), Number.ofArgument_toValue]
    by_cases hw : TypeTest.number.admits w = true
    · obtain ⟨b, rfl⟩ := Number.admits_number_iff.1 hw
      have hholds : ¬ (a.compare b).any r.holds = true :=
        mt Relation.any_holds_compare_iff.1 (mt Relation.related_toValue_iff.2 h)
      rw [if_neg (not_not_intro hw), Number.ofArgument_toValue, pure_bind, pure_bind,
        if_neg hholds]
      rfl
    · rw [if_pos hw, Number.ofArgument_of_not_admits r.name hw]
      rfl
  · rw [if_pos hv, Number.ofArgument_of_not_admits r.name hv]
    rfl

/-! ## The first pair that decides -/

theorem call_order_of_isChain {vs : List Value} (h : vs.IsChain r.Related) :
    call (.order r) vs = .ok (.bool true) := by
  induction h with
  | nil => rfl
  | singleton => rfl
  | cons_cons hvw _ ih => rw [call_order_of_related hvw, ih]

theorem isChain_of_undecided {vs : List Value} (h : ∀ i, ¬ r.DecidesAt vs i) :
    vs.IsChain r.Related := by
  rw [List.isChain_iff_getElem]
  intro i hi
  by_contra hrelated
  exact h i ⟨_, _, List.getElem?_eq_getElem _, List.getElem?_eq_getElem hi, hrelated⟩

theorem call_order_of_first {vs : List Value} {i : Nat} {v w : Value} (hv : vs[i]? = some v)
    (hw : vs[i + 1]? = some w) (h : ¬ r.Related v w) (hearlier : ∀ j < i, ¬ r.DecidesAt vs j) :
    call (.order r) vs = r.verdict v w := by
  induction i generalizing vs with
  | zero =>
    rcases vs with _ | ⟨v', _ | ⟨w', vs⟩⟩
    · cases hv
    · cases hw
    · cases hv
      cases hw
      exact call_order_of_not_related h vs
  | succ i ih =>
    rcases vs with _ | ⟨u, _ | ⟨v', vs⟩⟩
    · cases hv
    · cases hw
    · have hhead : r.Related u v' := by
        by_contra hrelated
        exact hearlier 0 (Nat.succ_pos i) ⟨u, v', rfl, rfl, hrelated⟩
      rw [call_order_of_related hhead]
      exact ih hv hw fun j hj => hearlier (j + 1) (Nat.succ_lt_succ hj)

theorem exists_first {vs : List Value} (h : ¬ vs.IsChain r.Related) :
    ∃ i v w, vs[i]? = some v ∧ vs[i + 1]? = some w ∧ ¬ r.Related v w ∧
      ∀ j < i, ¬ r.DecidesAt vs j := by
  classical
  have hexists : ∃ i, r.DecidesAt vs i := by
    by_contra hnone
    exact h (isChain_of_undecided (not_exists.1 hnone))
  obtain ⟨v, w, hv, hw, hvw⟩ := Nat.find_spec hexists
  exact ⟨Nat.find hexists, v, w, hv, hw, hvw, fun j hj => Nat.find_min hexists hj⟩

/-! ## Chains of numbers -/

/-- The function answers so on numbers. -/
def Answers (f : Builtin) (as : List Number) (b : Bool) : Prop :=
  f.call (as.map Number.toValue) = .ok (.bool b)

theorem Answers.unique {f : Builtin} {as : List Number} {b c : Bool} (hb : f.Answers as b)
    (hc : f.Answers as c) : b = c := by
  cases hb.symm.trans hc
  rfl

theorem answers_order_true {as : List Number} (h : as.IsChain r.Between) :
    (order r).Answers as true := by
  refine call_order_of_isChain ((List.isChain_map _).2 (h.imp fun a b => ?_))
  exact Relation.related_toValue_iff.2

theorem answers_order_false {as : List Number} (h : ¬ as.IsChain r.Between) :
    (order r).Answers as false := by
  have hvs : ¬ (as.map Number.toValue).IsChain r.Related := by
    rw [List.isChain_map]
    exact mt (List.IsChain.imp fun a b => Relation.related_toValue_iff.1) h
  obtain ⟨i, v, w, hv, hw, hvw, hearlier⟩ := exists_first hvs
  have hcall := call_order_of_first hv hw hvw hearlier
  rw [List.getElem?_map, Option.map_eq_some_iff] at hv hw
  obtain ⟨a, -, rfl⟩ := hv
  obtain ⟨b, -, rfl⟩ := hw
  exact hcall.trans Relation.verdict_toValue

/-- On numbers a relation is answered with a truth value, whether it holds along them. -/
theorem answers_order_iff {as : List Number} {b : Bool} :
    (order r).Answers as b ↔ (b = true ↔ as.IsChain r.Between) := by
  by_cases h : as.IsChain r.Between
  · rw [iff_true_right h]
    exact ⟨fun hb => hb.unique (answers_order_true h), fun hb => hb ▸ answers_order_true h⟩
  · rw [iff_false_right h, Bool.not_eq_true]
    exact ⟨fun hb => hb.unique (answers_order_false h), fun hb => hb ▸ answers_order_false h⟩

theorem call_order_converse (r : Relation) (as : List Number) :
    call (.order r.converse) (as.reverse.map Number.toValue) =
      call (.order r) (as.map Number.toValue) := by
  have hchain : as.reverse.IsChain r.converse.Between ↔ as.IsChain r.Between := by
    simp only [List.isChain_reverse, Relation.between_converse_iff]
  by_cases h : as.IsChain r.Between
  · exact (answers_order_true (hchain.2 h)).trans (answers_order_true h).symm
  · exact (answers_order_false (mt hchain.1 h)).trans (answers_order_false h).symm

end Builtin

/-- Values are related in turn up to the first two that are not, and those decide the call: an error
names the first of them that is no number, and two numbers make the answer false. NaN is related to
nothing. With no such two the answer is true, as it is for fewer than two values of whatever kind.
Numbers are in a relation as they are in the converse one from the other end. -/
theorem decided_by_first_pair (r : Relation) (vs : List Value) :
    (vs.length < 2 → Builtin.call (.order r) vs = .ok (.bool true)) ∧
    ((∀ i, ¬ r.DecidesAt vs i) → Builtin.call (.order r) vs = .ok (.bool true)) ∧
    (∀ i v w, IsLeast {i | r.DecidesAt vs i} i → vs[i]? = some v → vs[i + 1]? = some w →
      Builtin.call (.order r) vs = r.verdict v w) ∧
    (∀ v w, v = .double .nan ∨ w = .double .nan → ¬ r.Related v w) ∧
    (∀ as : List Number, Builtin.call (.order r) (as.map Number.toValue) =
      Builtin.call (.order r.converse) (as.reverse.map Number.toValue)) := by
  refine ⟨Builtin.call_order_of_length_lt,
    fun h => Builtin.call_order_of_isChain (Builtin.isChain_of_undecided h), ?_,
    fun v w => Relation.not_related_nan, fun as => (Builtin.call_order_converse r as).symm⟩
  rintro i v w ⟨⟨v', w', hv', hw', hrelated⟩, hleast⟩ hv hw
  cases hv'.symm.trans hv
  cases hw'.symm.trans hw
  refine Builtin.call_order_of_first hv hw hrelated fun j hj hdecides => ?_
  exact Nat.not_le_of_lt hj (hleast hdecides)

/-- One is less than infinity, which is not less than NaN: the string is never looked at, as it is
not where it stands alone. -/
theorem decided_by_first_pair_nan :
    [Value.str "a"].length < 2 ∧
    Builtin.call (.order .less) [.str "a"] = .ok (.bool true) ∧
    IsLeast {i | Relation.less.DecidesAt
      [.int 1, .double (.infinite false), .double .nan, .str "a"] i} 1 ∧
    Builtin.call (.order .less) [.int 1, .double (.infinite false), .double .nan, .str "a"] =
      .ok (.bool false) := by
  have hshort : [Value.str "a"].length < 2 := by decide
  have hnan (v : Value) : ¬ Relation.less.Related v (.double .nan) :=
    Relation.not_related_nan (.inr rfl)
  have hone : Relation.less.Related (.int 1) (.double (.infinite false)) :=
    ⟨.int 1, .double (.infinite false), rfl, rfl,
      Relation.any_holds_compare_iff.1 (by decide +kernel)⟩
  have hleast : IsLeast {i | Relation.less.DecidesAt
      [.int 1, .double (.infinite false), .double .nan, .str "a"] i} 1 := by
    refine ⟨⟨_, _, rfl, rfl, hnan _⟩, ?_⟩
    rintro i ⟨v, w, hv, hw, hrelated⟩
    by_contra hlt
    obtain rfl : i = 0 := by omega
    cases hv
    cases hw
    exact hrelated hone
  exact ⟨hshort, (decided_by_first_pair .less [.str "a"]).1 hshort, hleast,
    (decided_by_first_pair .less _).2.2.1 1 _ _ hleast rfl rfl⟩

/-! ## Strict relations -/

theorem Relation.isChain_between_iff_pairwise {r : Relation} (hr : r = .less ∨ r = .greater)
    {as : List Number} : as.IsChain r.Between ↔ as.Pairwise r.Between := by
  have : Trans r.Between r.Between r.Between := ⟨between_trans hr⟩
  exact List.isChain_iff_pairwise

/-- A strict relation between numbers that holds along a chain holds between any two of them in that
order; it is irreflexive, asymmetric and transitive, between integers and doubles alike. -/
theorem strict_throughout {r : Relation} (hr : r = .less ∨ r = .greater) (as : List Number) :
    ((Builtin.order r).Answers as true ↔
      as.Pairwise fun a b => (Builtin.order r).Answers [a, b] true) ∧
    (∀ a, (Builtin.order r).Answers [a, a] false) ∧
    (∀ a b, (Builtin.order r).Answers [a, b] true → (Builtin.order r).Answers [b, a] false) ∧
    (∀ a b c, (Builtin.order r).Answers [a, b] true → (Builtin.order r).Answers [b, c] true →
      (Builtin.order r).Answers [a, c] true) := by
  simp only [Builtin.answers_order_iff, List.isChain_pair, true_iff, false_iff,
    Bool.false_eq_true]
  refine ⟨Relation.isChain_between_iff_pairwise hr, fun a haa => ?_, fun a b hab => ?_,
    fun a b c hab hbc => ?_⟩
  · exact Relation.between_asymm hr haa haa
  · exact Relation.between_asymm hr hab
  · exact Relation.between_trans hr hab hbc

/-- A double between two integers that are rounded to be compared with it. -/
theorem strict_throughout_rounded :
    (Relation.less = .less ∨ Relation.less = .greater) ∧
    (Builtin.order .less).Answers
      [.int 9007199254740993, .double (.ofInt 9007199254740994), .int 9007199254740995] true ∧
    (Builtin.order .less).Answers [.int 9007199254740993, .int 9007199254740995] true := by
  have hless : Relation.less = .less ∨ Relation.less = .greater := .inl rfl
  have hchain : (Builtin.order .less).Answers
      [.int 9007199254740993, .double (.ofInt 9007199254740994), .int 9007199254740995] true := by
    refine Builtin.answers_order_true ?_
    rw [List.isChain_cons_cons, List.isChain_pair]
    exact ⟨Relation.any_holds_compare_iff.1 (by decide +kernel),
      Relation.any_holds_compare_iff.1 (by decide +kernel)⟩
  have hpairs := (strict_throughout hless _).1.1 hchain
  exact ⟨hless, hchain,
    List.rel_of_pairwise_cons hpairs (List.mem_cons_of_mem _ List.mem_cons_self)⟩

/-! ## Two numbers -/

namespace Builtin

/-- The function that asks whether two numbers compare so. -/
def ofOrdering : Ordering → Builtin
  | .lt => order .less
  | .eq => equal
  | .gt => order .greater

theorem answers_order_pair_iff {r : Relation} {a b : Number} {c : Bool} :
    (order r).Answers [a, b] c ↔ (a.compare b).any r.holds = c := by
  rw [answers_order_iff, List.isChain_pair, ← Relation.any_holds_compare_iff, ← Bool.eq_iff_iff,
    eq_comm]

theorem answers_equal_pair_iff {a b : Number} {c : Bool} :
    equal.Answers [a, b] c ↔ (a.compare b == some .eq) = c := by
  rw [Answers, List.map_cons, List.map_singleton, call_equal_iff, Number.equal_toValue]

theorem answers_or_equal_iff {r strict : Relation} {a b : Number}
    (h : ∀ o, r.holds o = true ↔ strict.holds o = true ∨ o = .eq) :
    (order r).Answers [a, b] true ↔
      (order strict).Answers [a, b] true ∨ equal.Answers [a, b] true := by
  rw [answers_order_pair_iff, answers_order_pair_iff, answers_equal_pair_iff, beq_iff_eq]
  cases a.compare b with
  | none => simp
  | some o => rw [Option.any_some, Option.any_some, h o, Option.some.injEq]

theorem answers_ofOrdering_iff {o : Ordering} {a b : Number} {c : Bool} :
    (ofOrdering o).Answers [a, b] c ↔ (a.compare b == some o) = c := by
  cases o with
  | eq => exact answers_equal_pair_iff
  | lt | gt =>
    rw [ofOrdering, answers_order_pair_iff]
    cases a.compare b <;> rfl

end Builtin

/-- Two numbers are equal where they compare as equal, and compare the other way round from the
other end. At most and at least are less or equal and greater or equal; just one of less, equal and
greater holds, unless one of the numbers is NaN, of which none does. -/
theorem order_agrees_with_equality (a b : Number) :
    (a.compare b = some .eq ↔ a.toValue.equal b.toValue = true) ∧
    b.compare a = (a.compare b).map Ordering.swap ∧
    ((Builtin.order .lessEqual).Answers [a, b] true ↔
      (Builtin.order .less).Answers [a, b] true ∨ Builtin.equal.Answers [a, b] true) ∧
    ((Builtin.order .greaterEqual).Answers [a, b] true ↔
      (Builtin.order .greater).Answers [a, b] true ∨ Builtin.equal.Answers [a, b] true) ∧
    ((∃! o, (Builtin.ofOrdering o).Answers [a, b] true) ↔
      a ≠ .double .nan ∧ b ≠ .double .nan) ∧
    ((∀ o, (Builtin.ofOrdering o).Answers [a, b] false) ↔
      a = .double .nan ∨ b = .double .nan) := by
  refine ⟨?_, Number.compare_swap a b, ?_, ?_, ?_, ?_⟩
  · rw [Number.equal_toValue, beq_iff_eq]
  · exact Builtin.answers_or_equal_iff fun o => by cases o <;> decide
  · exact Builtin.answers_or_equal_iff fun o => by cases o <;> decide
  · simp only [Builtin.answers_ofOrdering_iff, beq_iff_eq]
    rw [← not_or, ← Number.compare_eq_none_iff]
    constructor
    · rintro ⟨o, ho, -⟩ hnone
      cases ho.symm.trans hnone
    · intro hsome
      obtain ⟨o, ho⟩ := Option.ne_none_iff_exists'.1 hsome
      exact ⟨o, ho, fun o' ho' => Option.some.inj (ho'.symm.trans ho)⟩
  · simp only [Builtin.answers_ofOrdering_iff, beq_eq_false_iff_ne]
    rw [← Number.compare_eq_none_iff, Option.eq_none_iff_forall_ne_some]

end SmallLisp
