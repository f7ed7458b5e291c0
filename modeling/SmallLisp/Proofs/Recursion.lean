import SmallLisp.Proofs.Division
import SmallLisp.Proofs.Equality
import SmallLisp.Proofs.Reduction

/-!
# Mutual recursion

Two functions tell even numbers from odd ones: each answers at zero, and asks the other about the
number before. The first one is defined when the other has no value yet; a call looks it up where
both are bound by then. So a call with any number that is not negative comes down to zero
(`Parity.exists_apply`), with a new frame for each number on the way in which that number hides the
one before, and with no other change. The source of the functions means what it says, at every
number (`parity_by_mutual_recursion`).
-/

namespace SmallLisp

theorem Builtin.call_dec {m n : Int64} (h : m.toInt = n.toInt - 1) :
    Builtin.dec.call [.int n] = .ok (.int m) := by
  have hsub : Operator.sub.onInt n 1 = some m := Integer.ofInt?_eq_some_iff.2 h
  have happly : Operator.sub.apply (.int n) (.int 1) = .ok (.int m) := by
    rw [Operator.apply_int (by decide), hsub]
  change (Operator.sub.apply (.int n) (.int 1) >>= fun c => return c.toValue) = _
  rw [happly]
  rfl

namespace Parity

/-! ## The functions -/

/-- What the numbers leave when divided by two for which the function is true. -/
def remainder (atZero : Bool) : Int := if atZero then 0 else 1

def name (atZero : Bool) : String := if atZero then "ev?" else "od?"

/-- Answers at zero, and else asks the other function about the number before. -/
def body (atZero : Bool) : Value :=
  .branch (.list [.sym "=", .sym "n", .int 0]) (.bool atZero)
    (.list [.sym (name !atZero), .list [.sym "dec", .sym "n"]])

def definition (atZero : Bool) : Value :=
  .list [.sym "defn", .sym (name atZero), .list [.sym "n"], body atZero]

def function (identity : Nat) (atZero : Bool) (env : Env) : Value :=
  .closure identity (some (name atZero)) ["n"] [body atZero] env

/-- The frame of a call. -/
abbrev frame (env : Env) (n : Int64) : Frame := .ofCall env ["n"] [.int n]

theorem remainder_not {m n : Int} (h : m = n - 1) (atZero : Bool) :
    (m % 2 == remainder !atZero) = (n % 2 == remainder atZero) := by
  rw [Bool.eq_iff_iff, beq_iff_eq, beq_iff_eq]
  cases atZero with
  | true =>
    change m % 2 = 1 ↔ n % 2 = 0
    omega
  | false =>
    change m % 2 = 0 ↔ n % 2 = 1
    omega

/-! ## Their definitions -/

/-- The frame binds the functions, with itself around them, and what they call. -/
structure Bound (env : Env) (f : Frame) : Prop where
  equal : f.get? "=" = some (.builtin .equal)
  dec : f.get? "dec" = some (.builtin .dec)
  function : ∀ atZero, ∃ identity, f.get? (name atZero) = some (function identity atZero env)

theorem bound_library (i j : Nat) (env : Env) :
    Bound env ((Frame.library.insert "ev?" (function i true env)).insert "od?"
      (function j false env)) where
  equal := by
    rw [Frame.get?_insert, if_neg (by decide), Frame.get?_insert, if_neg (by decide)]
    rfl
  dec := by
    rw [Frame.get?_insert, if_neg (by decide), Frame.get?_insert, if_neg (by decide)]
    rfl
  function atZero := by
    cases atZero with
    | true =>
      refine ⟨i, ?_⟩
      rw [Frame.get?_insert, if_neg (by decide), Frame.get?_insert]
      exact if_pos rfl
    | false =>
      refine ⟨j, ?_⟩
      rw [Frame.get?_insert]
      exact if_pos rfl

theorem exists_evaluate_definition (atZero : Bool) {s : State} {env : Env} {f : Frame}
    (h : s.frame? env = some f) :
    ∃ s' identity, evaluate (definition atZero) env s = some (.ok .nil, s') ∧
      s'.frame? env = some (f.insert (name atZero) (function identity atZero env)) ∧
      s'.output = s.output := by
  refine ⟨_, s.closures, congrFun (evaluate_form .defineFn _ env) s, ?_, rfl⟩
  exact State.frame?_define_self (s := { s with closures := s.closures + 1 }) h _ _

/-! ## Their calls -/

theorem means_parameter (s : State) (env : Env) (n : Int64) :
    (s.push (frame env n)).2.Means (s.push (frame env n)).1 (.sym "n") (.int n) :=
  means_sym (s.resolve_push_ofCall env (i := 0) rfl rfl List.not_mem_nil)

/-- Another name than that of the parameter is looked up where the functions are defined. -/
theorem resolve_frame {s : State} {env : Env} {f : Frame} (hf : s.frame? env = some f)
    {name : String} {v : Value} (hv : f.get? name = some v) (hne : name ≠ "n") (n : Int64) :
    (s.push (frame env n)).2.resolve (s.push (frame env n)).1 name = some v :=
  State.resolve_push_ofCall_of_notMem hf hv (List.mem_singleton.not.2 hne) [.int n]

section Calls

variable {s : State} {g : Env} {f : Frame} (hg : Bound g f)
include hg

theorem exists_evaluate_call {env : Env} {e : Value} {n : Int64} {atZero : Bool}
    (hname : s.resolve env (name atZero) = f.get? (name atZero)) (he : s.Means env e (.int n)) :
    ∃ identity, evaluate (.list [.sym (name atZero), e]) env s =
      apply evaluate (function identity atZero g) [.int n] s := by
  have hform : formOf? (.sym (name atZero)) = none := by cases atZero <;> rfl
  obtain ⟨identity, hfunction⟩ := hg.function atZero
  have hhead := means_sym (hname.trans hfunction)
  exact ⟨identity, evaluate_call_of_means hform hhead rfl (.cons he .nil)⟩

variable (hf : s.frame? g = some f) (identity : Nat) (atZero : Bool) {n : Int64}
include hf

/-- In the frame of the call the test decides for one of the branches. -/
theorem apply_function (n : Int64) :
    apply evaluate (function identity atZero g) [.int n] s =
      if n = 0 then evaluate (.bool atZero) (s.push (frame g n)).1 (s.push (frame g n)).2
      else evaluate (.list [.sym (name !atZero), .list [.sym "dec", .sym "n"]])
        (s.push (frame g n)).1 (s.push (frame g n)).2 := by
  have htest := means_call rfl (resolve_frame hf hg.equal (by decide) n)
    (.cons (means_parameter s g n) (.cons (means_self rfl rfl) .nil))
    (Builtin.call_equal (.int n) (.int 0)) rfl
  rw [function, apply_closure_of_length rfl, body, evaluate_branch_of_means htest,
    Value.truthy_bool, Value.equal]
  simp only [beq_iff_eq]

theorem apply_function_zero (h : n = 0) :
    apply evaluate (function identity atZero g) [.int n] s =
      some (.ok (.bool atZero), (s.push (frame g n)).2) := by
  rw [apply_function hg hf, if_pos h]
  exact means_self rfl rfl

/-- Not at zero, a call is one of the other function. -/
theorem exists_apply_function {m : Int64} (hne : n ≠ 0) (hm : m.toInt = n.toInt - 1) :
    ∃ other, apply evaluate (function identity atZero g) [.int n] s =
      apply evaluate (function other (!atZero) g) [.int m] (s.push (frame g n)).2 := by
  have hdec := means_call rfl (resolve_frame hf hg.dec (by decide) n)
    (.cons (means_parameter s g n) .nil) (Builtin.call_dec hm) rfl
  obtain ⟨_, hfunction⟩ := hg.function !atZero
  have hother := resolve_frame hf hfunction (by cases atZero <;> decide) n
  rw [apply_function hg hf, if_neg hne]
  exact exists_evaluate_call hg (hother.trans hfunction.symm) hdec

/-- A call ends with the answer, and changes no frame that was there before. -/
theorem exists_apply {k : Nat} (hk : n.toInt = k) :
    ∃ s', apply evaluate (function identity atZero g) [.int n] s =
      some (.ok (.bool (n.toInt % 2 == remainder atZero)), s') ∧
      s.Keeps s' ∧ s'.output = s.output := by
  -- Both functions at once: each calls the other, from a state with one frame more.
  induction k generalizing s n identity atZero with
  | zero =>
    refine ⟨_, ?_, .push s (frame g n), rfl⟩
    rw [apply_function_zero hg hf identity atZero (Integer.eq_zero_iff.2 hk), hk]
    cases atZero <;> rfl
  | succ k ih =>
    have hpush := State.Keeps.push s (frame g n)
    have hrange := Integer.inRange_toInt n
    have hrange' : Integer.InRange k := by
      unfold Integer.InRange at *
      omega
    obtain ⟨m, hm⟩ := Integer.exists_toInt_eq hrange'
    have hpred : m.toInt = n.toInt - 1 := by omega
    have hne : n ≠ 0 := Integer.eq_zero_iff.not.2 (by omega)
    obtain ⟨other, hcall⟩ := exists_apply_function hg hf identity atZero hne hpred
    obtain ⟨s', hs', hkeeps, houtput⟩ := ih (hpush g f hf) other (!atZero) hm
    refine ⟨s', ?_, hpush.trans hkeeps, houtput⟩
    rw [hcall, hs', remainder_not hpred]

theorem gives_call (hn : 0 ≤ n) :
    s.Gives g (Value.list [.sym (name atZero), .int n]).render
      (.bool (n.toInt % 2 == remainder atZero)) := by
  have hname : Reader.IsName (name atZero).toList := by cases atZero <;> decide
  have hreadable : (Value.list [.sym (name atZero), .int n]).Readable :=
    Value.legible_list.2 (List.forall_mem_cons.2 ⟨hname, List.forall_mem_singleton.2 trivial⟩)
  obtain ⟨_, hfunction⟩ := hg.function atZero
  have hresolve := (State.resolve_of_get? hf hfunction).trans hfunction.symm
  obtain ⟨identity, hcall⟩ :=
    exists_evaluate_call hg hresolve (means_self (v := .int n) rfl rfl)
  obtain ⟨k, hk⟩ := Int.eq_ofNat_of_zero_le (Int64.le_iff_toInt_le.1 hn)
  obtain ⟨s', hs', hkeeps, houtput⟩ := exists_apply hg hf identity atZero hk
  refine ⟨s', .of_evaluate (Reader.parse_render hreadable) (hcall.trans hs'), houtput, ?_⟩
  rw [hf, hkeeps g f hf]

end Calls

end Parity

/-- After the two functions are defined in a fresh global environment, `ev?` is true of the even
numbers and `od?` of the odd ones, up from zero. This is so in each state in which the environment
has the bindings that it has then. A call leaves it with them, and prints nothing. -/
theorem parity_by_mutual_recursion (s : State) :
    let g := s.pushGlobal.1
    ∃ s₁ s₂,
      SourceEnds "(defn ev? (n) (if (= n 0) true (od? (dec n))))" g s.pushGlobal.2 (.ok .nil, s₁) ∧
      SourceEnds "(defn od? (n) (if (= n 0) false (ev? (dec n))))" g s₁ (.ok .nil, s₂) ∧
      s₂.output = s.output ∧
      ∀ t : State, t.frame? g = s₂.frame? g → ∀ n : Int64, 0 ≤ n →
        t.Gives g (Value.list [.sym "ev?", .int n]).render (.bool (n.toInt % 2 == 0)) ∧
        t.Gives g (Value.list [.sym "od?", .int n]).render (.bool (n.toInt % 2 == 1)) := by
  intro g
  have hev : Reader.parse "(defn ev? (n) (if (= n 0) true (od? (dec n))))" =
    .ok [Parity.definition true] := by with_unfolding_all rfl
  have hod : Reader.parse "(defn od? (n) (if (= n 0) false (ev? (dec n))))" =
    .ok [Parity.definition false] := by with_unfolding_all rfl
  have hlibrary : s.pushGlobal.2.frame? g = some Frame.library :=
    (s.frame?_push Frame.library g).trans (if_pos rfl)
  obtain ⟨s₁, i, h₁, hframe₁, hout₁⟩ := Parity.exists_evaluate_definition true hlibrary
  obtain ⟨s₂, j, h₂, hframe₂, hout₂⟩ := Parity.exists_evaluate_definition false hframe₁
  refine ⟨s₁, s₂, .of_evaluate hev h₁, .of_evaluate hod h₂, hout₂.trans hout₁, fun t ht n hn => ?_⟩
  have hbound := Parity.bound_library i j g
  exact ⟨Parity.gives_call hbound (ht.trans hframe₂) true hn,
    Parity.gives_call hbound (ht.trans hframe₂) false hn⟩

/-- The greatest number is odd. -/
theorem parity_by_mutual_recursion_greatest :
    ∃ s₁ s₂,
      SourceEnds "(defn ev? (n) (if (= n 0) true (od? (dec n))))" ⟨0⟩
        ⟨#[Frame.library], 0, ""⟩ (.ok .nil, s₁) ∧
      SourceEnds "(defn od? (n) (if (= n 0) false (ev? (dec n))))" ⟨0⟩ s₁ (.ok .nil, s₂) ∧
      0 ≤ Int64.maxValue ∧
      s₂.Gives ⟨0⟩ "(ev? 9223372036854775807)" (.bool false) ∧
      s₂.Gives ⟨0⟩ "(od? 9223372036854775807)" (.bool true) := by
  have hn : 0 ≤ Int64.maxValue := by decide
  obtain ⟨s₁, s₂, h₁, h₂, -, hcalls⟩ := parity_by_mutual_recursion State.empty
  obtain ⟨hev, hod⟩ := hcalls s₂ rfl Int64.maxValue hn
  have hev' : (Value.list [.sym "ev?", .int Int64.maxValue]).render =
    "(ev? 9223372036854775807)" := by decide +kernel
  have hod' : (Value.list [.sym "od?", .int Int64.maxValue]).render =
    "(od? 9223372036854775807)" := by decide +kernel
  rw [hev'] at hev
  rw [hod'] at hod
  exact ⟨s₁, s₂, h₁, h₂, hn, hev, hod⟩

end SmallLisp
