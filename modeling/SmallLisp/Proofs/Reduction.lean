import SmallLisp.Proofs.Copies
import SmallLisp.Proofs.Scope
import SmallLisp.Proofs.ShortCircuit

/-!
# Reduction of expressions

Where the parts of an expression have values and change nothing (`State.Means`), the rules reduce
the expression: a conditional to one of its branches, a call to the application of a function, and
the application of a function to its body in a new frame. In that frame the parameters are found,
and around it what the frame of the definition binds.
-/

namespace SmallLisp

/-- The expression has the value, and its evaluation changes nothing. -/
def State.Means (s : State) (env : Env) (e v : Value) : Prop := evaluate e env s = some (.ok v, s)

section Rules

variable {s : State} {env : Env}

theorem means_sym {name : String} {v : Value} (h : s.resolve env name = some v) :
    s.Means env (.sym name) v := by
  have hread : Run.read (·.resolve env name) s = some (.ok (s.resolve env name), s) :=
    (rfl : _ = (_ : Option (Except EvalError _ × State)))
  rw [State.Means, evaluate_eq, evalStep, Run.bind_of_ok hread, h]
  rfl

/-- A number or a string, for instance, is its own value. -/
theorem means_self {v : Value} (h : v.atomic = true) (hsym : v.symbol? = none) :
    s.Means env v v := by
  rw [State.Means, evaluate_eq]
  cases v with
  | sym => cases hsym
  | list | closure => cases h
  | _ => rfl

theorem evalAll_of_means {es vs : List Value} (h : List.Forall₂ (s.Means env) es vs) :
    evalAll evaluate env es s = some (.ok vs, s) := by
  induction h with
  | nil => rfl
  | cons he _ ih =>
    rw [evalAll, Run.bind_of_ok he, Run.bind_of_ok ih]
    rfl

theorem Value.truthy_bool (b : Bool) : (bool b).truthy = b := by cases b <;> rfl

theorem evaluate_branch_of_means {test v : Value} (h : s.Means env test v) (e e' : Value) :
    evaluate (.branch test e e') env s =
      if v.truthy then evaluate e env s else evaluate e' env s := by
  rw [evaluate_branch, Run.bind_of_ok h]
  split <;> rfl

theorem evaluate_call_of_means {head f : Value} {es vs : List Value} (hhead : formOf? head = none)
    (hf : s.Means env head f) (hcallable : f.callable = true)
    (hes : List.Forall₂ (s.Means env) es vs) :
    evaluate (.list (head :: es)) env s = apply evaluate f vs s := by
  rw [evaluate_call hhead, Run.bind_of_ok hf, if_pos hcallable,
    Run.bind_of_ok (evalAll_of_means hes)]

/-- A call of a built-in function that prints nothing changes nothing. -/
theorem means_call {name : String} {b : Builtin} {es vs : List Value} {v : Value}
    (hname : formOf? (.sym name) = none) (hb : s.resolve env name = some (.builtin b))
    (hes : List.Forall₂ (s.Means env) es vs) (hcall : b.call vs = .ok v)
    (hprinted : b.printed vs = "") : s.Means env (.list (.sym name :: es)) v := by
  rw [State.Means, evaluate_call_of_means hname (means_sym hb) rfl hes, apply, applyBuiltin, hcall,
    hprinted]
  change some (Except.ok v, s.print "") = _
  rw [State.print, String.append_empty]

theorem apply_closure_of_length {params : List String} {args : List Value}
    (h : params.length = args.length) (identity : Nat) (name : Option String) (e : Value)
    (outer : Env) :
    apply evaluate (.closure identity name params [e] outer) args s =
      evaluate e (s.push (.ofCall outer params args)).1 (s.push (.ofCall outer params args)).2 := by
  rw [apply, applyClosure, if_pos h]
  rfl

end Rules

namespace State

variable {s : State} {env : Env} {f : Frame}

theorem frame?_define_self (h : s.frame? env = some f) (name : String) (v : Value) :
    (s.define env name v).frame? env = some (f.insert name v) := by
  rw [frame?_define, if_pos rfl, h]
  rfl

theorem exists_chainOf_succ (h : s.frame? env = some f) (n : Nat) :
    ∃ rest, s.chainOf (n + 1) env = env :: rest := by
  obtain ⟨bindings, outer⟩ := f
  rw [chainOf, h]
  cases outer with
  | none => exact ⟨[], rfl⟩
  | some outer => exact ⟨_, rfl⟩

/-- A name that is no parameter is looked up around the function. -/
theorem resolve_push_ofCall_of_notMem {outer : Env} (hf : s.frame? outer = some f) {name : String}
    {v : Value} (hv : f.get? name = some v) {params : List String} (hname : name ∉ params)
    (args : List Value) :
    (s.push (.ofCall outer params args)).2.resolve (s.push (.ofCall outer params args)).1 name =
      some v := by
  have hcall := s.frame?_push (.ofCall outer params args) (s.push (.ofCall outer params args)).1
  rw [if_pos rfl] at hcall
  have hnone : (Frame.ofCall outer params args).get? name = none := by
    refine Frame.get?_foldl_insert_of_notMem _ _ fun hmem => ?_
    obtain ⟨b, hb, rfl⟩ := List.mem_map.1 hmem
    exact hname (List.of_mem_zip hb).1
  have hkept := Keeps.push s (.ofCall outer params args) outer f hf
  -- The frame of the function is older, so the search from the new number goes on to it.
  have hpos : 0 < (s.push (.ofCall outer params args)).1.index :=
    Nat.zero_lt_of_lt (allocated_iff.2 ⟨f, hf⟩)
  obtain ⟨n, hn⟩ := Nat.exists_eq_succ_of_ne_zero hpos.ne'
  obtain ⟨rest, hrest⟩ := exists_chainOf_succ hkept n
  rw [resolve, chain_eq_cons hcall (Frame.outer_ofCall outer params args), hn, hrest,
    List.findSome?_cons, hcall, Option.bind_some, hnone, List.findSome?_cons, hkept,
    Option.bind_some, hv]

end State

/-! ## Sources -/

/-- The source has this outcome at some depth. -/
def SourceEnds (source : String) (env : Env) (s : State) (p : Except SourceError Value × State) :
    Prop :=
  ∃ depth, evaluateSource depth source env s = some p

theorem SourceEnds.of_evaluate {source : String} {e v : Value} {env : Env} {s s' : State}
    (hparse : Reader.parse source = .ok [e]) (h : evaluate e env s = some (.ok v, s')) :
    SourceEnds source env s (.ok v, s') := by
  obtain ⟨depth, hdepth⟩ := evaluate_eq_some_iff.1 h
  refine ⟨depth, ?_⟩
  rw [evaluateSource_of_parse hparse, Run.mapError, evalBody, hdepth]

theorem Reader.parse_render {v : Value} (h : v.Readable) : parse v.render = .ok [v] := by
  rw [Value.render, ← Value.charsAll_singleton]
  exact parse_renderAll_of_readable (List.forall_mem_singleton.2 h)

/-- The source has the value. It prints nothing, and the bindings of the environment stay as they
are. -/
def State.Gives (s : State) (env : Env) (source : String) (v : Value) : Prop :=
  ∃ s', SourceEnds source env s (.ok v, s') ∧ s'.output = s.output ∧ s'.frame? env = s.frame? env

end SmallLisp
