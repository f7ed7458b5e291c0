import SmallLisp.Eval.Depth
import SmallLisp.Proofs.Joined

/-!
# Copies of a value

A program hands a value on when it binds a name to it, passes it as an argument, puts it in a list
or takes it out of one, and returns it from a call (`Copy`). No such way changes anything in a value
(`Copy.eq`), so a closure remains equal to what it comes back as.
-/

namespace SmallLisp

/-- A value comes back from `v`, in any number of steps: as that of a name that `def` has bound, or
of a parameter in the frame of a call; as an element of a list that `cons` has made, or that `first`
or `next` has taken from another; as the value of a closure whose body ends with it; and as that of
the call. -/
inductive Copy (v : Value) : Value → Prop where
  | self : Copy v v
  | defined {depth n : Nat} {e u r w : Value} {name : String} {env : Env} {s s' t t' : State} :
      Copy v u → eval depth e env s = some (.ok u, s') →
      eval (depth + 1) (.list [.sym "def", .sym name, e]) env s = some (.ok r, t) →
      eval n (.sym name) env t = some (.ok w, t') → Copy v w
  | passed {n i : Nat} {params : List String} {args : List Value} {name : String} {u w : Value}
      {outer : Env} {s t : State} : Copy v u → params[i]? = some name → args[i]? = some u →
      name ∉ params.drop (i + 1) →
      eval n (.sym name) (s.push (.ofCall outer params args)).1
        (s.push (.ofCall outer params args)).2 = some (.ok w, t) → Copy v w
  | put {u l w : Value} {ws : List Value} : Copy v u →
      Builtin.cons.call [u, l] = .ok (.list ws) → ws[0]? = some w → Copy v w
  | kept {i : Nat} {x u w : Value} {us ws : List Value} : Copy v u → us[i]? = some u →
      Builtin.cons.call [x, .list us] = .ok (.list ws) → ws[i + 1]? = some w → Copy v w
  | first {u w : Value} {us : List Value} : Copy v u → us[0]? = some u →
      Builtin.first.call [.list us] = .ok w → Copy v w
  | next {i : Nat} {u w : Value} {us ws : List Value} : Copy v u → us[i + 1]? = some u →
      Builtin.next.call [.list us] = .ok (.list ws) → ws[i]? = some w → Copy v w
  | returned {depth : Nat} {name : Option String} {params : List String} {args es : List Value}
      {e u r w : Value} {outer : Env} {s s' t t' : State} : Copy v u →
      evalBody (eval depth) (s.push (.ofCall outer params args)).1 es
        (s.push (.ofCall outer params args)).2 = some (.ok r, s') →
      eval depth e (s.push (.ofCall outer params args)).1 s' = some (.ok u, t) →
      applyClosure (eval depth) name params (es ++ [e]) outer args s = some (.ok w, t') → Copy v w
  | called {depth : Nat} {head f u w : Value} {operands args : List Value} {env : Env}
      {s s₁ s₂ s₃ t : State} : Copy v u → formOf? head = none →
      eval depth head env s = some (.ok f, s₁) →
      evalAll (eval depth) env operands s₁ = some (.ok args, s₂) →
      apply (eval depth) f args s₂ = some (.ok u, s₃) →
      eval (depth + 1) (.list (head :: operands)) env s = some (.ok w, t) → Copy v w

/-! ## Names -/

theorem eval_sym {n : Nat} {name : String} {env : Env} {s t : State} {v : Value}
    (h : eval n (.sym name) env s = some (.ok v, t)) : s.resolve env name = some v := by
  cases n with
  | zero => cases h
  | succ n =>
    have hread : Run.read (·.resolve env name) s = some (.ok (s.resolve env name), s) :=
      (rfl : _ = (_ : Option (Except EvalError _ × State)))
    have hstep := (Run.bind_of_ok hread).symm.trans h
    cases hname : s.resolve env name with
    | none =>
      rw [hname] at hstep
      cases hstep
    | some w =>
      rw [hname] at hstep
      cases hstep
      rfl

/-- A name is first looked up in the frame of the environment. -/
theorem State.resolve_of_get? {s : State} {env : Env} {f : Frame} {name : String} {v : Value}
    (hf : s.frame? env = some f) (hv : f.get? name = some v) : s.resolve env name = some v := by
  obtain ⟨bindings, outer⟩ := f
  cases outer <;> simp [resolve, chain, chainOf, hf, hv]

theorem State.resolve_define_self {s : State} {env : Env} {name : String} {v w : Value}
    (h : (s.define env name v).resolve env name = some w) : w = v := by
  have hframe := s.frame?_define env env name v
  rw [if_pos rfl] at hframe
  cases hf : s.frame? env with
  | none =>
    rw [hf] at hframe
    rw [resolve, chain, chainOf, hframe] at h
    cases h
  | some f =>
    rw [hf] at hframe
    have hv : (f.insert name v).get? name = some v := by rw [Frame.get?_insert, if_pos rfl]
    exact Option.some.inj (h.symm.trans (resolve_of_get? hframe hv))

theorem Frame.get?_foldl_insert_of_notMem (bs : List (String × Value)) (f : Frame) {name : String}
    (h : name ∉ bs.map Prod.fst) :
    (bs.foldl (fun f (name, v) => f.insert name v) f).get? name = f.get? name := by
  induction bs generalizing f with
  | nil => rfl
  | cons b bs ih =>
    rw [List.map_cons, List.mem_cons, not_or] at h
    rw [List.foldl_cons, ih _ h.2, get?_insert, if_neg h.1]

/-- A parameter is bound to its argument, unless a later one has the same name. -/
theorem Frame.get?_ofCall (outer : Env) {params : List String} {args : List Value} {i : Nat}
    {name : String} {v : Value} (hname : params[i]? = some name) (hv : args[i]? = some v)
    (hlast : name ∉ params.drop (i + 1)) : (ofCall outer params args).get? name = some v := by
  unfold ofCall
  generalize (⟨[], some outer⟩ : Frame) = f
  induction i generalizing params args f with
  | zero =>
    rcases params with _ | ⟨p, params⟩ <;> rcases args with _ | ⟨a, args⟩ <;>
      simp only [List.getElem?_nil, List.getElem?_cons_zero, Option.some.injEq, reduceCtorEq]
        at hname hv
    subst hname hv
    have hrest : p ∉ (params.zip args).map Prod.fst := fun hmem => by
      obtain ⟨b, hb, rfl⟩ := List.mem_map.1 hmem
      exact hlast (List.of_mem_zip hb).1
    rw [List.zip_cons_cons, List.foldl_cons, get?_foldl_insert_of_notMem _ _ hrest, get?_insert,
      if_pos rfl]
  | succ i ih =>
    cases params with
    | nil => cases hname
    | cons p params =>
      cases args with
      | nil => cases hv
      | cons a args => exact ih hname hv hlast _

theorem State.resolve_push_ofCall (s : State) (outer : Env) {params : List String}
    {args : List Value} {i : Nat} {name : String} {v : Value} (hname : params[i]? = some name)
    (hv : args[i]? = some v) (hlast : name ∉ params.drop (i + 1)) :
    (s.push (.ofCall outer params args)).2.resolve (s.push (.ofCall outer params args)).1 name =
      some v :=
  resolve_of_get? (by rw [frame?_push, if_pos rfl]) (Frame.get?_ofCall outer hname hv hlast)

/-! ## Copies -/

theorem eval_define (depth : Nat) (name : String) (e : Value) (env : Env) :
    eval (depth + 1) (.list [.sym "def", .sym name, e]) env = (do
      let v ← eval depth e env
      Run.modify (·.define env name v)
      pure .nil) :=
  evalStep_form (eval depth) .define _ env

/-- The value of a call is that of the last expression in the body. -/
theorem applyClosure_append {ev : Value → Env → Eval Value} {name : Option String}
    {params : List String} {args es : List Value} {e u r w : Value} {outer : Env}
    {s s' t t' : State}
    (hes : evalBody ev (s.push (.ofCall outer params args)).1 es
      (s.push (.ofCall outer params args)).2 = some (.ok r, s'))
    (he : ev e (s.push (.ofCall outer params args)).1 s' = some (.ok u, t))
    (happly : applyClosure ev name params (es ++ [e]) outer args s = some (.ok w, t')) : w = u := by
  unfold applyClosure at happly
  split at happly
  · replace happly : evalBody ev (s.push (.ofCall outer params args)).1 (es ++ [e])
        (s.push (.ofCall outer params args)).2 = some (.ok w, t') := happly
    by_cases hnil : es = []
    · subst hnil
      cases hes
      rw [List.nil_append, evalBody, he] at happly
      cases happly
      rfl
    · rw [evalBody_append ev _ hnil (List.cons_ne_nil _ _), Run.bind_of_ok hes, evalBody, he]
        at happly
      cases happly
      rfl
  · cases happly

theorem Copy.eq {v w : Value} (h : Copy v w) : w = v := by
  induction h with
  | self => rfl
  | defined _ he hdef hsym ih =>
    rw [eval_define, Run.bind_of_ok he] at hdef
    cases hdef
    exact (State.resolve_define_self (eval_sym hsym)).trans ih
  | @passed n i params args name u w outer s t _ hname hu hlast hsym ih =>
    have hw := s.resolve_push_ofCall outer hname hu hlast
    rw [eval_sym hsym] at hw
    exact (Option.some.inj hw).trans ih
  | @put u l w ws _ hcons hw ih =>
    cases l with
    | nil =>
      cases hcons
      exact (Option.some.inj hw).symm.trans ih
    | list us =>
      cases hcons
      exact (Option.some.inj hw).symm.trans ih
    | _ => cases hcons
  | kept _ hu hcons hw ih =>
    cases hcons
    exact (Option.some.inj (hw.symm.trans hu)).trans ih
  | @first u w us _ hu hfirst ih =>
    rcases us with _ | ⟨u', us⟩
    · cases hu
    · cases hu
      cases hfirst
      exact ih
  | @next i u w us ws _ hu hnext hw ih =>
    rcases us with _ | ⟨u', _ | ⟨u'', us⟩⟩
    · cases hu
    · cases hu
    · cases hnext
      exact (Option.some.inj (hw.symm.trans hu)).trans ih
  | returned _ hes he happly ih => exact (applyClosure_append hes he happly).trans ih
  | @called depth head f u w operands args env s s₁ s₂ s₃ t _ hhead hf hargs happly hcall ih =>
    rw [eval, evalStep_call _ hhead, Run.bind_of_ok hf] at hcall
    split at hcall
    · rw [Run.bind_of_ok hargs, happly] at hcall
      cases hcall
      exact ih
    · cases hcall

end SmallLisp
