import SmallLisp.Proofs.Discipline

/-!
# Code without closures

Where there are no closures, and the expression has no form that makes one, evaluation only goes on
to parts of the expression: data is never evaluated, and no function has a body. So the nesting of
the expression bounds the depth of its evaluation (`plain_ends`).
-/

namespace SmallLisp

namespace Value

/-- No closure is in the value, and no list that is headed by `fn` or `defn`, at any depth. -/
inductive Plain : Value → Prop where
  | atomic {v : Value} : v.atomic = true → Plain v
  | list {vs : List Value} : vs.head? ≠ some (.sym "fn") → vs.head? ≠ some (.sym "defn") →
      (∀ v ∈ vs, Plain v) → Plain (.list vs)

mutual

/-- The greatest number of lists of the value that are inside one another. -/
def nesting : Value → Nat
  | .list vs => nestingAll vs + 1
  | _ => 0

def nestingAll : List Value → Nat
  | [] => 0
  | v :: vs => max (nesting v) (nestingAll vs)

end

theorem nesting_le_nestingAll {vs : List Value} {v : Value} (h : v ∈ vs) :
    v.nesting ≤ nestingAll vs := by
  induction vs with
  | nil => cases h
  | cons w vs ih =>
    rw [nestingAll]
    rcases List.mem_cons.1 h with rfl | h
    · exact Nat.le_max_left ..
    · exact Nat.le_trans (ih h) (Nat.le_max_right ..)

theorem plain_list {vs : List Value} : (list vs).Plain ↔
    vs.head? ≠ some (.sym "fn") ∧ vs.head? ≠ some (.sym "defn") ∧ ∀ v ∈ vs, v.Plain := by
  constructor
  · rintro (h | ⟨hfn, hdefn, hvs⟩)
    · cases h
    · exact ⟨hfn, hdefn, hvs⟩
  · rintro ⟨hfn, hdefn, hvs⟩
    exact .list hfn hdefn hvs

theorem Plain.sound {p : Closure → Prop} {v : Value} (h : v.Plain) : v.Sound p := by
  induction h with
  | atomic h => exact .of_atomic h
  | list _ _ _ ih => exact sound_list.2 ih

theorem Plain.not_makes {e : Value} (h : e.Plain) {name : Option String} {params : List String}
    {body : List Value} : ¬ e.Makes name params body := by
  intro hmakes
  cases hmakes with
  | lambda => exact (plain_list.1 h).1 rfl
  | defineFn => exact (plain_list.1 h).2.1 rfl

/-- The value is plain, and nested less than `n` deep. -/
def PlainBelow (n : Nat) (v : Value) : Prop := v.Plain ∧ v.nesting < n

theorem PlainBelow.element {n : Nat} {vs : List Value} (h : (list vs).PlainBelow (n + 1))
    {v : Value} (hv : v ∈ vs) : v.PlainBelow n :=
  ⟨(plain_list.1 h.1).2.2 v hv,
    Nat.lt_of_le_of_lt (nesting_le_nestingAll hv) (Nat.lt_of_succ_lt_succ h.2)⟩

theorem PlainBelow.mono {m n : Nat} {v : Value} (h : v.PlainBelow m) (hmn : m ≤ n) :
    v.PlainBelow n :=
  ⟨h.1, Nat.lt_of_lt_of_le h.2 hmn⟩

theorem PlainBelow.pos {n : Nat} {v : Value} (h : v.PlainBelow n) : 0 < n :=
  Nat.zero_lt_of_lt h.2

/-- An operand is deeper inside, that of a `let` even three levels. -/
theorem Operand.plainBelow {n : Nat} {e e' : Value} (h : e.Operand e')
    (he : e.PlainBelow (n + 1)) : e'.PlainBelow n := by
  cases h with
  | @bind _ _ bindings _ hmem =>
    have hbindings : (list bindings).PlainBelow n := he.element (by simp)
    obtain ⟨m, rfl⟩ := Nat.exists_eq_succ_of_ne_zero hbindings.pos.ne'
    have hpair := hbindings.element hmem
    obtain ⟨k, rfl⟩ := Nat.exists_eq_succ_of_ne_zero hpair.pos.ne'
    exact (hpair.element (by simp)).mono (by omega)
  | _ => exact he.element (by simp [*])

end Value

/-- There are no closures, and the code is nested less deep than the evaluation may go. -/
def closureFree : Discipline where
  closure _ _ := False
  code n _ _ e := e.PlainBelow n
  body n _ _ es _ := ∀ e ∈ es, e.PlainBelow n
  unbound := True
  endless := False
  closure_mono _ hc := hc
  code_mono _ he := he
  body_mono _ hes := hes
  code_zero he := absurd he.2 (Nat.not_lt_zero _)
  code_operand he hop := hop.plainBelow he
  body_of_bind he _ e hmem := he.element (by simp [hmem])
  body_of_closure hc := hc.elim
  lookup _ _ := trivial
  enter hes _ := hes
  make he hmakes := he.1.not_makes hmakes

/-- From an environment that leads to no closure, evaluation of a plain expression ends, with the
same outcome at each depth that is greater than its nesting. Afterwards neither the outcome nor the
environment leads to a closure. -/
theorem plain_ends {s : State} {env : Env} {v : Value} (hv : v.Plain)
    (hreach : ∀ c, ¬ s.Leads [] env (.inr c)) :
    ∃ r s', (∀ depth, v.nesting < depth → eval depth v env s = some (r, s')) ∧
      ∀ c, ¬ s'.Leads (returned r) env (.inr c) := by
  have hcode : closureFree.code (v.nesting + 1) s env v := ⟨hv, Nat.lt_succ_self _⟩
  have hnone (c : Closure) (hc : s.Leads [v] env (.inr c)) : False :=
    hreach c (hc.of_held (List.forall_mem_singleton.2 hv.sound))
  obtain ⟨hends, hkeeps⟩ := closureFree.eval_keeps hcode hnone
  obtain ⟨⟨r, s'⟩, hr⟩ := Option.ne_none_iff_exists'.1 hends
  refine ⟨r, s', fun depth hdepth => eval_le_eval hdepth v env s _ hr, fun c hc => ?_⟩
  exact (hkeeps r s' hr).2 c (hc.of_held fun w hw c hc => .held (List.mem_cons_of_mem _ hw) hc)

/-- The environment has the library, and binds `code` to the list `(fn () code)`, which is not
evaluated by `(let ((x (+ 1 2))) (do (def y x) (if (and y code) (cons y code) nil)))`. -/
theorem plain_ends_data :
    let code : Value := .list [.sym "fn", .list [], .sym "code"]
    let v : Value := .list [.sym "let", .list [.list [.sym "x", .list [.sym "+", .int 1, .int 2]]],
      .list [.sym "do", .list [.sym "def", .sym "y", .sym "x"],
        .list [.sym "if", .list [.sym "and", .sym "y", .sym "code"],
          .list [.sym "cons", .sym "y", .sym "code"], .sym "nil"]]]
    let s : State := ⟨#[Frame.library.insert "code" code], 0, ""⟩
    let w : Value := .list [.int 3, .sym "fn", .list [], .sym "code"]
    v.Plain ∧ (∀ c, ¬ s.Leads [] ⟨0⟩ (.inr c)) ∧ v.nesting = 4 ∧
      ∃ s', (∀ depth, 4 < depth → eval depth v ⟨0⟩ s = some (.ok w, s')) ∧
        ∀ c, ¬ s'.Leads [w] ⟨0⟩ (.inr c) := by
  intro code v s w
  have hsym (name : String) : (Value.sym name).Plain := .atomic rfl
  have hint (n : Int64) : (Value.int n).Plain := .atomic rfl
  have hv : v.Plain := by simp [v, Value.plain_list, hsym, hint]
  let p : Closure → Prop := fun _ => False
  have hcode : code.Sound p := by
    have hsym (name : String) : (Value.sym name).Sound p := .of_atomic rfl
    simp [code, Value.sound_list, hsym]
  have hwithin : s.Within (· = ⟨0⟩) p := by
    rintro env g hg rfl
    cases hg
    exact Frame.Within.insert ⟨fun _ h => (by cases h), Session.sound_library⟩ "code" hcode
  have hreach (c : Closure) (hc : s.Leads [] ⟨0⟩ (.inr c)) : False :=
    hwithin.of_leads (fun _ => False.elim) (List.forall_mem_nil _) rfl hc
  obtain ⟨r, s', hends, hfree⟩ := plain_ends hv hreach
  have hr : eval 5 v ⟨0⟩ s = some (.ok w, _) := rfl
  cases (hends 5 (by decide)).symm.trans hr
  exact ⟨hv, hreach, rfl, _, hends, hfree⟩

end SmallLisp
