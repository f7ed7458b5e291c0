import SmallLisp.Proofs.Grammar

/-!
# Which error is reported

The reader's recursion remembers the constructs that were begun and not completed. Here they are
kept on a stack instead: items are taken one by one (`Pending.step`), and the first one that does
not fit is reported, or else what is on top of the stack at the end (`Pending.atEnd`). A reading
consumes items just so (`Consumes`), and reports the same (`readProgram_outcome`).
-/

namespace SmallLisp.Reader

/-- What was begun: a list, with the offset of its parenthesis, or a quote that awaits its value. -/
inductive Pending where
  | list (start : Nat)
  | quote
  deriving DecidableEq

namespace Pending

/-- What is still pending after a value, which completes the quotes on top. -/
def complete : List Pending → List Pending
  | quote :: stack => complete stack
  | stack => stack

/-- What is pending after an item, or the error if the item does not fit. -/
def step (stack : List Pending) : Item → Except ReadError (List Pending)
  | .error f => .error (.lexical f)
  | .ok t =>
    match t.val, stack with
    | .opening, _ => .ok (list t.start :: stack)
    | .quote, _ => .ok (quote :: stack)
    | .closing, list _ :: outer => .ok (complete outer)
    | .closing, _ => .error (.unexpectedToken t)
    | _, _ => .ok (complete stack)

/-- Nothing may be pending after the last item. -/
def atEnd : List Pending → Except ReadError Unit
  | [] => .ok ()
  | quote :: _ => .error .prematureEnd
  | list start :: _ => .error (.unterminatedList start)

/-- The outcome of reading on from some items. -/
def outcome (stack : List Pending) (items : List Item) : Except ReadError Unit :=
  items.foldlM step stack >>= atEnd

theorem outcome_cons (stack : List Pending) (i : Item) (items : List Item) :
    outcome stack (i :: items) = step stack i >>= fun stack => outcome stack items := by
  rw [outcome, List.foldlM_cons, bind_assoc]
  rfl

theorem outcome_of_step_error {stack : List Pending} {i : Item} {e : ReadError}
    (h : step stack i = .error e) (items : List Item) : outcome stack (i :: items) = .error e := by
  rw [outcome_cons, h]
  rfl

/-! ## Steps on a token -/

section Token

variable {t : Located Token} (stack : List Pending)

theorem step_opening (h : t.val = .opening) : step stack (.ok t) = .ok (list t.start :: stack) := by
  simp only [step, h]

theorem step_quote (h : t.val = .quote) : step stack (.ok t) = .ok (quote :: stack) := by
  simp only [step, h]

theorem step_closing (h : t.val = .closing) (start : Nat) :
    step (list start :: stack) (.ok t) = .ok (complete stack) := by
  simp only [step, h]

theorem step_closing_error (h : t.val = .closing)
    (hstack : ∀ start, some (list start) ≠ stack.head?) :
    step stack (.ok t) = .error (.unexpectedToken t) := by
  rcases stack with _ | ⟨start | _, outer⟩
  · simp only [step, h]
  · exact (hstack start rfl).elim
  · simp only [step, h]

theorem step_atom {v : Value} (h : t.val.atom? = some v) :
    step stack (.ok t) = .ok (complete stack) := by
  obtain ⟨token, start, stop⟩ := t
  cases token <;> first | rfl | cases h

end Token

end Pending

open Pending

/-! ## The reader and the stack -/

/-- From `stack` a reading takes these items, with `rest` after them. If it has a value, `done` is
pending then. If not, the last of them is the first item that does not fit, or nothing is left and
something is still pending. -/
inductive Consumes {α : Type} (stack done : List Pending) :
    List Item → Except ReadError α → List Item → Prop where
  | value {taken rest : List Item} {a : α} : taken.foldlM step stack = .ok done →
      Consumes stack done taken (.ok a) rest
  | unfit {before rest : List Item} {i : Item} {stack' : List Pending} {e : ReadError} :
      before.foldlM step stack = .ok stack' → step stack' i = .error e →
      Consumes stack done (before ++ [i]) (.error e) rest
  | ended {taken : List Item} {stack' : List Pending} {e : ReadError} :
      taken.foldlM step stack = .ok stack' → atEnd stack' = .error e →
      Consumes stack done taken (.error e) []

namespace Consumes

variable {α β : Type} {stack done : List Pending} {taken rest : List Item}

/-- What is pending after a value does not matter for an error. -/
theorem of_error {e : ReadError} (h : Consumes (α := α) stack done taken (.error e) rest)
    (done' : List Pending) : Consumes (α := β) stack done' taken (.error e) rest := by
  cases h with
  | unfit hbefore hi => exact .unfit hbefore hi
  | ended htaken hend => exact .ended htaken hend

theorem append {stack' : List Pending} {before : List Item} {r : Except ReadError α}
    (hbefore : before.foldlM step stack = .ok stack') (h : Consumes stack' done taken r rest) :
    Consumes stack done (before ++ taken) r rest := by
  have hfold (more : List Item) : (before ++ more).foldlM step stack = more.foldlM step stack' := by
    rw [List.foldlM_append, hbefore]
    rfl
  cases h with
  | value htaken => exact .value ((hfold _).trans htaken)
  | unfit hmore hi =>
    rw [← List.append_assoc]
    exact .unfit ((hfold _).trans hmore) hi
  | ended htaken hend => exact .ended ((hfold _).trans htaken) hend

theorem of_step_error {i : Item} {e : ReadError} (h : step stack i = .error e) :
    Consumes (α := α) stack done [i] (.error e) rest := by
  rw [← List.nil_append [i]]
  exact .unfit rfl h

theorem foldlM_singleton {stack' : List Pending} {i : Item} (hi : step stack i = .ok stack') :
    [i].foldlM step stack = .ok stack' := by
  rw [List.foldlM_cons, hi]
  rfl

theorem cons {stack' : List Pending} {i : Item} {r : Except ReadError α}
    (hi : step stack i = .ok stack') (h : Consumes stack' done taken r rest) :
    Consumes stack done (i :: taken) r rest :=
  h.append (foldlM_singleton hi)

theorem outcome_eq {r : Except ReadError α} (h : Consumes stack done taken r rest) :
    outcome stack (taken ++ rest) = r.bind fun _ => outcome done rest := by
  cases h with
  | value htaken =>
    rw [outcome, List.foldlM_append, htaken]
    rfl
  | @unfit before _ i _ e hbefore hi =>
    rw [outcome, List.append_assoc, List.foldlM_append, hbefore]
    exact outcome_of_step_error hi rest
  | ended htaken hend =>
    rw [List.append_nil, outcome, htaken]
    exact hend

end Consumes

/-- The reading takes the first of the items, up to those that it leaves. -/
def Reading.Consumes {bound : List Item} (r : Reading Value bound) (stack done : List Pending)
    (items : List Item) : Prop :=
  ∃ taken, items = taken ++ r.rest ∧ Reader.Consumes stack done taken r.result r.rest

mutual

theorem readFrom_consumes {bound items : List Item} {t : Located Token}
    (h : items.length ≤ bound.length) (stack : List Pending)
    (hclose : t.val = .closing → ∀ start, some (list start) ≠ stack.head?) :
    (readFrom bound t items h).Consumes stack (complete stack) (.ok t :: items) := by
  cases hatom : t.val.atom? with
  | some v =>
    rw [readFrom_atom _ _ _ hatom]
    exact ⟨[.ok t], rfl, .value (Consumes.foldlM_singleton (step_atom stack hatom))⟩
  | none =>
    cases hk : t.val with
    | opening =>
      rw [readFrom_opening _ _ _ hk]
      obtain ⟨taken, htaken, ih⟩ := readElements_consumes h stack t.start []
      exact ⟨.ok t :: taken, congrArg (_ :: ·) htaken, ih.cons (step_opening stack hk)⟩
    | closing =>
      rw [readFrom, hk]
      exact ⟨[.ok t], rfl, .of_step_error (step_closing_error stack hk (hclose hk))⟩
    | quote =>
      rw [readFrom, hk]
      have ih := readValue_consumes h stack
      generalize readValue bound items h = r at ih ⊢
      obtain ⟨e | v, rest, h'⟩ := r
      · obtain ⟨taken, htaken, ih⟩ := ih
        exact ⟨.ok t :: taken, congrArg (_ :: ·) htaken,
          (ih.of_error _).cons (step_quote stack hk)⟩
      · obtain ⟨taken, htaken, ih⟩ := ih
        cases ih with
        | value hfold =>
          exact ⟨.ok t :: taken, congrArg (_ :: ·) htaken,
            .cons (step_quote stack hk) (.value hfold)⟩
    | _ => rw [hk] at hatom; cases hatom
termination_by 2 * items.length + 1

theorem readValue_consumes {bound items : List Item} (h : items.length ≤ bound.length)
    (stack : List Pending) :
    (readValue bound items h).Consumes (.quote :: stack) (complete stack) items := by
  match items with
  | [] =>
    rw [readValue]
    exact ⟨[], rfl, .ended rfl rfl⟩
  | .error f :: items =>
    rw [readValue]
    exact ⟨[.error f], rfl, .of_step_error rfl⟩
  | .ok t :: items =>
    rw [readValue]
    exact readFrom_consumes _ (.quote :: stack) fun _ _ => by simp
termination_by 2 * items.length

theorem readElements_consumes {bound items : List Item} (h : items.length ≤ bound.length)
    (stack : List Pending) (start : Nat) (elements : List Value) :
    (readElements bound start elements items h).Consumes (.list start :: stack) (complete stack)
      items := by
  match items with
  | [] =>
    rw [readElements]
    exact ⟨[], rfl, .ended rfl rfl⟩
  | .error f :: items =>
    rw [readElements]
    exact ⟨[.error f], rfl, .of_step_error rfl⟩
  | .ok t :: items =>
    rw [readElements]
    split
    case isTrue hk =>
      exact ⟨[.ok t], rfl, .value (Consumes.foldlM_singleton (step_closing stack hk start))⟩
    case isFalse hk =>
      have ih := readFrom_consumes (Nat.le_refl items.length) (.list start :: stack)
        fun hk' => (hk hk').elim
      split
      case h_1 v rest h' hread =>
        rw [hread] at ih
        obtain ⟨taken, htaken, ih⟩ := ih
        obtain ⟨more, hmore, ih'⟩ := readElements_consumes (Nat.le_trans h' (Nat.le_of_succ_le h))
          stack start (v :: elements)
        cases ih with
        | value hfold =>
          refine ⟨taken ++ more, ?_, ih'.append hfold⟩
          rw [htaken, List.append_assoc]
          exact congrArg (taken ++ ·) hmore
      case h_2 e rest h' hread =>
        rw [hread] at ih
        obtain ⟨taken, htaken, ih⟩ := ih
        exact ⟨taken, htaken, ih.of_error _⟩
termination_by 2 * items.length

end

/-- The reader goes through the items as the stack does. -/
theorem readForms_consumes (forms : List Value) (items : List Item) :
    ∃ taken, items = taken ++ (readForms forms items).2 ∧
      Consumes [] [] taken (readForms forms items).1 (readForms forms items).2 := by
  fun_induction readForms forms items with
  | case1 forms => exact ⟨[], rfl, .value rfl⟩
  | case2 forms f rest => exact ⟨[.error f], rfl, .of_step_error rfl⟩
  | case3 forms t rest v rest' h hread ih =>
    obtain ⟨taken, htaken, hfirst⟩ := readFrom_consumes (t := t) (Nat.le_refl rest.length) []
      fun _ _ => by simp
    rw [hread] at htaken hfirst
    obtain ⟨more, hmore, ih⟩ := ih
    cases hfirst with
    | value hfold =>
      refine ⟨taken ++ more, ?_, ih.append hfold⟩
      rw [htaken, List.append_assoc]
      exact congrArg (taken ++ ·) hmore
  | case4 forms t rest e rest' h hread =>
    obtain ⟨taken, htaken, hfirst⟩ := readFrom_consumes (t := t) (Nat.le_refl rest.length) []
      fun _ _ => by simp
    rw [hread] at htaken hfirst
    exact ⟨taken, htaken, hfirst.of_error _⟩

/-- Reading stops before the end only with an error. -/
theorem snd_readForms_of_ok {forms vs : List Value} {items : List Item}
    (h : (readForms forms items).1 = .ok vs) : (readForms forms items).2 = [] := by
  fun_induction readForms forms items with
  | case1 => rfl
  | case2 | case4 => cases h
  | case3 forms t rest v rest' _ _ ih => exact ih h

/-- The reader fails where the stack says so, and with the same error. -/
theorem readForms_outcome (forms : List Value) (items : List Item) :
    (readForms forms items).1.map (fun _ => ()) = outcome [] items := by
  obtain ⟨taken, htaken, h⟩ := readForms_consumes forms items
  have houtcome := h.outcome_eq
  rw [← htaken] at houtcome
  rw [houtcome]
  cases hresult : (readForms forms items).1 with
  | error e => rfl
  | ok vs =>
    rw [snd_readForms_of_ok hresult]
    rfl

theorem readProgram_outcome (items : List Item) :
    (readProgram items).1.map (fun _ => ()) = outcome [] items :=
  readForms_outcome [] items

theorem map_unit_eq_error_iff {ε α : Type} {x : Except ε α} {e : ε} :
    x.map (fun _ => ()) = .error e ↔ x = .error e := by
  cases x <;> simp [Except.map]

/-- Whether a source reads as forms, and with which error it does not, is what its items come to on
the stack of pending constructs. The first item that does not fit is decisive: the same is reported
whatever follows it. -/
theorem reported_error (source : String) :
    (parse source).map (fun _ => ()) = outcome [] (items source) ∧
    ∀ before e, before.foldlM step [] = .error e →
      ∀ after, (readProgram (before ++ after)).1 = .error e := by
  refine ⟨readProgram_outcome (items source), fun before e he after => ?_⟩
  rw [← map_unit_eq_error_iff, readProgram_outcome, outcome, List.foldlM_append, he]
  rfl

example : outcome [] (items "(f '(1 ') \"") = .error (.unexpectedToken ⟨.closing, 8, 9⟩) := by cbv

end SmallLisp.Reader
