import SmallLisp.Error
import SmallLisp.State

/-!
# Runs

A run starts in a state. It ends with a value or an error, in either case in a new state, or it
has no end within the depth that it was given: then there is no outcome, which is not an error.
-/

namespace SmallLisp

def Run (ε α : Type) : Type := State → Option (Except ε α × State)

/-- A run that can end with an evaluation error. -/
abbrev Eval := Run EvalError

namespace Run

variable {ε ε' α β : Type}

@[inline] protected def pure (a : α) : Run ε α := fun s => some (.ok a, s)

@[inline] protected def bind (x : Run ε α) (f : α → Run ε β) : Run ε β := fun s =>
  match x s with
  | some (.ok a, s') => f a s'
  | some (.error e, s') => some (.error e, s')
  | none => none

instance : Monad (Run ε) where
  pure := Run.pure
  bind := Run.bind

instance : LawfulMonad (Run ε) := .mk' _
  (fun x => by
    funext s
    change Run.bind x Run.pure s = x s
    rw [Run.bind]
    cases x s with
    | none => rfl
    | some p => obtain ⟨_ | _, _⟩ := p <;> rfl)
  (fun _ _ => rfl)
  (fun x f g => by
    funext s
    change Run.bind (Run.bind x f) g s = Run.bind x (fun a => Run.bind (f a) g) s
    rw [Run.bind, Run.bind, Run.bind]
    cases x s with
    | none => rfl
    | some p => obtain ⟨_ | _, _⟩ := p <;> rfl)

section Bind

variable {x : Run ε α} {f : α → Run ε β} {s s' : State}

theorem bind_of_ok {a : α} (h : x s = some (.ok a, s')) : (x >>= f) s = f a s' := by
  simp only [Bind.bind, Run.bind, h]

theorem bind_of_error {e : ε} (h : x s = some (.error e, s')) :
    (x >>= f) s = some (.error e, s') := by
  simp only [Bind.bind, Run.bind, h]

theorem bind_of_none (h : x s = none) : (x >>= f) s = none := by
  simp only [Bind.bind, Run.bind, h]

/-- A sequence ends where its first part fails, or where its second part ends. -/
theorem bind_eq_some {p : Except ε β × State} (h : (x >>= f) s = some p) :
    (∃ e s', x s = some (.error e, s') ∧ p = (.error e, s')) ∨
      ∃ a s', x s = some (.ok a, s') ∧ f a s' = some p := by
  cases hx : x s with
  | none =>
    rw [bind_of_none hx] at h
    cases h
  | some q =>
    obtain ⟨e | a, s'⟩ := q
    · rw [bind_of_error hx] at h
      cases h
      exact .inl ⟨e, s', rfl, rfl⟩
    · rw [bind_of_ok hx] at h
      exact .inr ⟨a, s', rfl, h⟩

theorem bind_congr_left {y : Run ε α} (h : x s = y s) (f : α → Run ε β) :
    (x >>= f) s = (y >>= f) s := by
  simp only [Bind.bind, Run.bind, h]

/-- What gives back what it is given changes no outcome. -/
theorem bind_eq_self {f : α → Run ε α}
    (h : ∀ a s', x s = some (.ok a, s') → f a s' = some (.ok a, s')) : (x >>= f) s = x s := by
  cases hx : x s with
  | none => exact bind_of_none hx
  | some p =>
    obtain ⟨e | a, s'⟩ := p
    · exact bind_of_error hx
    · exact (bind_of_ok hx).trans (h a s' hx)

end Bind

@[inline] def fail (e : ε) : Run ε α := fun s => some (.error e, s)

/-- The run has no end. -/
@[inline] def endless : Run ε α := fun _ => none

@[inline] def ofExcept : Except ε α → Run ε α
  | .ok a => Run.pure a
  | .error e => fail e

/-- Reads something off the state. -/
@[inline] def read (f : State → α) : Run ε α := fun s => some (.ok (f s), s)

@[inline] def modify (f : State → State) : Run ε Unit := fun s => some (.ok (), f s)

/-- Changes the state and keeps something of it. -/
@[inline] def update (f : State → α × State) : Run ε α := fun s =>
  let (a, s') := f s
  some (.ok a, s')

@[inline] def mapError (g : ε → ε') (x : Run ε α) : Run ε' α := fun s =>
  match x s with
  | some (.ok a, s') => some (.ok a, s')
  | some (.error e, s') => some (.error (g e), s')
  | none => none

theorem mapError_bind (g : ε → ε') (x : Run ε α) (f : α → Run ε β) :
    (x >>= f).mapError g = x.mapError g >>= fun a => (f a).mapError g := by
  funext s
  change Run.mapError g (Run.bind x f) s =
    Run.bind (Run.mapError g x) (fun a => Run.mapError g (f a)) s
  rw [mapError, Run.bind, Run.bind, mapError]
  cases x s with
  | none => rfl
  | some p => obtain ⟨_ | _, _⟩ := p <;> rfl

end Run

end SmallLisp
