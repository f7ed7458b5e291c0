import SmallLisp.Value.Basic

/-!
# Environments and the state of a run

An environment is the number of a frame, and a frame holds bindings and perhaps an outer
environment, where the search for a name goes on. Frames are never removed and their outer links
never change, so an environment that a closure has captured sees every later definition. The
state holds, beside the frames, how many closures were made, which is the identity of the next
one, and the text printed so far.
-/

namespace SmallLisp

/-- Bindings in the order of their first definition, with at most one for a name. -/
abbrev Bindings := List (String × Value)

/-- Binds a name, in place of an earlier binding of it. -/
def Bindings.insert (name : String) (v : Value) : Bindings → Bindings
  | [] => [(name, v)]
  | (n, w) :: bs => if n = name then (name, v) :: bs else (n, w) :: insert name v bs

theorem Bindings.lookup_insert (name other : String) (v : Value) (bs : Bindings) :
    (insert name v bs).lookup other = if other = name then some v else bs.lookup other := by
  induction bs with
  | nil =>
    by_cases h : other = name
    · simp [insert, h]
    · simp [insert, List.lookup_cons, h, beq_false_of_ne h]
  | cons b bs ih =>
    obtain ⟨n, w⟩ := b
    by_cases h : n = name
    · subst h
      by_cases h' : other = n
      · simp [insert, h']
      · simp [insert, List.lookup_cons, h', beq_false_of_ne h']
    · simp only [insert, h, if_false, List.lookup_cons, ih]
      by_cases h' : other = n
      · subst h'; simp [h]
      · simp [beq_false_of_ne h']

structure Frame where
  bindings : Bindings
  outer : Option Env

namespace Frame

def get? (f : Frame) (name : String) : Option Value := f.bindings.lookup name

def insert (f : Frame) (name : String) (v : Value) : Frame :=
  { f with bindings := f.bindings.insert name v }

theorem get?_insert (f : Frame) (name other : String) (v : Value) :
    (f.insert name v).get? other = if other = name then some v else f.get? other :=
  Bindings.lookup_insert name other v f.bindings

/-- The text for a frame with so many bindings, which has an outer one or not. -/
def summary (bindings : Nat) (enclosed : Bool) : String :=
  "Environment \x7b bindings: " ++ bindings.repr ++ ", enclosed: " ++
    (if enclosed then "true" else "false") ++ " \x7d"

/-- What is shown of a frame to find faults. -/
def shown (f : Frame) : String := summary f.bindings.length f.outer.isSome

/-- The frame of a call: the parameters bound to the arguments, a later one of the same name in
place of an earlier. -/
def ofCall (outer : Env) (params : List String) (args : List Value) : Frame :=
  (params.zip args).foldl (fun f (name, v) => f.insert name v) ⟨[], some outer⟩

/-- The built-in functions, and the name `nil`. -/
def library : Frame :=
  ⟨Builtin.all.map (fun b => (b.name, .builtin b)) ++ [("nil", .nil)], none⟩

end Frame

structure State where
  frames : Array Frame
  closures : Nat
  output : String

namespace State

def empty : State := ⟨#[], 0, ""⟩

def frame? (s : State) (env : Env) : Option Frame := s.frames[env.index]?

/-- Adds a frame and gives its environment. -/
def push (s : State) (f : Frame) : Env × State :=
  (⟨s.frames.size⟩, { s with frames := s.frames.push f })

/-- Binds a name in the frame of an environment, and in no other. -/
def define (s : State) (env : Env) (name : String) (v : Value) : State :=
  { s with frames := s.frames.modify env.index (·.insert name v) }

theorem frame?_push (s : State) (f : Frame) (env : Env) :
    (s.push f).2.frame? env = if env = (s.push f).1 then some f else s.frame? env := by
  obtain ⟨i⟩ := env
  simp only [frame?, push, Array.getElem?_push, Env.mk.injEq]

theorem frame?_define (s : State) (env other : Env) (name : String) (v : Value) :
    (s.define env name v).frame? other =
      if other = env then (s.frame? other).map (·.insert name v) else s.frame? other := by
  obtain ⟨i⟩ := env
  obtain ⟨j⟩ := other
  simp only [frame?, define, Array.getElem?_modify, Env.mk.injEq, eq_comm (a := j)]

/-- At most `fuel` environments, from one outwards. -/
def chainOf (s : State) : Nat → Env → List Env
  | 0, _ => []
  | fuel + 1, env =>
    match s.frame? env with
    | none => []
    | some ⟨_, none⟩ => [env]
    | some ⟨_, some outer⟩ => env :: chainOf s fuel outer

/-- The environments from one outwards. A frame is made after its outer one and so has a greater
number, which bounds their count. -/
def chain (s : State) (env : Env) : List Env := s.chainOf (env.index + 1) env

/-- The value of a name in the nearest frame that binds it. -/
def resolve (s : State) (env : Env) (name : String) : Option Value :=
  (s.chain env).findSome? fun e => (s.frame? e).bind (·.get? name)

def print (s : State) (text : String) : State := { s with output := s.output ++ text }

/-- Adds the frame of a fresh global environment, which shares nothing with any other. -/
def pushGlobal (s : State) : Env × State := s.push Frame.library

/-- The text printed so far, and the state without it. -/
def takeOutput (s : State) : String × State := (s.output, { s with output := "" })

end State

end SmallLisp
