import Mathlib.Data.List.Dedup
import SmallLisp.Proofs.Heap

/-!
# Environments and their history

A program that works with environments makes new ones, shares those that it holds, binds names in
them and resolves names. What they answer can be told from the history of these operations alone:
the value of a name is the one that the most recent definition gave to it on the nearest frame where
it was ever defined (`History.IsValue`). The tables of the state keep just enough of the history for
this (`Reflects`), and so every answer is the one that the history tells
(`resolve_refines_history`).
-/

namespace SmallLisp

/-- An operation on environments. Those that the program holds have numbers in the order in which it
got them, and several numbers may stand for one environment. -/
inductive EnvOp where
  /-- A new environment, perhaps enclosed in another one. -/
  | create (outer : Option Nat)
  /-- The same environment under one more number. -/
  | share (held : Nat)
  | define (held : Nat) (name : String) (v : Value)
  | resolve (held : Nat) (name : String)

/-- The environment that an operation is on. -/
def EnvOp.on : EnvOp → Option Nat
  | create outer => outer
  | share i | define i _ _ | resolve i _ => some i

/-- A program that works with environments: the state, the environments that it holds, and what
it got for the names that it resolved, the latest first. -/
structure Holder where
  state : State
  held : List Env
  answers : List (Option Value)

namespace Holder

def start : Holder := ⟨.empty, [], []⟩

/-- Adds a frame, and holds its environment. -/
def make (h : Holder) (outer : Option Env) : Holder :=
  let (env, s) := h.state.push ⟨[], outer⟩
  { h with state := s, held := h.held ++ [env] }

/-- An operation, on environments that the program holds. -/
def perform (h : Holder) : EnvOp → Option Holder
  | .create none => some (h.make none)
  | .create (some i) => h.held[i]?.map fun outer => h.make (some outer)
  | .share i => h.held[i]?.map fun env => { h with held := h.held ++ [env] }
  | .define i name v => h.held[i]?.map fun env => { h with state := h.state.define env name v }
  | .resolve i name =>
    h.held[i]?.map fun env => { h with answers := h.state.resolve env name :: h.answers }

end Holder

/-! ## What a history tells -/

/-- Operations, the latest first. -/
abbrev History := List EnvOp

namespace History

/-- The program that has performed these operations, if it held all the environments that they are
on. -/
def holder : History → Option Holder
  | [] => some .start
  | op :: earlier => (holder earlier).bind (·.perform op)

/-- The number of environments that the program holds. -/
def held : History → Nat
  | [] => 0
  | .create _ :: earlier | .share _ :: earlier => held earlier + 1
  | _ :: earlier => held earlier

/-- Every operation is on an environment that the program holds at that time. -/
def Performable : History → Prop
  | [] => True
  | op :: earlier => (∀ i, op.on = some i → i < held earlier) ∧ Performable earlier

/-- The number of frames. -/
def frames : History → Nat
  | [] => 0
  | .create _ :: earlier => frames earlier + 1
  | _ :: earlier => frames earlier

/-- The number of the frame that an environment of the program stands for. -/
def frameOf : History → Nat → Option Nat
  | [], _ => none
  | .create _ :: earlier, i => if i = held earlier then some (frames earlier) else frameOf earlier i
  | .share j :: earlier, i => if i = held earlier then frameOf earlier j else frameOf earlier i
  | _ :: earlier, i => frameOf earlier i

/-- The frames from one outwards. -/
def path : History → Nat → List Nat
  | [], _ => []
  | .create outer :: earlier, k =>
    if k = frames earlier then
      k :: (outer.bind (frameOf earlier)).elim [] (path earlier)
    else path earlier k
  | _ :: earlier, k => path earlier k

/-- The name was never defined on the frame, through whatever environment. -/
def NeverDefined (history : History) (k : Nat) (name : String) : Prop :=
  ∀ i v, .define i name v ∈ history → history.frameOf i ≠ some k

/-- A definition of the name on the frame gave it the value, and it was not defined there later. -/
def MostRecent (history : History) (k : Nat) (name : String) (v : Value) : Prop :=
  ∃ later i earlier, history = later ++ .define i name v :: earlier ∧
    history.frameOf i = some k ∧ ∀ j w, .define j name w ∈ later → history.frameOf j ≠ some k

/-- The names ever defined on the frame, through whatever environment, each of them once. -/
def names (history : History) (k : Nat) : List String :=
  (history.filterMap fun
    | .define i name _ => if history.frameOf i = some k then some name else none
    | _ => none).dedup

/-- What a name stands for on a path of frames: its most recent value on the nearest of them where
it was ever defined, and nothing if there is none. -/
inductive IsValue (history : History) (name : String) : List Nat → Option Value → Prop where
  | unbound : IsValue history name [] none
  | bound {k : Nat} {path : List Nat} {v : Value} : history.MostRecent k name v →
      IsValue history name (k :: path) (some v)
  | outer {k : Nat} {path : List Nat} {result : Option Value} : history.NeverDefined k name →
      IsValue history name path result → IsValue history name (k :: path) result

/-- What the program gets for the names that it resolves: what they stand for at that time. -/
inductive Answered : History → List (Option Value) → Prop where
  | nil : Answered [] []
  | resolve {i k : Nat} {name : String} {earlier : History} {result : Option Value}
      {answers : List (Option Value)} : earlier.frameOf i = some k →
      earlier.IsValue name (earlier.path k) result → Answered earlier answers →
      Answered (.resolve i name :: earlier) (result :: answers)
  | other {op : EnvOp} {earlier : History} {answers : List (Option Value)} :
      (∀ i name, op ≠ .resolve i name) → Answered earlier answers → Answered (op :: earlier) answers

/-! ## Numbers -/

variable {history : History}

theorem lt_of_frameOf {i k : Nat} (h : history.frameOf i = some k) :
    i < history.held ∧ k < history.frames := by
  induction history generalizing i with
  | nil => cases h
  | cons op earlier ih =>
    cases op with
    | create outer =>
      rw [frameOf] at h
      simp only [held, frames]
      split at h
      · cases h
        omega
      · have := ih h
        omega
    | share j =>
      rw [frameOf] at h
      simp only [held, frames]
      split at h
      · have := ih h
        omega
      · have := ih h
        omega
    | define => exact ih h
    | resolve => exact ih h

/-- A number keeps its environment. -/
theorem frameOf_cons {i : Nat} (h : i < history.held) (op : EnvOp) :
    frameOf (op :: history) i = history.frameOf i := by
  cases op with
  | create => rw [frameOf, if_neg (Nat.ne_of_lt h)]
  | share => rw [frameOf, if_neg (Nat.ne_of_lt h)]
  | _ => rfl

theorem held_le_cons (op : EnvOp) : history.held ≤ held (op :: history) := by
  cases op <;> simp [held]

theorem exists_of_holder_cons {op : EnvOp} {w : Holder} (h : holder (op :: history) = some w) :
    ∃ w', history.holder = some w' ∧ w'.perform op = some w :=
  Option.bind_eq_some_iff.1 h

/-- The program performs a definition on an environment that it holds. -/
theorem length_held {w : Holder} (hw : history.holder = some w) :
    w.held.length = history.held := by
  induction history generalizing w with
  | nil =>
    cases hw
    rfl
  | cons op earlier ih =>
    obtain ⟨w', hw', hop⟩ := exists_of_holder_cons hw
    have := ih hw'
    rcases op with (_ | i) | i | i | i
    all_goals simp only [Holder.perform, Option.map_eq_some_iff, Option.some.injEq] at hop
    · subst hop
      simp [Holder.make, held, this]
    all_goals
      obtain ⟨env, -, rfl⟩ := hop
      simp [Holder.make, held, this]

theorem lt_held_of_mem {w : Holder} (hw : history.holder = some w) {i : Nat} {name : String}
    {v : Value} (h : .define i name v ∈ history) : i < history.held := by
  induction history generalizing w with
  | nil => cases h
  | cons op earlier ih =>
    obtain ⟨w', hw', hop⟩ := exists_of_holder_cons hw
    rcases List.mem_cons.1 h with rfl | h
    · obtain ⟨env, henv, -⟩ := Option.map_eq_some_iff.1 hop
      have := (List.getElem?_eq_some_iff.1 henv).1
      rwa [length_held hw'] at this
    · exact Nat.lt_of_lt_of_le (ih hw' h) (held_le_cons op)

/-- The environments of definitions were the same when the latest operation was performed. -/
theorem frameOf_of_mem {op : EnvOp} {w : Holder} (hw : holder (op :: history) = some w) {i : Nat}
    {name : String} {v : Value} (h : .define i name v ∈ op :: history) :
    frameOf (op :: history) i = history.frameOf i := by
  obtain ⟨w', hw', -⟩ := exists_of_holder_cons hw
  rcases List.mem_cons.1 h with rfl | h
  · rfl
  · exact frameOf_cons (lt_held_of_mem hw' h) op

/-! ## The latest value -/

/-- The value that an operation gives to a name on a frame. -/
def given (history : History) (k : Nat) (name : String) : EnvOp → Option Value
  | .define i other v => if history.frameOf i = some k ∧ other = name then some v else none
  | _ => none

/-- The value that the most recent definition of a name on a frame gave to it. -/
def latest (history : History) (k : Nat) (name : String) : Option Value :=
  history.findSome? (history.given k name)

theorem given_eq_some_iff {k : Nat} {name : String} {op : EnvOp} {v : Value} :
    history.given k name op = some v ↔ ∃ i, op = .define i name v ∧ history.frameOf i = some k := by
  cases op with
  | define i other w =>
    simp only [given, EnvOp.define.injEq]
    split_ifs with h
    · simp [h]
    · grind
  | _ => simp [given]

theorem given_eq_none_iff {k : Nat} {name : String} {op : EnvOp} :
    history.given k name op = none ↔
      ∀ i v, op = .define i name v → history.frameOf i ≠ some k := by
  rw [Option.eq_none_iff_forall_ne_some]
  simp only [ne_eq, given_eq_some_iff]
  grind

theorem latest_eq_none_iff {k : Nat} {name : String} :
    history.latest k name = none ↔ history.NeverDefined k name := by
  rw [latest, List.findSome?_eq_none_iff]
  simp only [given_eq_none_iff, NeverDefined]
  grind

theorem latest_eq_some_iff {k : Nat} {name : String} {v : Value} :
    history.latest k name = some v ↔ history.MostRecent k name v := by
  rw [latest, List.findSome?_eq_some_iff]
  simp only [given_eq_some_iff, given_eq_none_iff, MostRecent]
  grind

theorem findSome?_congr {α β : Type} {f g : α → Option β} {xs : List α} (h : ∀ x ∈ xs, f x = g x) :
    xs.findSome? f = xs.findSome? g := by
  induction xs with
  | nil => rfl
  | cons x xs ih =>
    rw [List.findSome?_cons, List.findSome?_cons, h x List.mem_cons_self,
      ih fun y hy => h y (List.mem_cons_of_mem x hy)]

/-- The latest operation comes first, and what was given before stays. -/
theorem latest_cons {op : EnvOp} {w : Holder} (hw : holder (op :: history) = some w) (k : Nat)
    (name : String) :
    latest (op :: history) k name = (history.given k name op).or (history.latest k name) := by
  have hsame (o : EnvOp) (ho : o ∈ op :: history) :
      given (op :: history) k name o = history.given k name o := by
    cases o with
    | define i other v => rw [given, frameOf_of_mem hw ho, given]
    | _ => rfl
  have htail : history.findSome? (given (op :: history) k name) = history.latest k name :=
    findSome?_congr fun o ho => hsame o (List.mem_cons_of_mem op ho)
  rw [latest, List.findSome?_cons, hsame op List.mem_cons_self, htail]
  cases history.given k name op <;> rfl

theorem isValue_iff {name : String} {path : List Nat} {result : Option Value} :
    history.IsValue name path result ↔
      path.findSome? (fun k => history.latest k name) = result := by
  constructor
  · intro h
    induction h with
    | unbound => rfl
    | bound h => rw [List.findSome?_cons, latest_eq_some_iff.2 h]
    | outer h _ ih => rw [List.findSome?_cons, latest_eq_none_iff.2 h, ih]
  · rintro rfl
    induction path with
    | nil => exact .unbound
    | cons k path ih =>
      rw [List.findSome?_cons]
      cases hk : history.latest k name with
      | some v => exact .bound (latest_eq_some_iff.1 hk)
      | none => exact .outer (latest_eq_none_iff.1 hk) ih

/-! ## The names of a frame -/

theorem nodup_names {k : Nat} : (history.names k).Nodup := List.nodup_dedup _

theorem mem_names {k : Nat} {name : String} :
    name ∈ history.names k ↔ ∃ v, history.latest k name = some v := by
  have hlatest : (∃ v, history.latest k name = some v) ↔
      ∃ op ∈ history, ∃ v, history.given k name op = some v := by
    rw [← Option.isSome_iff_exists, latest, List.findSome?_isSome_iff]
    simp only [Option.isSome_iff_exists]
  rw [hlatest, names, List.mem_dedup, List.mem_filterMap]
  refine exists_congr fun op => and_congr_right fun _ => ?_
  cases op with
  | define i other v =>
    by_cases hi : history.frameOf i = some k
    · by_cases hname : other = name <;> simp [given, hi, hname]
    · simp [given, hi]
  | _ => simp [given]

end History

/-! ## What the tables keep -/

theorem Bindings.keys_insert (name : String) (v : Value) (bs : Bindings) :
    (insert name v bs).map Prod.fst =
      if name ∈ bs.map Prod.fst then bs.map Prod.fst else bs.map Prod.fst ++ [name] := by
  induction bs with
  | nil => rfl
  | cons b bs ih =>
    obtain ⟨n, w⟩ := b
    by_cases h : n = name
    · simp [insert, h]
    · simp only [insert, h, if_false, List.map_cons, ih, List.mem_cons, Ne.symm h, false_or]
      split <;> rfl

theorem Bindings.nodup_insert {bs : Bindings} (h : (bs.map Prod.fst).Nodup) (name : String)
    (v : Value) : ((insert name v bs).map Prod.fst).Nodup := by
  rw [keys_insert]
  split_ifs with hname
  · exact h
  · simpa using h.concat hname

theorem Frame.mem_keys {f : Frame} {name : String} :
    name ∈ f.bindings.map Prod.fst ↔ ∃ v, f.get? name = some v := by
  unfold Frame.get?
  induction f.bindings with
  | nil => simp
  | cons b bs ih =>
    obtain ⟨n, w⟩ := b
    by_cases h : name = n
    · simp [h]
    · simpa [List.lookup_cons, h, beq_false_of_ne h] using ih

/-- What the state and the environments that a program holds keep of its history. -/
structure Reflects (history : History) (w : Holder) : Prop where
  held : ∀ i, w.held[i]? = (history.frameOf i).map Env.mk
  size_frames : w.state.frames.size = history.frames
  layered : w.state.Layered
  path : ∀ k f, w.state.frame? ⟨k⟩ = some f →
    history.path k = k :: (f.outer.map Env.index).elim [] history.path
  latest : ∀ k f, w.state.frame? ⟨k⟩ = some f → ∀ name, f.get? name = history.latest k name
  nodup : ∀ k f, w.state.frame? ⟨k⟩ = some f → (f.bindings.map Prod.fst).Nodup

namespace Reflects

variable {history : History} {w : Holder}

theorem start : Reflects [] .start where
  held _ := rfl
  size_frames := rfl
  layered _ _ _ hf := by simp [Holder.start, State.frame?, State.empty] at hf
  path _ _ hf := by simp [Holder.start, State.frame?, State.empty] at hf
  latest _ _ hf := by simp [Holder.start, State.frame?, State.empty] at hf
  nodup _ _ hf := by simp [Holder.start, State.frame?, State.empty] at hf

theorem frameOf_of_held (h : Reflects history w) {i : Nat} {env : Env}
    (henv : w.held[i]? = some env) : history.frameOf i = some env.index := by
  rw [h.held] at henv
  obtain ⟨k, hk, rfl⟩ := Option.map_eq_some_iff.1 henv
  exact hk

theorem lt_frames (h : Reflects history w) {k : Nat} {f : Frame}
    (hf : w.state.frame? ⟨k⟩ = some f) : k < history.frames := by
  rw [← h.size_frames]
  exact State.allocated_iff.2 ⟨f, hf⟩

/-- One more environment is held under the next number. -/
theorem getElem?_held (h : Reflects history w) (hlen : w.held.length = history.held) (env : Env)
    (i : Nat) : (w.held ++ [env])[i]? =
      (if i = history.held then some env.index else history.frameOf i).map Env.mk := by
  by_cases hi : i = history.held
  · rw [if_pos hi, hi, ← hlen, List.getElem?_concat_length]
    rfl
  · rw [if_neg hi, ← h.held, List.getElem?_append]
    split_ifs with hlt
    · rfl
    · have : w.held.length < i := by omega
      simp [this.le, Nat.sub_ne_zero_of_lt this]

theorem make {outer : Option Nat} {env : Option Env} (h : Reflects history w)
    (hw : History.holder (.create outer :: history) = some (w.make env))
    (hlen : w.held.length = history.held)
    (henv : env.map Env.index = outer.bind history.frameOf) :
    Reflects (.create outer :: history) (w.make env) := by
  have houter {e : Env} (he : env = some e) : e.index < history.frames := by
    subst he
    obtain ⟨i, -, hi⟩ := Option.bind_eq_some_iff.1 henv.symm
    exact (History.lt_of_frameOf hi).2
  have hpath {k : Nat} (hk : k < history.frames) :
      History.path (.create outer :: history) k = history.path k := by
    rw [History.path, if_neg (Nat.ne_of_lt hk)]
  have hsize : (w.make env).state.frames.size = history.frames + 1 := by
    simp [Holder.make, h.size_frames]
  have hlatest (k : Nat) (name : String) :
      History.latest (.create outer :: history) k name = history.latest k name := by
    rw [History.latest_cons hw]
    rfl
  -- A frame is an old one, or the new one, which binds nothing.
  have hframe {k : Nat} {f : Frame} (hf : (w.make env).state.frame? ⟨k⟩ = some f) :
      w.state.frame? ⟨k⟩ = some f ∨ k = history.frames ∧ f = ⟨[], env⟩ := by
    rw [Holder.make, State.frame?_push] at hf
    split_ifs at hf with hk
    · exact .inr ⟨by rw [← h.size_frames]; exact congrArg Env.index hk, (Option.some.inj hf).symm⟩
    · exact .inl hf
  constructor
  case held =>
    intro i
    rw [Holder.make, h.getElem?_held hlen, History.frameOf]
    simp only [State.push, h.size_frames]
  case size_frames => exact hsize
  case layered =>
    refine h.layered.push fun e he => ?_
    rw [State.Allocated, h.size_frames]
    exact houter he
  case path =>
    intro k f hf
    rcases hframe hf with hf | ⟨rfl, rfl⟩
    · rw [hpath (h.lt_frames hf), h.path k f hf]
      cases ho : f.outer with
      | none => rfl
      | some e =>
        have hlt : e.index < k := h.layered _ _ _ hf ho
        have := h.lt_frames hf
        simp only [Option.map_some, Option.elim_some]
        rw [hpath (by omega)]
    · rw [History.path, if_pos rfl, ← henv]
      cases env with
      | none => rfl
      | some e =>
        simp only [Option.map_some, Option.elim_some]
        rw [hpath (houter rfl)]
  case latest =>
    intro k f hf name
    rw [hlatest]
    rcases hframe hf with hf | ⟨rfl, rfl⟩
    · exact h.latest k f hf name
    · refine (History.latest_eq_none_iff.2 fun i v _ hi => ?_).symm
      exact Nat.lt_irrefl _ (History.lt_of_frameOf hi).2
  case nodup =>
    intro k f hf
    rcases hframe hf with hf | ⟨rfl, rfl⟩
    · exact h.nodup k f hf
    · exact List.nodup_nil

theorem share {i : Nat} {env : Env} (h : Reflects history w) (hlen : w.held.length = history.held)
    (hw : History.holder (.share i :: history) = some { w with held := w.held ++ [env] })
    (henv : w.held[i]? = some env) :
    Reflects (.share i :: history) { w with held := w.held ++ [env] } where
  held j := by
    rw [h.getElem?_held hlen, History.frameOf, ← h.frameOf_of_held henv]
  size_frames := h.size_frames
  layered := h.layered
  path := h.path
  latest k f hf name := by
    rw [History.latest_cons hw]
    exact h.latest k f hf name
  nodup := h.nodup

theorem define {i : Nat} {env : Env} {name : String} {v : Value} (h : Reflects history w)
    (hw : History.holder (.define i name v :: history) =
      some { w with state := w.state.define env name v })
    (henv : w.held[i]? = some env) :
    Reflects (.define i name v :: history) { w with state := w.state.define env name v } := by
  have hframe : history.frameOf i = some env.index := h.frameOf_of_held henv
  constructor
  case held => exact h.held
  case size_frames => exact (State.size_frames_define ..).trans h.size_frames
  case layered => exact h.layered.define env name v
  case path =>
    intro k f hf
    exact State.forall_define (p := fun e f =>
      history.path e.index = e.index :: (f.outer.map Env.index).elim [] history.path)
      (fun e f hf => h.path e.index f hf) (fun f hf => h.path env.index f hf) hf
  case latest =>
    intro k f hf other
    rw [History.latest_cons hw, History.given, hframe]
    rw [State.frame?_define] at hf
    by_cases hk : (⟨k⟩ : Env) = env
    · subst hk
      rw [if_pos rfl] at hf
      obtain ⟨g, hg, rfl⟩ := Option.map_eq_some_iff.1 hf
      rw [Frame.get?_insert, h.latest k g hg]
      by_cases hother : other = name
      · simp [hother]
      · simp [hother, Ne.symm hother]
    · rw [if_neg hk] at hf
      have hne : env.index ≠ k := fun hk' => hk (by rw [← hk'])
      simp [hne, h.latest k f hf]
  case nodup =>
    intro k f hf
    exact State.forall_define (p := fun e f => (f.bindings.map Prod.fst).Nodup)
      (fun e f hf => h.nodup e.index f hf)
      (fun f hf => Bindings.nodup_insert (h.nodup env.index f hf) name v) hf

theorem resolve {i : Nat} {name : String} {answers : List (Option Value)} (h : Reflects history w)
    (hw : History.holder (.resolve i name :: history) = some { w with answers := answers }) :
    Reflects (.resolve i name :: history) { w with answers := answers } where
  held := h.held
  size_frames := h.size_frames
  layered := h.layered
  path := h.path
  latest k f hf other := by
    rw [History.latest_cons hw]
    exact h.latest k f hf other
  nodup := h.nodup

end Reflects

theorem reflects_of_holder {history : History} {w : Holder} (hw : history.holder = some w) :
    Reflects history w := by
  induction history generalizing w with
  | nil =>
    cases hw
    exact .start
  | cons op earlier ih =>
    obtain ⟨w', hw', hop⟩ := History.exists_of_holder_cons hw
    have h := ih hw'
    have hlen := History.length_held hw'
    rcases op with (_ | i) | i | ⟨i, name, v⟩ | ⟨i, name⟩
    case create.none =>
      obtain rfl := Option.some.inj hop
      exact h.make hw hlen rfl
    case create.some =>
      obtain ⟨env, henv, rfl⟩ := Option.map_eq_some_iff.1 hop
      exact h.make hw hlen (h.frameOf_of_held henv).symm
    case share =>
      obtain ⟨env, henv, rfl⟩ := Option.map_eq_some_iff.1 hop
      exact h.share hlen hw henv
    case define =>
      obtain ⟨env, henv, rfl⟩ := Option.map_eq_some_iff.1 hop
      exact h.define hw henv
    case resolve =>
      obtain ⟨env, henv, rfl⟩ := Option.map_eq_some_iff.1 hop
      exact h.resolve hw

/-! ## Answers -/

namespace Reflects

variable {history : History} {w : Holder} (h : Reflects history w)
include h

theorem exists_frame {k : Nat} (hk : k < history.frames) : ∃ f, w.state.frame? ⟨k⟩ = some f := by
  rw [← h.size_frames] at hk
  exact State.allocated_iff.1 hk

/-- A name resolves to its latest value on the nearest frame of the path where it has one. -/
theorem resolve_eq {k : Nat} (hk : k < history.frames) (name : String) :
    w.state.resolve ⟨k⟩ name = (history.path k).findSome? fun j => history.latest j name := by
  induction k using Nat.strong_induction_on with
  | h k ih =>
    obtain ⟨f, hf⟩ := h.exists_frame hk
    rw [h.layered.resolve_eq hf, h.path k f hf, List.findSome?_cons, ← h.latest k f hf]
    cases hname : f.get? name with
    | some v => rfl
    | none =>
      cases ho : f.outer with
      | none => rfl
      | some outer =>
        have hlt : outer.index < k := h.layered _ _ _ hf ho
        exact ih outer.index hlt (by omega)

theorem length_bindings {k : Nat} {f : Frame} (hf : w.state.frame? ⟨k⟩ = some f) :
    f.bindings.length = (history.names k).length := by
  have hperm : (f.bindings.map Prod.fst).Perm (history.names k) := by
    rw [List.perm_ext_iff_of_nodup (h.nodup k f hf) History.nodup_names]
    intro name
    rw [Frame.mem_keys, History.mem_names, h.latest k f hf]
  simpa using hperm.length_eq

/-- A frame is enclosed if its path goes on. -/
theorem isSome_outer_iff {k : Nat} {f : Frame} (hf : w.state.frame? ⟨k⟩ = some f) :
    f.outer.isSome = true ↔ 1 < (history.path k).length := by
  rw [h.path k f hf]
  cases ho : f.outer with
  | none => simp
  | some outer =>
    have hlt : outer.index < k := h.layered _ _ _ hf ho
    obtain ⟨g, hg⟩ := h.exists_frame (hlt.trans (h.lt_frames hf))
    simp [h.path outer.index g hg]

end Reflects

theorem History.exists_holder {history : History} (h : history.Performable) :
    ∃ w, history.holder = some w := by
  induction history with
  | nil => exact ⟨_, rfl⟩
  | cons op earlier ih =>
    obtain ⟨hop, hearlier⟩ := h
    obtain ⟨w, hw⟩ := ih hearlier
    have hheld (i : Nat) (hi : op.on = some i) : ∃ env, w.held[i]? = some env := by
      have hlt := hop i hi
      rw [← History.length_held hw] at hlt
      exact ⟨_, List.getElem?_eq_getElem hlt⟩
    rw [History.holder, hw]
    rcases op with (_ | i) | i | i | i
    case create.none => exact ⟨_, rfl⟩
    all_goals
      obtain ⟨env, henv⟩ := hheld i rfl
      simp [Holder.perform, henv]

theorem History.answered_of_holder {history : History} {w : Holder}
    (hw : history.holder = some w) : history.Answered w.answers := by
  induction history generalizing w with
  | nil =>
    cases hw
    exact .nil
  | cons op earlier ih =>
    obtain ⟨w', hw', hop⟩ := exists_of_holder_cons hw
    have hearlier := ih hw'
    rcases op with (_ | i) | i | i | ⟨i, name⟩
    case create.none =>
      obtain rfl := Option.some.inj hop
      exact .other (by simp) hearlier
    case resolve =>
      obtain ⟨env, henv, rfl⟩ := Option.map_eq_some_iff.1 hop
      have h := reflects_of_holder hw'
      have hframe := h.frameOf_of_held henv
      exact .resolve hframe (isValue_iff.2 (h.resolve_eq (lt_of_frameOf hframe).2 name).symm)
        hearlier
    all_goals
      obtain ⟨env, henv, rfl⟩ := Option.map_eq_some_iff.1 hop
      exact .other (by simp) hearlier

/-- Operations on environments that the program holds, in whatever order, are performed. What the
program gets for a name, then and at the end of the history, is its most recent value on the nearest
frame where it was ever defined, and it is unbound if it was defined on none of them. A frame has as
many bindings as names were ever defined on it; it is shown with this number, and as enclosed if its
path goes on. -/
theorem resolve_refines_history {history : History} (h : history.Performable) :
    ∃ w, history.holder = some w ∧ w.held.length = history.held ∧ history.Answered w.answers ∧
      ∀ i env, w.held[i]? = some env → ∃ k f, history.frameOf i = some k ∧
        w.state.frame? env = some f ∧
        (∀ name result, w.state.resolve env name = result ↔
          history.IsValue name (history.path k) result) ∧
        (∀ name, w.state.resolve env name = none ↔
          ∀ j ∈ history.path k, history.NeverDefined j name) ∧
        f.bindings.length = (history.names k).length ∧
        f.shown = "Environment \x7b bindings: " ++ (history.names k).length.repr ++
          ", enclosed: " ++ (if 1 < (history.path k).length then "true" else "false") ++
          " \x7d" := by
  obtain ⟨w, hw⟩ := History.exists_holder h
  have hr := reflects_of_holder hw
  refine ⟨w, hw, History.length_held hw, History.answered_of_holder hw, fun i env henv => ?_⟩
  have hframe := hr.frameOf_of_held henv
  have hk := (History.lt_of_frameOf hframe).2
  obtain ⟨f, hf⟩ := hr.exists_frame hk
  have hlength := hr.length_bindings hf
  refine ⟨env.index, f, hframe, hf, fun name result => ?_, fun name => ?_, hlength, ?_⟩
  · rw [History.isValue_iff]
    exact ⟨(hr.resolve_eq hk name).symm.trans, (hr.resolve_eq hk name).trans⟩
  · have hresolve : w.state.resolve env name = none ↔
        ∀ j ∈ history.path env.index, history.latest j name = none := by
      rw [← List.findSome?_eq_none_iff, ← hr.resolve_eq hk name]
    simpa only [History.latest_eq_none_iff] using hresolve
  · have henclosed : (if f.outer.isSome then "true" else "false") =
        if 1 < (history.path env.index).length then "true" else "false" := by
      simp only [hr.isSome_outer_iff hf]
    unfold Frame.shown Frame.summary
    rw [hlength, henclosed]

/-- A name is defined twice in an environment, which an inner one sees, the second time through a
second number and after the inner environment was made. -/
theorem resolve_refines_history_shared :
    ∃ w, History.holder [.define 2 "x" (.int 2), .share 0, .create (some 0),
        .define 0 "x" (.int 1), .create none] = some w ∧
      ∀ env, w.held[1]? = some env → w.state.resolve env "x" = some (.int 2) := by
  have hperformable : History.Performable [.define 2 "x" (.int 2), .share 0, .create (some 0),
      .define 0 "x" (.int 1), .create none] := by
    simp [History.Performable, EnvOp.on, History.held]
  obtain ⟨w, hw, -, -, hheld⟩ := resolve_refines_history hperformable
  refine ⟨w, hw, fun env henv => ?_⟩
  obtain ⟨k, f, hk, -, hresolve, -⟩ := hheld 1 env henv
  obtain rfl : 1 = k := Option.some.inj hk
  exact (hresolve "x" _).2 (History.isValue_iff.2 rfl)

end SmallLisp
