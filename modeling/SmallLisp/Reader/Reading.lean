import SmallLisp.Reader.Item
import SmallLisp.Value.Basic

/-!
# From items to forms

Recursive descent over the items of a source, by the grammar

    program = value*
    value   = "(" value* ")" | "'" value | atom

where `'x` stands for `(quote x)`. A faulty item ends the reading with its fault. What is left
after a reading, failed or not, begins after the last item taken, and another one can go on there.
-/

namespace SmallLisp.Reader

/-- Why items do not read as forms. -/
inductive ReadError where
  | lexical (fault : Located Fault)
  | unterminatedList (start : Nat)
  | unexpectedToken (token : Located Token)
  | prematureEnd
  deriving DecidableEq

def ReadError.message : ReadError → String
  | lexical f => f.faultMessage
  | unterminatedList start => "Unterminated list opened at offset " ++ start.repr
  | unexpectedToken t => "Unexpected token '" ++ t.val.shown ++ "' at offset " ++ t.start.repr
  | prematureEnd => "Premature end of input, expected a value"

/-- The outcome of reading from some items, and the items left, no more than `bound`. -/
structure Reading (α : Type) (bound : List Item) where
  result : Except ReadError α
  rest : List Item
  length_le : rest.length ≤ bound.length

/-- The list that `'x` stands for. -/
def quoted (v : Value) : Value := .list [.sym "quote", v]

theorem two_mul_succ_lt {a b : Nat} (h : a ≤ b) : 2 * a + 1 < 2 * (b + 1) := by omega

mutual

/-- Reads the value that starts with a token already taken. -/
def readFrom (bound : List Item) (t : Located Token) (items : List Item)
    (h : items.length ≤ bound.length) : Reading Value bound :=
  match t.val with
  | .opening => readElements bound t.start [] items h
  | .closing => ⟨.error (.unexpectedToken t), items, h⟩
  | .quote =>
    match readValue bound items h with
    | ⟨.ok v, rest, h'⟩ => ⟨.ok (quoted v), rest, h'⟩
    | ⟨.error e, rest, h'⟩ => ⟨.error e, rest, h'⟩
  | .int n => ⟨.ok (.int n), items, h⟩
  | .double x => ⟨.ok (.double x), items, h⟩
  | .bool b => ⟨.ok (.bool b), items, h⟩
  | .str s => ⟨.ok (.str s), items, h⟩
  | .sym s => ⟨.ok (.sym s), items, h⟩
termination_by 2 * items.length + 1
decreasing_by
  all_goals exact Nat.lt_succ_self _

/-- Reads one value. -/
def readValue (bound items : List Item) (h : items.length ≤ bound.length) :
    Reading Value bound :=
  match items with
  | [] => ⟨.error .prematureEnd, [], Nat.zero_le _⟩
  | .error f :: rest => ⟨.error (.lexical f), rest, Nat.le_of_succ_le h⟩
  | .ok t :: rest => readFrom bound t rest (Nat.le_of_succ_le h)
termination_by 2 * items.length
decreasing_by
  exact two_mul_succ_lt (Nat.le_refl _)

/-- Reads the rest of a list opened at `start`, after the elements read so far in reverse. -/
def readElements (bound : List Item) (start : Nat) (elements : List Value) (items : List Item)
    (h : items.length ≤ bound.length) : Reading Value bound :=
  match items with
  | [] => ⟨.error (.unterminatedList start), [], Nat.zero_le _⟩
  | .error f :: rest => ⟨.error (.lexical f), rest, Nat.le_of_succ_le h⟩
  | .ok t :: rest =>
    if t.val = .closing then
      ⟨.ok (.list elements.reverse), rest, Nat.le_of_succ_le h⟩
    else
      match readFrom rest t rest (Nat.le_refl _) with
      | ⟨.ok v, rest', h'⟩ =>
        readElements bound start (v :: elements) rest'
          (Nat.le_trans h' (Nat.le_of_succ_le h))
      | ⟨.error e, rest', h'⟩ => ⟨.error e, rest', Nat.le_trans h' (Nat.le_of_succ_le h)⟩
termination_by 2 * items.length
decreasing_by
  · exact two_mul_succ_lt (Nat.le_refl _)
  · exact Nat.lt_of_succ_lt (two_mul_succ_lt h')

end

/-- Reads every form, after those read so far in reverse. -/
def readForms (forms : List Value) (items : List Item) :
    Except ReadError (List Value) × List Item :=
  match items with
  | [] => (.ok forms.reverse, [])
  | .error f :: rest => (.error (.lexical f), rest)
  | .ok t :: rest =>
    match readFrom rest t rest (Nat.le_refl _) with
    | ⟨.ok v, rest', _⟩ => readForms (v :: forms) rest'
    | ⟨.error e, rest', _⟩ => (.error e, rest')
termination_by items.length

/-- Reads all the items as forms, or up to the first that does not fit. Gives the items left too,
which are none unless the reading failed. -/
def readProgram (items : List Item) : Except ReadError (List Value) × List Item :=
  readForms [] items

/-- The forms of a source. -/
def parse (source : String) : Except ReadError (List Value) := (readProgram (items source)).1

end SmallLisp.Reader
