import SmallLisp.Text.Alphanumeric
import SmallLisp.Text.Blank
import SmallLisp.Text.Size

/-!
# Patterns

A log filter may compare a field with a pattern, a regular expression. Nothing is matched here: a
pattern is only checked (`check`), from left to right, with the groups and sets that are open
(`State`). It has to be well-formed, with at most `maxNesting` levels, and a matcher has to be able
to run it. Matchers have no tables of Unicode: outside ASCII mode, the classes of letters, digits
and blanks are refused, as are letters in either case; in ASCII mode, whatever could match a part of
a character is. A word boundary needs ASCII mode too, but is told apart from the other faults
(`PatternError.wordBoundary`).
-/

namespace SmallLisp.Pattern

inductive PatternError where
  | malformed
  | wordBoundary
  deriving DecidableEq, Repr

def PatternError.message : PatternError → String
  | malformed => "error building NFA"
  | wordBoundary => "unsupported regex feature for DFAs: cannot build DFAs for regexes with "
      ++ "Unicode word boundaries; switch to ASCII word boundaries, or heuristically enable "
      ++ "Unicode word boundaries or use a different regex engine"

/-! ## Modes -/

/-- The switches that matter: letters in either case, Unicode rather than ASCII, and blanks and
comments between the parts. -/
structure Mode where
  caseless : Bool
  unicode : Bool
  spaced : Bool
  deriving DecidableEq, Repr

def skipBlanks (comment : Bool) : List Char → List Char
  | [] => []
  | c :: cs =>
    if comment then skipBlanks (c != '\n') cs
    else if Text.isBlank c then skipBlanks false cs
    else if c = '#' then skipBlanks true cs
    else c :: cs

namespace Mode

def initial : Mode := ⟨false, true, false⟩

/-- Drops the blanks and comments that stand before the next part. -/
def skip (m : Mode) (cs : List Char) : List Char := if m.spaced then skipBlanks false cs else cs

/-- The mode allows a character, written as it is or, as a byte, by two hexadecimal digits. -/
def allows (m : Mode) (c : Char) (byte : Bool) : Bool :=
  if m.unicode then !m.caseless else !byte || c.toNat < 128

/-- The mode allows a character in a set. -/
def allowsInSet (m : Mode) (c : Char) : Bool :=
  if m.unicode then !m.caseless else c.toNat < 128

/-- The mode after some letters switch it, those behind the hyphen off. -/
def switch (m : Mode) (letters : List Char) : Mode :=
  let set (old : Bool) (letter : Char) : Bool :=
    if (letters.takeWhile (· != '-')).contains letter then true
    else !letters.contains letter && old
  ⟨set m.caseless 'i', set m.unicode 'u', set m.spaced 'x'⟩

end Mode

/-- Letters may switch a mode: each is known and stands once, and the hyphen does not end them. -/
def areSwitches (letters : List Char) : Bool :=
  letters.all "imsUuRx-".toList.contains && letters.Nodup && letters.getLast? != some '-'

/-! ## Characters and escapes -/

/-- What a character or an escape stands for. -/
inductive Atom where
  | char (c : Char) (byte : Bool)
  | letterClass
  | anchor
  | boundary
  deriving DecidableEq, Repr

def hexValue? (c : Char) : Option Nat :=
  if c.isDigit then some (c.toNat - '0'.toNat)
  else if 'a' ≤ c ∧ c ≤ 'f' then some (c.toNat - 'a'.toNat + 10)
  else if 'A' ≤ c ∧ c ≤ 'F' then some (c.toNat - 'A'.toNat + 10)
  else none

/-- The character of so many hexadecimal digits, after those that give `value`. -/
def hexChar (m : Mode) (value : Nat) : Nat → List Char → Option (Char × List Char)
  | 0, cs => if value.isValidChar then some (Char.ofNat value, cs) else none
  | n + 1, cs =>
    match m.skip cs with
    | [] => none
    | c :: cs =>
      match hexValue? c with
      | some d => hexChar m (value * 16 + d) n cs
      | none => none

/-- A character by its code; one of two digits is a byte. -/
def hexEscape (m : Mode) (digits : Nat) (cs : List Char) : Option (Atom × List Char) :=
  match hexChar m 0 digits cs with
  | some (c, cs) => some (.char c (digits == 2), cs)
  | none => none

/-- What stands after a backslash. -/
def escape (m : Mode) : List Char → Option (Atom × List Char)
  | [] => none
  | c :: cs =>
    match c with
    | 'x' => hexEscape m 2 cs
    | 'u' => hexEscape m 4 cs
    | 'U' => hexEscape m 8 cs
    | 'a' => some (.char '\x07' false, cs)
    | 'f' => some (.char '\x0c' false, cs)
    | 'n' => some (.char '\n' false, cs)
    | 'r' => some (.char '\r' false, cs)
    | 't' => some (.char '\t' false, cs)
    | 'v' => some (.char '\x0b' false, cs)
    | 'A' | 'z' => some (.anchor, cs)
    | 'b' | 'B' | '<' | '>' => some (.boundary, cs)
    | 'd' | 's' | 'w' => if m.unicode then none else some (.letterClass, cs)
    | c => if c.toNat < 128 && !c.isAlphanum then some (.char c false, cs) else none

/-! ## Nesting -/

def maxNesting : Nat := 250

/-- Parts side by side: how many there are, and the nesting of the deepest. -/
structure Row where
  count : Nat
  depth : Nat

def Row.empty : Row := ⟨0, 0⟩

def Row.push (r : Row) (depth : Nat) : Row := ⟨r.count + 1, max r.depth depth⟩

/-- Several parts are one level deeper than the deepest. -/
def Row.nesting (r : Row) : Nat := if r.count ≤ 1 then r.depth else r.depth + 1

/-! ## Sets -/

/-- A set of characters that is open. Hyphens, and then a bracket, may begin it (`started` is not
yet set). An operator between two unions leaves the nesting of the left one. -/
structure CharSet where
  started : Bool
  left : Option Nat
  union : Row

namespace CharSet

def empty : CharSet := ⟨false, none, .empty⟩

/-- Adds a part, after which no bracket is taken for a character. -/
def push (s : CharSet) (depth : Nat) : CharSet :=
  { s with started := true, union := s.union.push depth }

def nesting (s : CharSet) : Nat :=
  match s.left with
  | none => s.union.nesting
  | some l => max l s.union.nesting + 1

/-- Goes on to the right of an operator. -/
def operate (s : CharSet) : CharSet := ⟨true, some s.nesting, .empty⟩

end CharSet

def classNames : List String :=
  ["alnum", "alpha", "ascii", "blank", "cntrl", "digit", "graph", "lower", "print", "punct",
    "space", "upper", "word", "xdigit"]

/-- A class such as `[:alpha:]` after its bracket: whether it is negated, and what follows. -/
def namedClass? : List Char → Option (Bool × List Char)
  | ':' :: cs =>
    let (negated, cs) := match cs with
      | '^' :: cs => (true, cs)
      | cs => (false, cs)
    match cs.dropWhile (· != ':') with
    | ':' :: ']' :: rest =>
      if classNames.contains (String.ofList (cs.takeWhile (· != ':'))) then some (negated, rest)
      else none
    | _ => none
  | _ => none

/-- The first character of what follows a hyphen in a set. Only the sign of a comment is seen. -/
def Mode.peek (m : Mode) (cs : List Char) : Option Char :=
  if m.spaced then
    match cs.dropWhile Text.isBlank with
    | '#' :: cs => (cs.dropWhile Text.isBlank).head?
    | cs => cs.head?
  else cs.head?

/-- A character or an escape in a set. -/
def setAtom (m : Mode) (c : Char) (cs : List Char) : Option (Atom × List Char) :=
  if c = '\\' then escape m cs else some (.char c false, cs)

/-- The atom may be a part of a set. -/
def Atom.inSet (m : Mode) : Atom → Bool
  | .char c _ => m.allowsInSet c
  | .letterClass => true
  | .anchor | .boundary => false

/-- Reads a character, a class or a range in a set, and gives what follows. -/
def setPart (m : Mode) (c : Char) (cs : List Char) : Option (List Char) :=
  match setAtom m c cs with
  | none => none
  | some (first, cs) =>
    match m.skip cs with
    | '-' :: cs =>
      if m.peek cs = some ']' ∨ m.peek cs = some '-' then
        if first.inSet m then some ('-' :: cs) else none
      else
        match m.skip cs with
        | [] => none
        | d :: cs =>
          match first, setAtom m d cs with
          | .char a _, some (.char b _, cs) =>
            if m.allowsInSet a && m.allowsInSet b && a ≤ b then some cs else none
          | _, _ => none
    | cs => if first.inSet m then some cs else none

/-! ## Groups -/

/-- A group that is open, or the whole pattern: the nesting of the branches before this one, the
parts of this one, and the nesting of its last part if that can be repeated. -/
structure Group where
  mode : Mode
  branches : Option Nat
  row : Row
  last : Option Nat

namespace Group

def empty (m : Mode) : Group := ⟨m, none, .empty, none⟩

def push (g : Group) (depth : Nat) : Group :=
  { g with row := g.row.push depth, last := some depth }

/-- Repeats the last part. -/
def repeatLast (g : Group) (depth : Nat) : Group :=
  { g with row := ⟨g.row.count, max g.row.depth (depth + 1)⟩, last := some (depth + 1) }

/-- Switches the mode for the rest of the group. -/
def switch (g : Group) (letters : List Char) : Group :=
  { g with mode := g.mode.switch letters, row := g.row.push 0, last := none }

/-- Goes on with the next branch. -/
def branch (g : Group) : Group :=
  { g with branches := some (max (g.branches.getD 0) g.row.nesting), row := .empty, last := none }

def nesting (g : Group) : Nat :=
  match g.branches with
  | none => g.row.nesting
  | some b => max b g.row.nesting + 1

end Group

/-- How a group begins. -/
inductive Opening where
  | plain
  | named (name : List Char)
  | switching (letters : List Char)
  | switch (letters : List Char)

def isName : List Char → Bool
  | [] => false
  | c :: cs =>
    (c == '_' || Text.isAlphabetic c) && cs.all fun c => "_.[]".toList.contains c ||
      Text.isAlphanumeric c

/-- The name of a group, up to the bracket that ends it. -/
def openNamed (cs : List Char) : Option (Opening × List Char) :=
  match cs.dropWhile (· != '>') with
  | _ :: rest =>
    let name := cs.takeWhile (· != '>')
    if isName name then some (.named name, rest) else none
  | [] => none

/-- The letters that switch the mode, of the group if a colon ends them. -/
def openSwitching (cs : List Char) : Option (Opening × List Char) :=
  let letters := cs.takeWhile fun c => c != ':' && c != ')'
  if areSwitches letters then
    match cs.dropWhile fun c => c != ':' && c != ')' with
    | ':' :: rest => some (.switching letters, rest)
    | ')' :: rest => if letters.isEmpty then none else some (.switch letters, rest)
    | _ => none
  else none

/-- What stands after an opening parenthesis. There is no looking around. -/
def opening (m : Mode) (cs : List Char) : Option (Opening × List Char) :=
  match m.skip cs with
  | '?' :: '=' :: _ | '?' :: '!' :: _ | '?' :: '<' :: '=' :: _ | '?' :: '<' :: '!' :: _ => none
  | '?' :: 'P' :: '<' :: cs | '?' :: '<' :: cs => openNamed cs
  | '?' :: cs => openSwitching cs
  | cs => some (.plain, cs)

/-! ## The check -/

/-- How far a pattern is checked: the innermost group and those around it, the open sets from the
innermost on, the names of groups, and whether there was a word boundary outside ASCII mode. -/
structure State where
  group : Group
  outer : List Group
  sets : List CharSet
  names : List (List Char)
  boundary : Bool

namespace State

def initial : State := ⟨.empty .initial, [], [], [], false⟩

def push (s : State) (depth : Nat) : State := { s with group := s.group.push depth }

def pushAtom (s : State) : Atom → Option State
  | .char c byte => if s.group.mode.allows c byte then some (s.push 0) else none
  | .letterClass | .anchor => some (s.push 0)
  | .boundary => some { s.push 0 with boundary := s.boundary || s.group.mode.unicode }

def openGroup (s : State) (m : Mode) : State :=
  { s with group := .empty m, outer := s.group :: s.outer }

/-- Takes the beginning of a group, or switches for the rest of the open one. -/
def enter (s : State) : Opening → Option State
  | .plain => some (s.openGroup s.group.mode)
  | .named name =>
    if s.names.contains name then none
    else some { s.openGroup s.group.mode with names := name :: s.names }
  | .switching letters => some (s.openGroup (s.group.mode.switch letters))
  | .switch letters => some { s with group := s.group.switch letters }

def closeGroup (s : State) : Option State :=
  match s.outer with
  | [] => none
  | g :: outer => some { s with group := g.push (s.group.nesting + 1), outer }

/-- Opens a set, which ASCII mode does not let be negated. -/
def openSet (s : State) (cs : List Char) : Option (State × List Char) :=
  match s.group.mode.skip cs with
  | '^' :: cs =>
    if s.group.mode.unicode then some ({ s with sets := .empty :: s.sets }, cs) else none
  | cs => some ({ s with sets := .empty :: s.sets }, cs)

/-- Closes the innermost set, which becomes a part of what is around it. -/
def closeSet (s : State) (set : CharSet) : List CharSet → State
  | [] => { s.push (set.nesting + 1) with sets := [] }
  | around :: sets => { s with sets := around.push (set.nesting + 1) :: sets }

/-- Takes the next part in a set. -/
def stepSet (s : State) (set : CharSet) (sets : List CharSet) (c : Char) (cs : List Char) :
    Option (State × List Char) :=
  let m := s.group.mode
  let next (set : CharSet) : State := { s with sets := set :: sets }
  match set.started, c, cs with
  | false, '-', cs =>
    if m.allowsInSet '-' then some (next ⟨false, set.left, set.union.push 0⟩, cs) else none
  | false, ']', cs =>
    if set.union.count = 0 then
      if m.allowsInSet ']' then some (next (set.push 0), cs) else none
    else some (s.closeSet set sets, cs)
  | true, ']', cs => some (s.closeSet set sets, cs)
  | _, '[', cs =>
    match namedClass? cs with
    | some (negated, cs) =>
      if if m.unicode then m.caseless else negated then none else some (next (set.push 0), cs)
    | none => (next { set with started := true }).openSet cs
  | _, '&', '&' :: cs | true, '-', '-' :: cs | _, '~', '~' :: cs => some (next set.operate, cs)
  | _, c, cs => (setPart m c cs).map fun cs => (next (set.push 0), cs)

/-- Takes the next part. -/
def step (s : State) (c : Char) (cs : List Char) : Option (State × List Char) :=
  match s.sets with
  | set :: sets => s.stepSet set sets c cs
  | [] =>
    match c with
    | '(' => (opening s.group.mode cs).bind fun (o, cs) => (s.enter o).map (·, cs)
    | ')' => s.closeGroup.map (·, cs)
    | '|' => some ({ s with group := s.group.branch }, cs)
    | '[' => s.openSet cs
    | '?' | '*' | '+' =>
      match s.group.last with
      | none => none
      | some depth =>
        let s := { s with group := s.group.repeatLast depth }
        match cs with
        | '?' :: cs => some (s, cs)
        | cs => some (s, cs)
    | '\x7b' => none
    | '\\' => (escape s.group.mode cs).bind fun (a, cs) => (s.pushAtom a).map (·, cs)
    | '.' => if s.group.mode.unicode then some (s.push 0, cs) else none
    | '^' | '$' => some (s.push 0, cs)
    | c => (s.pushAtom (.char c false)).map (·, cs)

/-- The verdict at the end of the pattern. -/
def finish (s : State) : Except PatternError Unit :=
  if s.outer.isEmpty && s.sets.isEmpty && s.group.nesting ≤ maxNesting then
    if s.boundary then .error .wordBoundary else .ok ()
  else .error .malformed

end State

/-! ## Every step takes at least one character -/

theorem length_skipBlanks_le (comment : Bool) (cs : List Char) :
    (skipBlanks comment cs).length ≤ cs.length := by
  fun_induction skipBlanks comment cs <;> simp_all <;> omega

theorem length_skip_le (m : Mode) (cs : List Char) : (m.skip cs).length ≤ cs.length := by
  unfold Mode.skip
  split
  · exact length_skipBlanks_le false cs
  · exact Nat.le_refl _

theorem length_of_hexChar {m : Mode} {value n : Nat} {cs rest : List Char} {c : Char}
    (h : hexChar m value n cs = some (c, rest)) : rest.length ≤ cs.length := by
  fun_induction hexChar m value n cs <;> grind [length_skip_le]

theorem length_of_hexEscape {m : Mode} {digits : Nat} {cs rest : List Char} {a : Atom}
    (h : hexEscape m digits cs = some (a, rest)) : rest.length ≤ cs.length := by
  unfold hexEscape at h
  split at h
  · rename_i hx
    cases h
    exact length_of_hexChar hx
  · cases h

theorem length_of_escape {m : Mode} {cs rest : List Char} {a : Atom}
    (h : escape m cs = some (a, rest)) : rest.length ≤ cs.length := by
  unfold escape at h
  split at h
  · cases h
  · repeat' split at h
    all_goals first
      | exact Nat.le_succ_of_le (length_of_hexEscape h)
      | (cases h; done)
      | (cases h; exact Nat.le_succ _)

theorem length_of_setAtom {m : Mode} {c : Char} {cs rest : List Char} {a : Atom}
    (h : setAtom m c cs = some (a, rest)) : rest.length ≤ cs.length := by
  unfold setAtom at h
  grind [→ length_of_escape]

theorem length_of_setPart {m : Mode} {c : Char} {cs rest : List Char}
    (h : setPart m c cs = some rest) : rest.length ≤ cs.length := by
  unfold setPart at h
  grind [→ length_of_setAtom, length_skip_le]

theorem length_of_namedClass {cs rest : List Char} {negated : Bool}
    (h : namedClass? cs = some (negated, rest)) : rest.length ≤ cs.length := by
  unfold namedClass? at h
  grind [Text.length_dropWhile_le]

theorem length_of_opening {m : Mode} {cs rest : List Char} {o : Opening}
    (h : opening m cs = some (o, rest)) : rest.length ≤ cs.length := by
  unfold opening openNamed openSwitching at h
  grind [Text.length_dropWhile_le, length_skip_le]

theorem length_of_openSet {s t : State} {cs rest : List Char}
    (h : s.openSet cs = some (t, rest)) : rest.length ≤ cs.length := by
  unfold State.openSet at h
  grind [length_skip_le]

theorem length_of_stepSet {s t : State} {set : CharSet} {sets : List CharSet} {c : Char}
    {cs rest : List Char} (h : s.stepSet set sets c cs = some (t, rest)) :
    rest.length ≤ cs.length := by
  unfold State.stepSet at h
  grind [→ length_of_openSet, → length_of_namedClass, → length_of_setPart,
    Option.map_eq_some_iff]

theorem length_of_step {s t : State} {c : Char} {cs rest : List Char}
    (h : s.step c cs = some (t, rest)) : rest.length ≤ cs.length := by
  unfold State.step at h
  grind [→ length_of_openSet, → length_of_stepSet, → length_of_opening, → length_of_escape,
    Option.map_eq_some_iff, Option.bind_eq_some_iff]

/-- Checks the rest of a pattern. -/
def checkFrom (s : State) (cs : List Char) : Except PatternError Unit :=
  match hc : s.group.mode.skip cs with
  | [] => s.finish
  | c :: rest =>
    match hs : s.step c rest with
    | none => .error .malformed
    | some (t, after) =>
      have : after.length < cs.length := by
        have := length_skip_le s.group.mode cs
        have := length_of_step hs
        simp only [hc, List.length_cons] at *
        omega
      checkFrom t after
termination_by cs.length

def check (pattern : List Char) : Except PatternError Unit := checkFrom .initial pattern

end SmallLisp.Pattern
