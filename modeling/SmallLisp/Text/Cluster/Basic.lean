import SmallLisp.Text.Cluster.Kind

/-!
# Clusters

What a reader sees as one character may be several: a letter with accents, a syllable, a flag, a
family of emoji. A text is split into such clusters, the extended grapheme clusters of Unicode, from
left to right: whether a character joins the one before it depends on their kinds and on a little of
what stands before (`Context`).
-/

namespace SmallLisp.Text.Cluster

/-- How much of an emoji sequence ends here. -/
inductive Emoji where
  | none
  | pictograph
  | joined
  deriving DecidableEq, Repr

/-- How much of a conjunct of consonants ends here. -/
inductive Conjunct where
  | none
  | consonant
  | linked
  deriving DecidableEq, Repr

/-- What the characters so far say of the next one: the kind of the last, the sequences that it
ends, and whether an odd number of regional indicators stands there. -/
structure Context where
  last : Kind
  emoji : Emoji
  conjunct : Conjunct
  odd : Bool
  deriving DecidableEq, Repr

/-- The context after one more character. -/
def Context.next (x : Context) (k : Kind) : Context where
  last := k
  emoji :=
    match k with
    | .pictograph => .pictograph
    | .extend | .linker | .nonJoiner => if x.emoji = .joined then .none else x.emoji
    | .joiner => if x.emoji = .pictograph then .joined else .none
    | _ => .none
  conjunct :=
    match k with
    | .consonant => .consonant
    | .linker => if x.conjunct = .none then .none else .linked
    | .extend | .joiner => x.conjunct
    | _ => .none
  odd := k = .regional && !x.odd

/-- The context of the start of a text. -/
def Context.start : Context := ⟨.control, .none, .none, false⟩

/-- A character of the kind joins the one before it. -/
def Context.joins (x : Context) (k : Kind) : Bool :=
  match x.last, k with
  | .carriageReturn, .lineFeed => true
  | .carriageReturn, _ | .lineFeed, _ | .control, _ => false
  | _, .carriageReturn | _, .lineFeed | _, .control => false
  | _, .extend | _, .linker | _, .nonJoiner | _, .joiner | _, .spacingMark => true
  | .prepend, _ => true
  | .leadingJamo, .leadingJamo | .leadingJamo, .vowelJamo | .leadingJamo, .openSyllable
  | .leadingJamo, .closedSyllable => true
  | .openSyllable, .vowelJamo | .openSyllable, .trailingJamo => true
  | .vowelJamo, .vowelJamo | .vowelJamo, .trailingJamo => true
  | .closedSyllable, .trailingJamo | .trailingJamo, .trailingJamo => true
  | _, .consonant => x.conjunct = .linked
  | _, .pictograph => x.emoji = .joined
  | _, .regional => x.odd
  | _, _ => false

/-- The clusters of a text, after the characters of the first so far in reverse. -/
def splitFrom (x : Context) (cluster : List Char) : List Char → List (List Char)
  | [] => if cluster.isEmpty then [] else [cluster.reverse]
  | c :: cs =>
    let k := Kind.ofChar c
    if cluster.isEmpty || x.joins k then splitFrom (x.next k) (c :: cluster) cs
    else cluster.reverse :: splitFrom (x.next k) [c] cs

/-- The clusters of a text. -/
def split (cs : List Char) : List (List Char) := splitFrom .start [] cs

theorem flatten_splitFrom (x : Context) (cluster cs : List Char) :
    (splitFrom x cluster cs).flatten = cluster.reverse ++ cs := by
  fun_induction splitFrom x cluster cs <;> simp_all

/-- Splitting loses nothing. -/
theorem flatten_split (cs : List Char) : (split cs).flatten = cs := flatten_splitFrom .start [] cs

end SmallLisp.Text.Cluster
