import SmallLisp.Integer
import SmallLisp.Reader.Token
import SmallLisp.Text.Alphanumeric
import SmallLisp.Text.Blank
import SmallLisp.Text.Size

/-!
# From source text to items

The characters between tokens are blanks and comments, which run from a semicolon to the end of
the line. Each item takes the longest run of characters that belongs to it (`scan`), and scanning
goes on after a fault, so that every source has a list of items (`items`).
-/

namespace SmallLisp.Reader

def isSymbolChar (c : Char) : Bool :=
  Text.isAlphanumeric c || "!@$%^&*-_+=|~:<>.?\\/,".toList.contains c

/-- Drops blanks and comments, counting their bytes from `size` on. -/
def skipTrivia (comment : Bool) (size : Nat) : List Char → Nat × List Char
  | [] => (size, [])
  | c :: cs =>
    if comment then skipTrivia (c != '\n') (size + c.utf8Size) cs
    else if c = ';' then skipTrivia true (size + c.utf8Size) cs
    else if Text.isBlank c then skipTrivia false (size + c.utf8Size) cs
    else (size, c :: cs)

/-- What a run of characters reads as, the number of its bytes, and the characters after it. -/
structure Piece where
  content : Except Fault Token
  size : Nat
  rest : List Char

/-- A string literal after its opening quote, with its text so far in reverse. -/
def scanString (size : Nat) (text : List Char) : List Char → Piece
  | [] => ⟨.error .unterminatedString, size, []⟩
  | ['\\'] => ⟨.error .unterminatedString, size + 1, []⟩
  | '\\' :: c :: cs =>
    match Text.escaped? c with
    | some e => scanString (size + 1 + c.utf8Size) (e :: text) cs
    | none => ⟨.error (.invalidEscape c), size + 1 + c.utf8Size, cs⟩
  | '"' :: cs => ⟨.ok (.str (String.ofList text.reverse)), size + 1, cs⟩
  | c :: cs => scanString (size + c.utf8Size) (c :: text) cs

/-- A number starts with a digit, or with a sign before a digit. -/
def startsNumber (c : Char) (cs : List Char) : Bool :=
  c.isDigit || ((c == '+' || c == '-') && (cs.head?.any Char.isDigit))

/-- A number from its first character on. It is a double if it has a point. -/
def scanNumber (c : Char) (cs : List Char) : Piece :=
  let more := cs.takeWhile Char.isDigit
  let whole := if c.isDigit then c :: more else more
  match cs.dropWhile Char.isDigit with
  | '.' :: rest =>
    let fraction := rest.takeWhile Char.isDigit
    ⟨.ok (.double (.ofDecimal (c == '-') (.ofDigits whole fraction))),
      more.length + fraction.length + 2, rest.dropWhile Char.isDigit⟩
  | rest =>
    match Integer.ofDigits? (c == '-') whole with
    | some n => ⟨.ok (.int n), more.length + 1, rest⟩
    | none => ⟨.error (.invalidNumber (String.ofList (c :: more))), more.length + 1, rest⟩

/-- A symbol, or the name of a boolean, from its first character on. -/
def scanSymbol (c : Char) (cs : List Char) : Piece :=
  let name := c :: cs.takeWhile isSymbolChar
  let token := match String.ofList name with
    | "true" => .bool true
    | "false" => .bool false
    | s => .sym s
  ⟨.ok token, Text.byteSize name, cs.dropWhile isSymbolChar⟩

/-- The item that starts with a character. -/
def scan (c : Char) (cs : List Char) : Piece :=
  if c = '(' then ⟨.ok .opening, 1, cs⟩
  else if c = ')' then ⟨.ok .closing, 1, cs⟩
  else if c = '\'' then ⟨.ok .quote, 1, cs⟩
  else if c = '"' then scanString 1 [] cs
  else if startsNumber c cs then scanNumber c cs
  else if isSymbolChar c then scanSymbol c cs
  else ⟨.error (.unexpectedCharacter c), c.utf8Size, cs⟩

/-! ## Every item takes at least one character -/

theorem length_skipTrivia_le (comment : Bool) (size : Nat) (cs : List Char) :
    (skipTrivia comment size cs).2.length ≤ cs.length := by
  induction cs generalizing comment size with
  | nil => simp [skipTrivia]
  | cons c cs ih =>
    simp only [skipTrivia]
    repeat' split
    all_goals first
      | exact Nat.le_refl _
      | exact Nat.le_trans (ih ..) (Nat.le_succ _)

theorem length_scanString_le (size : Nat) (text cs : List Char) :
    (scanString size text cs).rest.length ≤ cs.length := by
  fun_induction scanString size text cs <;> simp_all <;> omega

theorem length_scanNumber_le (c : Char) (cs : List Char) :
    (scanNumber c cs).rest.length ≤ cs.length := by
  have h := Text.length_dropWhile_le Char.isDigit cs
  unfold scanNumber
  dsimp only
  split
  · rename_i rest heq
    rw [heq] at h
    exact Nat.le_trans (Text.length_dropWhile_le _ rest) (Nat.le_trans (Nat.le_succ _) h)
  · split <;> exact h

theorem length_scan_le (c : Char) (cs : List Char) : (scan c cs).rest.length ≤ cs.length := by
  unfold scan
  repeat' split
  all_goals first
    | exact Nat.le_refl _
    | exact length_scanString_le ..
    | exact length_scanNumber_le ..
    | exact Text.length_dropWhile_le ..

/-! ## Items -/

/-- A piece that starts at a byte offset, as an item. -/
def Piece.item (p : Piece) (start : Nat) : Item :=
  match p.content with
  | .ok t => .ok ⟨t, start, start + p.size⟩
  | .error f => .error ⟨f, start, start + p.size⟩

/-- The items of a text that starts at a byte offset, after those found so far in reverse. -/
def itemsFrom (offset : Nat) (found : List Item) (cs : List Char) : List Item :=
  match h : skipTrivia false offset cs with
  | (_, []) => found.reverse
  | (start, c :: rest) =>
    have : (scan c rest).rest.length < cs.length := by
      have := length_skipTrivia_le false offset cs
      rw [h] at this
      exact Nat.lt_of_le_of_lt (length_scan_le c rest) this
    itemsFrom (start + (scan c rest).size) ((scan c rest).item start :: found) (scan c rest).rest
termination_by cs.length

/-- The items of a source, in order. -/
def items (source : String) : List Item := itemsFrom 0 [] source.toList

/-- The tokens of a source, or its first fault. -/
def tokenize (source : String) : Except (Located Fault) (List (Located Token)) :=
  (items source).mapM id

end SmallLisp.Reader
