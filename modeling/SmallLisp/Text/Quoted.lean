import SmallLisp.Text.Printable

/-!
# Quoted text

Two notations for a text between double quotes. A literal (`literal`) is what the reader takes:
four characters are written as a backslash and a letter, and every other character stands for
itself. A message shows a text in a form that has only printable characters (`shown`).
-/

namespace SmallLisp.Text

/-- The letter that stands, after a backslash, for a character of a literal. -/
def escapeLetter? : Char → Option Char
  | '"' => some '"'
  | '\\' => some '\\'
  | '\n' => some 'n'
  | '\t' => some 't'
  | _ => none

/-- The character that a letter stands for after a backslash. -/
def escaped? : Char → Option Char
  | '"' => some '"'
  | '\\' => some '\\'
  | 'n' => some '\n'
  | 't' => some '\t'
  | _ => none

theorem escaped?_of_escapeLetter? {c letter : Char} (h : escapeLetter? c = some letter) :
    escaped? letter = some c := by
  unfold escapeLetter? at h
  split at h <;> cases h <;> rfl

/-- A character as a literal writes it. -/
def literalChar (c : Char) : List Char :=
  match escapeLetter? c with
  | some letter => ['\\', letter]
  | none => [c]

/-- A text as a literal. -/
def literal (s : List Char) : List Char := '"' :: (s.flatMap literalChar ++ ['"'])

/-- A character as a message shows it. -/
def shownChar : Char → List Char
  | '"' => ['\\', '"']
  | '\\' => ['\\', '\\']
  | '\x00' => ['\\', '0']
  | '\t' => ['\\', 't']
  | '\n' => ['\\', 'n']
  | '\r' => ['\\', 'r']
  | c => if isPrintable c then [c] else "\\u\x7b".toList ++ Nat.toDigits 16 c.toNat ++ ['\x7d']

/-- A text as a message shows it. -/
def shown (s : List Char) : List Char := '"' :: (s.flatMap shownChar ++ ['"'])

end SmallLisp.Text
