import SmallLisp.Double.Shortest
import SmallLisp.Text.Quoted

/-!
# Tokens

The reader splits source text into tokens. A run of characters that is no token has a fault
instead. Both are kept with the bytes of the source that they stand for.
-/

namespace SmallLisp.Reader

inductive Token where
  | opening
  | closing
  | quote
  | int (n : Int64)
  | double (x : Double)
  | bool (b : Bool)
  | str (s : String)
  | sym (name : String)
  deriving DecidableEq

/-- The form of a token in messages; a double that is a whole number has no point. -/
def Token.shown : Token → String
  | opening => "("
  | closing => ")"
  | quote => "'"
  | int n => String.ofList (Decimal.signChars (n.toInt < 0) ++ Nat.toDigits 10 n.toInt.natAbs)
  | double x => String.ofList x.chars
  | bool b => if b then "true" else "false"
  | str s => String.ofList (Text.shown s.toList)
  | sym name => name

/-- Why a run of characters is no token. -/
inductive Fault where
  | unexpectedCharacter (c : Char)
  | unterminatedString
  | invalidEscape (c : Char)
  | invalidNumber (literal : String)
  deriving DecidableEq

/-- Something that stands for the bytes of the source from `start` up to `stop`. -/
structure Located (α : Type) where
  val : α
  start : Nat
  stop : Nat
  deriving DecidableEq

/-- The byte offset that a fault points at: the backslash of an escape, which with the character
after it ends the run, and else the start. -/
def Located.faultOffset (f : Located Fault) : Nat :=
  match f.val with
  | .invalidEscape c => f.stop - c.utf8Size - 1
  | _ => f.start

def Located.faultMessage (f : Located Fault) : String :=
  let what := match f.val with
    | .unexpectedCharacter c => "unexpected character '" ++ c.toString ++ "' at"
    | .unterminatedString => "unterminated string literal starting at"
    | .invalidEscape c => "invalid escape sequence '\\" ++ c.toString ++ "' at"
    | .invalidNumber literal => "invalid number literal '" ++ literal ++ "' at"
  what ++ " offset " ++ f.faultOffset.repr

/-- One item of a source: a token, or a fault where there is none. -/
abbrev Item := Except (Located Fault) (Located Token)

end SmallLisp.Reader
