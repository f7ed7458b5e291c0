import SmallLisp.Source
import SmallLisp.Text.Backspace
import SmallLisp.Text.Blank

/-!
# The interactive session

Each line is a source of its own, and all are evaluated in one global environment. A value goes to
standard output, after what the line printed, and an error to standard error; neither ends the
session, which lasts until the end of the input.
-/

namespace SmallLisp

/-- What a run of the program leaves behind. -/
structure Transcript where
  code : Nat
  out : String
  err : String
  deriving DecidableEq, Repr

namespace Repl

def banner : String := "Slip 0.1.0\n"

def prompt : String := "slip> "

/-- What a line has written. -/
structure Reply where
  out : String
  err : String

/-- Evaluates one line; a blank one is skipped. -/
def respond (depth : Nat) (env : Env) (line : String) (s : State) : Option (Reply × State) :=
  if Text.isBlankText line then some (⟨"", ""⟩, s)
  else
    match evaluateSource depth line env s with
    | some (result, s') =>
      let (printed, s'') := s'.takeOutput
      match result with
      | .ok v => some (⟨printed ++ v.render ++ "\n", ""⟩, s'')
      | .error e => some (⟨printed, e.description ++ "\n"⟩, s'')
    | none => none

/-- The lines of a text with their endings, after the characters of the first so far in reverse. -/
def linesFrom (line : List Char) : List Char → List (List Char)
  | [] => if line.isEmpty then [] else [line.reverse]
  | '\n' :: cs => ('\n' :: line).reverse :: linesFrom [] cs
  | c :: cs => linesFrom (c :: line) cs

/-- A line without its ending, which is a line feed or a carriage return and a line feed. -/
def dropEnding (line : List Char) : List Char :=
  match line.reverse with
  | '\n' :: '\r' :: cs => cs.reverse
  | '\n' :: cs => cs.reverse
  | _ => line

/-- The text of a line: backspaces take effect, and the ending is no part of it. -/
def lineText (line : List Char) : String :=
  String.ofList (Text.applyBackspaces (dropEnding line))

def lines (input : String) : List String := (linesFrom [] input.toList).map lineText

/-- What the session writes from one prompt on. -/
def session (depth : Nat) (env : Env) : List String → State → Option Reply
  | [], _ => some ⟨prompt, ""⟩
  | line :: lines, s =>
    match respond depth env line s with
    | some (reply, s') =>
      (session depth env lines s').map fun rest =>
        ⟨prompt ++ reply.out ++ rest.out, reply.err ++ rest.err⟩
    | none => none

/-- The session on an input, from a fresh global environment. -/
def run (depth : Nat) (input : String) : Option Transcript :=
  let (env, s) := State.empty.pushGlobal
  (session depth env (lines input) s).map fun reply => ⟨0, banner ++ reply.out, reply.err⟩

end Repl

end SmallLisp
