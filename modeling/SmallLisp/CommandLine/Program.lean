import SmallLisp.CommandLine.Arguments
import SmallLisp.CommandLine.LogFilter
import SmallLisp.Repl

/-!
# The program

What the program writes, and the code it exits with, for each request. A script shows only what it
prints itself, an expression its value too.
-/

namespace SmallLisp.CommandLine

/-- Why a file has no text. -/
inductive FileError where
  | notFound
  | notDirectory
  | isDirectory
  | nameTooLong
  | permissionDenied
  | notUtf8
  deriving DecidableEq, Repr

def FileError.message : FileError → String
  | notFound => "No such file or directory (os error 2)"
  | notDirectory => "Not a directory (os error 20)"
  | isDirectory => "Is a directory (os error 21)"
  | nameTooLong => "File name too long (os error 36)"
  | permissionDenied => "Permission denied (os error 13)"
  | notUtf8 => "stream did not contain valid UTF-8"

/-- The text of a file with the given bytes. -/
def decode (bytes : ByteArray) : Except FileError String :=
  match String.fromUTF8? bytes with
  | some text => .ok text
  | none => .error .notUtf8

def version : String := "slip-runner 0.1.0\n"

def usage : String := "Usage: slip [-e EXPR | PATH] [--log-level LEVEL]\n"

/-- The code for arguments that are wrong. -/
def usageCode : Nat := 2

/-- Ends with a message on standard error. -/
def failure (out message : String) : Transcript := ⟨1, out, message ++ "\n"⟩

/-- Evaluates an expression and shows its value. -/
def runExpression (depth : Nat) (expression : String) : Option Transcript :=
  (evaluateAlone depth expression).map fun
    | (.ok v, out) => ⟨0, out ++ v.render ++ "\n", ""⟩
    | (.error e, out) => failure out e.message

/-- Runs the text of a script. -/
def runSource (depth : Nat) (source : String) : Option Transcript :=
  (evaluateAlone depth source).map fun
    | (.ok _, out) => ⟨0, out, ""⟩
    | (.error e, out) => failure out e.message

def runScript (depth : Nat) (path : String) : Except FileError String → Option Transcript
  | .ok source => runSource depth source
  | .error e => some (failure "" ("Could not read " ++ path ++ ": " ++ e.message))

/-- The log filter is checked before anything is run. -/
def checkLogFilter : Option String → Except String Unit
  | none => .ok ()
  | some filter =>
    match LogFilter.check filter with
    | .ok () => .ok ()
    | .error e => .error ("Invalid log level: " ++ e.message)

/-- Runs the program on its arguments, the files it can read and its standard input. -/
def run (depth : Nat) (files : String → Except FileError ByteArray) (input : String)
    (args : List String) : Option Transcript :=
  match request args with
  | none => some ⟨usageCode, "", usage⟩
  | some .version => some ⟨0, version, ""⟩
  | some .help => some ⟨0, usage, ""⟩
  | some (.run expression path logFilter) =>
    match checkLogFilter logFilter with
    | .error message => some (failure "" message)
    | .ok () =>
      match expression, path with
      | some expression, _ => runExpression depth expression
      | none, some path => runScript depth path (files path >>= decode)
      | none, none => Repl.run depth input

end SmallLisp.CommandLine
