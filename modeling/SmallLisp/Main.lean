import SmallLisp.CommandLine.Program

/-!
# The executable

Only input and output are here. An interactive session answers each line before it reads the next.
-/

namespace SmallLisp.Main

/-- The depth of nested expressions that a run may reach. -/
def depth : Nat := 10000000

def readFile (path : String) : IO (Except CommandLine.FileError ByteArray) := do
  try
    return .ok (← IO.FS.readBinFile path)
  catch
    | .noFileOrDirectory .. => return .error .notFound
    | .invalidArgument .. => return .error .nameTooLong
    | .permissionDenied .. => return .error .permissionDenied
    | .inappropriateType _ 21 _ => return .error .isDirectory
    | .inappropriateType .. => return .error .notDirectory
    | _ => return .error .notFound

def write (t : Transcript) : IO UInt32 := do
  IO.print t.out
  IO.eprint t.err
  return t.code.toUInt32

def endless : IO UInt32 := do
  IO.eprintln "Nested too deep"
  return 1

/-- Answers line after line. -/
partial def converse (env : Env) (s : State) : IO UInt32 := do
  IO.print Repl.prompt
  (← IO.getStdout).flush
  let line ← (← IO.getStdin).getLine
  if line.isEmpty then return 0
  match Repl.respond depth env (Repl.lineText line.toList) s with
  | some (reply, s) =>
    IO.print reply.out
    IO.eprint reply.err
    converse env s
  | none => endless

def run (expression path : Option String) : IO UInt32 := do
  let transcript? ← match expression, path with
    | some expression, _ => pure (CommandLine.runExpression depth expression)
    | none, some path => do
      pure (CommandLine.runScript depth path ((← readFile path) >>= CommandLine.decode))
    | none, none => do
      IO.print Repl.banner
      let (env, s) := State.empty.pushGlobal
      return ← converse env s
  match transcript? with
  | some t => write t
  | none => endless

end SmallLisp.Main

open SmallLisp in
def main (args : List String) : IO UInt32 := do
  match CommandLine.request args with
  | some (.run expression path logFilter) =>
    match CommandLine.checkLogFilter logFilter with
    | .ok () => Main.run expression path
    | .error message => Main.write (CommandLine.failure "" message)
  | _ =>
    match CommandLine.run Main.depth (fun _ => .error .notFound) "" args with
    | some t => Main.write t
    | none => Main.endless
