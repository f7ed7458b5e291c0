/-!
# Command-line arguments

The program takes an expression to evaluate (`-e`, `--eval`) or the path of a script, and starts
an interactive session without either. Arguments are taken from the left, and the first that does
not fit makes the whole line wrong; a request for the version or for help is met at once. After
`--` every argument is a path.
-/

namespace SmallLisp.CommandLine

/-- What the arguments ask for. -/
inductive Request where
  | version
  | help
  | run (expression path logFilter : Option String)
  deriving DecidableEq, Repr

/-- The options met so far. -/
structure Options where
  expression : Option String
  path : Option String
  logFilter : Option String

/-- An option that has a value. -/
inductive Valued where
  | expression
  | logFilter
  deriving DecidableEq, Repr

namespace Options

/-- Gives an option its value; it may be given only once. -/
def set (o : Options) : Valued → String → Option Options
  | .expression, v => if o.expression.isSome then none else some { o with expression := some v }
  | .logFilter, v => if o.logFilter.isSome then none else some { o with logFilter := some v }

/-- Takes the path, of which there is at most one and which is not empty. -/
def setPath (o : Options) (path : String) : Option Options :=
  if o.path.isSome || path.isEmpty then none else some { o with path := some path }

/-- The request at the end of the arguments. An expression and a path exclude each other. -/
def request (o : Options) : Option Request :=
  if o.expression.isSome && o.path.isSome then none
  else some (.run o.expression o.path o.logFilter)

end Options

/-- How one argument reads. -/
inductive Argument where
  | separator
  | version
  | help
  | attached (option : Valued) (value : String)
  | awaiting (option : Valued)
  | path (path : String)
  | unknown
  deriving DecidableEq, Repr

/-- A long option, without its hyphens and split at the first equals sign. -/
def longArgument (name : String) : Option String → Argument
  | some v =>
    match name with
    | "eval" => .attached .expression v
    | "log-level" => .attached .logFilter v
    | _ => .unknown
  | none =>
    match name with
    | "eval" => .awaiting .expression
    | "log-level" => .awaiting .logFilter
    | "version" => .version
    | "help" => .help
    | _ => .unknown

def Argument.ofString (s : String) : Argument :=
  match s.toList with
  | ['-', '-'] => .separator
  | '-' :: '-' :: cs =>
    let name := String.ofList (cs.takeWhile (· != '='))
    match cs.dropWhile (· != '=') with
    | [] => longArgument name none
    | _ :: v => longArgument name (some (String.ofList v))
  | ['-', 'e'] => .awaiting .expression
  | '-' :: 'e' :: '=' :: v => .attached .expression (String.ofList v)
  | '-' :: 'e' :: v => .attached .expression (String.ofList v)
  | '-' :: 'V' :: _ => .version
  | '-' :: 'h' :: _ => .help
  | '-' :: _ :: _ => .unknown
  | _ => .path s

/-- The argument can be the value of the option before it. -/
def isValue (s : String) : Bool :=
  match Argument.ofString s with
  | .path _ => true
  | _ => false

/-- Takes the arguments after `--`. -/
def requestOfPaths (o : Options) : List String → Option Request
  | [] => o.request
  | s :: rest => (o.setPath s).bind fun o => requestOfPaths o rest

/-- Takes the arguments after those whose options are given; `none` for a wrong line. -/
def requestFrom (o : Options) : List String → Option Request
  | [] => o.request
  | s :: rest =>
    match Argument.ofString s, rest with
    | .separator, rest => requestOfPaths o rest
    | .version, _ => some .version
    | .help, _ => some .help
    | .attached option v, rest => (o.set option v).bind fun o => requestFrom o rest
    | .awaiting option, v :: rest =>
      if isValue v then (o.set option v).bind fun o => requestFrom o rest else none
    | .awaiting _, [] => none
    | .path path, rest => (o.setPath path).bind fun o => requestFrom o rest
    | .unknown, _ => none

/-- What the arguments ask for; `none` if they are wrong. -/
def request (args : List String) : Option Request := requestFrom ⟨none, none, none⟩ args

end SmallLisp.CommandLine
