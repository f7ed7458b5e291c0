import SmallLisp.Eval.Rules
import SmallLisp.Reader.Reading

/-!
# Evaluating source text

A source is read as a whole before anything is evaluated. Then its forms are evaluated in order in
one environment; an error ends that, and what earlier forms have defined and printed remains.
-/

namespace SmallLisp

/-- Why a source has no value. -/
inductive SourceError where
  | reading (e : Reader.ReadError)
  | evaluation (e : EvalError)

namespace SourceError

/-- The stage that failed. -/
inductive Stage where
  | lexing | parsing | evaluation
  deriving DecidableEq, Repr

def stage : SourceError → Stage
  | reading (.lexical _) => .lexing
  | reading _ => .parsing
  | evaluation _ => .evaluation

def cause : SourceError → String
  | reading e => e.message
  | evaluation e => e.message

/-- The message of a script. -/
def message (e : SourceError) : String :=
  let stage := match e.stage with
    | .lexing => "Lexing error: "
    | .parsing => "Parsing error: "
    | .evaluation => "Evaluation error: "
  stage ++ e.cause

/-- The message of an interactive session. -/
def description (e : SourceError) : String :=
  let stage := match e.stage with
    | .lexing => "Error reading input:\n"
    | .parsing => "Error parsing input:\n"
    | .evaluation => "Error evaluating:\n"
  stage ++ e.cause

end SourceError

/-- The value of a source: that of its last form, nil if there is none. -/
def evaluateSource (depth : Nat) (source : String) (env : Env) : Run SourceError Value :=
  match Reader.parse source with
  | .error e => Run.fail (.reading e)
  | .ok forms => (evalBody (eval depth) env forms).mapError .evaluation

/-- The value of a source in a fresh global environment, and the text that it printed. -/
def evaluateAlone (depth : Nat) (source : String) :
    Option (Except SourceError Value × String) :=
  let (env, s) := State.empty.pushGlobal
  (evaluateSource depth source env s).map fun (result, s') => (result, s'.output)

end SmallLisp
