import SmallLisp.CommandLine.Pattern
import SmallLisp.Text.Size

/-!
# Log filters

A log filter is a list of directives with commas between them. A directive is a level, a target,
or a target or a span in brackets with a level after an equals sign; a span may name a field, and
compare it with a number or a pattern. Here a filter is only checked: the program logs nothing at
the levels that it is run with.
-/

namespace SmallLisp.LogFilter

inductive FilterError where
  | directive
  | level
  | field (e : Pattern.PatternError)
  deriving DecidableEq, Repr

def FilterError.message : FilterError → String
  | directive => "invalid filter directive"
  | level => "error parsing level filter: expected one of \"off\", \"error\", \"warn\", \"info\", "
      ++ "\"debug\", \"trace\", or a number 0-5"
  | field e => "invalid field filter: " ++ e.message

def levels : List String := ["", "off", "error", "warn", "info", "debug", "trace"]

/-- A level is a name in any case, or a number up to five. -/
def isLevel (cs : List Char) : Bool :=
  let digits := match cs with
    | '+' :: ds => ds
    | ds => ds
  levels.contains (String.ofList (cs.map Char.toLower)) ||
    (!digits.isEmpty && digits.all Char.isDigit && Nat.ofDigitChars 10 digits 0 ≤ 5)

def dropSign : List Char → List Char
  | '+' :: cs | '-' :: cs => cs
  | cs => cs

/-- A decimal number without a sign: digits, among which may be a point, and an exponent. -/
def isDecimal (cs : List Char) : Bool :=
  let (fraction, rest) := match cs.dropWhile Char.isDigit with
    | '.' :: rest => (rest.takeWhile Char.isDigit, rest.dropWhile Char.isDigit)
    | rest => ([], rest)
  let exponent := dropSign rest.tail
  !(cs.takeWhile Char.isDigit ++ fraction).isEmpty && (rest.isEmpty ||
    (rest.head? == some 'e' || rest.head? == some 'E') && !exponent.isEmpty &&
      exponent.all Char.isDigit)

/-- The value of a field is a number, of any size, infinite or none at all. -/
def isNumber (cs : List Char) : Bool :=
  let cs := dropSign cs
  isDecimal cs || ["inf", "infinity", "nan"].contains (String.ofList (cs.map Char.toLower))

/-- Checks a field. What stands between its first two equals signs is a number or a pattern. -/
def checkField (field : List Char) : Except FilterError Unit :=
  match field.dropWhile (· != '=') with
  | [] => .ok ()
  | _ :: rest =>
    let value := rest.takeWhile (· != '=')
    if isNumber value then .ok () else (Pattern.check value).mapError .field

/-- Where the check of a directive stands; a field starts at a byte of it. -/
inductive Place where
  | target
  | span
  | field (start : Nat)
  | fields
  | closed
  deriving DecidableEq, Repr

/-- Checks the rest of a directive, after `position` bytes. Fields and levels are cut out of `whole`,
in which blanks may come first, although the bytes are counted from behind them. -/
def checkFrom (whole : List Char) (position : Nat) : Place → List Char → Except FilterError Unit
  | .target, [] | .closed, [] => .ok ()
  | _, [] => .error .directive
  | .target, '=' :: _ | .closed, '=' :: _ =>
    if isLevel (Text.dropBytes (position + 1) whole) then .ok () else .error .level
  | .target, '[' :: cs => checkFrom whole (position + 1) .span cs
  | .target, c :: cs => checkFrom whole (position + c.utf8Size) .target cs
  | .span, ']' :: cs => checkFrom whole (position + 1) .closed cs
  | .span, '\x7b' :: cs => checkFrom whole (position + 1) (.field (position + 1)) cs
  | .span, c :: cs => checkFrom whole (position + c.utf8Size) .span cs
  | .field start, '\x7d' :: cs =>
    if start = position then .error .directive
    else
      match checkField (Text.takeBytes (position - start) (Text.dropBytes start whole)) with
      | .ok () => checkFrom whole (position + 1) .fields cs
      | .error e => .error e
  | .field start, c :: cs => checkFrom whole (position + c.utf8Size) (.field start) cs
  | .fields, ']' :: cs => checkFrom whole (position + 1) .closed cs
  | .fields, _ | .closed, _ => .error .directive

def checkDirective (whole : List Char) : Except FilterError Unit :=
  match ((whole.dropWhile Text.isBlank).reverse.dropWhile Text.isBlank).reverse with
  | [] => .error .directive
  | '[' :: cs => checkFrom whole 1 .span cs
  | c :: cs =>
    if Text.isAlphanumeric c || c == '-' || c == ':' || c == '_' then
      checkFrom whole c.utf8Size .target cs
    else .error .directive

/-- Checks a filter. Empty directives are left out. -/
def check (filter : String) : Except FilterError Unit :=
  ((filter.toList.splitOn ',').filter (!·.isEmpty)).forM checkDirective

end SmallLisp.LogFilter
