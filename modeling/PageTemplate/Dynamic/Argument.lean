import PageTemplate.Dynamic.Tag
import PageTemplate.Expr.Token
import PageTemplate.Value.Path
import PageTemplate.Notice
set_option autoImplicit false
/-!
Arguments of user functions. They are separated by commas, quotes notwithstanding. An argument is tried
as a quoted text, a reference in double braces, a keyword, a number, and last as a name, which stands for
itself when no variable has it. Unsafe names and `undefined` vanish, and later arguments move up. A whole
number with too many digits ends the work.
-/
namespace PageTemplate.Argument

inductive Meaning where
  | value (v : Value)
  | nothing
  | refused (n : Notice)
  | failed (f : Fault)

def Meaning.ofExcept : Except Fault Value → Meaning
  | .ok v => .value v
  | .error f => .failed f

def isQuote (c : Char) : Bool := c = '"' || c = '\''

/-- The inside of a text that starts and ends with a quote, of either kind at either end. -/
def quoted? : Text → Option Text
  | q :: r =>
    match r.getLast? with
    | some e => if isQuote q && isQuote e then some r.dropLast else none
    | none => none
  | [] => none

/-- A word in double braces. -/
def readReference : TagReader Text := fun t => do
  let r ← after? Tag.opening t
  let (word, r) := spanWord r
  let rest ← after? Tag.closing r
  if word.isEmpty then none else some (word, rest)

/-- The first reference in an argument. -/
def reference? (arg : Text) : Option Text :=
  (Piece.scan readReference arg).findSome? fun
    | .tag name _ => some name
    | .char _ => none

def isNumeral (arg : Text) : Bool :=
  let body := (readSign arg).2
  !body.isEmpty && Token.numberLength body == body.length

def numeral (arg : Text) : Except Fault Value :=
  match readWhole? arg with
  | some n => n.map .int
  | none => .ok (.number (.float ((readFloat? arg).getD 0.0)))

/-- The meaning of an argument that refers to no variable in braces. -/
def bare (vars : Entries) (arg : Text) : Meaning :=
  if arg = text "true" then .value (.bool true)
  else if arg = text "false" then .value (.bool false)
  else if arg = text "null" then .value .null
  else if arg = text "undefined" then .nothing
  else if isNumeral arg then .ofExcept (numeral arg)
  else if isUnsafeName arg then .refused (.unsafeArgument arg)
  else .value ((vars.get? arg).getD (.str arg))

/-- The meaning of a trimmed argument. -/
def classify (vars : Entries) (arg : Text) : Meaning :=
  match quoted? arg with
  | some t => .value (.str t)
  | none =>
    match reference? arg with
    | none => bare vars arg
    | some name =>
      if isUnsafeName name then .refused (.unsafeReference name)
      else
        match vars.get? name with
        | some v => .value v
        | none => bare vars arg

/-- The meanings of all arguments that are not blank. -/
def meanings (vars : Entries) (raw : Text) : List Meaning :=
  ((splitAt [','] raw).map trim).filter (!·.isEmpty) |>.map (classify vars)

/-- The values among meanings, up to the first failure. -/
def valuesOf : List Meaning → Except Fault (List Value)
  | [] => .ok []
  | .value v :: ms => (valuesOf ms).map (v :: ·)
  | .failed f :: _ => .error f
  | .nothing :: ms | .refused _ :: ms => valuesOf ms

/-- What is reported about meanings, up to the first failure. -/
def noticesOf : List Meaning → List Notice
  | [] | .failed _ :: _ => []
  | .refused n :: ms => n :: noticesOf ms
  | .value _ :: ms | .nothing :: ms => noticesOf ms

/-- The values of the arguments. -/
def values (vars : Entries) (raw : Text) : Except Fault (List Value) := valuesOf (meanings vars raw)

def notices (vars : Entries) (raw : Text) : List Notice := noticesOf (meanings vars raw)

end PageTemplate.Argument
