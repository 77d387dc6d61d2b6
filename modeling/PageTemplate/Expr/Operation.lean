import PageTemplate.Expr.Basic
import PageTemplate.Expr.Outcome
import PageTemplate.Value.Path
set_option autoImplicit false
/-!
The operators on values.

Strict equality asks for one type, where the two kinds of number are one type and booleans another;
loose equality also reads texts as numbers. Order exists between numbers, with booleans among them, and
between texts.
-/
namespace PageTemplate.Value

/-- The number a value stands for where a number is wanted. A number is itself, a NaN included. -/
def toNumber (origin : Origin) : Value → Except Fault Number
  | .bool b => .ok (.whole (if b then 1 else 0))
  | .number n => .ok n
  | .str t => Number.ofText origin t
  | .null => .ok (.whole 0)
  | _ => .ok (.nan .unreadable)

def isBool : Value → Bool
  | .bool _ => true
  | _ => false

def sameType (a b : Value) : Bool := a.typeName == b.typeName

def strictEquals (a b : Value) : Bool :=
  if a.isBool != b.isBool then false
  else
    match a.asNumber?, b.asNumber? with
    | some m, some n => m.equals n
    | _, _ => sameType a b && a.equals b

def looseEquals (a b : Value) : Except Fault Bool :=
  match a, b with
  | .null, .null => .ok true
  | .null, _ | _, .null => .ok false
  | .str t, b =>
    match b.asNumber? with
    | some n => (Number.ofText .unreadable t).map (·.equals n)
    | none => .ok (a.equals b)
  | a, .str t =>
    match a.asNumber? with
    | some n => (Number.ofText .unreadable t).map n.equals
    | none => .ok (a.equals b)
  | a, b => .ok (a.equals b)

inductive OrderOp where
  | lt | gt | le | ge
  deriving DecidableEq, Repr

def OrderOp.symbol : OrderOp → Text
  | .lt => ['<'] | .gt => ['>'] | .le => ['<', '='] | .ge => ['>', '=']

def OrderOp.onNumbers : OrderOp → Number → Number → Bool
  | .lt, a, b => a.below b
  | .gt, a, b => b.below a
  | .le, a, b => a.atMost b
  | .ge, a, b => b.atMost a

def OrderOp.onTexts : OrderOp → Text → Text → Bool
  | .lt, a, b => a.before b
  | .gt, a, b => b.before a
  | .le, a, b => a.noLaterThan b
  | .ge, a, b => b.noLaterThan a

def order (op : OrderOp) (a b : Value) : Except ExprError Bool :=
  match a.asNumber?, b.asNumber?, a, b with
  | some m, some n, _, _ => .ok (op.onNumbers m n)
  | _, _, .str s, .str t => .ok (op.onTexts s t)
  | _, _, _, _ => .error (.cannotCompare a.typeName b.typeName op.symbol)

def requireNumber (op : BinaryOp) (v : Value) : Outcome Number :=
  match v.asNumber? with
  | some n => .ok n
  | none => .fail (.needsNumbers op.symbol v.typeName)

/-- An operation on two numbers, each of which is asked for in turn. -/
def onNumbers (op : BinaryOp) (a b : Value) (f : Number → Number → Outcome Number) :
    Outcome Value := do
  let m ← requireNumber op a
  let n ← requireNumber op b
  return .number (← f m n)

/-- A sum is a longer text as soon as one operand is a text. -/
def add (origin : Origin) (a b : Value) : Outcome Value :=
  match a, b with
  | .str _, _ | _, .str _ => do
    let s ← Outcome.joined a
    let t ← Outcome.joined b
    return .str (s ++ t)
  | _, _ => onNumbers .add a b fun m n => .ofExcept (m.add origin n)

def divide (op : BinaryOp) (a b : Value) (f : Number → Number → Except Fault Number) :
    Outcome Value :=
  onNumbers op a b fun m n => if n.isZero then .fail .divisionByZero else .ofExcept (f m n)

def ofOrder (op : OrderOp) (a b : Value) : Outcome Value :=
  match order op a b with
  | .ok r => .ok (.bool r)
  | .error e => .fail e

/-- The value of a binary operator; a NaN it makes is of the given origin. -/
def operate (origin : Origin) : BinaryOp → Value → Value → Outcome Value
  | .add, a, b => add origin a b
  | .sub, a, b => onNumbers .sub a b fun m n => .ofExcept (m.sub origin n)
  | .mul, a, b => onNumbers .mul a b fun m n => .ofExcept (m.mul origin n)
  | .div, a, b => divide .div a b (Number.div origin)
  | .rem, a, b => divide .rem a b (Number.rem origin)
  | .same, a, b => .ok (.bool (strictEquals a b))
  | .notSame, a, b => .ok (.bool (!strictEquals a b))
  | .equal, a, b => .ofExcept ((looseEquals a b).map .bool)
  | .notEqual, a, b => .ofExcept ((looseEquals a b).map fun same => .bool (!same))
  | .lt, a, b => ofOrder .lt a b
  | .gt, a, b => ofOrder .gt a b
  | .le, a, b => ofOrder .le a b
  | .ge, a, b => ofOrder .ge a b

def applyUnary (origin : Origin) : UnaryOp → Value → Except Fault Value
  | .not, v => .ok (.bool (!v.truthy))
  | .neg, v => (v.toNumber origin).map fun n => .number (n.neg origin)
  | .pos, v => (v.toNumber origin).map .number

end PageTemplate.Value
