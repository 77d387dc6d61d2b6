import PageTemplate.Number.Numeral
import PageTemplate.Number.Shortest
set_option autoImplicit false
/-!
Numbers are whole numbers of any size or floats, and the two kinds stay apart. Arithmetic on whole
numbers is exact; as soon as a float takes part, the other operand becomes the nearest float.

A NaN equals nothing, but a container is equal to itself even when it holds one. So a NaN remembers
where it came from: two NaNs of one origin are the same object.
-/
namespace PageTemplate

/-- A place of an expression tree, at a nesting depth of loops: what is made there is made once. -/
structure Mark where
  level : Nat
  path : List Nat
  deriving DecidableEq, Repr

/-- The argument or operand number `i` of the place. -/
def Mark.child (m : Mark) (i : Nat) : Mark := ⟨m.level, i :: m.path⟩

/-- Where a NaN came from: reading text that is no number, a JSON text, the given data, or a place of an
expression. The first two make one object for ever. -/
inductive Origin where
  | unreadable
  | json
  | given (index : Nat)
  | made (mark : Mark)
  deriving DecidableEq, Repr

inductive Number where
  | whole (n : Int)
  | float (x : Float)
  | nan (origin : Origin)

namespace Number

def ofFloat (origin : Origin) (x : Float) : Number := if x.isNaN then .nan origin else .float x

def toFloat : Number → Except Fault Float
  | .whole n => (floatOfInt? n).elim (.error .tooLarge) .ok
  | .float x => .ok x
  | .nan _ => .ok notANumber

/-- Exact comparison; a NaN compares with nothing. -/
def compare? : Number → Number → Option Ordering
  | .whole a, .whole b => some (compare a b)
  | .whole a, .float y => some (compareIntFloat a y)
  | .float x, .whole b => some (compareIntFloat b x).swap
  | .float x, .float y => if x < y then some .lt else if x == y then some .eq else some .gt
  | _, _ => none
where
  compareIntFloat (n : Int) (x : Float) : Ordering :=
    match Binary.ofFloat? x with
    | some b => b.compareInt n
    | none => if x < 0.0 then .gt else .lt

def equals (a b : Number) : Bool := compare? a b == some .eq

def below (a b : Number) : Bool := compare? a b == some .lt

def atMost (a b : Number) : Bool := below a b || equals a b

/-- Equal, or the very same NaN. -/
def alike : Number → Number → Bool
  | .nan o, .nan p => o == p
  | a, b => equals a b

def isZero : Number → Bool
  | .whole n => n == 0
  | .float x => x == 0.0
  | .nan _ => false

def text : Number → Except Fault Text
  | .whole n => wholeText n
  | .float x => .ok (floatText x)
  | .nan _ => .ok (PageTemplate.text "nan")

def withFloats (origin : Origin) (op : Float → Float → Float) (a b : Number) : Except Fault Number := do
  return ofFloat origin (op (← a.toFloat) (← b.toFloat))

def add (origin : Origin) : Number → Number → Except Fault Number
  | .whole a, .whole b => .ok (.whole (a + b))
  | a, b => withFloats origin (· + ·) a b

def sub (origin : Origin) : Number → Number → Except Fault Number
  | .whole a, .whole b => .ok (.whole (a - b))
  | a, b => withFloats origin (· - ·) a b

def mul (origin : Origin) : Number → Number → Except Fault Number
  | .whole a, .whole b => .ok (.whole (a * b))
  | a, b => withFloats origin (· * ·) a b

/-- A quotient is a float even of whole numbers, and then the float nearest to the exact quotient. The
divisor is not zero. -/
def div (origin : Origin) : Number → Number → Except Fault Number
  | .whole a, .whole b =>
    match nearest? ((a < 0) != (b < 0)) a.natAbs b.natAbs with
    | some x => .ok (.float x)
    | none => .error .tooLarge
  | a, b => withFloats origin (· / ·) a b

/-- The remainder of two floats, with the sign of the dividend. An infinite dividend has none. -/
def floatRem (x y : Float) : Except Fault Float :=
  if x.isNaN || y.isNaN then .ok notANumber
  else match Binary.ofFloat? x, Binary.ofFloat? y with
    | none, _ => .error .outOfDomain
    | some _, none => .ok x
    | some a, some b => .ok ((a.remainder b).getD x)

/-- The remainder, computed on floats in every case. The divisor is not zero. -/
def rem (origin : Origin) (a b : Number) : Except Fault Number := do
  let r ← floatRem (← a.toFloat) (← b.toFloat)
  match a, b with
  | .whole _, .whole _ => return .whole ((Binary.ofFloat? r).elim 0 Binary.trunc)
  | _, _ => return ofFloat origin r

def neg (origin : Origin) : Number → Number
  | .whole n => .whole (-n)
  | .float x => .float (-x)
  | .nan _ => .nan origin

def abs (origin : Origin) : Number → Number
  | .whole n => .whole n.natAbs
  | .float x => .float x.abs
  | .nan _ => .nan origin

/-- Conversion to a whole number by a rule for the fractional part. -/
def toWhole (rule : Binary → Int) : Number → Except Fault Int
  | .whole n => .ok n
  | .float x => (Binary.ofFloat? x).elim (.error .tooLarge) fun b => .ok (rule b)
  | .nan _ => .error .outOfDomain

/-- The whole number just at or below the number plus one half, the sum being a float. -/
def round (n : Number) : Except Fault Int := do
  toWhole Binary.floor (ofFloat .unreadable ((← n.toFloat) + 0.5))

def sign (n : Number) : Int :=
  if below (.whole 0) n then 1 else if below n (.whole 0) then -1 else 0

def sqrt (origin : Origin) (n : Number) : Except Fault Number := do
  let x ← n.toFloat
  if x < 0.0 then .error .outOfDomain else return ofFloat origin x.sqrt

/-- Powers of floats. A finite power that does not exist is out of domain, one that is infinite is too
large, except that a zero base has no negative power. -/
def pow (origin : Origin) (a b : Number) : Except Fault Number := do
  let x ← a.toFloat
  let y ← b.toFloat
  let r := Float.pow x y
  if x.isFinite && y.isFinite && !r.isFinite then
    if r.isNaN || x == 0.0 then .error .outOfDomain else .error .tooLarge
  else return ofFloat origin r

/-- The first of the numbers that no later one beats. -/
def extreme (beats : Number → Number → Bool) : Number → List Number → Number
  | best, [] => best
  | best, n :: rest => extreme beats (if beats n best then n else best) rest

/-- The number a text denotes: nothing is zero, digits are a whole number, and what is no numeral is a
NaN. -/
def ofText (origin : Origin) (t : Text) : Except Fault Number :=
  let s := trim t
  if s.isEmpty then .ok (.whole 0)
  else match readWhole? s with
    | some n => n.map .whole
    | none =>
      match readFloat? s with
      | some x => .ok (ofFloat origin x)
      | none => .ok (.nan .unreadable)

end Number

end PageTemplate
