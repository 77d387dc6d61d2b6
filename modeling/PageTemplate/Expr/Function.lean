import PageTemplate.Expr.Method
import PageTemplate.Expr.Operation
import PageTemplate.Value.Json.Reader
set_option autoImplicit false
/-!
The fixed functions. Each takes the number of arguments stated here and no other; a missing optional
argument has a default of its own.
-/
namespace PageTemplate

/-- What an evaluation takes from its surroundings: the next random number below one, the time in
milliseconds, and the seconds it may take. -/
structure Ambient where
  random : Float
  now : Int
  budget : Float

/-- With no time left even the first step is too late. -/
def Ambient.expired (a : Ambient) : Bool := a.budget ≤ 0.0

def circleRatio : Float := floatOfDecimal false 3141592653589793 16 (-15)

def naturalBase : Float := floatOfDecimal false 2718281828459045 16 (-15)

def Library.member? (l : Library) (name : Text) : Option Value :=
  let functions : List Builtin :=
    match l with
    | .math => [.max, .min, .abs, .floor, .ceil, .round, .trunc, .sign, .sqrt, .pow, .random]
    | .json => [.stringify, .parse]
    | .date => [.now]
    | .array => [.isArray]
  match functions.find? fun b => b.name == l.name ++ '.' :: name with
  | some b => some (.builtin b)
  | none =>
    if l = .math && name = text "PI" then some (.number (.float circleRatio))
    else if l = .math && name = text "E" then some (.number (.float naturalBase))
    else none

def mathExtreme (origin : Origin) (beats : Number → Number → Bool) (empty : Float)
    (args : List Value) : Except Fault Value := do
  match ← args.mapM (Value.toNumber origin) with
  | [] => return .number (.float empty)
  | n :: ns => return .number (Number.extreme beats n ns)

/-- A result made from the number that a value stands for. -/
def ofNumber {α : Type} (origin : Origin) (v : Value) (wrap : α → Value) (f : Number → Except Fault α) :
    Outcome Value :=
  .ofExcept ((v.toNumber origin >>= f).map wrap)

def Builtin.apply (ambient : Ambient) (origin : Origin) (b : Builtin) (args : List Value) :
    Outcome Value :=
  match b, args with
  | .toText, [] => .ok (.str [])
  | .toText, [v] => return .str (← Outcome.joined v)
  | .toNumber, [] => .ok (.int 0)
  | .toNumber, [v] => ofNumber origin v .number .ok
  | .toBoolean, [] => .ok (.bool false)
  | .toBoolean, [v] => .ok (.bool v.truthy)
  | .max, args => .ofExcept (mathExtreme origin (fun n best => best.below n) (infinity true) args)
  | .min, args => .ofExcept (mathExtreme origin (fun n best => n.below best) (infinity false) args)
  | .abs, [v] => ofNumber origin v .number fun n => .ok (n.abs origin)
  | .floor, [v] => ofNumber origin v .int (Number.toWhole Binary.floor)
  | .ceil, [v] => ofNumber origin v .int (Number.toWhole Binary.ceil)
  | .trunc, [v] => ofNumber origin v .int (Number.toWhole Binary.trunc)
  | .round, [v] => ofNumber origin v .int Number.round
  | .sign, [v] => ofNumber origin v .int fun n => .ok n.sign
  | .sqrt, [v] => ofNumber origin v .number (Number.sqrt origin)
  | .pow, [v, w] => ofNumber origin v .number fun m => do m.pow origin (← w.toNumber origin)
  | .random, [] => .ok (.number (.float ambient.random))
  | .stringify, v :: _ => return .str (← Outcome.ofExcept (Json.write false v))
  | .parse, [v] => .ofExcept do Json.read (← v.plain)
  | .now, [] => .ok (.int ambient.now)
  | .isArray, [v] => .ok (.bool (match v with | .list _ => true | _ => false))
  | .and, [a, b] => .ok (if a.truthy then b else a)
  | .or, [a, b] => .ok (if a.truthy then a else b)
  | .not, [a] => .ok (.bool (!a.truthy))
  | .eq, [a, b] => .ok (.bool (a.strictEquals b))
  | .neq, [a, b] => .ok (.bool (!a.strictEquals b))
  | .gt, [a, b] => Value.ofOrder .gt a b
  | .lt, [a, b] => Value.ofOrder .lt a b
  | .gte, [a, b] => Value.ofOrder .ge a b
  | .lte, [a, b] => Value.ofOrder .le a b
  | _, _ => .fault .wrongType

/-- Calls a function or a bound method. -/
def Value.call (ambient : Ambient) (origin : Origin) (f : Value) (args : List Value) : Outcome Value :=
  match f with
  | .builtin b => b.apply ambient origin args
  | .textMethod m t _ => m.apply t args
  | .listMethod m items _ => m.apply items args
  | f => do Outcome.fail (.notCallable (← Outcome.shown f))

end PageTemplate
