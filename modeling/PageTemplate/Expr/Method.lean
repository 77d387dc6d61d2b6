import PageTemplate.Expr.Outcome
import PageTemplate.Text.LetterCase
import PageTemplate.Text.Search
set_option autoImplicit false
/-!
The methods of texts and lists. A text method takes any argument by its plain text, except that a
separator to split at must be a text if it is given at all.
-/
namespace PageTemplate

namespace Value

/-- The whole number a value is taken for as a bound of a slice. -/
def toBound : Value → Except Fault Int
  | .bool b => .ok (if b then 1 else 0)
  | .number n => n.toWhole Binary.trunc
  | .str t => readLooseWhole t
  | _ => .error .wrongType

def indexOr (i : Option Nat) : Value := .int (i.elim (-1) fun n => n)

end Value

/-- The place a bound means in a sequence: negative bounds count from the end, and none leaves it. -/
def clampBound (length : Nat) (i : Int) : Nat :=
  if i < 0 then (i + length).toNat else min i.toNat length

/-- The part of a list from a bound up to another, or to its end. -/
def slice {α : Type} (items : List α) (start : Int) (stop : Option Int) : List α :=
  let first := clampBound items.length start
  let upTo := stop.elim items.length (clampBound items.length)
  (items.take upTo).drop first

/-- The bounds among the arguments of a slice; a null end is no end. -/
def sliceBounds? : List Value → Except Fault (Int × Option Int)
  | [] => .ok (0, none)
  | [start] | [start, .null] => do return (← start.toBound, none)
  | [start, stop] => do
    let s ← start.toBound
    return (s, some (← stop.toBound))
  | _ => .error .wrongType

/-- The pieces of a text between separators; without a separator, its characters. -/
def splitBy (t : Text) (separator : Value) : Except Fault (List Text) :=
  if separator.truthy then
    match separator with
    | .str s => .ok (splitAt s t)
    | _ => .error .wrongType
  else .ok (t.map ([·]))

def TextMethod.apply (m : TextMethod) (t : Text) (args : List Value) : Outcome Value :=
  match m, args with
  | .toUpperCase, [] => .ok (.str (toUpper t))
  | .toLowerCase, [] => .ok (.str (toLower t))
  | .trim, [] => .ok (.str (PageTemplate.trim t))
  | .includes, [v] => .ofExcept (v.plain.map fun s => .bool (occursIn s t))
  | .startsWith, [v] => .ofExcept (v.plain.map fun s => .bool (after? s t).isSome)
  | .endsWith, [v] => .ofExcept (v.plain.map fun s => .bool (PageTemplate.endsWith s t))
  | .indexOf, [v] => .ofExcept (v.plain.map fun s => Value.indexOr (PageTemplate.indexOf? s t))
  | .slice, args => do
    let (start, stop) ← Outcome.ofExcept (sliceBounds? args)
    return .str (PageTemplate.slice t start stop)
  | .split, [] => .ok (.list (t.map fun c => .str [c]))
  | .split, [v] => do
    let pieces ← Outcome.ofExcept (splitBy t v)
    return .list (pieces.map .str)
  | .replace, [old, new] => do
    let old ← Outcome.ofExcept old.plain
    return .str (replaceFirst old (← Outcome.joined new) t)
  | _, _ => .fault .wrongType

/-- The texts of several values, each shown as on a page. -/
def shownAll : List Value → Outcome (List Text)
  | [] => .ok []
  | v :: vs => do
    let t ← Outcome.shown v
    return t :: (← shownAll vs)

def ListMethod.apply (m : ListMethod) (items : List Value) (args : List Value) : Outcome Value :=
  match m, args with
  | .includes, [v] => .ok (.bool (items.any (·.alike v)))
  | .indexOf, [v] => .ok (Value.indexOr (items.findIdx? (·.alike v)))
  | .join, [] => return .str (joinWith [','] (← shownAll items))
  | .join, [separator] => do
    let separator ← Outcome.ofExcept separator.plain
    return .str (joinWith separator (← shownAll items))
  | .slice, args => do
    let (start, stop) ← Outcome.ofExcept (sliceBounds? args)
    return .list (PageTemplate.slice items start stop)
  | _, _ => .fault .wrongType

end PageTemplate
