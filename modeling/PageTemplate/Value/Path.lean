import PageTemplate.Value.Basic
import PageTemplate.Text.Search
set_option autoImplicit false
/-!
Members of values and dotted paths. A mapping has its own keys, a sequence its indices and `length`, and
nothing else has members. Names that could reach beyond the data are refused everywhere.
-/
namespace PageTemplate

/-- Names that no lookup ever resolves. -/
def unsafeNames : List Text :=
  ["__proto__", "constructor", "prototype", "then", "toString", "valueOf", "Object", "Function",
    "Promise", "__class__", "__dict__", "__globals__", "__builtins__", "__import__"].map text

def isUnsafeName (name : Text) : Bool := unsafeNames.contains name

namespace Value

def isUnsafeKey : Value → Bool
  | .str t => isUnsafeName t
  | _ => false

/-- An index in plain decimal digits. -/
def index? (name : Text) : Except Fault (Option Nat) :=
  if !name.isEmpty && name.all isAsciiDigit then (readDigits name).map some else .ok none

/-- The length or an item of a sequence. -/
def itemOf? {α : Type} (wrap : α → Value) (items : List α) (name : Text) : Except Fault (Option Value) :=
  if name = text "length" then .ok (some (.nat items.length))
  else (index? name).map fun i => i.bind fun i => items[i]?.map wrap

/-- A member under a text key, if there is one. -/
def member? (name : Text) : Value → Except Fault (Option Value)
  | .map es => .ok (Entries.get? name es)
  | .list xs | .tuple xs => itemOf? id xs name
  | .str t => itemOf? (fun c => .str [c]) t name
  | _ => .ok none

/-- Follows segments one by one; null has no members, and an unsafe segment leads nowhere. -/
def follow? : List Text → Value → Except Fault (Option Value)
  | [], v => .ok (some v)
  | _ :: _, .null => .ok none
  | s :: ss, v =>
    if isUnsafeName s then .ok none
    else do
      match ← v.member? s with
      | some w => follow? ss w
      | none => return none

/-- The value at a dotted path, if there is one. -/
def atPath? (path : Text) (v : Value) : Except Fault (Option Value) := follow? (splitAt ['.'] path) v

end Value

end PageTemplate
