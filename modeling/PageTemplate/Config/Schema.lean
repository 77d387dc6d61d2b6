import PageTemplate.Config.Error
set_option autoImplicit false
/-!
Schemas of configurations. A violation tells where a rule is broken; of several the one nearest to the top
is reported. A whole number may be written as a float without fractional part, and a truth value is no
number.
-/
namespace PageTemplate.Config

inductive Schema where
  | object (properties : List (Text × Schema)) (required : List Text) (closed : Bool)
  | text (leastLength : Nat)
  | choice (options : List Text)
  | optionalText
  | texts
  | whole (least : Int)
  | atLeast (bound : Int)
  | above (bound : Int)

namespace Schema

def isWhole : Number → Bool
  | .whole _ => true
  | .float x => ((Binary.ofFloat? x).bind Binary.whole?).isSome
  | .nan _ => false

def broken (k : Keyword) (holds : Bool) : List Violation := if holds then [] else [⟨[], k⟩]

/-- Does a key of the mapping have no property? -/
def hasExtra (properties : List Text) (es : Entries) : Bool :=
  es.any fun (k, _) =>
    match k with
    | .str t => !properties.contains t
    | _ => true

/-- Items that are no texts, the first of which has the given index. -/
def textItems (i : Nat) : List Value → List Violation
  | [] => []
  | .str _ :: vs => textItems (i + 1) vs
  | _ :: vs => ⟨[natText i], .type⟩ :: textItems (i + 1) vs

/-- The broken rules of a schema that has no parts. -/
def leafViolations : Schema → Value → List Violation
  | .text least, .str t => broken .minLength (least ≤ t.length)
  | .choice options, .str t => broken .enum (options.contains t)
  | .optionalText, .str _ | .optionalText, .null => []
  | .texts, .list vs => textItems 0 vs
  | .whole least, .number n =>
    if isWhole n then broken .minimum (!n.below (.whole least)) else broken .type false
  | .atLeast bound, .number n => broken .minimum (!n.below (.whole bound))
  | .above bound, .number n => broken .exclusiveMinimum (!n.atMost (.whole bound))
  | _, _ => broken .type false

mutual

def violations : Schema → Value → List Violation
  | .object properties required closed, .map es =>
    broken .required (required.all fun k => (Entries.get? k es).isSome)
      ++ propertyViolations properties es
      ++ broken .additionalProperties (!closed || !hasExtra (properties.map (·.1)) es)
  | s, v => leafViolations s v

def propertyViolations : List (Text × Schema) → Entries → List Violation
  | [], _ => []
  | (k, s) :: rest, es =>
    (match Entries.get? k es with
      | some v => (violations s v).map (·.within k)
      | none => [])
      ++ propertyViolations rest es

end

/-- The first of the violations that are nearest to the top. -/
def nearest? (vs : List Violation) : Option Violation :=
  vs.foldl (fun best v =>
    match best with
    | none => some v
    | some b => if v.location.length < b.location.length then some v else some b) none

/-- The mapping, if it breaks no rule. -/
def check (s : Schema) (es : Entries) : Except ConfigError Entries :=
  match nearest? (s.violations (.map es)) with
  | some v => .error (.invalid v)
  | none => .ok es

end Schema

end PageTemplate.Config
