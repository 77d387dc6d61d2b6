import PageTemplate.Value.Inspect
import PageTemplate.Value.Json.Writer
set_option autoImplicit false
/-!
The text of a value on a page. Null shows nothing, containers show as JSON, and a float without
fractional part shows as a whole number. A container that cannot be written as JSON shows nothing, and the
reason is told.
-/
namespace PageTemplate.Value

def displayNumber : Number → Except Fault Text
  | .float x =>
    match (Binary.ofFloat? x).bind Binary.whole? with
    | some n => wholeText n
    | none => .ok (floatText x)
  | n => n.text

def isContainer : Value → Bool
  | .list _ | .tuple _ | .map _ => true
  | _ => false

/-- The text on the page, or why there is none. -/
def display? : Value → Except Fault Text
  | .null => .ok []
  | .bool b => .ok (Json.writeBool b)
  | .number n => displayNumber n
  | v@(.list _) | v@(.tuple _) | v@(.map _) => Json.write true v
  | v => v.plain

def display (v : Value) : Text := (display? v).toOption.getD []

/-- Something can be shown for the value. Only a number with too many digits cannot be shown at all. -/
def showable (v : Value) : Bool := v.isContainer || v.display?.isOk

end PageTemplate.Value
