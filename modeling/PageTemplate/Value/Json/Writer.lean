import PageTemplate.Value.Basic
import PageTemplate.Text.Quoted
import PageTemplate.Text.Search
set_option autoImplicit false
/-!
JSON without white space. Only the double quote, the backslash and controls are escaped. In strict
writing a NaN or an infinity is out of domain; otherwise it is written by name.
-/
namespace PageTemplate.Json

def escapeChar (c : Char) : Text :=
  if c = '"' || c = '\\' then ['\\', c]
  else if c = '\n' then ['\\', 'n']
  else if c = '\r' then ['\\', 'r']
  else if c = '\t' then ['\\', 't']
  else if c = '\x0c' then ['\\', 'f']
  else if c = '\x08' then ['\\', 'b']
  else if c.toNat < 0x20 then '\\' :: 'u' :: Quoted.hex 4 c.toNat
  else [c]

def writeText (t : Text) : Text := '"' :: t.flatMap escapeChar ++ ['"']

def writeNumber (strict : Bool) : Number → Except Fault Text
  | .whole n => wholeText n
  | .float x =>
    if x.isFinite then .ok (floatText x)
    else if strict then .error .outOfDomain
    else .ok (if x < 0.0 then text "-Infinity" else text "Infinity")
  | .nan _ => if strict then .error .outOfDomain else .ok (text "NaN")

def writeBool (b : Bool) : Text := if b then text "true" else text "false"

/-- Keys that are not texts become the text of what they are; containers cannot be keys. -/
def writeKey (strict : Bool) : Value → Except Fault Text
  | .str t => .ok (writeText t)
  | .number n => (writeNumber strict n).map writeText
  | .bool b => .ok (writeText (writeBool b))
  | .null => .ok (writeText (text "null"))
  | _ => .error .wrongType

mutual

/-- The JSON text of plain data; anything else has none. -/
def write (strict : Bool) : Value → Except Fault Text
  | .null => .ok (text "null")
  | .bool b => .ok (writeBool b)
  | .number n => writeNumber strict n
  | .str t => .ok (writeText t)
  | .list xs | .tuple xs => do
    return '[' :: joinWith [','] (← writeItems strict xs) ++ [']']
  | .map es => do
    return '\x7b' :: joinWith [','] (← writeEntries strict es) ++ ['\x7d']
  | _ => .error .wrongType

def writeItems (strict : Bool) : List Value → Except Fault (List Text)
  | [] => .ok []
  | x :: xs => do
    let t ← write strict x
    return t :: (← writeItems strict xs)

def writeEntries (strict : Bool) : List (Value × Value) → Except Fault (List Text)
  | [] => .ok []
  | (k, v) :: es => do
    let key ← writeKey strict k
    let value ← write strict v
    return (key ++ ':' :: value) :: (← writeEntries strict es)

end

end PageTemplate.Json
