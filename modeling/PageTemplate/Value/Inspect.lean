import PageTemplate.Value.Basic
import PageTemplate.Text.Quoted
import PageTemplate.Text.Search
set_option autoImplicit false
/-!
The text of a value as error messages and text methods see it: texts inside containers are quoted, and
a tuple of one keeps its comma. A whole number with too many digits has none.
-/
namespace PageTemplate.Value

def callableText (name : Text) : Text := text "<SafeFunction " ++ name ++ ['>']

mutual

/-- The value as it is shown inside a message or a container. -/
def inspect : Value → Except Fault Text
  | .null => .ok (text "None")
  | .bool b => .ok (if b then text "True" else text "False")
  | .number n => n.text
  | .str t => .ok (Quoted.encode t)
  | .list xs => do return '[' :: joinWith [',', ' '] (← inspectAll xs) ++ [']']
  | .tuple xs => do
    match ← inspectAll xs with
    | [x] => return '(' :: x ++ [',', ')']
    | ts => return '(' :: joinWith [',', ' '] ts ++ [')']
  | .map es => do return '\x7b' :: joinWith [',', ' '] (← inspectEntries es) ++ ['\x7d']
  | .host _ name => .ok (text "<opaque " ++ name ++ ['>'])
  | .builtin b => .ok (callableText b.name)
  | .textMethod m _ _ => .ok (callableText m.name)
  | .listMethod m _ _ => .ok (callableText m.name)
  | .library l => .ok (text "<SafeNamespace " ++ l.name ++ ['>'])

def inspectAll : List Value → Except Fault (List Text)
  | [] => .ok []
  | x :: xs => do
    let t ← inspect x
    return t :: (← inspectAll xs)

def inspectEntries : List (Value × Value) → Except Fault (List Text)
  | [] => .ok []
  | (k, v) :: es => do
    let key ← inspect k
    let value ← inspect v
    return (key ++ [':', ' '] ++ value) :: (← inspectEntries es)

end

/-- The plain text of a value: a text is itself. -/
def plain : Value → Except Fault Text
  | .str t => .ok t
  | v => inspect v

end PageTemplate.Value
