import PageTemplate.Config.Document.Implicit
import PageTemplate.Config.Document.Node
set_option autoImplicit false
/-!
What the nodes of a project file stand for. A tag fixes the kind of a node; without one a plain text is
looked at, and any other text stands for itself. Keys must be no lists and no mappings. The sign of merging as a
key adds the entries of other mappings in front of the own ones, which prevail.
-/
namespace PageTemplate.Config.Document

/-- The sign of merging. -/
def mergeSign : Text := text "<<"

def knownTag (name : String) : Option Text := some (Node.knownPrefix ++ text name)

/-- The value of a text with a tag. -/
def taggedValue (tag t : Text) : Except Failure Value :=
  let outside : Failure := .fault .outOfDomain
  if some tag = knownTag "str" then .ok (.str t)
  else if some tag = knownTag "null" then .ok .null
  else if some tag = knownTag "bool" then
    if isTrue (t.map Char.toLower) then .ok (.bool true)
    else if isFalse (t.map Char.toLower) then .ok (.bool false)
    else .error .malformed
  else if some tag = knownTag "int" then
    match whole? t with
    | some n => n.map .int
    | none => ((readLooseWhole t).map .int).mapError .fault
  else if some tag = knownTag "float" then
    match (float? t).or (readFloat? (dropLines t)) with
    | some x => .ok (.number (Number.ofFloat .unreadable x))
    | none => .error outside
  else .error .malformed

def scalarValue (tag : Option Text) (plain : Bool) (t : Text) : Except Failure Value :=
  match tag with
  | some tag => taggedValue tag t
  | none => if plain then plainValue t else .ok (.str t)

namespace Node

def isMerge : Node → Bool
  | .scalar none true t => t = mergeSign
  | .scalar tag _ _ => tag = knownTag "merge"
  | _ => false

def isMapping : Node → Bool
  | .mapping _ _ => true
  | _ => false

end Node

/-- Can the value be a key? -/
def isKey : Value → Bool
  | .list _ | .map _ => false
  | _ => true

/-- The entries that are merged in by a value: those of a mapping, or of a list of mappings, the last of
which comes first. -/
def mergedEntries (n : Node) (v : Value) : Except Failure Entries :=
  match n, v with
  | .mapping _ _, .map es => .ok es
  | .list _ ns, .list vs =>
    if ns.all Node.isMapping then
      .ok (vs.reverse.flatMap fun
        | .map es => es
        | _ => [])
    else .error .malformed
  | _, _ => .error .malformed

mutual

def valueOf : Node → Except Failure Value
  | .scalar tag plain t => scalarValue tag plain t
  | .list tag ns =>
    if tag.isNone || tag = knownTag "seq" then do return .list (← valuesOf ns) else .error .malformed
  | .mapping tag es =>
    if tag.isNone || tag = knownTag "map" then do
      let (merged, own) ← entriesOf es
      return .map (Entries.ofPairs (merged ++ own))
    else .error .malformed

def valuesOf : List Node → Except Failure (List Value)
  | [] => .ok []
  | n :: ns => do return (← valueOf n) :: (← valuesOf ns)

/-- The entries that are merged in, and the own ones. -/
def entriesOf : List (Node × Node) → Except Failure (Entries × Entries)
  | [] => .ok ([], [])
  | (k, n) :: es => do
    let v ← valueOf n
    if k.isMerge then
      let (merged, own) ← entriesOf es
      return ((← mergedEntries n v) ++ merged, own)
    else
      let key ← keyValue k
      if !isKey key then throw .malformed
      let (merged, own) ← entriesOf es
      return (merged, (key, v) :: own)

/-- The value of a key. A plain sign of default values stands for itself there. -/
def keyValue : Node → Except Failure Value
  | .scalar none true ['='] => .ok (.str ['='])
  | n => valueOf n

end

end PageTemplate.Config.Document
