import PageTemplate.Config.Error
import PageTemplate.Notice
import PageTemplate.Text.LetterCase
import PageTemplate.Value.Json.Reader
set_option autoImplicit false
/-!
Overrides from the environment. The name of a variable spells the path to a key, whatever the case of the
letters, and its text is taken for the plainest kind of value it can be. Variables are applied in the order
of their names.
-/
namespace PageTemplate.Config

namespace Override

/-- What the name of an override starts with. -/
def marker : Text := text "FLUN_"

/-- The segments of a name without its marker; nothing if one is missing. -/
def path? (name : Text) : Option (List Text) :=
  let segments := splitAt ['_', '_'] name
  if segments.any List.isEmpty then none else some (segments.map toLower)

/-- Digits with a point among them or at either end, after an optional sign. -/
def isDecimal (t : Text) : Bool :=
  match (readSign t).2.span isDigitChar with
  | (whole, '.' :: places) => places.all isDigitChar && !(whole.isEmpty && places.isEmpty)
  | _ => false

/-- A text in brackets of one kind that is JSON. -/
def json? (t : Text) : Option Value :=
  let enclosed (o c : Char) : Bool := t.head? == some o && t.getLast? == some c
  if enclosed '\x7b' '\x7d' || enclosed '[' ']' then (Json.read t).toOption else none

/-- The value that a text means. A whole number may not have too many digits, and not stand between blanks
that numerals do not allow. -/
def value (raw : Text) : Except ConfigError Value :=
  let t := trim raw
  let low := toLower t
  if low = text "true" then .ok (.bool true)
  else if low = text "false" then .ok (.bool false)
  else if (readWhole? t).isSome then
    ((readLooseWhole raw).map .int).mapError .numeral
  else if isDecimal t then .ok (.number (.float ((readFloat? t).getD 0.0)))
  else .ok ((json? t).getD (.str t))

/-- The last key that a segment spells in small letters, or the segment itself. -/
def spelling (segment : Text) (es : Entries) : Text :=
  (es.reverse.findSome? fun (k, _) =>
    match k with
    | .str t => if toLower t = segment then some t else none
    | _ => none).getD segment

/-- Sets the value at a path, making mappings on the way. -/
def setAt (v : Value) : List Text → Entries → Entries
  | [], es => es
  | [last], es => es.put (.str (spelling last es)) v
  | s :: ss, es =>
    let key := spelling s es
    let inner : Entries :=
      match es.get? key with
      | some (.map fs) => fs
      | _ => []
    es.put (.str key) (.map (setAt v ss inner))

/-- Sets the value at a path of a mapping; nothing else can be written to. -/
def setIn (v : Value) (path : List Text) : Value → Except ConfigError Value
  | .map es => if path.isEmpty then .error .noPath else .ok (.map (setAt v path es))
  | _ =>
    match path with
    | s :: _ :: _ => .error (.traverses s)
    | _ => .error .notTarget

/-- Applies variables in turn. A variable whose name spells no path is ignored and reported. -/
def applyAll (es : Entries) : List (Text × Text) → Except ConfigError Entries × List Notice
  | [] => (.ok es, [])
  | (name, raw) :: rest =>
    match path? (name.drop marker.length) with
    | some path =>
      match value raw with
      | .ok v => applyAll (setAt v path es) rest
      | .error e => (.error e, [])
    | none =>
      let (r, ns) := applyAll es rest
      (r, .malformedOverride name :: ns)

end Override

/-- Variables by name; of two of one name the later counts. -/
abbrev Environment := List (Text × Text)

/-- The overrides of an environment in the order of their names. -/
def Environment.overrides (env : Environment) : List (Text × Text) :=
  let last := env.reverse.filter fun e => (after? Override.marker e.1).isSome
  let names := (last.map (·.1)).eraseDups.mergeSort Text.noLaterThan
  names.filterMap fun n => (last.lookup n).map (n, ·)

end PageTemplate.Config
