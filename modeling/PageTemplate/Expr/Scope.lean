import PageTemplate.Expr.Function
set_option autoImplicit false
/-!
What a name means in an expression. The names of the host environment are null whatever the context
says, the fixed functions cannot be shadowed either, and then come the entries of the context that are
under safe text keys.
-/
namespace PageTemplate.Scope

/-- Capabilities of a host environment, which are null here. -/
def nulledNames : List Text :=
  ["process", "global", "globalThis", "console", "setTimeout", "setInterval", "setImmediate",
    "Buffer", "require", "module", "exports", "__import__", "eval", "exec", "open"].map text

def topFunctions : List Builtin :=
  [.toText, .toNumber, .toBoolean, .and, .or, .not, .eq, .neq, .gt, .lt, .gte, .lte]

def libraries : List Library := [.math, .json, .date, .array]

def globals : List (Text × Value) :=
  topFunctions.map (fun b => (b.name, .builtin b)) ++ libraries.map fun l => (l.name, .library l)

def global? (name : Text) : Option Value := globals.lookup name

/-- The value of a name in the scope made from a context. -/
def lookup? (context : Entries) (name : Text) : Option Value :=
  if nulledNames.contains name then some .null
  else
    match global? name with
    | some v => some v
    | none => if isUnsafeName name then none else context.get? name

/-- Text keys of a context. -/
def keys (context : Entries) : List Text :=
  context.filterMap fun (k, _) => match k with | .str t => some t | _ => none

/-- All names with a value, each once. -/
def names (context : Entries) : List Text :=
  ((keys context).filter (fun n => !isUnsafeName n) ++ globals.map (·.1) ++ nulledNames).eraseDups

/-- The whole scope in the order of its names. -/
def listing (context : Entries) : List (Text × Value) :=
  (names context).mergeSort Text.noLaterThan |>.filterMap fun n => (lookup? context n).map (n, ·)

end PageTemplate.Scope
