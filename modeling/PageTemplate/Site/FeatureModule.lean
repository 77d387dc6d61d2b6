import PageTemplate.Dynamic.Registry
import PageTemplate.Value.Inspect
set_option autoImplicit false
/-!
Feature modules as they lie in a file tree: what a module defines once it is loaded, or that it cannot be
loaded.
-/
namespace PageTemplate

/-- The table of functions of a module, or whatever else the module calls by that name. -/
inductive FunctionTable where
  | functions (entries : List (Text × Registered))
  | other (v : Value)

/-- Entries by name. Of a plain mapping no entry can be called, and one whose name has no text goes
unnoticed. -/
def FunctionTable.entries : FunctionTable → List (Text × Registered)
  | .functions es => es
  | .other (.map es) => es.filterMap fun (k, v) => k.plain.toOption.map (·, .plain v)
  | .other _ => []

inductive FeatureModule where
  | broken (reason : ModuleFailure)
  | loaded (functions : FunctionTable) (vars : Value)

end PageTemplate
