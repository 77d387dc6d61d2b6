import PageTemplate.Config.Document.Glyph
import PageTemplate.Config.Merge
import PageTemplate.Config.Override
import PageTemplate.Config.Standard
import PageTemplate.Site.Path
set_option autoImplicit false
/-!
Loading of a configuration: the project file over the defaults, and the overrides of the environment over
both.
-/
namespace PageTemplate.Config

/-- The name of the project file. -/
def fileName : Text := text "flun.yaml"

/-- The mapping in a project file at a path. Nothing in it is an empty mapping. -/
def fileEntries (path : Path) : Except Document.Failure Value → Except ConfigError Entries
  | .error .malformed => .error (.malformed path.toText)
  | .error (.fault f) => .error (.unreadable f)
  | .ok .null => .ok []
  | .ok (.map es) => .ok es
  | .ok _ => .error (.notMapping path.toText)

/-- A configuration or why there is none, and what was reported on the way. -/
structure Loaded where
  result : Except ConfigError Entries
  notices : List Notice

/-- The configuration of the project at a path. -/
def load (project : Path) (file : Except Document.Failure Value) (env : Environment)
    (validated : Bool) : Loaded :=
  match fileEntries (project.join fileName) file with
  | .error e => ⟨.error e, []⟩
  | .ok es =>
    let (r, notices) := Override.applyAll (deepMerge defaults es) env.overrides
    ⟨if validated then r.bind schema.check else r, notices⟩

end PageTemplate.Config
