import PageTemplate.Expr.Method
import PageTemplate.Site.Path
import PageTemplate.Value.Inspect
set_option autoImplicit false
/-!
A typed view of a configuration that may be anything. Each setting converts what it finds, or takes a value
of its own if nothing is there; a section that is null or empty counts as missing.
-/
namespace PageTemplate.Config

/-- Why a setting has no value: its value cannot be converted, or its section is no mapping. -/
inductive SettingFault where
  | fault (f : Fault)
  | noSection
  deriving DecidableEq, Repr

def SettingFault.name : SettingFault → Text
  | .fault f => f.name
  | .noSection => text "AttributeError"

abbrev Setting (α : Type) := Except SettingFault α

/-- A configuration with the directory that its relative paths start from. -/
structure View where
  project : Path
  config : Value

def toReal : Value → Except Fault Float
  | .bool b => .ok (if b then 1.0 else 0.0)
  | .number n => n.toFloat
  | .str t => (readFloat? t).elim (.error .outOfDomain) .ok
  | _ => .error .wrongType

def toTexts : Value → Except Fault (List Text)
  | .list vs | .tuple vs => vs.mapM Value.plain
  | .str t => .ok (t.map ([·]))
  | .map es => es.mapM fun e => e.1.plain
  | v => if v.truthy then .error .wrongType else .ok []

def convert {α : Type} (r : Except Fault α) : Setting α := r.mapError .fault

namespace View

def section? (name : Text) (v : View) : Setting Entries :=
  match v.config with
  | .map es =>
    match Entries.get? name es with
    | some (.map es) => .ok es
    | some v => if v.truthy then .error .noSection else .ok []
    | none => .ok []
  | _ => .error .noSection

/-- What is found under a key of a section, or something else if nothing is. -/
def lookup (part key : Text) (otherwise : Value) (v : View) : Setting Value := do
  return ((← v.section? part).get? key).getD otherwise

def templating (key : String) (otherwise : Value) (v : View) : Setting Value :=
  v.lookup (text "templating") (text key) otherwise

def path (value : Value) (v : View) : Setting Path :=
  match value with
  | .str t => .ok (v.project.join t)
  | _ => .error (.fault .wrongType)

def templateRoot (v : View) : Setting Path := do
  v.path (← v.templating "template_dir" (.str (text "templates")))

def customizeDir (v : View) : Setting Path := do
  v.path (← v.templating "customize_dir" (.str (text "customize")))

def outputDir (v : View) : Setting Path := do
  v.path (← v.templating "output_dir" (.str (text "dist")))

def maxPasses (v : View) : Setting Int := do
  convert (← v.templating "max_passes" (.int 10)).toBound

def maxConditionalPasses (v : View) : Setting Int := do
  convert (← v.templating "max_conditional_passes" (.int 20)).toBound

def expressionTimeout (v : View) : Setting Float := do
  convert (toReal (← v.templating "expression_timeout_seconds" (.number (.float 1.5))))

def recentWriteTime (v : View) : Setting Float := do
  convert (toReal (← v.templating "recent_write_ttl_seconds" (.number (.float 1.5))))

def baseTemplateName (v : View) : Setting Text := do
  convert (← v.templating "base_template_name" (.str (text "base.html"))).plain

def entryMarker (v : View) : Setting Text := do
  convert (← v.templating "entry_marker" (.str (text "<!-- @entry -->"))).plain

def entryPriority (v : View) : Setting (List Text) := do
  convert (toTexts (← v.templating "entry_priority" (.list [])))

def doctype (v : View) : Setting Text := do
  convert (← v.templating "doctype" (.str (text "<!DOCTYPE html>"))).plain

def logLevel (v : View) : Setting Text := do
  return toUpper (← convert (← v.lookup (text "logging") (text "level") (.str (text "INFO"))).plain)

/-- No path stands for the standard error stream. -/
def logFile (v : View) : Setting (Option Path) := do
  let value ← v.lookup (text "logging") (text "file") .null
  if value.truthy then return some (← v.path value) else return none

end View

end PageTemplate.Config
