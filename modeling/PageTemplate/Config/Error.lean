import PageTemplate.Value.Basic
import PageTemplate.Text.Search
set_option autoImplicit false
/-!
What makes a configuration unusable: a file that is no mapping, an override that leads nowhere, or a value
that the schema forbids.
-/
namespace PageTemplate.Config

/-- The rules of a schema by their keywords. -/
inductive Keyword where
  | type | minimum | exclusiveMinimum | minLength | enum | additionalProperties | required
  deriving DecidableEq, Repr

def Keyword.name : Keyword → Text
  | .type => text "type" | .minimum => text "minimum" | .exclusiveMinimum => text "exclusiveMinimum"
  | .minLength => text "minLength" | .enum => text "enum"
  | .additionalProperties => text "additionalProperties" | .required => text "required"

/-- A broken rule and the keys and indices that lead to the place. -/
structure Violation where
  location : List Text
  keyword : Keyword
  deriving DecidableEq, Repr

def Violation.within (key : Text) (v : Violation) : Violation :=
  { v with location := key :: v.location }

def Violation.place (v : Violation) : Text :=
  if v.location.isEmpty then text "<root>" else joinWith ['.'] v.location

inductive ConfigError where
  | malformed (file : Text)
  | unreadable (f : Fault)
  | notMapping (file : Text)
  | traverses (segment : Text)
  | notTarget
  | noPath
  | numeral (f : Fault)
  | invalid (v : Violation)
  deriving DecidableEq, Repr

namespace ConfigError

def message : ConfigError → Text
  | .malformed file => text "Invalid YAML in " ++ file
  | .unreadable f | .numeral f => f.name
  | .notMapping file => text "Expected a mapping at the top of " ++ file
  | .traverses segment =>
    text "Environment override traverses a non-mapping at '" ++ segment ++ ['\'']
  | .notTarget => text "Environment override targets a non-mapping"
  | .noPath => text "list index out of range"
  | .invalid v => text "Invalid configuration at " ++ v.place

/-- What is told besides the message. -/
def context : ConfigError → Entries
  | .malformed file | .notMapping file => [(.str (text "path"), .str file)]
  | .invalid v => [(.str (text "location"), .str v.place)]
  | _ => []

end ConfigError

end PageTemplate.Config
