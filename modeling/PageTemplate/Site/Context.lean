import PageTemplate.Number.Basic
import PageTemplate.Site.Feature
import PageTemplate.Site.RecentWrites
set_option autoImplicit false
/-!
What an engine remembers between pages: the features in force, the files included during a compilation,
and the recent writes. Included files are recorded only while compiling, and entering a compilation
forgets them; leaving it does not.
-/
namespace PageTemplate

instance : Sub Number := ⟨fun a b => (a.sub .unreadable b).toOption.getD a⟩

instance : LT Number := ⟨fun a b => a.below b = true⟩

instance : DecidableLT Number := fun a b => inferInstanceAs (Decidable (a.below b = true))

structure EngineContext where
  features : Features
  included : List Text
  compiling : Bool
  recent : RecentWrites Number

namespace EngineContext

def start (timeToLive : Number) : EngineContext := ⟨.empty, [], false, .start timeToLive⟩

def setCompiling (on : Bool) (c : EngineContext) : EngineContext :=
  { c with compiling := on, included := if on then [] else c.included }

/-- Records an included file, while compiling. -/
def recordIncluded (file : Text) (c : EngineContext) : EngineContext :=
  if c.compiling && !c.included.contains file then { c with included := file :: c.included } else c

/-- The included files in order. -/
def includedFiles (c : EngineContext) : List Text := c.included.mergeSort Text.noLaterThan

def replaceFeatures (f : Features) (c : EngineContext) : EngineContext := { c with features := f }

def recordWrite (l : Location) (now : Number) (c : EngineContext) : EngineContext :=
  { c with recent := c.recent.record l now }

/-- Forgets everything. -/
def reset (c : EngineContext) : EngineContext := ⟨.empty, [], false, c.recent.clear⟩

end EngineContext

end PageTemplate
