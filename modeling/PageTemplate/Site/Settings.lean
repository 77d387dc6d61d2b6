import PageTemplate.Block.Inherit
import PageTemplate.Config.View
import PageTemplate.Dynamic.Pipeline
set_option autoImplicit false
/-!
Settings of an engine: where its templates are, and how they become pages.
-/
namespace PageTemplate

structure SiteSettings where
  root : Location
  maxPasses : Int
  maxConditionalPasses : Int
  baseName : Text
  entryMarker : Text
  entryPriority : List Text
  doctype : Text
  output : Path
  ambient : Ambient

namespace SiteSettings

/-- Seconds that an expression may take where nothing else is said; writes count as recent as long. -/
def defaultSeconds : Float := 1.5

/-- The settings of templates in a directory; pages go to its neighbour. -/
def standard (root : Location) (random : Float) (now : Int) : SiteSettings where
  root := root
  maxPasses := Pipeline.defaultPasses
  maxConditionalPasses := Pipeline.defaultConditionalPasses
  baseName := text "base.html"
  entryMarker := text "<!-- @entry -->"
  entryPriority := ["index.html", "main.html", "home.html"].map text
  doctype := Inherit.defaultDoctype
  output := root.path.parent.join (text "dist")
  ambient := ⟨random, now, defaultSeconds⟩

/-- The settings of a configuration, for templates in a directory. -/
def ofView (v : Config.View) (root : Location) (random : Float) (now : Int) :
    Config.Setting SiteSettings := do
  return {
    root := root
    maxPasses := ← v.maxPasses
    maxConditionalPasses := ← v.maxConditionalPasses
    baseName := ← v.baseTemplateName
    entryMarker := ← v.entryMarker
    entryPriority := ← v.entryPriority
    doctype := ← v.doctype
    output := ← v.outputDir
    ambient := ⟨random, now, ← v.expressionTimeout⟩ }

def pipeline (s : SiteSettings) : Pipeline := .standard s.maxPasses

end SiteSettings

end PageTemplate
