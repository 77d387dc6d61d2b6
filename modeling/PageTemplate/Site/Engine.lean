import PageTemplate.Block.Balance
import PageTemplate.Config.Load
import PageTemplate.Logging
import PageTemplate.Problem
import PageTemplate.Site.Context
import PageTemplate.Site.Include
import PageTemplate.Site.Settings
set_option autoImplicit false
/-!
An engine at work: it reads templates, includes files, composes pages with their bases, and renders them.
What it does happens to a site, which also collects what is reported; an error keeps everything that was
done and reported before it.
-/
namespace PageTemplate

/-- Why a template could not be found. -/
inductive ResolutionFailure where
  | escapes (page : Text)
  | notFound (page : Text)
  | baseNotFound (base page : Text)
  | noDirectory (root : Text)
  | noTemplates (root : Text)
  | noPages
  deriving DecidableEq, Repr

inductive SiteError where
  | resolution (f : ResolutionFailure)
  | unbalanced (template : Text) (errors : List StructureError)
  | file (f : FileFailure)
  | rendering (h : Halt)
  deriving DecidableEq, Repr

namespace ResolutionFailure

def message : ResolutionFailure → Text
  | .escapes page => text "Template path escapes the template root: " ++ page
  | .notFound page => text "Template not found: " ++ page
  | .baseNotFound base page =>
    text "Base template not found: " ++ base ++ text " (extended by " ++ page ++ [')']
  | .noDirectory root => text "Template directory not found: " ++ root
  | .noTemplates root => text "No templates found in " ++ root
  | .noPages => text "No pages to choose an entry file from"

def path? : ResolutionFailure → Option Text
  | .escapes p | .notFound p | .baseNotFound p _ | .noDirectory p | .noTemplates p => some p
  | .noPages => none

def source? : ResolutionFailure → Option Text
  | .baseNotFound _ page => some page
  | _ => none

def problem (f : ResolutionFailure) : Problem := .resolution f.message f.path? f.source? []

end ResolutionFailure

def StructureError.lineFault (e : StructureError) : Problem.LineFault := (e.line, e.message)

structure Site where
  tree : FileTree
  customize : Option Path
  context : EngineContext
  now : Number
  notices : List Notice

abbrev SiteAction (α : Type) := ExceptT SiteError (StateM Site) α

namespace SiteAction

def report (ns : List Notice) : SiteAction Unit :=
  modify fun s => { s with notices := s.notices ++ ns }

def onContext (f : EngineContext → EngineContext) : SiteAction Unit :=
  modify fun s => { s with context := f s.context }

def fail {α : Type} (f : ResolutionFailure) : SiteAction α := throw (.resolution f)

def ofFile {α : Type} (r : Except FileFailure α) : SiteAction α :=
  match r with
  | .ok a => pure a
  | .error f => throw (.file f)

/-- The place of a path that leads somewhere. -/
def locate (p : Path) : SiteAction Location := ofFile (p.location?.elim (.error .unnameable) .ok)

/-- Changes the files of the site. -/
def onTree {α : Type} (a : FileAction α) : SiteAction α := do
  let (r, t) := a.runOn (← get).tree
  modify fun s => { s with tree := t }
  ofFile r

end SiteAction

namespace Site

open SiteAction

/-! Templates -/

def readTemplate (s : SiteSettings) (page : Text) : SiteAction Text := do
  let site ← get
  let l ← locate (s.root.path.join page)
  if !s.root.isBelow l then fail (.escapes page)
  else if ← ofFile (site.tree.hasFile l.path) then ofFile (site.tree.readText l)
  else fail (.notFound page)

/-- Includes files into the content of a page and records which. -/
def resolveIncludes (s : SiteSettings) (content current : Text) : SiteAction Text := do
  let site ← get
  let e := Include.resolve site.tree s.root current [] content
  report e.notices
  onContext fun c => e.spliced.foldl (fun c f => c.recordIncluded f) c
  ofFile (e.text.elim (.error .unnameable) .ok)

/-- A page composed with its base, its dynamic tags untouched. -/
def renderTemplate (s : SiteSettings) (page : Text) : SiteAction Text := do
  let (base?, body) := Inherit.splitExtends (← readTemplate s page)
  let child ← resolveIncludes s body page
  match base? with
  | none => return Inherit.compose s.doctype child []
  | some base =>
    let site ← get
    match Include.target s.root page base with
    | .nowhere => throw (.file .unnameable)
    | .outside => fail (.baseNotFound base page)
    | .inside l =>
      if ← ofFile (site.tree.hasFile l.path) then
        let text ← ofFile (site.tree.readText l)
        return Inherit.compose s.doctype (← resolveIncludes s text (Include.relative s.root l)) child
      else fail (.baseNotFound base page)

/-! Dynamic content -/

/-- Renders dynamic tags. The given variables overlay those of the features. -/
def process (s : SiteSettings) (content : Text) (vars : Entries) : SiteAction Text := do
  let features := (← get).context.features
  let ctx : RenderContext := ⟨features.vars.overlay vars, s.ambient, s.maxConditionalPasses, 0⟩
  let (r, st) :=
    (s.pipeline.execute Pipeline.depthLimit ctx content).runFrom (.start (some features.functions))
  report st.notices
  onContext fun c => c.replaceFeatures { features with functions := st.registry.getD .empty }
  match r with
  | .ok t => return t
  | .error h => throw (.rendering h)

/-- The variables of a page: its own address, unless the given ones say otherwise. -/
def pageVariables (page : Text) (vars : Entries) : Entries :=
  Entries.overlay [(.str (text "currentUrl"), .str ('/' :: page))] vars

def renderPage (s : SiteSettings) (page : Text) (vars : Entries) : SiteAction Text := do
  process s (← renderTemplate s page) (pageVariables page vars)

/-! Pages -/

/-- The structure errors of a template, which are reported if it is treated leniently and fatal
otherwise. -/
def validate (s : SiteSettings) (page : Text) (lenient : Bool) : SiteAction (List StructureError) := do
  let errors := validateStructure (← readTemplate s page)
  if !errors.isEmpty && !lenient then throw (.unbalanced page errors)
  else do
    report (errors.map fun e => .structureError page e.line e.message)
    return errors

/-- Does a file name have the extension of pages, in any case? -/
def isPageName (name : Text) : Bool :=
  match name.reverse.span (· != '.') with
  | (extension, '.' :: _ :: _) => toLower extension.reverse = text "html"
  | _ => false

/-- The pages below the root: all templates but those with the name of bases. -/
def available (s : SiteSettings) : SiteAction (List Text) := do
  let site ← get
  if !(← ofFile (site.tree.hasDirectory s.root.path)) then fail (.noDirectory s.root.toText)
  else
    let pages := (site.tree.filesBelow s.root).filter fun l =>
      l.getLast?.any fun name => isPageName name && name != s.baseName
    if pages.isEmpty then fail (.noTemplates s.root.toText)
    else return pages.map Location.relativeText

/-- The first page that holds the entry marker. Pages that are not there are reported. -/
def markedPage? (s : SiteSettings) : List Text → SiteAction (Option Text)
  | [] => return none
  | page :: pages => do
    let found ← tryCatch (do return occursIn s.entryMarker (← readTemplate s page)) fun e =>
      match e with
      | .resolution _ => do
        report [.pageSkipped page]
        return false
      | e => throw e
    if found then return some page else markedPage? s pages

/-- The least text of a list. -/
def least (t : Text) (ts : List Text) : Text :=
  ts.foldl (fun best t => if t.before best then t else best) t

/-- The entry page: one with the marker, else one with a name of priority, else the first by name. -/
def findEntry (s : SiteSettings) : List Text → SiteAction Text
  | [] => fail .noPages
  | page :: pages => do
    match ← markedPage? s (page :: pages) with
    | some marked => return marked
    | none =>
      match s.entryPriority.find? (page :: pages).contains with
      | some name => return name
      | none => return least page pages

/-! Features -/

/-- Replaces the features by those of the customisation directory. A missing directory gives none and may
be made. -/
def reloadFeatures (create : Bool) : SiteAction Unit := do
  let site ← get
  match site.customize with
  | none => onContext (·.replaceFeatures .empty)
  | some directory =>
    if ← ofFile (site.tree.hasDirectory directory) then
      let (features, notices) ← ofFile (Features.collect site.tree directory)
      report notices
      onContext (·.replaceFeatures features)
    else do
      if create then onTree (FileAction.makeDirectories directory)
      onContext (·.replaceFeatures .empty)

/-! Output -/

/-- Writes a file and records the write. -/
def write (path : Path) (content : Text) : SiteAction Path := do
  onTree (FileAction.save path (.file (Utf8.encode content)))
  let l ← locate path
  modify fun s => { s with context := s.context.recordWrite l s.now }
  return path

/-- The pages with their rendered texts; a page given twice counts once. -/
def renderAll (s : SiteSettings) (rendered : List (Text × Text)) :
    List Text → SiteAction (List (Text × Text))
  | [] => return rendered
  | page :: pages => do
    let _ ← validate s page false
    let html ← renderPage s page []
    renderAll s
      (if rendered.any (·.1 == page) then
        rendered.map fun r => if r.1 = page then (page, html) else r
      else rendered ++ [(page, html)]) pages

/-- Writes rendered pages below a directory, but for the included ones. -/
def writeAll (target : Path) (included : List Text) : List (Text × Text) → SiteAction (List Path)
  | [] => return []
  | (page, html) :: rest => do
    if included.contains page then writeAll target included rest
    else do
      let path ← write (target.join page) html
      return path :: (← writeAll target included rest)

/-- Renders every page, and then writes those that no other includes. -/
def compilePages (s : SiteSettings) (target : Path) (pages : Option (List Text)) :
    SiteAction (List Path) := do
  let pages ← pages.elim (available s) pure
  let rendered ← renderAll s [] pages
  writeAll target (← get).context.included rendered

/-- Compiles a site with fresh features. The context is compiling meanwhile, and no longer afterwards,
whatever happens. -/
def compile (s : SiteSettings) (target : Path) (pages : Option (List Text)) :
    SiteAction (List Path) := do
  if (← get).customize.isSome then reloadFeatures true
  onContext (·.setCompiling true)
  tryFinally (compilePages s target pages) (onContext (·.setCompiling false))

end Site

end PageTemplate
