import PageTemplate.Site.Engine
set_option autoImplicit false
/-!
Starting an engine, from a directory of templates alone or from a configuration. A configured engine first
sets up logging, then loads features, and only then takes its other settings; reports of that time are shown
only if the configured level lets them pass.
-/
namespace PageTemplate

inductive StartError where
  | setting (f : Config.SettingFault)
  | file (f : FileFailure)
  deriving DecidableEq, Repr

def StartError.name : StartError → Text
  | .setting f => f.name
  | .file f => f.name

/-- An engine ready for work: its settings and its site. -/
structure Engine where
  settings : SiteSettings
  site : Site

namespace Engine

/-- What an engine takes from its surroundings: files, a random number, the time of day in milliseconds, and
the time that recent writes are measured in. -/
structure World where
  tree : FileTree
  random : Float
  now : Int
  clock : Number

def emptySite (w : World) (customize : Option Path) (timeToLive : Float) : Site :=
  ⟨w.tree, customize, .start (Number.ofFloat .unreadable timeToLive), w.clock, []⟩

/-- An engine for templates in a directory, with features that are there from the start. -/
def plain (w : World) (root : Location) (features : Features) : Engine :=
  let s := emptySite w none SiteSettings.defaultSeconds
  ⟨.standard root w.random w.now, { s with context := s.context.replaceFeatures features }⟩

/-- The place of the templates. -/
def rootOf (v : Config.View) : Except StartError Location := do
  let root ← v.templateRoot.mapError .setting
  root.location?.elim (.error (.file .unnameable)) .ok

/-- An engine with the settings of a configuration, but without features. -/
def configured (w : World) (v : Config.View) : Except StartError Engine := do
  let root ← rootOf v
  Except.mapError .setting do
    let time ← v.recentWriteTime
    return ⟨← SiteSettings.ofView v root w.random w.now, emptySite w none time⟩

/-- The files after logging was set up as configured, and the log. -/
def openLog (w : World) (v : Config.View) : Except StartError (LogState × FileTree) := do
  let level ← v.logLevel.mapError .setting
  let file ← v.logFile.mapError .setting
  let (log, opened, tree) := LogState.start.configure (LogLevel.ofName level) file w.tree
  opened.mapError .file
  return (log, tree)

/-- A site with the features of the configured directory, if its files can be looked for. -/
def openSite (w : World) (v : Config.View) : Except StartError Site := do
  let customize ← v.customizeDir.mapError .setting
  let time ← v.recentWriteTime.mapError .setting
  match (Site.reloadFeatures false).run.run (emptySite w (some customize) time) with
  | (.error (.file f), _) => .error (.file f)
  | (_, site) => .ok site

/-- An engine made from a configuration, and what was reported meanwhile. -/
def ofConfig (w : World) (v : Config.View) : Except StartError Engine × List Notice :=
  match openLog w v with
  | .error e => (.error e, [])
  | .ok (log, tree) =>
    match openSite { w with tree := tree } v with
    | .error e => (.error e, [])
    | .ok site =>
      let shown := site.notices.filter fun n => log.shows n.severity.level
      let settings := do
        let root ← rootOf v
        (SiteSettings.ofView v root w.random w.now).mapError .setting
      match settings with
      | .error e => (.error e, shown)
      | .ok s => (.ok ⟨s, { site with notices := [] }⟩, shown)

end Engine

end PageTemplate
