import PageTemplate.Site.Tree
set_option autoImplicit false
/-!
Features of a site: the variables and functions that the modules in its customisation directories define.
Modules are loaded in the order of their names, and what a later one defines replaces what an earlier one
did. What cannot be loaded or called is left out and reported.
-/
namespace PageTemplate

structure Features where
  vars : Entries
  functions : Registry

def Features.empty : Features := ⟨[], .empty⟩

namespace FeatureModule

/-- A name without its last extension. A point at either end makes no extension. -/
def stem (name : Text) : Text :=
  match name.reverse.span (· != '.') with
  | (_ :: _, '.' :: before) => if before.isEmpty then name else before.reverse
  | _ => name

def extension : Text := text ".py"

/-- The file that marks a directory and is no module. -/
def marker : Text := text "__init__.py"

/-- The modules of a directory, in the order of their names. What is no directory has none. -/
def pathsIn (tree : FileTree) (excluded : List Text) (d : Path) : Except FileFailure (List Path) := do
  if ← tree.hasDirectory d then
    let l := d.location
    return ((tree.names l).filter fun n =>
      endsWith extension n && tree.isFile (l ++ [n]) && !excluded.contains n).map
      fun n => { d with segments := d.segments ++ [n] }
  else return []

/-- The modules of directories in turn. -/
def paths (tree : FileTree) (excluded : List Text) (directories : List Path) :
    Except FileFailure (List Path) := do
  return (← directories.mapM (pathsIn tree excluded)).flatten

def name (p : Path) : Text := p.segments.getLast?.getD []

/-- Registers the functions of a module under its stem. -/
def addFunctions (file : Text) (r : Registry) : List (Text × Registered) → Registry × List Notice
  | [] => (r, [])
  | (n, .plain _) :: es =>
    let (r, ns) := addFunctions file r es
    (r, .notCallable n file :: ns)
  | (n, item) :: es => addFunctions file (r.add (stem file ++ '.' :: n) item) es

/-- What a module adds to features. -/
def extend (f : Features) (path : Path) : FeatureModule → Features × List Notice
  | .broken reason => (f, [.moduleFailed path.toText reason])
  | .loaded functions vars =>
    let (r, ns) := addFunctions (name path) f.functions functions.entries
    match vars with
    | .map es => (⟨f.vars.overlay es, r⟩, ns)
    | _ => (⟨f.vars, r⟩, ns)

/-- The module in a file. A file that is no module defines nothing. -/
def at? (tree : FileTree) (path : Path) : Option FeatureModule :=
  match tree.probe path with
  | .ok (some (.module m)) => some m
  | _ => none

end FeatureModule

namespace Features

/-- Loads modules in turn. -/
def load (tree : FileTree) (f : Features) : List Path → Features × List Notice
  | [] => (f, [])
  | p :: ps =>
    match FeatureModule.at? tree p with
    | none => load tree f ps
    | some m =>
      let (f, ns) := m.extend f p
      let (f, ns') := load tree f ps
      (f, ns ++ ns')

/-- The features that a directory gives. A missing directory gives none. -/
def collect (tree : FileTree) (directory : Path) : Except FileFailure (Features × List Notice) := do
  return load tree .empty (← FeatureModule.paths tree [FeatureModule.marker] [directory])

end Features

end PageTemplate
