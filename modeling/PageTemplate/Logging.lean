import PageTemplate.Site.Tree
import PageTemplate.Text.LetterCase
set_option autoImplicit false
/-!
Where log records go. A log has a list of handlers, each for a file or for the standard error stream, and
remembers the one that it set up itself. Configuring it for the same target again changes only the level; for
another target the handler is replaced. Removing the handler leaves the level of the log as it was.
-/
namespace PageTemplate

abbrev LogLevel := Nat

/-- The level that records of normal operation have. -/
def LogLevel.info : LogLevel := 20

def LogLevel.warning : LogLevel := 30

/-- The level of a name in any case; a name that is none counts as information. -/
def LogLevel.ofName (name : Text) : LogLevel :=
  let known : List (String × LogLevel) := [
    ("CRITICAL", 50), ("FATAL", 50), ("ERROR", 40), ("WARN", 30), ("WARNING", LogLevel.warning),
    ("INFO", LogLevel.info), ("DEBUG", 10), ("NOTSET", 0)]
  ((known.map fun k => (text k.1, k.2)).lookup (toUpper name)).getD LogLevel.info

/-- A handler, told from others by its number. Without a place it writes to the standard error stream. -/
structure LogHandler where
  number : Nat
  target : Option Location
  level : LogLevel
  deriving DecidableEq, Repr

/-- A log with the handlers attached to it. It remembers which handler it set up itself, for which target it last
set up one, and how many it has made. -/
structure LogState where
  level : LogLevel
  handlers : List LogHandler
  own : Option Nat
  target : Option (Option Location)
  made : Nat
  deriving DecidableEq, Repr

namespace LogState

def start : LogState := ⟨0, [], none, none, 0⟩

def isOwn (s : LogState) (h : LogHandler) : Bool := s.own == some h.number

/-- Takes the own handler off. -/
def detach (s : LogState) : LogState := { s with handlers := s.handlers.filter (!s.isOwn ·), own := none }

/-- Takes the own handler off and forgets its target. -/
def reset (s : LogState) : LogState := { s.detach with target := none }

/-- Gives the own handler another level. -/
def adjust (level : LogLevel) (s : LogState) : LogState :=
  { s with handlers := s.handlers.map fun h => if s.isOwn h then { h with level := level } else h }

/-- Attaches a new handler, which is then the own one. -/
def add (level : LogLevel) (target : Option Location) (s : LogState) : LogState :=
  { s with
    handlers := s.handlers ++ [⟨s.made, target, level⟩], own := some s.made, target := some target, made := s.made + 1 }

/-- Makes the file of a handler, unless it is there. -/
def openFile (l : Location) : FileAction Unit := do
  FileAction.makeDirectories l.path.parent
  if !(← get).isFile l then FileAction.writeFile l.path (.file [])

/-- Sets the level and attaches a handler for a target in place of the own one, unless that has the same target. If
its file cannot be opened, the level is set and no own handler is left. -/
def attach (level : LogLevel) (target : Option Location) (tree : FileTree) (s : LogState) :
    LogState × Except FileFailure Unit × FileTree :=
  let s := { s with level := level }
  if s.own.isSome && s.target == some target then (s.adjust level, .ok (), tree)
  else
    match target with
    | none => (s.detach.add level none, .ok (), tree)
    | some l =>
      let (opened, tree) := (openFile l).runOn tree
      (if opened.isOk then s.detach.add level (some l) else s.detach, opened, tree)

/-- Attaches a handler for a file, or for the standard error stream. A path that leads nowhere changes
nothing. -/
def configure (level : LogLevel) (file : Option Path) (tree : FileTree) (s : LogState) :
    LogState × Except FileFailure Unit × FileTree :=
  match file with
  | none => s.attach level none tree
  | some p =>
    match p.location? with
    | some l => s.attach level (some l) tree
    | none => (s, .error .unnameable, tree)

/-- Does a record of some level reach anybody? A log without a level shows warnings. -/
def shows (s : LogState) (record : LogLevel) : Bool :=
  if s.level = 0 then LogLevel.warning ≤ record else s.level ≤ record

end LogState

def Severity.level : Severity → LogLevel
  | .warning => LogLevel.warning
  | .error => 40

end PageTemplate
