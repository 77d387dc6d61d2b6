import PageTemplate.Notice
import PageTemplate.Site.FeatureModule
import PageTemplate.Site.Path
import PageTemplate.Text.Utf8
set_option autoImplicit false
/-!
File trees. Directories are entries like files, so an empty one is seen. A path is followed segment by
segment, and every segment it passes must be a directory, also in front of two points. A name that is too
long is found out where it is looked for, a path that is too long or holds a NUL before anything else.
-/
namespace PageTemplate

inductive Node where
  | directory
  | file (bytes : Utf8.Bytes)
  | module (m : FeatureModule)

def Node.isDirectory : Node → Bool
  | .directory => true
  | _ => false

/-- A file as opposed to a directory; a module is a file. -/
def Node.isFile (n : Node) : Bool := !n.isDirectory

structure FileTree where
  entries : List (Location × Node)

namespace FileTree

def empty : FileTree := ⟨[]⟩

/-- What is at a place. The root is always a directory. -/
def find? (t : FileTree) (l : Location) : Option Node :=
  if l.isEmpty then some .directory else t.entries.lookup l

def isDirectory (t : FileTree) (l : Location) : Bool := (t.find? l).any Node.isDirectory

def isFile (t : FileTree) (l : Location) : Bool := (t.find? l).any Node.isFile

/-- Sets what is at a place. -/
def put (t : FileTree) (l : Location) (n : Node) : FileTree :=
  if t.entries.any (·.1 == l) then
    ⟨t.entries.map fun e => if e.1 = l then (l, n) else e⟩
  else ⟨t.entries ++ [(l, n)]⟩

/-- Removes what is at a place. -/
def erase (t : FileTree) (l : Location) : FileTree := ⟨t.entries.filter (·.1 != l)⟩

/-- Removes a place and all below it. -/
def prune (t : FileTree) (l : Location) : FileTree :=
  ⟨t.entries.filter fun e => !Location.isBelow l e.1⟩

/-- Names have at most so many bytes. -/
def nameLimit : Nat := 255

/-- Paths have at most so many bytes. -/
def pathLimit : Nat := 4095

/-- The place that segments lead to from a place. The place itself need not be there. -/
def walk (t : FileTree) (here : Location) : List Text → Except FileFailure Location
  | [] => .ok here
  | s :: ss =>
    match t.find? here with
    | some .directory =>
      if nameLimit < (Utf8.encode s).length then .error .tooLong else t.walk (Path.step here s) ss
    | some _ => .error .underFile
    | none => .error .missing

/-- The place that a path leads to. -/
def place (t : FileTree) (p : Path) : Except FileFailure Location :=
  if !p.isNameable then .error .unnameable
  else if pathLimit < (Utf8.encode p.toText).length then .error .tooLong
  else t.walk [] p.segments

/-- What is at a path, if anything. Only a name that is too long to look for is a failure. -/
def probe (t : FileTree) (p : Path) : Except FileFailure (Option Node) :=
  match t.place p with
  | .ok l => .ok (t.find? l)
  | .error .tooLong => .error .tooLong
  | .error _ => .ok none

def hasFile (t : FileTree) (p : Path) : Except FileFailure Bool :=
  (t.probe p).map (·.any Node.isFile)

def hasDirectory (t : FileTree) (p : Path) : Except FileFailure Bool :=
  (t.probe p).map (·.any Node.isDirectory)

/-- The text of a file, with unified line ends. A module is no text. -/
def readText (t : FileTree) (l : Location) : Except FileFailure Text :=
  match t.place l.path with
  | .error f => .error f
  | .ok _ =>
    match t.find? l with
    | some .directory => .error .directory
    | some (.file bytes) =>
      match Utf8.decode? bytes with
      | some text => .ok (unifyLineEnds text)
      | none => .error .undecodable
    | some (.module _) => .error .undecodable
    | none => .error .missing

def byText (a b : Location) : Bool := Text.noLaterThan (Location.relativeText a) (Location.relativeText b)

/-- The files below a place, relative to it, in the order of their texts. -/
def filesBelow (t : FileTree) (root : Location) : List Location :=
  let found := t.entries.filterMap fun e =>
    if e.2.isFile then Location.below? root e.1 else none
  (found.filter (!·.isEmpty)).mergeSort byText

/-- The names of what lies directly in a directory, in order. -/
def names (t : FileTree) (l : Location) : List Text :=
  (t.entries.filterMap fun e =>
    match Location.below? l e.1 with
    | some [name] => some name
    | _ => none).mergeSort Text.noLaterThan

end FileTree

/-- Changes of a file tree. A failure keeps what was changed before it. -/
abbrev FileAction (α : Type) := ExceptT FileFailure (StateM FileTree) α

namespace FileAction

/-- The outcome of an action on a tree, and the tree it leaves. -/
def runOn {α : Type} (t : FileTree) (a : FileAction α) : Except FileFailure α × FileTree := a.run.run t

/-- Looks at the tree and changes nothing. -/
def inspect {α : Type} (f : FileTree → Except FileFailure α) : FileAction α := do
  ExceptT.mk (pure (f (← get)))

/-- Makes one directory. -/
def makeDirectory (p : Path) : FileAction Unit := do
  let l ← inspect (·.place p)
  if ((← get).find? l).isSome then throw .occupied else modify (·.put l .directory)

/-- Makes one directory, unless it is there. -/
def ensureDirectory (p : Path) : FileAction Unit :=
  tryCatch (makeDirectory p) fun f => do
    if !(← inspect (·.hasDirectory p)) then throw f

/-- Makes a directory with those above it, unless it is there. -/
def makeDirectories (p : Path) : FileAction Unit :=
  tryCatch (ensureDirectory p) fun f => do
    if _h : f = .missing ∧ p.segments ≠ [] then
      makeDirectories p.parent
      ensureDirectory p
    else throw f
termination_by p.segments.length
decreasing_by
  have := List.length_pos_iff.2 _h.2
  simp only [Path.parent, List.length_dropLast]
  omega

/-- Puts a file at a path, over a file that may be there. -/
def writeFile (p : Path) (n : Node) : FileAction Unit := do
  let l ← inspect (·.place p)
  if (← get).isDirectory l then throw .directory else modify (·.put l n)

/-- Puts a file at a path and makes the directories above it. -/
def save (p : Path) (n : Node) : FileAction Unit := do
  makeDirectories p.parent
  writeFile p n

/-- Removes a file. -/
def removeFile (p : Path) : FileAction Unit := do
  let l ← inspect (·.place p)
  match (← get).find? l with
  | some .directory => throw .directory
  | some _ => modify (·.erase l)
  | none => throw .missing

end FileAction

end PageTemplate
