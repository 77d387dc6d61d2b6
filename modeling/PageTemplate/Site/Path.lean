import PageTemplate.Text.Search
set_option autoImplicit false
/-!
Paths and the places they lead to. A path keeps the segments it was written with, except that empty ones
and single points vanish; two points stay, so that a path shows as it was given, and so do two slashes in
front of it, though not three. Its location is what is left when two points cancel the segment before them;
nothing lies above the root. A path with a NUL in it leads nowhere.
-/
namespace PageTemplate

/-- An absolute path as it was given, with one slash or two in front. -/
structure Path where
  doubleSlash : Bool
  segments : List Text
  deriving DecidableEq, Repr

/-- A place in a file tree: the names from the root down to it. -/
abbrev Location := List Text

def upSegment : Text := ['.', '.']

namespace Path

/-- The segments of a text. -/
def split (t : Text) : List Text := (splitAt ['/'] t).filter fun s => !s.isEmpty && s != ['.']

/-- Do exactly two slashes stand in front? -/
def startsDouble : Text → Bool
  | '/' :: '/' :: r => r.head? != some '/'
  | _ => false

def ofText (t : Text) : Path := ⟨startsDouble t, split t⟩

def isAbsolute (t : Text) : Bool := (after? ['/'] t).isSome

/-- The path a text means below another one. An absolute text stands for itself. -/
def join (base : Path) (t : Text) : Path :=
  if isAbsolute t then ofText t else { base with segments := base.segments ++ split t }

def parent (p : Path) : Path := { p with segments := p.segments.dropLast }

def toText (p : Path) : Text :=
  (if p.doubleSlash then ['/', '/'] else ['/']) ++ joinWith ['/'] p.segments

/-- One step from a place. -/
def step (here : Location) (segment : Text) : Location :=
  if segment = upSegment then here.dropLast else here ++ [segment]

def location (p : Path) : Location := p.segments.foldl step []

/-- No name holds a NUL. -/
def isNameable (p : Path) : Bool := p.segments.all fun s => !s.contains '\x00'

/-- The location of a path, if all its names can be names. -/
def location? (p : Path) : Option Location := if p.isNameable then some p.location else none

end Path

namespace Location

def path (l : Location) : Path := ⟨false, l⟩

def toText (l : Location) : Text := l.path.toText

/-- The place relative to a place above it; nothing if it lies elsewhere. -/
def below? : Location → Location → Option Location
  | [], l => some l
  | _ :: _, [] => none
  | r :: rs, s :: ss => if r = s then below? rs ss else none

def isBelow (root l : Location) : Bool := (below? root l).isSome

/-- A relative place as text; the root itself is a single point. -/
def relativeText (l : Location) : Text := if l.isEmpty then ['.'] else joinWith ['/'] l

theorem below?_eq_some_iff {root l rest : Location} :
    below? root l = some rest ↔ l = root ++ rest := by
  induction root generalizing l with
  | nil => simp [below?]
  | cons r rs ih =>
    cases l with
    | nil => simp [below?]
    | cons s ss =>
      by_cases h : r = s
      · simp [below?, h, ih]
      · simp [below?, h, Ne.symm h]

end Location

end PageTemplate
