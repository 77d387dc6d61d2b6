import PageTemplate.Dynamic.Piece
import PageTemplate.Text.Blank
import PageTemplate.Text.Word
set_option autoImplicit false
/-!
The common shape of dynamic tags: two opening braces, a body, two closing braces. A body holds no closing
brace, so it ends at the first one, and that must be the pair.
-/
namespace PageTemplate.Tag

def opening : Text := ['\x7b', '\x7b']

def closing : Text := ['\x7d', '\x7d']

/-- The body of a tag at the front of a text. -/
def readBody : TagReader Text := fun t => do
  let r ← after? opening t
  let rest ← after? closing (r.dropWhile (· != '\x7d'))
  some (r.takeWhile (· != '\x7d'), rest)

/-- A tag whose body is one word with blanks around it. -/
def readKeyword (word : Text) : TagReader Unit := fun t => do
  let r ← after? opening t
  let r ← after? word (skipBlanks r)
  let rest ← after? closing (skipBlanks r)
  some ((), rest)

/-- What follows a word and at least one blank; further blanks are skipped. -/
def afterWord? (word t : Text) : Option Text := do
  let r ← after? word t
  if startsBlank r then some (skipBlanks r) else none

def closes (t : Text) : Bool := (after? closing t).isSome

def opens (t : Text) : Bool := (after? opening t).isSome

/-- Does the test hold for what starts at some place of the text? -/
def anywhere (test : Text → Bool) : Text → Bool
  | [] => test []
  | c :: cs => test (c :: cs) || anywhere test cs

/-- Is anything left that looks like a tag? -/
def remains (t : Text) : Bool :=
  anywhere (fun u => match after? opening u with | some r => anywhere closes r | none => false) t

/-- Words that structure a page and no expression. -/
def structuralWords : List Text :=
  ["else", "endif", "endfor", "empty", "break", "continue"].map text

end PageTemplate.Tag
