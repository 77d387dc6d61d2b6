import PageTemplate.Number.Basic
set_option autoImplicit false
/-!
The characters of a project file with their places. A NUL stands behind the last of them, so a reader that
looks at the next character always finds one.
-/
namespace PageTemplate.Config.Document

/-- Why a file has no value: it is not written as files must be, or a number or date in it does not
exist. -/
inductive Failure where
  | malformed
  | fault (f : Fault)
  deriving DecidableEq, Repr

structure Glyph where
  char : Char
  index : Nat
  line : Nat
  column : Nat

abbrev Glyphs := List Glyph

/-- Does the character end a line? -/
def isBreak (c : Char) : Bool := c = '\n' || c = '\x85' || c = '\u2028' || c = '\u2029'

/-- Does it end a line or the file? -/
def isStop (c : Char) : Bool := c = '\x00' || isBreak c

/-- Does it end a word? -/
def isGap (c : Char) : Bool := c = ' ' || c = '\t' || isStop c

/-- Characters that a file may hold. -/
def isAllowed (c : Char) : Bool :=
  let n := c.toNat
  n = 9 || n = 10 || n = 13 || (0x20 ≤ n && n < 0x7F) || n = 0x85 || (0xA0 ≤ n && n < 0xFFFE)
    || 0x10000 ≤ n

/-- A byte order mark, which takes no column and is dropped in front. -/
def orderMark : Char := '\uFEFF'

namespace Glyphs

/-- The characters from a place on. -/
def placed (index line column : Nat) : Text → Glyphs
  | [] => [⟨'\x00', index, line, column⟩]
  | c :: r =>
    ⟨c, index, line, column⟩ ::
      if isBreak c then placed (index + 1) (line + 1) 0 r
      else placed (index + 1) line (if c = orderMark then column else column + 1) r

def ofText (t : Text) : Glyphs :=
  match t with
  | c :: r => if c = orderMark then placed 1 0 0 r else placed 0 0 0 (c :: r)
  | [] => placed 0 0 0 []

def chars (g : Glyphs) : Text := g.map (·.char)

/-- What is left behind some characters. -/
def advance (n : Nat) (g : Glyphs) : Glyphs := g.drop n

/-- What is left behind characters of a kind. -/
def skip (p : Char → Bool) (g : Glyphs) : Glyphs := g.dropWhile (p ·.char)

/-- The characters of a kind at the front, and what is left behind them. -/
def spanOf (p : Char → Bool) (g : Glyphs) : Text × Glyphs :=
  (chars (g.takeWhile (p ·.char)), g.skip p)

/-- The character some places ahead. -/
def look (g : Glyphs) (n : Nat) : Char := (g[n]?.map (·.char)).getD '\x00'

def column (g : Glyphs) : Nat := (g.head?.map (·.column)).getD 0

def line (g : Glyphs) : Nat := (g.head?.map (·.line)).getD 0

def index (g : Glyphs) : Nat := (g.head?.map (·.index)).getD 0

/-- What a line end counts as in a text; only separators of lines and paragraphs count as themselves. -/
def breakText (c : Char) : Text := if c = '\u2028' || c = '\u2029' then [c] else ['\n']

/-- Takes a line end, if there is one. -/
def takeBreak (g : Glyphs) : Text × Glyphs :=
  match g with
  | x :: r => if isBreak x.char then (breakText x.char, r) else ([], g)
  | [] => ([], [])

/-- Do three equal characters stand here as a word? -/
def isTriple (c : Char) (g : Glyphs) : Bool := chars (g.take 3) = [c, c, c] && isGap (g.look 3)

/-- Does a line here separate documents? -/
def isSeparator (g : Glyphs) : Bool := g.isTriple '-' || g.isTriple '.'

def skipSpaces (g : Glyphs) : Glyphs := g.skip (· == ' ')

/-- What is left of a line behind spaces and a comment, if nothing else is on it. -/
def skipLine (g : Glyphs) : Except Failure Glyphs :=
  let g := g.skipSpaces
  let g := if g.look 0 = '#' then g.skip (!isStop ·) else g
  if isStop (g.look 0) then .ok g.takeBreak.2 else .error .malformed

end Glyphs

end PageTemplate.Config.Document
