import PageTemplate.Config.Document.Glyph
set_option autoImplicit false
/-!
The texts of a project file: plain ones, those in single or double quotes, and blocks of lines. A line end
inside a text that is no block counts as a space, unless empty lines follow it, which then count
themselves.

Every step takes a character, so fuel for the number of characters is enough.
-/
namespace PageTemplate.Config.Document

/-! Plain texts -/

/-- Characters that end a plain text inside flow brackets. -/
def endsFlow (c : Char) : Bool := (text ",?[]\x7b\x7d").contains c

/-- Characters that a colon inside flow brackets may stand in front of to count as one. -/
def closesFlow (c : Char) : Bool := (text ",[]\x7b\x7d").contains c

/-- A word of a plain text. -/
def spanWord (inFlow : Bool) : Glyphs → Text × Glyphs
  | [] => ([], [])
  | x :: r =>
    let next := Glyphs.look r 0
    if isGap x.char || (x.char = ':' && (isGap next || (inFlow && closesFlow next)))
        || (inFlow && endsFlow x.char) then ([], x :: r)
    else
      let (word, rest) := spanWord inFlow r
      (x.char :: word, rest)

/-- Line ends with spaces between them, up to a separator of documents; was one met? -/
def moreBreaks : Glyphs → Text × Glyphs × Bool
  | [] => ([], [], false)
  | x :: r =>
    if x.char = ' ' then moreBreaks r
    else if isBreak x.char then
      if Glyphs.isSeparator r then ([], r, true)
      else
        let (breaks, rest, met) := moreBreaks r
        (Glyphs.breakText x.char ++ breaks, rest, met)
    else ([], x :: r, false)

/-- What line ends count as. -/
def fold (first breaks : Text) : Text :=
  (if first != ['\n'] then first else if breaks.isEmpty then [' '] else []) ++ breaks

/-- What stands between two words of a plain text, and whether the line ended. -/
def spanGap (g : Glyphs) : Text × Bool × Glyphs :=
  let r := g.skipSpaces
  if isBreak (r.look 0) then
    let (first, r) := r.takeBreak
    if r.isSeparator then ([], true, r)
    else
      let (breaks, r, met) := moreBreaks r
      (if met then [] else fold first breaks, true, r)
  else ((g.spanOf (· == ' ')).1, false, r)

/-- A plain text, whether the line behind it ended, and what follows. Outside of flow brackets further
lines must be indented. -/
def readPlain (inFlow : Bool) (indent : Int) : Nat → Glyphs → Text × Bool × Glyphs
  | 0, g => ([], false, g)
  | fuel + 1, g =>
    let (word, r) := if g.look 0 = '#' then ([], g) else spanWord inFlow g
    if word.isEmpty then ([], false, g)
    else
      let (gap, ended, r) := spanGap r
      if gap.isEmpty || r.look 0 = '#' || (!inFlow && (r.column : Int) < indent) then (word, ended, r)
      else
        let (more, endedLater, r) := readPlain inFlow indent fuel r
        if more.isEmpty then (word, ended, r) else (word ++ gap ++ more, endedLater, r)

/-! Quoted texts -/

/-- Line ends inside quotes with blanks around them. -/
def quotedBreaks : Nat → Glyphs → Except Failure (Text × Glyphs)
  | 0, _ => .error .malformed
  | fuel + 1, g =>
    if g.isSeparator then .error .malformed
    else
      let r := g.skip fun c => c == ' ' || c == '\t'
      if isBreak (r.look 0) then do
        let (first, r) := r.takeBreak
        let (breaks, r) ← quotedBreaks fuel r
        return (first ++ breaks, r)
      else return ([], r)

/-- Blanks or line ends inside quotes. -/
def quotedGap (fuel : Nat) (g : Glyphs) : Except Failure (Text × Glyphs) := do
  let (blanks, r) := g.spanOf fun c => c == ' ' || c == '\t'
  if isBreak (r.look 0) then
    let (first, r) := r.takeBreak
    let (breaks, r) ← quotedBreaks fuel r
    return (fold first breaks, r)
  else return (blanks, r)

/-- What a letter behind a backslash stands for. -/
def escapes : List (Char × Char) := [
  ('0', '\x00'), ('a', '\x07'), ('b', '\x08'), ('t', '\t'), ('\t', '\t'), ('n', '\n'), ('v', '\x0b'),
  ('f', '\x0c'), ('r', '\r'), ('e', '\x1b'), (' ', ' '), ('"', '"'), ('\\', '\\'), ('/', '/'),
  ('N', '\x85'), ('_', '\xa0'), ('L', '\u2028'), ('P', '\u2029')]

/-- How many digits a code point has behind a letter. -/
def codeLengths : List (Char × Nat) := [('x', 2), ('u', 4), ('U', 8)]

def hexValue? (c : Char) : Option Nat :=
  if '0' ≤ c && c ≤ '9' then some (c.toNat - '0'.toNat)
  else if 'a' ≤ c && c ≤ 'f' then some (c.toNat - 'a'.toNat + 10)
  else if 'A' ≤ c && c ≤ 'F' then some (c.toNat - 'A'.toNat + 10)
  else none

/-- The number of hexadecimal digits. -/
def hexNumber? (digits : Text) : Option Nat :=
  digits.foldlM (fun n c => (hexValue? c).map (16 * n + ·)) 0

/-- The character of a code point. -/
def charOf (code : Nat) : Except Failure Char :=
  if h : code.isValidChar then .ok (Char.ofNatAux code h)
  else if code < 0x110000 then .error .malformed
  else .error (.fault (if code < 0x80000000 then .outOfDomain else .tooLarge))

/-- What stands behind a backslash: a character, or a line end that is left out. -/
def readEscape (fuel : Nat) (g : Glyphs) : Except Failure (Text × Glyphs) := do
  let c := g.look 0
  match escapes.lookup c, codeLengths.lookup c with
  | some d, _ => return ([d], g.advance 1)
  | none, some n =>
    match hexNumber? (Glyphs.chars ((g.advance 1).take n)) with
    | some code => return ([← charOf code], g.advance (n + 1))
    | none => throw .malformed
  | none, none => if isBreak c then quotedBreaks fuel g.takeBreak.2 else throw .malformed

/-- The rest of a text in quotes. -/
def readQuoted (quote : Char) : Nat → Glyphs → Except Failure (Text × Glyphs)
  | 0, _ => .error .malformed
  | fuel + 1, g => do
    let c := g.look 0
    if c = '\x00' then throw .malformed
    else if c = quote then
      if quote = '\'' && g.look 1 = '\'' then
        let (t, r) ← readQuoted quote fuel (g.advance 2)
        return ('\'' :: t, r)
      else return ([], g.advance 1)
    else if c = '\\' && quote = '"' then
      let (d, r) ← readEscape fuel (g.advance 1)
      let (t, r) ← readQuoted quote fuel r
      return (d ++ t, r)
    else if isGap c then
      let (gap, r) ← quotedGap fuel g
      let (t, r) ← readQuoted quote fuel r
      return (gap ++ t, r)
    else
      let (t, r) ← readQuoted quote fuel (g.advance 1)
      return (c :: t, r)

/-! Blocks -/

/-- What becomes of the line ends behind a block. -/
inductive Chomping where
  | strip | clip | keep
  deriving DecidableEq, Repr

def chompingOf? (c : Char) : Option Chomping :=
  if c = '+' then some .keep else if c = '-' then some .strip else none

def incrementOf? (c : Char) : Option Nat :=
  if '1' ≤ c && c ≤ '9' then some (c.toNat - '0'.toNat) else none

/-- The signs behind the opening of a block, in either order, and what follows them. -/
def blockSigns (g : Glyphs) : Chomping × Option Nat × Glyphs :=
  match chompingOf? (g.look 0), incrementOf? (g.look 0) with
  | some c, _ =>
    match incrementOf? (g.look 1) with
    | some n => (c, some n, g.advance 2)
    | none => (c, none, g.advance 1)
  | none, some n =>
    match chompingOf? (g.look 1) with
    | some c => (c, some n, g.advance 2)
    | none => (.clip, some n, g.advance 1)
  | none, none => (.clip, none, g)

/-- Empty lines in front of a block, and the deepest indentation met. -/
def leadingBreaks (deepest : Nat) : Glyphs → Text × Nat × Glyphs
  | [] => ([], deepest, [])
  | x :: r =>
    if x.char = ' ' then leadingBreaks (max deepest (x.column + 1)) r
    else if isBreak x.char then
      let (breaks, deepest, r) := leadingBreaks deepest r
      (Glyphs.breakText x.char ++ breaks, deepest, r)
    else ([], deepest, x :: r)

/-- Empty lines inside a block; indentation is skipped. -/
def blockBreaks (indent : Nat) : Glyphs → Text × Glyphs
  | [] => ([], [])
  | x :: r =>
    if x.char = ' ' && x.column < indent then blockBreaks indent r
    else if isBreak x.char then
      let (breaks, r) := blockBreaks indent r
      (Glyphs.breakText x.char ++ breaks, r)
    else ([], x :: r)

/-- The lines of a block and the line ends behind the last of them. -/
structure BlockLines where
  body : Text
  lastBreak : Text
  breaks : Text
  rest : Glyphs

/-- The lines of a block. Where lines are folded, the end of one that is not indented further counts as a
space before another such line. -/
def readLines (folded : Bool) (indent : Nat) : Nat → Text → Glyphs → BlockLines
  | 0, breaks, g => ⟨[], [], breaks, g⟩
  | fuel + 1, breaks, g =>
    if g.column = indent && g.look 0 != '\x00' then
      let isFlush (c : Char) : Bool := c != ' ' && c != '\t'
      let (line, r) := g.spanOf (!isStop ·)
      let (lastBreak, r) := r.takeBreak
      let (next, r) := blockBreaks indent r
      if r.column = indent && r.look 0 != '\x00' then
        let between :=
          if folded && lastBreak = ['\n'] && isFlush (g.look 0) && isFlush (r.look 0) then
            (if next.isEmpty then [' '] else [])
          else lastBreak
        let more := readLines folded indent fuel next r
        { more with body := breaks ++ line ++ between ++ more.body }
      else ⟨breaks ++ line, lastBreak, next, r⟩
    else ⟨[], [], breaks, g⟩

/-- A block of lines, read from behind its opening sign. Its lines are indented further than what it
belongs to. -/
def readBlock (folded : Bool) (outer : Int) (g : Glyphs) : Except Failure (Text × Glyphs) := do
  let (chomping, increment, g) := blockSigns g
  if !(g.look 0 == ' ' || isStop (g.look 0)) then throw .malformed
  let g ← g.skipLine
  let least := (max (outer + 1) 1).toNat
  let (breaks, indent, g) :=
    match increment with
    | none =>
      let (breaks, deepest, g) := leadingBreaks 0 g
      (breaks, max least deepest, g)
    | some n =>
      let (breaks, g) := blockBreaks (least + n - 1) g
      (breaks, least + n - 1, g)
  let b := readLines folded indent g.length breaks g
  return (b.body
    ++ (if chomping = .strip then [] else b.lastBreak)
    ++ (if chomping = .keep then b.breaks else []), b.rest)

end PageTemplate.Config.Document
