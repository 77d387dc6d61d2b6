import PageTemplate.Config.Document.Scalar
import PageTemplate.Text.Utf8
set_option autoImplicit false
/-!
The tokens of a project file. Indentation becomes tokens as well: the first item or key of a block opens it,
and a line that is indented less closes it.

A key is known only by the colon behind it. So the place of what could be one is kept, and the colon puts a
token for the key there. It must stand on the same line, and within 1024 characters.
-/
namespace PageTemplate.Config.Document

inductive Token where
  | version (major : Nat)
  | handle (name replacement : Text)
  | unknownDirective
  | documentStart
  | documentEnd
  | listStart
  | mappingStart
  | blockEnd
  | flowListStart
  | flowListEnd
  | flowMappingStart
  | flowMappingEnd
  | item
  | comma
  | key
  | value
  | alias (name : Text)
  | anchor (name : Text)
  | tag (handle : Option Text) (suffix : Text)
  | scalar (plain : Bool) (content : Text)
  deriving DecidableEq, Repr

/-- A place where a key may have started: how many tokens stood in front of it, and whether it must be
one. -/
structure KeyPlace where
  level : Nat
  before : Nat
  required : Bool
  index : Nat
  line : Nat
  column : Nat

/-- Tokens read so far, the latest first, and what they mean for the next. -/
structure TokenReader where
  rest : Glyphs
  tokens : List Token
  level : Nat
  indent : Int
  outer : List Int
  mayBeKey : Bool
  keys : List KeyPlace

namespace TokenReader

def start (g : Glyphs) : TokenReader := ⟨g, [], 0, -1, [], true, []⟩

abbrev Step := Except Failure TokenReader

def push (t : Token) (s : TokenReader) : TokenReader := { s with tokens := t :: s.tokens }

def advance (n : Nat) (s : TokenReader) : TokenReader := { s with rest := s.rest.advance n }

def inFlow (s : TokenReader) : Bool := s.level != 0

/-- Puts a token behind the first `n`. -/
def insert (n : Nat) (t : Token) (s : TokenReader) : TokenReader :=
  let later := s.tokens.length - n
  { s with tokens := s.tokens.take later ++ t :: s.tokens.drop later }

/-- Closes the blocks that are indented further than a column. -/
def closeBlocks (column : Int) (s : TokenReader) : TokenReader :=
  if s.inFlow then s else go s.indent s.outer s
where
  go (indent : Int) (outer : List Int) (s : TokenReader) : TokenReader :=
    match outer with
    | [] => { s with indent := indent, outer := [] }
    | o :: os =>
      if column < indent then go o os (s.push .blockEnd)
      else { s with indent := indent, outer := o :: os }

/-- Opens a block at a column, unless one is open there; its first token goes behind the first `n`. -/
def openBlock (column n : Nat) (t : Token) (s : TokenReader) : TokenReader :=
  if s.indent < column then
    { s.insert n t with indent := column, outer := s.indent :: s.outer }
  else s

/-- Gives up the possible key of this level. -/
def dropKey (s : TokenReader) : Step :=
  if s.keys.any fun k => k.level = s.level && k.required then .error .malformed
  else .ok { s with keys := s.keys.filter (·.level != s.level) }

/-- Gives up possible keys that are too far away. -/
def dropStaleKeys (s : TokenReader) : Step :=
  let isStale (k : KeyPlace) : Bool := k.line != s.rest.line || k.index + 1024 < s.rest.index
  if s.keys.any fun k => isStale k && k.required then .error .malformed
  else .ok { s with keys := s.keys.filter (!isStale ·) }

/-- Keeps this place as one of a possible key. -/
def keepKey (s : TokenReader) : Step := do
  if s.mayBeKey then
    let required := !s.inFlow && s.indent == s.rest.column
    let k : KeyPlace :=
      ⟨s.level, s.tokens.length, required, s.rest.index, s.rest.line, s.rest.column⟩
    let s ← s.dropKey
    return { s with keys := k :: s.keys }
  else return s

/-- Spaces, comments and line ends. A line end outside of flow brackets lets a key start. -/
def skipFiller (inFlow inComment mayBeKey : Bool) : Glyphs → Bool × Glyphs
  | [] => (mayBeKey, [])
  | x :: r =>
    if isBreak x.char then skipFiller inFlow false (mayBeKey || !inFlow) r
    else if x.char = '\x00' then (mayBeKey, x :: r)
    else if inComment || x.char = ' ' then skipFiller inFlow inComment mayBeKey r
    else if x.char = '#' then skipFiller inFlow true mayBeKey r
    else (mayBeKey, x :: r)

/-! The kinds of tokens -/

/-- The end of a document or of the file, or a directive, ends all blocks. -/
def endBlocks (s : TokenReader) : Step := do
  let s ← (s.closeBlocks (-1)).dropKey
  return { s with mayBeKey := false }

def openFlow (t : Token) (s : TokenReader) : Step := do
  let s ← s.keepKey
  return { (s.push t).advance 1 with level := s.level + 1, mayBeKey := true }

def closeFlow (t : Token) (s : TokenReader) : Step := do
  let s ← s.dropKey
  if s.level = 0 then throw .malformed
  else return { (s.push t).advance 1 with level := s.level - 1, mayBeKey := false }

def readComma (s : TokenReader) : Step := do
  let s ← s.dropKey
  return { (s.push .comma).advance 1 with mayBeKey := true }

def readItem (s : TokenReader) : Step := do
  if s.inFlow then
    let s ← s.dropKey
    return (s.push .item).advance 1
  else if !s.mayBeKey then throw .malformed
  else
    let s ← (s.openBlock s.rest.column s.tokens.length .listStart).dropKey
    return (s.push .item).advance 1

/-- A key that is marked by a sign. -/
def readKey (s : TokenReader) : Step := do
  if !s.inFlow && !s.mayBeKey then throw .malformed
  else
    let s := if s.inFlow then s else s.openBlock s.rest.column s.tokens.length .mappingStart
    let s ← s.dropKey
    return { (s.push .key).advance 1 with mayBeKey := !s.inFlow }

/-- A colon. It makes a key of what stands in front of it. -/
def readValue (s : TokenReader) : Step := do
  match s.keys.find? (·.level = s.level) with
  | some k =>
    let s := s.insert k.before .key
    let s := if s.inFlow then s else s.openBlock k.column k.before .mappingStart
    let keys := s.keys.filter (·.level != s.level)
    return { (s.push .value).advance 1 with keys := keys, mayBeKey := false }
  | none =>
    if !s.inFlow && !s.mayBeKey then throw .malformed
    else
      let s := if s.inFlow then s else s.openBlock s.rest.column s.tokens.length .mappingStart
      let s ← s.dropKey
      return { (s.push .value).advance 1 with mayBeKey := !s.inFlow }

def isNameChar (c : Char) : Bool :=
  isAsciiDigit c || ('A' ≤ c && c ≤ 'Z') || ('a' ≤ c && c ≤ 'z') || c = '-' || c = '_'

/-- The name of an anchor or alias. -/
def readName (make : Text → Token) (s : TokenReader) : Step := do
  let s ← s.keepKey
  let (name, r) := (s.rest.advance 1).spanOf isNameChar
  let next := r.look 0
  if name.isEmpty || !(isGap next || (text "?:,]\x7d%@").contains next || next.toNat = 0x60) then
    throw .malformed
  else return { (s.push (make name)) with rest := r, mayBeKey := false }

def isUriChar (c : Char) : Bool := isNameChar c || (text ";/?:@&=+$,.!~*'()[]").contains c

/-- The bytes of escapes, each a percent sign and two digits. -/
def uriBytes : Nat → Glyphs → Option (Utf8.Bytes × Glyphs)
  | 0, g => some ([], g)
  | fuel + 1, g =>
    if g.look 0 = '%' then do
      let code ← hexNumber? (Glyphs.chars ((g.advance 1).take 2))
      let (bytes, r) ← uriBytes fuel (g.advance 3)
      some (UInt8.ofNat code :: bytes, r)
    else some ([], g)

/-- The characters of an address, which may hold escaped bytes. -/
def uriText : Nat → Glyphs → Option (Text × Glyphs)
  | 0, g => some ([], g)
  | fuel + 1, g =>
    if g.look 0 = '%' then do
      let (bytes, r) ← uriBytes g.length g
      let t ← Utf8.decode? bytes
      let (more, r) ← uriText fuel r
      some (t ++ more, r)
    else if isUriChar (g.look 0) then do
      let (more, r) ← uriText fuel (g.advance 1)
      some (g.look 0 :: more, r)
    else some ([], g)

def readUri (g : Glyphs) : Except Failure (Text × Glyphs) :=
  match uriText g.length g with
  | some (c :: t, r) => .ok (c :: t, r)
  | _ => .error .malformed

/-- A handle of tags: a sign, or a name between two. -/
def readHandle (g : Glyphs) : Except Failure (Text × Glyphs) :=
  if g.look 0 != '!' then .error .malformed
  else if g.look 1 = ' ' then .ok (['!'], g.advance 1)
  else
    let (name, r) := (g.advance 1).spanOf isNameChar
    if r.look 0 = '!' then .ok ('!' :: name ++ ['!'], r.advance 1) else .error .malformed

def isLineGap (c : Char) : Bool := c = ' ' || isStop c

/-- A tag: its handle and the rest of it, or a whole address. -/
def readTag (s : TokenReader) : Step := do
  let s ← s.keepKey
  let g := s.rest
  let (t, r) ←
    if g.look 1 = '<' then do
      let (uri, r) ← readUri (g.advance 2)
      if r.look 0 = '>' then pure (Token.tag none uri, r.advance 1) else throw .malformed
    else if isGap (g.look 1) then pure (Token.tag none ['!'], g.advance 1)
    else do
      let word := ((g.advance 1).spanOf (!isLineGap ·)).1
      let (handle, r) ← if word.contains '!' then readHandle g else pure (['!'], g.advance 1)
      let (suffix, r) ← readUri r
      pure (Token.tag (some handle) suffix, r)
  if isLineGap (r.look 0) then return { s.push t with rest := r, mayBeKey := false }
  else throw .malformed

def readVersionPart (g : Glyphs) : Except Failure (Nat × Glyphs) := do
  let (digits, rest) := g.spanOf isAsciiDigit
  if digits.isEmpty then throw .malformed else return (← (readDigits digits).mapError .fault, rest)

/-- The first part of a version, which has two parts with a point between them. -/
def readVersion (g : Glyphs) : Except Failure (Token × Glyphs) := do
  let (major, r) ← readVersionPart g.skipSpaces
  if r.look 0 != '.' then throw .malformed
  else
    let (_, rest) ← readVersionPart (r.advance 1)
    if isLineGap (rest.look 0) then return (.version major, rest) else throw .malformed

/-- What a handle stands for. -/
def readReplacement (g : Glyphs) : Except Failure (Token × Glyphs) := do
  let (name, r) ← readHandle g.skipSpaces
  if r.look 0 != ' ' then throw .malformed
  let (replacement, r) ← readUri r.skipSpaces
  if isLineGap (r.look 0) then return (.handle name replacement, r) else throw .malformed

def readDirective (s : TokenReader) : Step := do
  let s ← s.endBlocks
  let (name, r) := (s.rest.advance 1).spanOf isNameChar
  if name.isEmpty || !isLineGap (r.look 0) then throw .malformed
  let (t, r) ←
    if name = text "YAML" then readVersion r
    else if name = text "TAG" then readReplacement r
    else pure (.unknownDirective, r.skip (!isStop ·))
  return { s.push t with rest := ← r.skipLine }

/-- A line between documents. -/
def readSeparator (t : Token) (s : TokenReader) : Step := do
  return ((← s.endBlocks).push t).advance 3

def readBlockScalar (folded : Bool) (s : TokenReader) : Step := do
  let s ← s.dropKey
  let (t, r) ← readBlock folded s.indent (s.rest.advance 1)
  return { s.push (.scalar false t) with rest := r, mayBeKey := true }

def readQuotedScalar (quote : Char) (s : TokenReader) : Step := do
  let s ← s.keepKey
  let (t, r) ← readQuoted quote s.rest.length (s.rest.advance 1)
  return { s.push (.scalar false t) with rest := r, mayBeKey := false }

def readPlainScalar (s : TokenReader) : Step := do
  let s ← s.keepKey
  let (t, ended, r) := readPlain s.inFlow (s.indent + 1) s.rest.length s.rest
  return { s.push (.scalar true t) with rest := r, mayBeKey := ended }

/-- May a plain text start here? -/
def startsPlain (s : TokenReader) : Bool :=
  let c := s.rest.look 0
  let isSign := (text "-?:,[]\x7b\x7d#&*!|>'\"%@").contains c || c.toNat = 0x60
  !(isGap c || isSign)
    || (!isGap (s.rest.look 1) && (c = '-' || (!s.inFlow && (c = '?' || c = ':'))))

/-- One token, or nothing at the end of the file. -/
def step (s : TokenReader) : Except Failure (Option TokenReader) := do
  let (mayBeKey, rest) := skipFiller s.inFlow false s.mayBeKey s.rest
  let s ← dropStaleKeys { s with rest := rest, mayBeKey := mayBeKey }
  let s := s.closeBlocks s.rest.column
  let c := s.rest.look 0
  let atEdge := s.rest.column = 0
  let standsAlone := isGap (s.rest.look 1)
  if c = '\x00' then return none
  else if c = '%' && atEdge then some <$> s.readDirective
  else if atEdge && s.rest.isTriple '-' then some <$> s.readSeparator .documentStart
  else if atEdge && s.rest.isTriple '.' then some <$> s.readSeparator .documentEnd
  else if c = '[' then some <$> s.openFlow .flowListStart
  else if c = '\x7b' then some <$> s.openFlow .flowMappingStart
  else if c = ']' then some <$> s.closeFlow .flowListEnd
  else if c = '\x7d' then some <$> s.closeFlow .flowMappingEnd
  else if c = ',' then some <$> s.readComma
  else if c = '-' && standsAlone then some <$> s.readItem
  else if c = '?' && (s.inFlow || standsAlone) then some <$> s.readKey
  else if c = ':' && (s.inFlow || standsAlone) then some <$> s.readValue
  else if c = '*' then some <$> s.readName .alias
  else if c = '&' then some <$> s.readName .anchor
  else if c = '!' then some <$> s.readTag
  else if c = '|' && !s.inFlow then some <$> s.readBlockScalar false
  else if c = '>' && !s.inFlow then some <$> s.readBlockScalar true
  else if c = '\'' || c = '"' then some <$> s.readQuotedScalar c
  else if s.startsPlain then some <$> s.readPlainScalar
  else throw .malformed

/-- All tokens that follow. Every step takes a character. -/
def run : Nat → TokenReader → Except Failure (List Token)
  | 0, _ => .error .malformed
  | fuel + 1, s => do
    match ← s.step with
    | some s => run fuel s
    | none => return (← s.endBlocks).tokens.reverse

end TokenReader

/-- The tokens of a file. -/
def Token.ofGlyphs (g : Glyphs) : Except Failure (List Token) :=
  TokenReader.run (g.length + 1) (TokenReader.start g)

end PageTemplate.Config.Document
