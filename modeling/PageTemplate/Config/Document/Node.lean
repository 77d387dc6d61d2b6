import PageTemplate.Config.Document.Token
set_option autoImplicit false
/-!
The tree of a project file, read from its tokens. A node may have a tag, which says what it is, and an
anchor, by which an alias names it again. What is left out counts as an empty plain text.

Every step takes a token or goes one level down, and levels without a token do not follow each other three
times, so fuel of four for each token is enough.
-/
namespace PageTemplate.Config.Document

/-- Tags are given in full. A scalar without a tag is known by being plain. -/
inductive Node where
  | scalar (tag : Option Text) (plain : Bool) (content : Text)
  | list (tag : Option Text) (items : List Node)
  | mapping (tag : Option Text) (entries : List (Node × Node))

namespace Node

def empty : Node := .scalar none true []

/-- Tokens to come, the anchors met, with their nodes once these are read, and what handles of tags
stand for. -/
structure Reader where
  tokens : List Token
  anchors : List (Text × Option Node)
  handles : List (Text × Text)

abbrev Read (α : Type) := StateT Reader (Except Failure) α

def malformed {α : Type} : Read α := throw .malformed

/-- The next token, if any is left. -/
def peek : Read (Option Token) := do return (← get).tokens.head?

def skip : Read Unit := modify fun s => { s with tokens := s.tokens.tail }

/-- Is the next token one of some? It is not taken. -/
def isNext (ts : List Token) : Read Bool := do return (← peek).any ts.contains

/-- Takes the next token if it is this. -/
def accept (t : Token) : Read Bool := do
  if ← isNext [t] then
    skip
    return true
  else return false

def demand (t : Token) : Read Unit := do
  if !(← accept t) then malformed

/-! Properties of nodes -/

/-- The prefix of the tags that files know without declaring them. -/
def knownPrefix : Text := text "tag:yaml.org,2002:"

def usualHandles : List (Text × Text) := [(['!'], ['!']), (['!', '!'], knownPrefix)]

def tag? : Read (Option Text) := do
  match ← peek with
  | some (.tag none t) =>
    skip
    return some t
  | some (.tag (some handle) suffix) =>
    skip
    match (← get).handles.lookup handle with
    | some start => return some (start ++ suffix)
    | none => malformed
  | _ => return none

def anchor? : Read (Option Text) := do
  match ← peek with
  | some (.anchor name) =>
    skip
    return some name
  | _ => return none

/-- The anchor and the tag of a node, in either order. -/
def properties : Read (Option Text × Option Text) := do
  match ← anchor? with
  | some a => return (some a, ← tag?)
  | none =>
    match ← tag? with
    | some t => return (← anchor?, some t)
    | none => return (none, none)

/-- An anchor is used once. -/
def declare (name : Text) : Read Unit := do
  if (← get).anchors.any (·.1 == name) then malformed
  else modify fun s => { s with anchors := (name, none) :: s.anchors }

def define (name : Text) (n : Node) : Read Unit :=
  modify fun s =>
    { s with anchors := s.anchors.map fun a => if a.1 = name then (name, some n) else a }

/-- The node of an anchor. A node that holds itself has no value. -/
def anchored (name : Text) : Read Node := do
  match (← get).anchors.lookup name with
  | some (some n) => return n
  | _ => malformed

/-- A single mark is no tag, but makes a text count as plain. -/
def scalarOf (tag : Option Text) (plain : Bool) (t : Text) : Node :=
  if tag = some ['!'] then .scalar none true t else .scalar tag plain t

def collectionTag (tag : Option Text) : Option Text := if tag = some ['!'] then none else tag

/-! Nodes -/

mutual

/-- A node. Blocks are not read inside flow brackets, and lists without indentation only where they
belong to a key. -/
def readNode (inBlock asValue : Bool) : Nat → Read Node
  | 0 => malformed
  | fuel + 1 => do
    if let some (.alias name) ← peek then
      skip
      anchored name
    else
      let (anchor, tag) ← properties
      if let some a := anchor then declare a
      let n ← readContent inBlock asValue anchor tag fuel
      if let some a := anchor then define a n
      return n

def readContent (inBlock asValue : Bool) (anchor tag : Option Text) : Nat → Read Node
  | 0 => malformed
  | fuel + 1 => do
    match ← peek with
    | some (.scalar plain t) =>
      skip
      return scalarOf tag plain t
    | some .flowListStart =>
      skip
      return .list (collectionTag tag) (← readFlowItems true fuel)
    | some .flowMappingStart =>
      skip
      return .mapping (collectionTag tag) (← readFlowEntries true fuel)
    | other =>
      if asValue && other = some .item then
        return .list (collectionTag tag) (← readLooseItems fuel)
      else if inBlock && other = some .listStart then
        skip
        return .list (collectionTag tag) (← readItems fuel)
      else if inBlock && other = some .mappingStart then
        skip
        return .mapping (collectionTag tag) (← readEntries fuel)
      else if anchor.isSome || tag.isSome then
        return scalarOf tag (tag.isNone || tag = some ['!']) []
      else malformed

/-- A node, or nothing in front of one of some tokens. -/
def readUnless (ends : List Token) (inBlock asValue : Bool) : Nat → Read Node
  | 0 => malformed
  | fuel + 1 => do
    if ← isNext ends then return empty else readNode inBlock asValue fuel

/-- The items of a block. -/
def readItems : Nat → Read (List Node)
  | 0 => malformed
  | fuel + 1 => do
    if ← accept .item then
      let n ← readUnless [.item, .blockEnd] true false fuel
      return n :: (← readItems fuel)
    else
      demand .blockEnd
      return []

/-- The items of a list that is not indented. -/
def readLooseItems : Nat → Read (List Node)
  | 0 => malformed
  | fuel + 1 => do
    if ← accept .item then
      let n ← readUnless [.item, .key, .value, .blockEnd] true false fuel
      return n :: (← readLooseItems fuel)
    else return []

/-- The entries of a block. -/
def readEntries : Nat → Read (List (Node × Node))
  | 0 => malformed
  | fuel + 1 => do
    let ends := [Token.key, .value, .blockEnd]
    if ← accept .key then
      let k ← readUnless ends true true fuel
      let v ← if ← accept .value then readUnless ends true true fuel else pure empty
      return (k, v) :: (← readEntries fuel)
    else
      demand .blockEnd
      return []

/-- The items of a list in brackets. One with a key is a mapping of its own. -/
def readFlowItems (first : Bool) : Nat → Read (List Node)
  | 0 => malformed
  | fuel + 1 => do
    if ← accept .flowListEnd then return []
    if !first then demand .comma
    if ← accept .key then
      let ends := [Token.comma, .flowListEnd]
      let k ← readUnless (.value :: ends) false false fuel
      let v ← if ← accept .value then readUnless ends false false fuel else pure empty
      return .mapping none [(k, v)] :: (← readFlowItems false fuel)
    else if ← accept .flowListEnd then return []
    else
      let n ← readNode false false fuel
      return n :: (← readFlowItems false fuel)

/-- The entries of a mapping in brackets. -/
def readFlowEntries (first : Bool) : Nat → Read (List (Node × Node))
  | 0 => malformed
  | fuel + 1 => do
    if ← accept .flowMappingEnd then return []
    if !first then demand .comma
    let ends := [Token.comma, .flowMappingEnd]
    if ← accept .key then
      let k ← readUnless (.value :: ends) false false fuel
      let v ← if ← accept .value then readUnless ends false false fuel else pure empty
      return (k, v) :: (← readFlowEntries false fuel)
    else if ← accept .flowMappingEnd then return []
    else
      let k ← readNode false false fuel
      return (k, empty) :: (← readFlowEntries false fuel)

end

/-! Documents -/

/-- The directives in front of a document: at most one version, which must be the first, and handles, each
at most once. -/
def readDirectives (versioned : Bool) (declared : List (Text × Text)) : Nat → Read Unit
  | 0 => malformed
  | fuel + 1 => do
    match ← peek with
    | some (.version major) =>
      skip
      if versioned || major != 1 then malformed
      else readDirectives true declared fuel
    | some (.handle name replacement) =>
      skip
      if declared.any (·.1 == name) then malformed
      else readDirectives versioned ((name, replacement) :: declared) fuel
    | some .unknownDirective =>
      skip
      readDirectives versioned declared fuel
    | _ => modify fun s => { s with handles := declared ++ usualHandles }

/-- Skips the ends of a document. -/
def skipEnds : Nat → Read Unit
  | 0 => malformed
  | fuel + 1 => do
    if ← accept .documentEnd then skipEnds fuel

/-- The only document, if there is one. -/
def readDocument (fuel : Nat) : Read (Option Node) := do
  match ← peek with
  | none => return none
  | some t =>
    let n ←
      match t with
      | .version _ | .handle _ _ | .unknownDirective | .documentStart => do
        readDirectives false [] fuel
        demand .documentStart
        match ← peek with
        | none | some (.version _) | some (.handle _ _) | some .unknownDirective
        | some .documentStart | some .documentEnd => pure empty
        | _ => readNode true false fuel
      | _ => readNode true false fuel
    skipEnds fuel
    if (← peek).isNone then return some n else malformed

/-- The tree of tokens, if they make one document or none. -/
def ofTokens (ts : List Token) : Except Failure (Option Node) :=
  (readDocument (4 * ts.length + 4)).run' ⟨ts, [], usualHandles⟩

end Node

end PageTemplate.Config.Document
