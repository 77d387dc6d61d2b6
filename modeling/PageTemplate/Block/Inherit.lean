import PageTemplate.Block.Marker
import PageTemplate.Text.Directive
import PageTemplate.Text.LetterCase
set_option autoImplicit false
/-!
Template inheritance. A child names its base on its first line. The blocks of the child replace those of
the base, the first of a name the first of that name, and so on; what has no partner stays in the base and
is dropped from the child.
-/
namespace PageTemplate

namespace Inherit

def isLineEnd (c : Char) : Bool := c = '\r' || c = '\n'

/-- What follows the rest of a line and its end, if it has one. -/
def afterLine (t : Text) : Text :=
  match t.dropWhile (!isLineEnd ·) with
  | '\r' :: '\n' :: r => r
  | _ :: r => r
  | [] => []

/-- The base a template names, and the template without that line. -/
def readExtends? (t : Text) : Option (Text × Text) := do
  let r ← after? ['['] t
  let r ← afterFolded? (text "extends") (skipBlanks r)
  let (path, rest) ← cut? [']'] r
  some (← directivePath? path, afterLine rest)

/-- The base, if any, and the body of a template. -/
def splitExtends (t : Text) : Option Text × Text :=
  match readExtends? t with
  | some (base, body) => (some base, body)
  | none => (none, t)

/-- Replaces blocks by partners, where `seen` holds the names of the blocks already passed. -/
def mergeParts (partner : Text → Nat → Option Text) (seen : List Text) : List Block.Part → Text
  | [] => []
  | .verbatim t :: ps => t ++ mergeParts partner seen ps
  | .block b :: ps =>
    (partner b.name (seen.count b.name)).getD b.source ++ mergeParts partner (b.name :: seen) ps

/-- The base with its blocks replaced by the inner texts of the child's. -/
def mergeBlocks (base child : Text) : Text :=
  let blocks := Block.locate child
  let partner (name : Text) (i : Nat) : Option Text :=
    (blocks.filter (·.block.name == name))[i]?.map (·.block.inner)
  mergeParts partner [] (Block.parts base)

def defaultDoctype : Text := text "<!DOCTYPE html>"

/-- Does the document say its type? -/
def hasDoctype (html : Text) : Bool := (after? (text "<!doctype") (toLower (trim html))).isSome

/-- The document with its type on a line in front, unless it has one or none is given. -/
def ensureDoctype (doctype html : Text) : Text :=
  if doctype.isEmpty || hasDoctype html then html else doctype ++ '\n' :: html

/-- Base and child as one document without markers. -/
def compose (doctype base child : Text) : Text :=
  let merged := if child.isEmpty then base else mergeBlocks base child
  ensureDoctype doctype (Block.stripMarkers merged)

end Inherit

end PageTemplate
