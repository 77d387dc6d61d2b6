import PageTemplate.Block.Basic
import PageTemplate.Dynamic.Piece
set_option autoImplicit false
/-!
Block markers by themselves: two characters that open them and everything up to the next closing bracket.
-/
namespace PageTemplate.Block

inductive MarkerKind where
  | opening
  | closing
  deriving DecidableEq, Repr

def MarkerKind.start : MarkerKind → Text
  | .opening => openStart
  | .closing => closeStart

def MarkerKind.name : MarkerKind → Text
  | .opening => text "open"
  | .closing => text "close"

/-- The kind of the marker that starts at the front of a text, and what follows its two characters. -/
def markerStart? (t : Text) : Option (MarkerKind × Text) :=
  match after? openStart t with
  | some r => some (.opening, r)
  | none => (after? closeStart t).map (.closing, ·)

/-- A complete marker with the text inside it. -/
def readMarker : TagReader (MarkerKind × Text) := fun t => do
  let (kind, r) ← markerStart? t
  let (label, rest) ← cut? [']'] r
  some ((kind, label), rest)

/-- The text without any complete marker. -/
def stripMarkers (t : Text) : Text := Piece.remove readMarker t

end PageTemplate.Block
