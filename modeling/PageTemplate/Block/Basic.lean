import PageTemplate.Text.Blank
import PageTemplate.Text.Search
set_option autoImplicit false
/-!
Named blocks of a template. An opening marker pairs with the first closing marker of its name behind it,
whatever stands between them; an opening marker without one is text. The search resumes behind a block,
so blocks do not overlap.
-/
namespace PageTemplate

structure Block where
  /-- The text between the brackets of the opening marker. -/
  label : Text
  inner : Text
  deriving DecidableEq, Repr

namespace Block

def openStart : Text := ['[', '!']

def closeStart : Text := ['[', '~']

def name (b : Block) : Text := trim b.label

def closingMarker (name : Text) : Text := closeStart ++ name ++ [']']

/-- The block as it is written. -/
def source (b : Block) : Text :=
  openStart ++ b.label ++ ']' :: b.inner ++ closingMarker b.name

/-- A stretch of text, or a block. -/
inductive Part where
  | verbatim (t : Text)
  | block (b : Block)
  deriving DecidableEq, Repr

def Part.source : Part → Text
  | .verbatim t => t
  | .block b => b.source

/-- The blocks of a text and what stands between them. -/
def parts (t : Text) : List Part :=
  match _h : cut? openStart t with
  | none => [.verbatim t]
  | some (before, r) =>
    match _h' : cut? [']'] r with
    | none => [.verbatim t]
    | some (label, rest) =>
      match _h'' : cut? (closingMarker (trim label)) rest with
      | none => .verbatim (before ++ openStart ++ label ++ [']']) :: parts rest
      | some (inner, behind) => .verbatim before :: .block ⟨label, inner⟩ :: parts behind
termination_by t.length
decreasing_by
  all_goals
    have h1 := cut?_length _h
    have h2 := cut?_length _h'
    simp only [openStart, List.length_cons, List.length_nil] at h1
  · omega
  · have h3 := cut?_length _h''
    omega

/-- A block with the places of its first character and just behind its last. -/
structure Located where
  start : Nat
  stop : Nat
  block : Block
  deriving DecidableEq, Repr

/-- The blocks among parts of which the first starts at the given place. -/
def locateIn (position : Nat) : List Part → List Located
  | [] => []
  | .verbatim t :: ps => locateIn (position + t.length) ps
  | .block b :: ps =>
    let stop := position + b.source.length
    ⟨position, stop, b⟩ :: locateIn stop ps

/-- All blocks of a text in order. -/
def locate (t : Text) : List Located := locateIn 0 (parts t)

/-- The names of the blocks, each where it first appears. -/
def names (t : Text) : List Text := ((locate t).map (·.block.name)).eraseDups

/-- The blocks of one name in order. -/
def occurrences (name : Text) (t : Text) : List Located :=
  (locate t).filter (·.block.name == name)

end Block

end PageTemplate
