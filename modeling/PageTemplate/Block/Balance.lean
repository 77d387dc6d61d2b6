import PageTemplate.Block.Marker
import PageTemplate.Number.Decimal
set_option autoImplicit false
/-!
Strict checking of block markers. They are read from the left; a marker without its closing bracket ends
the reading. Names must not be blank nor hold brackets, braces or a tilde, and the opens and closes must
nest properly by name. Every fault is told with the line of the marker concerned.
-/
namespace PageTemplate

/-- A fault of the block structure. -/
inductive BalanceFault where
  | unterminated (kind : Block.MarkerKind)
  | blankName (kind : Block.MarkerKind)
  | badName (label : Text) (found : List Char)
  | unexpectedClose (name : Text)
  | mismatch (expected found : Text)
  | unclosed (name : Text)
  deriving DecidableEq, Repr

structure StructureError where
  line : Nat
  fault : BalanceFault
  deriving DecidableEq, Repr

def BalanceFault.message : BalanceFault → Text
  | .unterminated kind => kind.name ++ text " tag is missing its closing bracket"
  | .blankName kind => text "empty " ++ kind.name ++ text " tag name"
  | .badName label found =>
    text "tag name '" ++ label ++ text "' contains invalid characters "
      ++ joinWith [','] (found.map ([·]))
  | .unexpectedClose name => text "unexpected close tag '" ++ name ++ ['\'']
  | .mismatch expected found =>
    text "mismatched tag: expected '" ++ expected ++ text "' but found '" ++ found ++ ['\'']
  | .unclosed name => text "unclosed block '" ++ name ++ ['\'']

def StructureError.message (e : StructureError) : Text := e.fault.message

/-- The error with its line in front. -/
def StructureError.report (e : StructureError) : Text :=
  text "line " ++ natText e.line ++ ':' :: ' ' :: e.message

namespace Block

/-- A marker and its line; one without closing bracket has no label and is the last. -/
structure Marker where
  kind : MarkerKind
  line : Nat
  label : Option Text
  deriving DecidableEq, Repr

def newlines (t : Text) : Nat := t.count '\n'

/-- The markers of a text whose first line has the given number. -/
def markers (line : Nat) : Text → List Marker
  | [] => []
  | c :: cs =>
    match markerStart? (c :: cs) with
    | none => markers (if c = '\n' then line + 1 else line) cs
    | some (kind, _) =>
      -- The marker's second character is never a closing bracket.
      match _h : cut? [']'] cs with
      | none => [⟨kind, line, none⟩]
      | some (body, rest) => ⟨kind, line, some (body.drop 1)⟩ :: markers (line + newlines body) rest
termination_by t => t.length
decreasing_by
  · simp
  · have := cut?_length _h
    simp only [List.length_cons]; omega

def invalidInNames : List Char := ['[', ']', '\x7b', '\x7d', '~']

/-- What is wrong with the label of a marker. -/
def labelFault? (kind : MarkerKind) (label : Text) : Option BalanceFault :=
  if (trim label).isEmpty then some (.blankName kind)
  else
    match invalidInNames.filter label.contains with
    | [] => none
    | found => some (.badName label found)

/-- An open block: its name and line. -/
abbrev OpenBlock := Text × Nat

/-- Opens left at the end are faults in the order of their opening. -/
def unclosedErrors (stack : List OpenBlock) : List StructureError :=
  stack.reverse.map fun (name, line) => ⟨line, .unclosed name⟩

/-- Checks markers against the open blocks, the innermost first. A close that does not match leaves the
open block open. -/
def check : List OpenBlock → List Marker → List StructureError
  | stack, [] => unclosedErrors stack
  | stack, m :: ms =>
    match m.label with
    | none => ⟨m.line, .unterminated m.kind⟩ :: unclosedErrors stack
    | some label =>
      match labelFault? m.kind label with
      | some f => ⟨m.line, f⟩ :: check stack ms
      | none =>
        match m.kind, stack with
        | .opening, stack => check ((trim label, m.line) :: stack) ms
        | .closing, [] => ⟨m.line, .unexpectedClose (trim label)⟩ :: check [] ms
        | .closing, (name, line) :: outer =>
          if name = trim label then check outer ms
          else ⟨m.line, .mismatch name (trim label)⟩ :: check ((name, line) :: outer) ms

end Block

/-- All faults of the block structure of a text. -/
def validateStructure (t : Text) : List StructureError := Block.check [] (Block.markers 1 t)

end PageTemplate
