import PageTemplate.Text.Basic
set_option autoImplicit false
/-!
A text cut into the tags that a reader recognises and single characters between them. The reader is
tried at every place from the left, and reading goes on behind each tag. Putting the pieces together
gives the text back.
-/
namespace PageTemplate

/-- Recognises something at the front of a text and gives what is left behind it. -/
abbrev TagReader (α : Type) := Text → Option (α × Text)

inductive Piece (α : Type) where
  | char (c : Char)
  | tag (a : α) (source : Text)

namespace Piece

def source {α : Type} : Piece α → Text
  | .char c => [c]
  | .tag _ s => s

def isTag {α : Type} : Piece α → Bool
  | .char _ => false
  | .tag _ _ => true

/-- The text that pieces were cut from. -/
def join {α : Type} (pieces : List (Piece α)) : Text := pieces.flatMap source

/-- The pieces of a text. A tag takes at least one character. -/
def scan {α : Type} (read : TagReader α) : Text → List (Piece α)
  | [] => []
  | c :: cs =>
    match read (c :: cs) with
    | some (a, rest) =>
      let n := cs.length - rest.length
      .tag a (c :: cs.take n) :: scan read (cs.drop n)
    | none => .char c :: scan read cs
termination_by t => t.length
decreasing_by all_goals simp only [List.length_cons, List.length_drop]; omega

theorem join_scan {α : Type} (read : TagReader α) (t : Text) : join (scan read t) = t := by
  fun_induction scan read t with
  | case1 => rfl
  | case2 c cs a rest _ n ih =>
    simp only [join, List.flatMap_cons, source] at ih ⊢
    rw [ih]
    simp
  | case3 c cs _ ih =>
    simp only [join, List.flatMap_cons, source] at ih ⊢
    rw [ih]
    rfl

/-- Is there a tag anywhere? -/
def occurs {α : Type} (read : TagReader α) (t : Text) : Bool := (scan read t).any isTag

/-- The text with every tag replaced by what a function gives for it. -/
def replace {α : Type} (read : TagReader α) (f : α → Text) (t : Text) : Text :=
  (scan read t).flatMap fun
    | .char c => [c]
    | .tag a _ => f a

/-- The text without its tags. -/
def remove {α : Type} (read : TagReader α) (t : Text) : Text := replace read (fun _ => []) t

/-- The text with every tag replaced, from the left, by what an effectful function gives for it and its
source. -/
def replaceM {α : Type} {m : Type → Type} [Monad m] (f : α → Text → m Text) :
    List (Piece α) → m Text
  | [] => pure []
  | .char c :: ps => do return c :: (← replaceM f ps)
  | .tag a s :: ps => do
    let t ← f a s
    return t ++ (← replaceM f ps)

end Piece

end PageTemplate
