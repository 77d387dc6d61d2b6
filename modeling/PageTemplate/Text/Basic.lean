set_option autoImplicit false
/-!
Texts are lists of characters: positions and lengths count characters, and what is left to read is a
shorter list.
-/
namespace PageTemplate

abbrev Text := List Char

/-- The characters of a literal. -/
abbrev text (s : String) : Text := s.toList

/-- Is the code point in one of the closed ranges? -/
def inRanges (ranges : List (Nat × Nat)) (c : Char) : Bool :=
  ranges.any fun r => r.1 ≤ c.toNat && c.toNat ≤ r.2

/-- What follows a given text at the front of another. -/
def after? : Text → Text → Option Text
  | [], t => some t
  | _ :: _, [] => none
  | p :: ps, c :: cs => if p = c then after? ps cs else none

theorem after?_eq_some_iff {p t rest : Text} : after? p t = some rest ↔ t = p ++ rest := by
  induction p generalizing t with
  | nil => simp [after?]
  | cons a ps ih =>
    cases t with
    | nil => simp [after?]
    | cons c cs =>
      by_cases h : a = c
      · simp [after?, h, ih]
      · simp [after?, h, Ne.symm h]

/-- Lexicographic by code point; a text comes before its extensions. -/
def Text.before : Text → Text → Bool
  | _, [] => false
  | [], _ :: _ => true
  | a :: as, b :: bs => a < b || (a == b && Text.before as bs)

def Text.noLaterThan (a b : Text) : Bool := !Text.before b a

end PageTemplate
