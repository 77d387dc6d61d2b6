import PageTemplate.Text.LetterCase.Table
set_option autoImplicit false
/-!
Upper and lower case of whole texts. A character may map to several, and a capital sigma that ends a
word becomes the final form.
-/
namespace PageTemplate.LetterCase

def shifted (runs : List (Nat × Nat × Nat × Int)) (n : Nat) : Option Nat :=
  (runs.find? fun (first, last, step, _) => first ≤ n && n ≤ last && (n - first) % step == 0).map
    fun (_, _, _, shift) => ((n : Int) + shift).toNat

/-- The image of one character under a case mapping. -/
def mapChar (runs : List (Nat × Nat × Nat × Int)) (expansions : List (Nat × List Nat)) (c : Char) :
    Text :=
  match shifted runs c.toNat with
  | some m => [Char.ofNat m]
  | none =>
    match expansions.find? (·.1 == c.toNat) with
    | some (_, image) => image.map Char.ofNat
    | none => [c]

def upperChar (c : Char) : Text :=
  if c.toNat < 0x80 then [c.toUpper] else mapChar upperRuns upperExpansions c

def lowerChar (c : Char) : Text :=
  if c.toNat < 0x80 then [c.toLower] else mapChar lowerRuns lowerExpansions c

/-- Does the nearest character that is not passed over have case? -/
def casedNext (t : Text) : Bool :=
  match t.dropWhile (inRanges ignorableRanges) with
  | c :: _ => inRanges casedRanges c
  | [] => false

/-- Lower case of `t`, where `before` holds the characters already read, nearest first. -/
def lowerAfter (before : Text) : Text → Text
  | [] => []
  | c :: cs =>
    (if c.toNat == 0x3A3 then
      [Char.ofNat (if casedNext before && !casedNext cs then 0x3C2 else 0x3C3)]
    else lowerChar c) ++ lowerAfter (c :: before) cs

end PageTemplate.LetterCase

namespace PageTemplate

open LetterCase

def toUpper (t : Text) : Text := t.flatMap upperChar

def toLower (t : Text) : Text := lowerAfter [] t

end PageTemplate
