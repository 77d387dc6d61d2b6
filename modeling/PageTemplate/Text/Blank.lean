import PageTemplate.Text.Basic
set_option autoImplicit false
/-!
White space of every script, and trimming. The zero width space and the byte order mark are not white
space; the four information separators U+001C to U+001F are.
-/
namespace PageTemplate

def blankRanges : List (Nat × Nat) := [
    (0x9, 0xD), (0x1C, 0x20), (0x85, 0x85), (0xA0, 0xA0), (0x1680, 0x1680), (0x2000, 0x200A),
    (0x2028, 0x2029), (0x202F, 0x202F), (0x205F, 0x205F), (0x3000, 0x3000)]

def isBlank (c : Char) : Bool := inRanges blankRanges c

def skipBlanks (t : Text) : Text := t.dropWhile isBlank

def blankRun (t : Text) : Text := t.takeWhile isBlank

def dropEndWhile (p : Char → Bool) (t : Text) : Text := (t.reverse.dropWhile p).reverse

/-- A text without the white space at its two ends. -/
def trim (t : Text) : Text := dropEndWhile isBlank (skipBlanks t)

/-- Does the text start with at least one blank? -/
def startsBlank : Text → Bool
  | c :: _ => isBlank c
  | [] => false

end PageTemplate
