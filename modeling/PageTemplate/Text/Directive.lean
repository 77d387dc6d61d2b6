import PageTemplate.Text.Blank
set_option autoImplicit false
/-!
Words of directives in brackets. They are read in any case, and the dotless, the dotted and the long forms
of Latin letters count for the plain ones.
-/
namespace PageTemplate

/-- The small letter a character counts for in a word of a directive. -/
def foldLetter (c : Char) : Char :=
  if c = 'ı' || c = 'İ' then 'i' else if c = 'ſ' then 's' else c.toLower

/-- What follows a word of small letters, in any case, at the front of a text. -/
def afterFolded? : Text → Text → Option Text
  | [], t => some t
  | _ :: _, [] => none
  | p :: ps, c :: cs => if p = foldLetter c then afterFolded? ps cs else none

/-- A path after a word of a directive: blanks separate it, and of blanks alone the last is taken. -/
def directivePath? (t : Text) : Option Text :=
  if startsBlank t && (!(trim t).isEmpty || 2 ≤ t.length) then some (trim t) else none

end PageTemplate
