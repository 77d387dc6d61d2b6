import PageTemplate.Config.Document.Content
set_option autoImplicit false
/-!
Reading of project files, which are written in YAML: one document of mappings, lists and texts, in blocks by
indentation or in flow brackets.
-/
namespace PageTemplate.Config.Document

/-- The value of a file. A file without content has none and counts as null. -/
def read (t : Text) : Except Failure Value := do
  if !t.all isAllowed then throw .malformed
  match ← Node.ofTokens (← Token.ofGlyphs (Glyphs.ofText t)) with
  | some n => valueOf n
  | none => return .null

end PageTemplate.Config.Document
