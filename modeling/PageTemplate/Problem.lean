import PageTemplate.Block.Balance
import PageTemplate.Value.Basic
set_option autoImplicit false
/-!
Problems as they are told to the outside: their kind, a message, and a context. What a problem knows about
its cause joins the context, unless the context says something else under that key.
-/
namespace PageTemplate

inductive ProblemKind where
  | general | configuration | expression | timeout | resolution | structural
  deriving DecidableEq, Repr

/-- Families of problems that callers tell apart. -/
inductive ProblemFamily where
  | badValue | missingFile | expression
  deriving DecidableEq, Repr

def ProblemKind.name : ProblemKind → Text
  | .general => text "FlunError"
  | .configuration => text "ConfigurationError"
  | .expression => text "ExpressionError"
  | .timeout => text "ExpressionTimeout"
  | .resolution => text "TemplateResolutionError"
  | .structural => text "TemplateStructureError"

def ProblemKind.families : ProblemKind → List ProblemFamily
  | .general => []
  | .configuration | .structural => [.badValue]
  | .expression | .timeout => [.badValue, .expression]
  | .resolution => [.missingFile]

def ProblemFamily.name : ProblemFamily → Text
  | .badValue => text "ValueError"
  | .missingFile => text "FileNotFoundError"
  | .expression => text "ExpressionError"

structure Problem where
  kind : ProblemKind
  message : Text
  context : Entries

namespace Problem

/-- Adds to a context what it does not hold yet. -/
def complete (key : String) (v : Value) (es : Entries) : Entries :=
  if (es.get? (text key)).isSome then es else es.put (.str (text key)) v

/-- A page that cannot be found, where it was looked for, and what asked for it. -/
def resolution (message : Text) (path source : Option Text) (context : Entries) : Problem :=
  let context := path.elim context fun p => complete "path" (.str p) context
  ⟨.resolution, message, source.elim context fun s => complete "referenced_from" (.str s) context⟩

/-- One fault of the structure of a template. -/
abbrev LineFault := Int × Text

def faultEntries (f : LineFault) : Value :=
  .map [(.str (text "line"), .int f.1), (.str (text "message"), .str f.2)]

def faultText (f : LineFault) : Text := text "line " ++ intText f.1 ++ ':' :: ' ' :: f.2

/-- A template whose blocks do not balance. -/
def structural (template : Text) (faults : List LineFault) (context : Entries) : Problem :=
  let message :=
    text "Template " ++ template ++ text " has structure errors:\n"
      ++ joinWith ['\n'] (faults.map faultText)
  ⟨.structural, message, complete "errors" (.list (faults.map faultEntries))
    (complete "template" (.str template) context)⟩

end Problem

end PageTemplate
