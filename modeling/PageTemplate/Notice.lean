import PageTemplate.Expr.Error
import PageTemplate.Number.Shortest
import PageTemplate.Text.Search
set_option autoImplicit false
/-!
What is reported while pages are made. Nothing here stops the work: the part concerned shows nothing.
-/
namespace PageTemplate

/-- Why a call of a user function gave no value. -/
inductive CallFailure where
  | wrongCall
  | raised (reason : Text)
  deriving DecidableEq, Repr

def CallFailure.message : CallFailure → Text
  | .wrongCall => Fault.wrongType.name
  | .raised reason => reason

/-- Why a file could not be read or written, or a directory not be made. -/
inductive FileFailure where
  | missing
  | directory
  | underFile
  | occupied
  | undecodable
  | tooLong
  | unnameable
  deriving DecidableEq, Repr

def FileFailure.name : FileFailure → Text
  | .missing => text "FileNotFoundError"
  | .directory => text "IsADirectoryError"
  | .underFile => text "NotADirectoryError"
  | .occupied => text "FileExistsError"
  | .undecodable => text "UnicodeDecodeError"
  | .tooLong => text "OSError"
  | .unnameable => text "ValueError"

/-- Why a feature module gave nothing. -/
inductive ModuleFailure where
  | broken
  deriving DecidableEq, Repr

def ModuleFailure.name : ModuleFailure → Text
  | .broken => text "RuntimeError"

inductive Severity where
  | warning
  | error
  deriving DecidableEq, Repr

def Severity.name : Severity → Text
  | .warning => text "WARNING"
  | .error => text "ERROR"

inductive Notice where
  | unserializable (f : Fault)
  | expressionTimedOut (budget : Float) (source : Text)
  | expressionFailed (source : Text) (e : ExprError)
  | loopNames (names : List Text)
  | loopFailed (source : Text) (e : ExprError)
  | loopNotIterable (source typeName : Text)
  | unsafeReference (name : Text)
  | unsafeArgument (name : Text)
  | unsafeCall (name : Text)
  | unknownFunction (name : Text)
  | functionFailed (name : Text) (reason : CallFailure)
  | passLimit (passes : Int)
  | includeEscapes (path source : Text)
  | includeCircular (path source : Text)
  | includeUnreadable (path : Text) (reason : FileFailure)
  | moduleFailed (path : Text) (reason : ModuleFailure)
  | notCallable (name file : Text)
  | structureError (template : Text) (line : Nat) (message : Text)
  | pageSkipped (page : Text)
  | malformedOverride (key : Text)

namespace Notice

def severity : Notice → Severity
  | .unknownFunction _ | .functionFailed _ _ => .error
  | _ => .warning

/-- The source of an include directive outside any file. -/
def sourceName (source : Text) : Text := if source.isEmpty then text "<root>" else source

def message : Notice → Text
  | .unserializable f => text "Could not serialize value for output: " ++ f.name
  | .expressionTimedOut budget source =>
    text "Expression timed out after " ++ fixedText 2 budget ++ text "s: " ++ source
  | .expressionFailed source e =>
    text "Expression evaluation failed: " ++ source ++ text " (" ++ e.message ++ [')']
  | .loopNames names =>
    text "Refusing loop with unsafe variable name(s): " ++ joinWith [',', ' '] names
  | .loopFailed source e =>
    text "Failed to evaluate loop collection " ++ Quoted.encode source ++ text ": " ++ e.message
  | .loopNotIterable source typeName =>
    text "Loop collection " ++ Quoted.encode source ++ text " is not iterable (got " ++ typeName
      ++ [')']
  | .unsafeReference name =>
    text "Dropping unsafe variable reference in function argument: " ++ name
  | .unsafeArgument name => text "Dropping unsafe variable name in function argument: " ++ name
  | .unsafeCall name => text "Refusing to call unsafe function name: " ++ name
  | .unknownFunction name => text "User function not found: " ++ name
  | .functionFailed name reason =>
    text "User function " ++ name ++ text " failed: " ++ reason.message
  | .passLimit passes =>
    text "Dynamic content still changing after " ++ intText passes
      ++ text " passes; returning partial result"
  | .includeEscapes path source =>
    text "Include path escapes the template root: " ++ path ++ text " (from " ++ sourceName source
      ++ [')']
  | .includeCircular path source =>
    text "Circular include skipped: " ++ path ++ text " (from " ++ sourceName source ++ [')']
  | .includeUnreadable path reason =>
    text "Could not read include " ++ path ++ text ": " ++ reason.name
  | .moduleFailed path reason => text "Failed to load module " ++ path ++ text ": " ++ reason.name
  | .notCallable name file => text "Ignoring non-callable function " ++ name ++ text " in " ++ file
  | .structureError template line message =>
    template ++ text ": line " ++ natText line ++ text ": " ++ message
  | .pageSkipped page =>
    text "Skipping unreadable page while looking for entry marker: " ++ page
  | .malformedOverride key => text "Ignoring malformed environment override " ++ key

end Notice

end PageTemplate
