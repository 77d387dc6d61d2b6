import PageTemplate.Text.Basic
set_option autoImplicit false
/-!
Ways in which an operation can reject operands that the grammar allows.
-/
namespace PageTemplate

inductive Fault where
  | wrongType
  | outOfDomain
  | tooManyDigits
  | tooLarge
  | badJson
  deriving DecidableEq, Repr

def Fault.name : Fault → Text
  | .wrongType => text "TypeError"
  | .outOfDomain | .tooManyDigits => text "ValueError"
  | .tooLarge => text "OverflowError"
  | .badJson => text "JSONDecodeError"

end PageTemplate
