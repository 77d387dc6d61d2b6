import PageTemplate.Expr.Token
import PageTemplate.Number.Basic
import PageTemplate.Text.Quoted
set_option autoImplicit false
/-!
What can go wrong with an expression, from its text to its evaluation.
-/
namespace PageTemplate

inductive ParseError where
  | stray (s : Token.Stray)
  | expected (symbol : Text) (position : Nat)
  | expectedProperty (position : Nat)
  | unexpected (token : Text) (position : Nat)
  | unexpectedEnd
  | numeral (f : Fault)
  | tooDeep
  deriving DecidableEq, Repr

def atPosition (position : Nat) : Text := text " at " ++ natText position

/-- The message of a parse error, which shows the source. -/
def ParseError.message (source : Text) : ParseError → Text
  | .stray s => text "unexpected character " ++ Quoted.encode [s.char] ++ atPosition s.position
  | .expected symbol p => text "expected '" ++ symbol ++ '\'' :: atPosition p ++ inSource
  | .expectedProperty p => text "expected a property name" ++ atPosition p ++ inSource
  | .unexpected token p => text "unexpected " ++ Quoted.encode token ++ atPosition p ++ inSource
  | .unexpectedEnd => text "unexpected end of expression " ++ Quoted.encode source
  | .numeral f => f.name
  | .tooDeep => text "expression nests too deeply"
where
  inSource : Text := text " in " ++ Quoted.encode source

inductive ExprError where
  | parse (source : Text) (e : ParseError)
  | undefined (name : Text)
  | needsNumbers (symbol typeName : Text)
  | cannotCompare (left right symbol : Text)
  | divisionByZero
  | propertyOfNull (key : Text)
  | notCallable (shown : Text)
  | fault (f : Fault)
  | timeout
  deriving DecidableEq, Repr

def ExprError.message : ExprError → Text
  | .parse source e => e.message source
  | .undefined name => '\'' :: name ++ text "' is not defined"
  | .needsNumbers symbol typeName =>
    text "operator '" ++ symbol ++ text "' needs numbers, got " ++ typeName
  | .cannotCompare left right symbol =>
    text "cannot compare " ++ left ++ text " and " ++ right ++ text " with '" ++ symbol ++ ['\'']
  | .divisionByZero => text "division by zero"
  | .propertyOfNull key => text "cannot read property " ++ key ++ text " of null"
  | .notCallable shown =>
    (if shown.isEmpty then text "null" else shown) ++ text " is not a callable function"
  | .fault f => f.name
  | .timeout => text "expression exceeded its time budget"

end PageTemplate
