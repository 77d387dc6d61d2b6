import PageTemplate.Number.Basic
set_option autoImplicit false
/-!
Expression trees. Member access by name and by index is one form: the name stands as a literal key.
-/
namespace PageTemplate

inductive Literal where
  | null
  | bool (b : Bool)
  | whole (n : Nat)
  | decimal (x : Float)
  | str (t : Text)

inductive UnaryOp where
  | not | neg | pos
  deriving DecidableEq, Repr

inductive LogicalOp where
  | and | or
  deriving DecidableEq, Repr

inductive BinaryOp where
  | same | notSame | equal | notEqual
  | lt | gt | le | ge
  | add | sub | mul | div | rem
  deriving DecidableEq, Repr

def UnaryOp.symbol : UnaryOp → Text
  | .not => ['!'] | .neg => ['-'] | .pos => ['+']

def LogicalOp.symbol : LogicalOp → Text
  | .and => ['&', '&'] | .or => ['|', '|']

def BinaryOp.symbol : BinaryOp → Text
  | .same => ['=', '=', '='] | .notSame => ['!', '=', '='] | .equal => ['=', '='] | .notEqual => ['!', '=']
  | .lt => ['<'] | .gt => ['>'] | .le => ['<', '='] | .ge => ['>', '=']
  | .add => ['+'] | .sub => ['-'] | .mul => ['*'] | .div => ['/'] | .rem => ['%']

inductive Expr where
  | literal (l : Literal)
  | name (n : Text)
  | array (items : List Expr)
  | unary (op : UnaryOp) (e : Expr)
  | binary (op : BinaryOp) (left right : Expr)
  | logical (op : LogicalOp) (left right : Expr)
  | conditional (test yes no : Expr)
  | member (object key : Expr)
  | call (callee : Expr) (args : List Expr)

/-- Operators that stand between two operands. -/
inductive Operator where
  | binary (op : BinaryOp)
  | logical (op : LogicalOp)
  deriving DecidableEq, Repr

namespace Operator

def symbol : Operator → Text
  | .binary op => op.symbol
  | .logical op => op.symbol

def apply : Operator → Expr → Expr → Expr
  | .binary op, l, r => .binary op l r
  | .logical op, l, r => .logical op l r

/-- The operators by binding strength, the weakest first. All of them group to the left. -/
def levels : List (List Operator) := [
  [.logical .or],
  [.logical .and],
  [.binary .same, .binary .notSame, .binary .equal, .binary .notEqual],
  [.binary .lt, .binary .gt, .binary .le, .binary .ge],
  [.binary .add, .binary .sub],
  [.binary .mul, .binary .div, .binary .rem]]

end Operator

namespace Expr

mutual

/-- Nesting of the tree; a leaf has depth one. -/
def depth : Expr → Nat
  | .literal _ | .name _ => 1
  | .array es => 1 + depthAll es
  | .unary _ e => 1 + depth e
  | .binary _ l r | .logical _ l r | .member l r => 1 + max (depth l) (depth r)
  | .conditional t a b => 1 + max (depth t) (max (depth a) (depth b))
  | .call f es => 1 + max (depth f) (depthAll es)

def depthAll : List Expr → Nat
  | [] => 0
  | e :: es => max (depth e) (depthAll es)

end

end Expr

end PageTemplate
