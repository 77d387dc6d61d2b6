import PageTemplate.Expr.Scope
import PageTemplate.Expr.Parser
set_option autoImplicit false
/-!
Evaluation of expressions. Operands are evaluated from left to right, logical operators and
conditionals only as far as needed, and the callee before its arguments. Each place of the tree is
evaluated at most once, so a place names what is made there.
-/
namespace PageTemplate

/-- What an evaluation reads: the context of names, the surroundings, and the nesting depth of loops. -/
structure Surroundings where
  context : Entries
  ambient : Ambient
  level : Nat

def Literal.value : Literal → Value
  | .null => .null
  | .bool b => .bool b
  | .whole n => .nat n
  | .decimal x => .number (.float x)
  | .str t => .str t

namespace Value

/-- The text of a member key. Whole floats are whole numbers here, and only texts and whole numbers are
keys. -/
def keyText? : Value → Except Fault (Option Text)
  | .str t => .ok (some t)
  | .number (.whole n) => (wholeText n).map some
  | .number (.float x) =>
    match (Binary.ofFloat? x).bind Binary.whole? with
    | some n => (wholeText n).map some
    | none => .ok none
  | _ => .ok none

/-- A member in an expression: besides own members, those of the namespaces and the methods of texts
and lists, which `mark` binds. What is not there is null. -/
def memberOf (mark : Mark) (v : Value) (name : Text) : Except Fault Value :=
  if isUnsafeName name then .ok .null
  else
    match v with
    | .library l => .ok ((l.member? name).getD .null)
    | .str t =>
      match TextMethod.all.find? fun m => m.name == name with
      | some m => .ok (.textMethod m t mark)
      | none => (v.member? name).map (·.getD .null)
    | .list items =>
      match ListMethod.all.find? fun m => m.name == name with
      | some m => .ok (.listMethod m items mark)
      | none => (v.member? name).map (·.getD .null)
    | v => (v.member? name).map (·.getD .null)

def access (mark : Mark) (v key : Value) : Outcome Value :=
  match v with
  | .null => do Outcome.fail (.propertyOfNull (← Outcome.ofExcept key.inspect))
  | v => .ofExcept do
    match ← key.keyText? with
    | some name => memberOf mark v name
    | none => return .null

end Value

namespace Expr

mutual

/-- The value of an expression at a place. -/
def eval (s : Surroundings) (mark : Mark) : Expr → Outcome Value
  | .literal l => .ok l.value
  | .name n =>
    if isUnsafeName n then .fail (.undefined n)
    else (Scope.lookup? s.context n).elim (.fail (.undefined n)) .ok
  | .array es => return .list (← evalAll s mark 0 es)
  | .unary op e => do
    let v ← eval s (mark.child 0) e
    Outcome.ofExcept (v.applyUnary (.made mark) op)
  | .binary op l r => do
    let a ← eval s (mark.child 0) l
    let b ← eval s (mark.child 1) r
    Value.operate (.made mark) op a b
  | .logical op l r => do
    let a ← eval s (mark.child 0) l
    match op with
    | .and => if a.truthy then eval s (mark.child 1) r else .ok a
    | .or => if a.truthy then .ok a else eval s (mark.child 1) r
  | .conditional t a b => do
    if (← eval s (mark.child 0) t).truthy then eval s (mark.child 1) a else eval s (mark.child 2) b
  | .member o k => do
    let v ← eval s (mark.child 0) o
    let key ← eval s (mark.child 1) k
    v.access mark key
  | .call f es => do
    let callee ← eval s (mark.child 0) f
    if callee.isCallable then
      callee.call s.ambient (.made mark) (← evalAll s mark 1 es)
    else callee.call s.ambient (.made mark) []

/-- The values of several expressions, children of one place from number `i` on. -/
def evalAll (s : Surroundings) (mark : Mark) (i : Nat) : List Expr → Outcome (List Value)
  | [] => .ok []
  | e :: es => do
    let v ← eval s (mark.child i) e
    return v :: (← evalAll s mark (i + 1) es)

end

/-- How deep an expression may nest. -/
def nestingLimit : Nat := 250

/-- Reads and evaluates a source, blanks around it aside. -/
def evaluate (s : Surroundings) (source : Text) : Outcome Value :=
  let source := trim source
  match Expr.ofTextWithin nestingLimit source with
  | .error e => .fail (.parse source e)
  | .ok e =>
    if s.ambient.expired then .fail .timeout
    else if nestingLimit < e.depth then .fail (.parse source .tooDeep)
    else e.eval s ⟨s.level, []⟩

end Expr

end PageTemplate
