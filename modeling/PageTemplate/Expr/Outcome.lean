import PageTemplate.Expr.Error
import PageTemplate.Value.Display
set_option autoImplicit false
/-!
The outcome of an evaluation: a value or an error, and the faults met on the way when a container had no
text. Such a fault is only reported; the container counts as an empty text and evaluation goes on.
-/
namespace PageTemplate

structure Outcome (α : Type) where
  result : Except ExprError α
  reports : List Fault

namespace Outcome

def ok {α : Type} (a : α) : Outcome α := ⟨.ok a, []⟩

def fail {α : Type} (e : ExprError) : Outcome α := ⟨.error e, []⟩

def fault {α : Type} (f : Fault) : Outcome α := fail (.fault f)

def andThen {α β : Type} (o : Outcome α) (next : α → Outcome β) : Outcome β :=
  match o.result with
  | .ok a => ⟨(next a).result, o.reports ++ (next a).reports⟩
  | .error e => ⟨.error e, o.reports⟩

instance : Monad Outcome where
  pure := ok
  bind := andThen

def ofExcept {α : Type} : Except Fault α → Outcome α
  | .ok a => ok a
  | .error f => fault f

/-- The text of a value. -/
def shown (v : Value) : Outcome Text :=
  match v.display? with
  | .ok t => ok t
  | .error f => if v.isContainer then ⟨.ok [], [f]⟩ else fault f

/-- The text of a value as part of a longer text, where null is spelled out. -/
def joined : Value → Outcome Text
  | .null => ok (text "null")
  | v => shown v

end Outcome

end PageTemplate
