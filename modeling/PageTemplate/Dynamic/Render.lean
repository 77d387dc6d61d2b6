import PageTemplate.Dynamic.Registry
import PageTemplate.Expr.Eval
set_option autoImplicit false
/-!
Rendering steps. A step reads the variables in force, and may report, and may call user functions. It gives
no result only if loops nest deeper than rendering allows, or a number on the page has too many digits; what
was reported and called before that stays.
-/
namespace PageTemplate

/-- What rendering changes: the registry, if there is one, the reports made so far, and the calls of user
functions made so far. -/
structure RenderState where
  registry : Option Registry
  notices : List Notice
  calls : List (Text × List Value)

def RenderState.start (registry : Option Registry) : RenderState := ⟨registry, [], []⟩

/-- What is in force at one place of a page. -/
structure RenderContext where
  vars : Entries
  ambient : Ambient
  maxConditionalPasses : Int
  level : Nat

/-- The variables of an iteration overlay those around the loop. -/
def RenderContext.bind (ctx : RenderContext) (bindings : Entries) : RenderContext :=
  { ctx with vars := ctx.vars.overlay bindings, level := ctx.level + 1 }

def RenderContext.surroundings (ctx : RenderContext) : Surroundings :=
  ⟨ctx.vars, ctx.ambient, ctx.level⟩

/-- Why a page could not be rendered. -/
inductive Halt where
  | tooDeep
  | fault (f : Fault)
  deriving DecidableEq, Repr

def Halt.name : Halt → Text
  | .tooDeep => text "RecursionError"
  | .fault f => f.name

abbrev Render (α : Type) := ExceptT Halt (StateM RenderState) α

namespace Render

/-- The result, or why there is none, and the state that a step leaves. -/
def runFrom {α : Type} (r : Render α) (s : RenderState) : Except Halt α × RenderState := r.run.run s

/-- Loops nest too deeply to be rendered. -/
def giveUp {α : Type} : Render α := throw .tooDeep

def ofExcept {α : Type} : Except Fault α → Render α
  | .ok a => pure a
  | .error f => throw (.fault f)

def report (ns : List Notice) : Render Unit :=
  modify fun s => { s with notices := s.notices ++ ns }

/-- The text of a value on the page. A container without text shows nothing. -/
def display (v : Value) : Render Text :=
  match v.display? with
  | .ok t => pure t
  | .error f =>
    if v.isContainer then do
      report [.unserializable f]
      pure []
    else throw (.fault f)

/-- Evaluates, reporting containers without text met on the way. -/
def evaluate (ctx : RenderContext) (source : Text) : Render (Except ExprError Value) := do
  let o := Expr.evaluate ctx.surroundings source
  report (o.reports.map .unserializable)
  pure o.result

/-- Evaluates; a failure is reported and gives null. -/
def valueOf (ctx : RenderContext) (source : Text) : Render Value := do
  match ← evaluate ctx source with
  | .ok v => pure v
  | .error .timeout => do
    report [.expressionTimedOut ctx.ambient.budget source]
    pure .null
  | .error e => do
    report [.expressionFailed source e]
    pure .null

/-- Calls a user function; nothing if there is none of that name. -/
def call? (name : Text) (args : List Value) : Render (Option (Except CallFailure Value)) := do
  let s ← get
  match s.registry.bind (Registry.call name args) with
  | none => pure none
  | some (o, registry) => do
    set { s with registry := some registry, calls := s.calls ++ [(name, args)] }
    report (o.reports.map .unserializable)
    pure (some o.result)

/-- Is there a user function of that name? -/
def known (name : Text) : Render Bool := do
  let s ← get
  pure (s.registry.bind (Registry.find? name)).isSome

end Render

end PageTemplate
