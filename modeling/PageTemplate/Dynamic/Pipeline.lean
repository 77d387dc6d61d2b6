import PageTemplate.Dynamic.Loop
import PageTemplate.Dynamic.Conditional
import PageTemplate.Dynamic.Call
import PageTemplate.Dynamic.Variable
set_option autoImplicit false
/-!
The phases of dynamic content and their repetition. A pass applies every phase once; passes are repeated
until one changes nothing, or no tag is left, or the limit of passes is reached, which is reported.

Bodies of loops are rendered by the same pipeline, with passes of their own. How deep loops nest inside
rendered bodies is not bounded by the text, since a variable may bring new loops; so execution is given a
nesting depth and has no result beyond it.
-/
namespace PageTemplate

inductive Phase where
  | loops
  | conditionals
  | functions
  | names
  deriving DecidableEq, Repr

namespace Phase

def standard : List Phase := [.loops, .conditionals, .functions, .names]

/-- Applies a phase, with a way to render the bodies of loops. -/
def apply (render : RenderContext → Text → Render Text) (ctx : RenderContext) (t : Text) :
    Phase → Render Text
  | .loops => expandLoops render ctx t
  | .conditionals => resolveConditionals ctx t
  | .functions => resolveCalls ctx t
  | .names => substituteVariables ctx t

end Phase

structure Pipeline where
  phases : List Phase
  maxPasses : Int

namespace Pipeline

def defaultPasses : Int := 10

def defaultConditionalPasses : Int := 20

/-- The standard phases; zero stands for the default number of passes. -/
def standard (maxPasses : Int) : Pipeline :=
  ⟨Phase.standard, if maxPasses = 0 then defaultPasses else maxPasses⟩

/-- Bodies of loops that are left as they stand. -/
def verbatim (_ : RenderContext) (t : Text) : Render Text := pure t

/-- One pass: every phase once, in order. -/
def runOnce (p : Pipeline) (render : RenderContext → Text → Render Text) (ctx : RenderContext)
    (t : Text) : Render Text :=
  p.phases.foldlM (fun t phase => phase.apply render ctx t) t

/-- Up to `n` passes. -/
def repeatPasses (p : Pipeline) (render : RenderContext → Text → Render Text) (ctx : RenderContext) :
    Nat → Text → Render Text
  | 0, t => do
    Render.report [.passLimit p.maxPasses]
    pure t
  | n + 1, t => do
    let next ← p.runOnce render ctx t
    if next = t || !Tag.remains next then pure next else p.repeatPasses render ctx n next

/-- Runs passes until the text is stable, rendering loops at most `depth` deep. -/
def execute (p : Pipeline) : Nat → RenderContext → Text → Render Text
  | 0, _, _ => Render.giveUp
  | depth + 1, ctx, t => p.repeatPasses (p.execute depth) ctx p.maxPasses.toNat t

/-- How deep loops may nest while a page is rendered. -/
def depthLimit : Nat := 200

end Pipeline

end PageTemplate
