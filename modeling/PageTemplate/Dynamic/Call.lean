import PageTemplate.Dynamic.Argument
import PageTemplate.Dynamic.Render
set_option autoImplicit false
/-!
Calls of user functions. A call tag shows the result of the function; a name that is unsafe in any of
its segments, an unknown function and a failing one show nothing.
-/
namespace PageTemplate

structure CallTag where
  name : Text
  arguments : Text

namespace CallTag

def inName (c : Char) : Bool := !isBlank c && c != '(' && c != ')'

/-- The arguments extend to the first closing parenthesis, over braces too. -/
def read : TagReader CallTag := fun t => do
  let r ← after? Tag.opening t
  let r ← after? (text "user:") (skipBlanks r)
  let r := skipBlanks r
  let name := r.takeWhile inName
  let r ← after? ['('] (skipBlanks (r.dropWhile inName))
  let arguments := r.takeWhile (· != ')')
  let r ← after? [')'] (r.dropWhile (· != ')'))
  let rest ← after? Tag.closing (skipBlanks r)
  if name.isEmpty then none else some (⟨name, arguments⟩, rest)

def isUnsafe (name : Text) : Bool :=
  isUnsafeName name || (splitAt ['.'] name).any isUnsafeName

/-- What a call tag shows. -/
def shown (ctx : RenderContext) (c : CallTag) : Render Text := do
  if isUnsafe c.name then
    Render.report [.unsafeCall c.name]
    pure []
  else if ← Render.known c.name then
    Render.report (Argument.notices ctx.vars c.arguments)
    let values ← Render.ofExcept (Argument.values ctx.vars c.arguments)
    match ← Render.call? c.name values with
    | some (.ok v) => Render.display v
    | some (.error f) => do
      Render.report [.functionFailed c.name f]
      pure []
    | none => pure []
  else
    Render.report [.unknownFunction c.name]
    pure []

end CallTag

def resolveCalls (ctx : RenderContext) (t : Text) : Render Text :=
  Piece.replaceM (fun c _ => c.shown ctx) (Piece.scan CallTag.read t)

end PageTemplate
