import PageTemplate.Dynamic.Render
import PageTemplate.Dynamic.Tag
set_option autoImplicit false
/-!
Conditionals. A pass replaces every outermost conditional by the branch it chooses, which is kept as it
stands; while a chosen branch holds another conditional, further passes follow, up to a limit.
-/
namespace PageTemplate

inductive BranchTag where
  | ifTag (condition : Text)
  | elseIf (condition : Text)
  | elseTag
  | endTag

namespace BranchTag

/-- The condition after `if` and at least one blank; it may be missing. -/
def condition? (t : Text) : Option Text := (Tag.afterWord? (text "if") t).map trim

/-- The meaning of a tag body. -/
def ofBody? (body : Text) : Option BranchTag :=
  if trim body = text "else" then some .elseTag
  else if trim body = text "endif" then some .endTag
  else
    match condition? (skipBlanks body) with
    | some c => some (.ifTag c)
    | none => (Tag.afterWord? (text "else") (skipBlanks body)).bind condition? |>.map .elseIf

def read : TagReader BranchTag := fun t => do
  let (body, rest) ← Tag.readBody t
  some (← ofBody? body, rest)

end BranchTag

/-- A branch applies under its condition, or always. -/
structure Branch where
  condition : Option Text
  body : Text

namespace Conditional

/-- The branches up to a closing tag, of which the first has yet to get its condition, and the pieces
behind that tag. -/
structure Enclosed where
  first : Text
  others : List Branch
  rest : List (Piece BranchTag)

def Enclosed.push (t : Text) (e : Enclosed) : Enclosed := { e with first := t ++ e.first }

/-- The first branch gets its condition, and an empty one stands before it. -/
def Enclosed.branch (condition : Option Text) (e : Enclosed) : Enclosed :=
  ⟨[], ⟨condition, e.first⟩ :: e.others, e.rest⟩

/-- Reads up to the closing tag, with `depth` inner conditionals open. -/
def enclose (depth : Nat) : List (Piece BranchTag) → Option Enclosed
  | [] => none
  | .char c :: ps => (enclose depth ps).map (·.push [c])
  | .tag (.ifTag _) s :: ps => (enclose (depth + 1) ps).map (·.push s)
  | .tag (.elseIf c) s :: ps =>
    (enclose depth ps).map fun e => if depth = 0 then e.branch (some c) else e.push s
  | .tag .elseTag s :: ps =>
    (enclose depth ps).map fun e => if depth = 0 then e.branch none else e.push s
  | .tag .endTag s :: ps =>
    match depth with
    | 0 => some ⟨[], [], ps⟩
    | d + 1 => (enclose d ps).map (·.push s)

theorem enclose_rest {ps : List (Piece BranchTag)} {depth : Nat} {e : Enclosed}
    (h : enclose depth ps = some e) : e.rest.length < ps.length := by
  fun_induction enclose depth ps generalizing e with
  | case1 => simp at h
  | case2 d c ps ih =>
    obtain ⟨e', he, rfl⟩ := Option.map_eq_some_iff.1 h
    have := ih he
    simp only [Enclosed.push, List.length_cons]; omega
  | case3 d c s ps ih =>
    obtain ⟨e', he, rfl⟩ := Option.map_eq_some_iff.1 h
    have := ih he
    simp only [Enclosed.push, List.length_cons]; omega
  | case4 d c s ps ih =>
    obtain ⟨e', he, rfl⟩ := Option.map_eq_some_iff.1 h
    have := ih he
    split <;> simp only [Enclosed.push, Enclosed.branch, List.length_cons] <;> omega
  | case5 d s ps ih =>
    obtain ⟨e', he, rfl⟩ := Option.map_eq_some_iff.1 h
    have := ih he
    split <;> simp only [Enclosed.push, Enclosed.branch, List.length_cons] <;> omega
  | case6 s ps => simp only [Option.some.injEq] at h; subst h; simp
  | case7 s ps d ih =>
    obtain ⟨e', he, rfl⟩ := Option.map_eq_some_iff.1 h
    have := ih he
    simp only [Enclosed.push, List.length_cons]; omega

/-- A stretch of text, or the branches of a conditional. -/
inductive Part where
  | verbatim (t : Text)
  | choice (branches : List Branch)

/-- The outermost conditionals and the text around them. Tags of branches outside any conditional are
text, and so is everything from an opening tag that nothing balances. -/
def parts : List (Piece BranchTag) → List Part
  | [] => []
  | .char c :: ps => .verbatim [c] :: parts ps
  | .tag (.ifTag c) s :: ps =>
    match _h : enclose 0 ps with
    | some e => .choice (⟨some c, e.first⟩ :: e.others) :: parts e.rest
    | none => [.verbatim (s ++ Piece.join ps)]
  | .tag (.elseIf _) s :: ps => .verbatim s :: parts ps
  | .tag .elseTag s :: ps => .verbatim s :: parts ps
  | .tag .endTag s :: ps => .verbatim s :: parts ps
termination_by ps => ps.length
decreasing_by
  all_goals simp_wf
  all_goals have := enclose_rest _h; omega

theorem parts_enclosed (c s : Text) {ps : List (Piece BranchTag)} {e : Enclosed} (h : enclose 0 ps = some e) :
    parts (.tag (.ifTag c) s :: ps) = .choice (⟨some c, e.first⟩ :: e.others) :: parts e.rest := by
  rw [parts]
  split
  · next e' he' =>
    obtain rfl : e' = e := Option.some.inj (he'.symm.trans h)
    rfl
  · next hnone => cases hnone.symm.trans h

/-- The body of the first branch that applies, or nothing. -/
def choose (ctx : RenderContext) : List Branch → Render Text
  | [] => pure []
  | b :: bs =>
    match b.condition with
    | none => pure b.body
    | some c => do
      if (← Render.valueOf ctx c).truthy then pure b.body else choose ctx bs

/-- Does the start of a conditional stand somewhere in the text? -/
def holdsConditional (t : Text) : Bool :=
  Tag.anywhere (fun u =>
    match after? Tag.opening u with
    | some r => (Tag.afterWord? (text "if") (skipBlanks r)).isSome
    | none => false) t

/-- Resolves the parts in turn; also tells whether a chosen branch holds another conditional. -/
def resolve (ctx : RenderContext) : List Part → Render (Text × Bool)
  | [] => pure ([], false)
  | .verbatim t :: ps => do
    let (r, nested) ← resolve ctx ps
    pure (t ++ r, nested)
  | .choice branches :: ps => do
    let kept ← choose ctx branches
    let (r, nested) ← resolve ctx ps
    pure (kept ++ r, holdsConditional kept || nested)

def pass (ctx : RenderContext) (t : Text) : Render (Text × Bool) :=
  resolve ctx (parts (Piece.scan BranchTag.read t))

/-- At most `n` passes, the last one when no chosen branch holds a conditional. -/
def passes (ctx : RenderContext) : Nat → Text → Render Text
  | 0, t => pure t
  | n + 1, t => do
    let (r, nested) ← pass ctx t
    if nested then passes ctx n r else pure r

end Conditional

def resolveConditionals (ctx : RenderContext) (t : Text) : Render Text :=
  Conditional.passes ctx ctx.maxConditionalPasses.toNat t

end PageTemplate
