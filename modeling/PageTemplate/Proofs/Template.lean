import PageTemplate.Dynamic.Pipeline
import PageTemplate.Proofs.Seam
import PageTemplate.Proofs.Rendering
set_option autoImplicit false
/-!
Well-formed pages as trees, the text of a tree, and its reading: what the tree means, without passes and
phases. Tags may be written with any blanks around their words.
-/
namespace PageTemplate.Template

/-- Neither a brace nor a grave accent. -/
def isPlain (c : Char) : Bool := c != '\x7b' && c != '\x7d' && c != Variable.grave

abbrev Plain := { t : Text // t.all isPlain }

abbrev Blanks := { t : Text // t.all isBlank }

abbrev Gap := { t : Text // t ≠ [] ∧ t.all isBlank }

abbrev Word := { t : Text // t ≠ [] ∧ t.all isWordChar }

/-- A condition, or the source of a collection. -/
abbrev Source := { t : Text // t.all isPlain ∧ ¬ t.all isBlank }

/-- A tag that consists of one word. -/
structure WordTag where
  lead : Blanks
  trail : Blanks

def WordTag.body (w : WordTag) (word : Text) : Text := w.lead.1 ++ word ++ w.trail.1

structure IfTag where
  lead : Blanks
  gap : Gap
  condition : Source

def IfTag.body (i : IfTag) : Text := i.lead.1 ++ text "if" ++ i.gap.1 ++ i.condition.1

structure ElseIfTag where
  lead : Blanks
  test : IfTag
  parted : test.lead.1 ≠ []

def ElseIfTag.body (e : ElseIfTag) : Text := e.lead.1 ++ text "else" ++ e.test.body

/-- The second name of a loop, and the blanks on both sides of the comma. -/
structure SecondName where
  before : Blanks
  after : Blanks
  name : Word

def SecondName.text (n : SecondName) : Text := n.before.1 ++ ',' :: (n.after.1 ++ n.name.1)

structure ForTag where
  lead : Blanks
  gap : Gap
  first : Word
  second : Option SecondName
  before : Gap
  after : Gap
  source : Source

def ForTag.body (f : ForTag) : Text :=
  f.lead.1 ++ text "for" ++ f.gap.1 ++ f.first.1 ++ f.second.elim [] SecondName.text ++ f.before.1
    ++ text "in" ++ f.after.1 ++ f.source.1

def ForTag.names (f : ForTag) : List Text := f.first.1 :: f.second.toList.map (·.name.1)

/-- A tag that belongs to no phase but the last. -/
structure ExprTag where
  body : Text
  plain : body.all isPlain
  noLoop : (LoopTag.ofBody? body).isNone
  noBranch : (BranchTag.ofBody? body).isNone
  free : isReservedBody body = false

end Template

mutual

inductive Template where
  | done
  | plain (t : Template.Plain) (rest : Template)
  | expr (e : Template.ExprTag) (rest : Template)
  | choice (i : Template.IfTag) (yes : Template) (others : Branches) (rest : Template)
  | loop (f : Template.ForTag) (body : Template) (alternative : Alternative) (rest : Template)

/-- What follows the first branch of a conditional. -/
inductive Branches where
  | close (endTag : Template.WordTag)
  | otherwise (elseTag : Template.WordTag) (no : Template) (endTag : Template.WordTag)
  | elseIf (e : Template.ElseIfTag) (yes : Template) (others : Branches)

/-- What follows the body of a loop. -/
inductive Alternative where
  | close (endTag : Template.WordTag)
  | ifEmpty (emptyTag : Template.WordTag) (part : Template) (endTag : Template.WordTag)

end

mutual

/-- The text of a page. -/
def Template.print : Template → Text
  | .done => []
  | .plain t rest => t.1 ++ rest.print
  | .expr e rest => Tag.wrap e.body ++ rest.print
  | .choice i yes others rest => Tag.wrap i.body ++ (yes.print ++ (others.print ++ rest.print))
  | .loop f body alternative rest => Tag.wrap f.body ++ (body.print ++ (alternative.print ++ rest.print))

def Branches.print : Branches → Text
  | .close e => Tag.wrap (e.body (text "endif"))
  | .otherwise e no f => Tag.wrap (e.body (text "else")) ++ (no.print ++ Tag.wrap (f.body (text "endif")))
  | .elseIf e yes others => Tag.wrap e.body ++ (yes.print ++ others.print)

def Alternative.print : Alternative → Text
  | .close e => Tag.wrap (e.body (text "endfor"))
  | .ifEmpty e part f => Tag.wrap (e.body (text "empty")) ++ (part.print ++ Tag.wrap (f.body (text "endfor")))

end

namespace Template

/-- What the substitution of variables makes of a tag alone, if anything. -/
def alone (ctx : RenderContext) (e : ExprTag) : Except Halt Text :=
  ((substituteVariables ctx (Tag.wrap e.body)).runFrom (.start none)).1

def shownAlone (ctx : RenderContext) (e : ExprTag) : Text := (alone ctx e).toOption.getD []

/-- Does a condition apply? One that cannot be evaluated does not. -/
def IfTag.holds (i : IfTag) (ctx : RenderContext) : Bool :=
  (Render.valueAt ctx (trim i.condition.1)).truthy

/-- The scopes of the iterations of a loop; no iterations mean an empty collection. There are no scopes if
a name may not be bound, or the collection cannot be evaluated or gone through. -/
def ForTag.scopes? (f : ForTag) (ctx : RenderContext) : Option (List RenderContext) :=
  if f.names.any Loop.refused then none
  else
    match (Expr.evaluate ctx.surroundings (trim f.source.1)).result with
    | .error _ => none
    | .ok v =>
      if Loop.isEmptyCollection v then some []
      else (Loop.entriesOf? f.second.isSome v).map fun es =>
        es.zipIdx.map fun (e, i) => ctx.bind (Loop.bindings f.names es.length i e.1 e.2)

/-- The bodies of all iterations, or else the part for an empty collection. -/
def ForTag.expansion (f : ForTag) (body part : RenderContext → Text) (ctx : RenderContext) : Text :=
  match f.scopes? ctx with
  | none => []
  | some [] => part ctx
  | some (c :: cs) => (c :: cs).flatMap body

end Template

mutual

/-- What a page means. -/
def Template.reading : Template → RenderContext → Text
  | .done, _ => []
  | .plain t rest, ctx => t.1 ++ rest.reading ctx
  | .expr e rest, ctx => Template.shownAlone ctx e ++ rest.reading ctx
  | .choice i yes others rest, ctx =>
    (if i.holds ctx then yes.reading ctx else others.reading ctx) ++ rest.reading ctx
  | .loop f body alternative rest, ctx =>
    f.expansion body.reading alternative.reading ctx ++ rest.reading ctx

def Branches.reading : Branches → RenderContext → Text
  | .close _, _ => []
  | .otherwise _ no _, ctx => no.reading ctx
  | .elseIf e yes others, ctx => if e.test.holds ctx then yes.reading ctx else others.reading ctx

def Alternative.reading : Alternative → RenderContext → Text
  | .close _, _ => []
  | .ifEmpty _ part _, ctx => part.reading ctx

end

mutual

/-- How deep loops nest. -/
def Template.loops : Template → Nat
  | .done => 0
  | .plain _ rest | .expr _ rest => rest.loops
  | .choice _ yes others rest => max (max yes.loops others.loops) rest.loops
  | .loop _ body alternative rest => max (1 + max body.loops alternative.loops) rest.loops

def Branches.loops : Branches → Nat
  | .close _ => 0
  | .otherwise _ no _ => no.loops
  | .elseIf _ yes others => max yes.loops others.loops

def Alternative.loops : Alternative → Nat
  | .close _ => 0
  | .ifEmpty _ part _ => part.loops

end

mutual

/-- Conditionals nest at most `k` deep outside loops, and at most `cap` deep in every part of a loop. -/
def Template.Within (cap : Nat) : Template → Nat → Prop
  | .done, _ => True
  | .plain _ rest, k | .expr _ rest, k => rest.Within cap k
  | .choice _ yes others rest, k =>
    0 < k ∧ yes.Within cap (k - 1) ∧ others.Within cap (k - 1) ∧ rest.Within cap k
  | .loop _ body alternative rest, k =>
    body.Within cap cap ∧ alternative.Within cap ∧ rest.Within cap k

def Branches.Within (cap : Nat) : Branches → Nat → Prop
  | .close _, _ => True
  | .otherwise _ no _, k => no.Within cap k
  | .elseIf _ yes others, k => yes.Within cap k ∧ others.Within cap k

def Alternative.Within (cap : Nat) : Alternative → Prop
  | .close _ => True
  | .ifEmpty _ part _ => part.Within cap cap

end

mutual

/-- Each tag shows a text, nothing that a page shows looks like the start of a tag, and no loop shows an accent.
Outside loops the tags of branches that are not chosen show nothing; the loops in them are expanded like all
others. -/
def Template.Quiet : Template → Bool → RenderContext → Prop
  | .done, _, _ => True
  | .plain _ rest, live, ctx => rest.Quiet live ctx
  | .expr e rest, live, ctx =>
    (live → (Template.alone ctx e).isOk ∧ Tag.calm (Template.shownAlone ctx e)) ∧ rest.Quiet live ctx
  | .choice i yes others rest, live, ctx =>
    yes.Quiet (live && i.holds ctx) ctx ∧ others.Quiet (live && !i.holds ctx) ctx ∧ rest.Quiet live ctx
  | .loop f body alternative rest, live, ctx =>
    (Tag.calm (f.expansion body.reading alternative.reading ctx)
      ∧ Variable.grave ∉ f.expansion body.reading alternative.reading ctx)
    ∧ (∀ c ∈ (f.scopes? ctx).getD [], body.Quiet true c)
    ∧ ((f.scopes? ctx).any List.isEmpty → alternative.Quiet ctx)
    ∧ rest.Quiet live ctx

def Branches.Quiet : Branches → Bool → RenderContext → Prop
  | .close _, _, _ => True
  | .otherwise _ no _, live, ctx => no.Quiet live ctx
  | .elseIf e yes others, live, ctx =>
    yes.Quiet (live && e.test.holds ctx) ctx ∧ others.Quiet (live && !e.test.holds ctx) ctx

def Alternative.Quiet : Alternative → RenderContext → Prop
  | .close _, _ => True
  | .ifEmpty _ part _, ctx => part.Quiet true ctx

end

mutual

def Template.decidableWithin (cap : Nat) : (t : Template) → (k : Nat) → Decidable (t.Within cap k)
  | .done, _ => .isTrue trivial
  | .plain _ rest, k | .expr _ rest, k => rest.decidableWithin cap k
  | .choice _ yes others rest, k =>
    have := yes.decidableWithin cap (k - 1)
    have := others.decidableWithin cap (k - 1)
    have := rest.decidableWithin cap k
    inferInstanceAs (Decidable (_ ∧ _ ∧ _ ∧ _))
  | .loop _ body alternative rest, k =>
    have := body.decidableWithin cap cap
    have := alternative.decidableWithin cap
    have := rest.decidableWithin cap k
    inferInstanceAs (Decidable (_ ∧ _ ∧ _))

def Branches.decidableWithin (cap : Nat) : (b : Branches) → (k : Nat) → Decidable (b.Within cap k)
  | .close _, _ => .isTrue trivial
  | .otherwise _ no _, k => no.decidableWithin cap k
  | .elseIf _ yes others, k =>
    have := yes.decidableWithin cap k
    have := others.decidableWithin cap k
    inferInstanceAs (Decidable (_ ∧ _))

def Alternative.decidableWithin (cap : Nat) : (a : Alternative) → Decidable (a.Within cap)
  | .close _ => .isTrue trivial
  | .ifEmpty _ part _ => part.decidableWithin cap cap

end

mutual

def Template.decidableQuiet : (t : Template) → (live : Bool) → (ctx : RenderContext) →
    Decidable (t.Quiet live ctx)
  | .done, _, _ => .isTrue trivial
  | .plain _ rest, live, ctx => rest.decidableQuiet live ctx
  | .expr _ rest, live, ctx =>
    have := rest.decidableQuiet live ctx
    inferInstanceAs (Decidable (_ ∧ _))
  | .choice i yes others rest, live, ctx =>
    have := yes.decidableQuiet (live && i.holds ctx) ctx
    have := others.decidableQuiet (live && !i.holds ctx) ctx
    have := rest.decidableQuiet live ctx
    inferInstanceAs (Decidable (_ ∧ _ ∧ _))
  | .loop _ body alternative rest, live, ctx =>
    have := fun c => body.decidableQuiet true c
    have := alternative.decidableQuiet ctx
    have := rest.decidableQuiet live ctx
    inferInstanceAs (Decidable (_ ∧ _ ∧ _ ∧ _))

def Branches.decidableQuiet : (b : Branches) → (live : Bool) → (ctx : RenderContext) →
    Decidable (b.Quiet live ctx)
  | .close _, _, _ => .isTrue trivial
  | .otherwise _ no _, live, ctx => no.decidableQuiet live ctx
  | .elseIf e yes others, live, ctx =>
    have := yes.decidableQuiet (live && e.test.holds ctx) ctx
    have := others.decidableQuiet (live && !e.test.holds ctx) ctx
    inferInstanceAs (Decidable (_ ∧ _))

def Alternative.decidableQuiet : (a : Alternative) → (ctx : RenderContext) → Decidable (a.Quiet ctx)
  | .close _, _ => .isTrue trivial
  | .ifEmpty _ part _, ctx => part.decidableQuiet true ctx

end

instance (t : Template) (cap k : Nat) : Decidable (t.Within cap k) := t.decidableWithin cap k

instance (t : Template) (live : Bool) (ctx : RenderContext) : Decidable (t.Quiet live ctx) :=
  t.decidableQuiet live ctx

end PageTemplate
