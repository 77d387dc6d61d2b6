import PageTemplate.Proofs.Deciding
set_option autoImplicit false
/-!
Pages of conditionals alone, with texts without braces and tags of other phases between their tags. A pass takes
the outermost level of conditionals away, and another pass follows as long as a branch that was kept has a level
of its own; so a limit on the passes is a limit on the levels that are resolved.
-/
namespace PageTemplate

open Piece Tag

namespace Decision

/-- A text without braces. -/
abbrev Bare := { t : Text // '\x7b' ∉ t ∧ '\x7d' ∉ t }

structure IfTag where
  lead : Template.Blanks
  gap : Template.Gap
  condition : Bare

def IfTag.body (i : IfTag) : Text := i.lead.1 ++ (text "if" ++ (i.gap.1 ++ i.condition.1))

structure ElseIfTag where
  lead : Template.Blanks
  between : Template.Gap
  gap : Template.Gap
  condition : Bare

def ElseIfTag.body (e : ElseIfTag) : Text :=
  e.lead.1 ++ (text "else" ++ (e.between.1 ++ (text "if" ++ (e.gap.1 ++ e.condition.1))))

/-- A tag that belongs to no conditional. -/
structure ForeignTag where
  body : Text
  bare : '\x7b' ∉ body ∧ '\x7d' ∉ body
  foreign : BranchTag.ofBody? body = none

end Decision

mutual

inductive Decision where
  | done
  | plain (t : Decision.Bare) (rest : Decision)
  | foreign (f : Decision.ForeignTag) (rest : Decision)
  | choice (i : Decision.IfTag) (yes : Decision) (others : Decision.Others) (rest : Decision)

/-- What follows the first branch of a conditional. -/
inductive Decision.Others where
  | close (endTag : Template.WordTag)
  | otherwise (elseTag : Template.WordTag) (no : Decision) (endTag : Template.WordTag)
  | elseIf (e : Decision.ElseIfTag) (yes : Decision) (others : Decision.Others)

end

mutual

def Decision.print : Decision → Text
  | .done => []
  | .plain t rest => t.1 ++ rest.print
  | .foreign f rest => wrap f.body ++ rest.print
  | .choice i yes others rest => wrap i.body ++ (yes.print ++ (others.print ++ rest.print))

def Decision.Others.print : Decision.Others → Text
  | .close e => wrap (e.body (text "endif"))
  | .otherwise e no f => wrap (e.body (text "else")) ++ (no.print ++ wrap (f.body (text "endif")))
  | .elseIf e yes others => wrap e.body ++ (yes.print ++ others.print)

end

/-- One page behind another. -/
def Decision.append : Decision → Decision → Decision
  | .done, u => u
  | .plain t rest, u => .plain t (rest.append u)
  | .foreign f rest, u => .foreign f (rest.append u)
  | .choice i yes others rest, u => .choice i yes others (rest.append u)

/-- Is a condition met? One that cannot be evaluated is not. -/
def Decision.met (around : Surroundings) (condition : Decision.Bare) : Bool :=
  match (Expr.evaluate around (trim condition.1)).result with
  | .ok v => v.truthy
  | .error _ => false

mutual

/-- The page with so many levels of conditionals resolved, from outside along the branches that are kept. -/
def Decision.resolved (around : Surroundings) : Decision → Nat → Decision
  | .done, _ => .done
  | .plain t rest, k => .plain t (rest.resolved around k)
  | .foreign f rest, k => .foreign f (rest.resolved around k)
  | .choice i yes others rest, 0 => .choice i yes others rest
  | .choice i yes others rest, k + 1 =>
    (if Decision.met around i.condition then yes.resolved around k else others.resolved around k).append
      (rest.resolved around (k + 1))

def Decision.Others.resolved (around : Surroundings) : Decision.Others → Nat → Decision
  | .close _, _ => .done
  | .otherwise _ no _, k => no.resolved around k
  | .elseIf e yes others, k =>
    if Decision.met around e.condition then yes.resolved around k else others.resolved around k

end

mutual

/-- The page with all its conditionals resolved. -/
def Decision.meaning (around : Surroundings) : Decision → Text
  | .done => []
  | .plain t rest => t.1 ++ rest.meaning around
  | .foreign f rest => wrap f.body ++ rest.meaning around
  | .choice i yes others rest =>
    (if Decision.met around i.condition then yes.meaning around else others.meaning around) ++ rest.meaning around

def Decision.Others.meaning (around : Surroundings) : Decision.Others → Text
  | .close _ => []
  | .otherwise _ no _ => no.meaning around
  | .elseIf e yes others => if Decision.met around e.condition then yes.meaning around else others.meaning around

end

mutual

/-- How deep conditionals nest. -/
def Decision.depth : Decision → Nat
  | .done => 0
  | .plain _ rest | .foreign _ rest => rest.depth
  | .choice _ yes others rest => max (1 + max yes.depth others.depth) rest.depth

def Decision.Others.depth : Decision.Others → Nat
  | .close _ => 0
  | .otherwise _ no _ => no.depth
  | .elseIf _ yes others => max yes.depth others.depth

end

/-- Does a conditional stand on the page? -/
def Decision.forks : Decision → Bool
  | .done => false
  | .plain _ rest | .foreign _ rest => rest.forks
  | .choice _ _ _ _ => true

section Levels

variable {around : Surroundings}

mutual

theorem Decision.resolved_zero (t : Decision) : t.resolved around 0 = t := by
  cases t with
  | done => rfl
  | plain t rest => rw [resolved, rest.resolved_zero]
  | foreign f rest => rw [resolved, rest.resolved_zero]
  | choice i yes others rest => rfl

end

namespace Decision

theorem print_append (t u : Decision) : (t.append u).print = t.print ++ u.print := by
  cases t with
  | done => rfl
  | plain t rest => simp only [append, print, rest.print_append u, List.append_assoc]
  | foreign f rest => simp only [append, print, rest.print_append u, List.append_assoc]
  | choice i yes others rest => simp only [append, print, rest.print_append u, List.append_assoc]

theorem forks_append (t u : Decision) : (t.append u).forks = (t.forks || u.forks) := by
  cases t with
  | done => rfl
  | plain t rest => exact rest.forks_append u
  | foreign f rest => exact rest.forks_append u
  | choice i yes others rest => rfl

theorem append_assoc (t u v : Decision) : (t.append u).append v = t.append (u.append v) := by
  cases t with
  | done => rfl
  | plain t rest => simp only [append, rest.append_assoc u v]
  | foreign f rest => simp only [append, rest.append_assoc u v]
  | choice i yes others rest => simp only [append, rest.append_assoc u v]

theorem resolved_append (t u : Decision) (k : Nat) :
    (t.append u).resolved around k = (t.resolved around k).append (u.resolved around k) := by
  cases t with
  | done => rfl
  | plain t rest => simp only [append, resolved, rest.resolved_append u k]
  | foreign f rest => simp only [append, resolved, rest.resolved_append u k]
  | choice i yes others rest =>
    cases k with
    | zero => rw [append, Decision.resolved, Decision.resolved, append, u.resolved_zero]
    | succ k => simp only [append, resolved, rest.resolved_append u (k + 1), append_assoc]

theorem Others.resolved_zero_resolved (o : Others) (k : Nat) :
    (o.resolved around 0).resolved around k = o.resolved around k := by
  cases o with
  | close e => rfl
  | otherwise e no f => simp only [Others.resolved, no.resolved_zero]
  | elseIf e yes others =>
    simp only [Others.resolved, apply_ite (Decision.resolved around · k), yes.resolved_zero,
      others.resolved_zero_resolved]

/-- The outermost level first, and then the others. -/
theorem resolved_succ (t : Decision) (k : Nat) :
    t.resolved around (k + 1) = (t.resolved around 1).resolved around k := by
  cases t with
  | done => rfl
  | plain t rest => simp only [resolved, rest.resolved_succ k]
  | foreign f rest => simp only [resolved, rest.resolved_succ k]
  | choice i yes others rest =>
    simp only [resolved, resolved_append, apply_ite (Decision.resolved around · k), yes.resolved_zero,
      others.resolved_zero_resolved, ← rest.resolved_succ k]

theorem resolved_of_not_forks (t : Decision) (k : Nat) (h : t.forks = false) : t.resolved around k = t := by
  cases t with
  | done => rfl
  | plain t rest => rw [resolved, rest.resolved_of_not_forks k h]
  | foreign f rest => rw [resolved, rest.resolved_of_not_forks k h]
  | choice i yes others rest => cases h

end Decision

mutual

theorem Decision.print_resolved (t : Decision) {k : Nat} (h : t.depth ≤ k) :
    (t.resolved around k).print = t.meaning around := by
  cases t with
  | done => rfl
  | plain t rest => simp only [resolved, print, meaning, rest.print_resolved h]
  | foreign f rest => simp only [resolved, print, meaning, rest.print_resolved h]
  | choice i yes others rest =>
    simp only [depth, Nat.max_le] at h
    obtain ⟨k, rfl⟩ : ∃ j, k = j + 1 := ⟨k - 1, by omega⟩
    simp only [resolved, meaning, print_append, apply_ite Decision.print,
      yes.print_resolved (show yes.depth ≤ k by omega), others.print_resolved (show others.depth ≤ k by omega),
      rest.print_resolved h.2]

theorem Decision.Others.print_resolved (o : Decision.Others) {k : Nat} (h : o.depth ≤ k) :
    (o.resolved around k).print = o.meaning around := by
  cases o with
  | close e => rfl
  | otherwise e no f => exact no.print_resolved h
  | elseIf e yes others =>
    simp only [Decision.Others.depth, Nat.max_le] at h
    simp only [Decision.Others.resolved, Decision.Others.meaning, apply_ite Decision.print, yes.print_resolved h.1,
      others.print_resolved h.2]

end

end Levels

section Laying

mutual

/-- The page as it is laid out, with the sources of its conditions. -/
def Decision.layout : Decision → Layout
  | .done => .done
  | .plain t rest => .text t.1 rest.layout
  | .foreign f rest => .text (wrap f.body) rest.layout
  | .choice i yes others rest => .choice (wrap i.body) (trim i.condition.1) yes.layout others.layout rest.layout

def Decision.Others.layout : Decision.Others → Layout.Others
  | .close e => .close (wrap (e.body (text "endif")))
  | .otherwise e no f => .branch (wrap (e.body (text "else"))) none no.layout (.close (wrap (f.body (text "endif"))))
  | .elseIf e yes others => .branch (wrap e.body) (some (trim e.condition.1)) yes.layout others.layout

end

mutual

theorem Decision.print_layout (t : Decision) : t.layout.print = t.print := by
  cases t with
  | done => rfl
  | plain t rest => simp only [layout, Layout.print, print, rest.print_layout]
  | foreign f rest => simp only [layout, Layout.print, print, rest.print_layout]
  | choice i yes others rest =>
    simp only [layout, Layout.print, print, yes.print_layout, others.print_layout, rest.print_layout]

theorem Decision.Others.print_layout (o : Decision.Others) : o.layout.print = o.print := by
  cases o with
  | close e => rfl
  | otherwise e no f =>
    simp only [Decision.Others.layout, Layout.Others.print, Decision.Others.print, no.print_layout]
  | elseIf e yes others =>
    simp only [Decision.Others.layout, Layout.Others.print, Decision.Others.print, yes.print_layout,
      others.print_layout]

end

end Laying

section Reading

namespace Decision

theorem IfTag.bare_body (i : IfTag) : '\x7d' ∉ i.body := by
  simp [body, text, notMem_of_blank i.lead.2, notMem_of_blank i.gap.2.2, i.condition.2.2,
    show isBlank '\x7d' = false by decide]

theorem ElseIfTag.bare_body (e : ElseIfTag) : '\x7d' ∉ e.body := by
  simp [body, text, notMem_of_blank e.lead.2, notMem_of_blank e.between.2.2, notMem_of_blank e.gap.2.2,
    e.condition.2.2, show isBlank '\x7d' = false by decide]

theorem inert_bare (t : Bare) : Inert BranchTag.read t.1 :=
  BranchTag.bracketed_read.opening.inert (calm_of_notMem t.2.1)

theorem inert_foreign (f : ForeignTag) : Inert BranchTag.read (wrap f.body) :=
  BranchTag.inert_wrap f.bare.1 f.bare.2 f.foreign

end Decision

mutual

/-- The tags of a page are cut out as it is laid out, whatever stands behind it. -/
theorem Decision.scan_print (t : Decision) (u : Text) :
    scan BranchTag.read (t.print ++ u) = t.layout.branchPieces ++ scan BranchTag.read u := by
  cases t with
  | done => rfl
  | plain t rest =>
    simp only [print, layout, Layout.branchPieces, List.append_assoc, inert_bare t (rest.print ++ u),
      rest.scan_print u]
  | foreign f rest =>
    simp only [print, layout, Layout.branchPieces, List.append_assoc, inert_foreign f (rest.print ++ u),
      rest.scan_print u]
  | choice i yes others rest =>
    simp only [print, layout, Layout.branchPieces, List.append_assoc, List.cons_append,
      BranchTag.scan_wrap i.bare_body (BranchTag.ofBody?_ifWord i.lead i.gap i.condition.1),
      yes.scan_print, others.scan_print, rest.scan_print]

theorem Decision.Others.scan_print (o : Decision.Others) (u : Text) :
    scan BranchTag.read (o.print ++ u) = o.layout.branchPieces ++ scan BranchTag.read u := by
  cases o with
  | close e =>
    simp only [Decision.Others.print, Decision.Others.layout, Layout.Others.branchPieces, BranchTag.scan_endif,
      List.singleton_append]
  | otherwise e no f =>
    simp only [Decision.Others.print, Decision.Others.layout, Layout.Others.branchPieces, List.append_assoc,
      List.cons_append, List.nil_append, Option.elim, BranchTag.scan_else, BranchTag.scan_endif, no.scan_print]
  | elseIf e yes others =>
    simp only [Decision.Others.print, Decision.Others.layout, Layout.Others.branchPieces, List.append_assoc,
      List.cons_append, Option.elim, BranchTag.scan_wrap e.bare_body
        (BranchTag.ofBody?_elseIfWords e.lead e.between e.gap e.condition.1), yes.scan_print, others.scan_print]

end

end Reading

namespace Conditional

theorem holdsConditional_append_calm {x : Text} (hx : calm x) (y : Text) :
    holdsConditional (x ++ y) = holdsConditional y := by
  induction x with
  | nil => rfl
  | cons c cs ih =>
    have hno : after? opening (c :: (cs ++ y)) = none := by
      refine Option.eq_none_iff_forall_ne_some.2 fun r hr => ?_
      exact not_opening_of_calm hx (List.cons_ne_nil c cs) ⟨r, (after?_eq_some_iff.1 hr).symm⟩
    have hrest := ih (calm_of_cons hx)
    unfold holdsConditional at hrest ⊢
    rw [List.cons_append, anywhere, hno, Bool.false_or, hrest]

theorem isSome_afterWord?_append_brace (word x u : Text) (hw : '\x7d' ∉ word) :
    (afterWord? word (x ++ '\x7d' :: u)).isSome = (afterWord? word x).isSome := by
  simp only [afterWord?, Option.bind_eq_bind, after?_append_cons hw]
  cases after? word x with
  | none => rfl
  | some r =>
    cases r with
    | nil => rfl
    | cons c r => by_cases hc : isBlank c <;> simp [startsBlank, hc]

/-- A tag that is none of a conditional's does not look like the start of one. -/
theorem holdsConditional_append_foreign (f : Decision.ForeignTag) (y : Text) :
    holdsConditional (wrap f.body ++ y) = holdsConditional y := by
  have hno : (afterWord? (text "if") (skipBlanks (f.body ++ '\x7d' :: '\x7d' :: y))).isSome = false := by
    rw [skipBlanks_append_brace, isSome_afterWord?_append_brace _ _ _ (by decide)]
    have hforeign := f.foreign
    unfold BranchTag.ofBody? at hforeign
    cases hword : afterWord? (text "if") (skipBlanks f.body) with
    | none => rfl
    | some r =>
      simp only [BranchTag.condition?, hword, Option.map_some] at hforeign
      split at hforeign
      · cases hforeign
      · split at hforeign <;> cases hforeign
  have htail := holdsConditional_append_calm (calm_tail_wrap f.bare.1) y
  have hfront : after? opening ('\x7b' :: ('\x7b' :: (f.body ++ closing) ++ y)) =
      some (f.body ++ '\x7d' :: '\x7d' :: y) := by
    simpa [wrap_eq_cons] using after?_opening_wrap f.body y
  rw [wrap_eq_cons, List.cons_append]
  unfold holdsConditional at htail ⊢
  rw [anywhere, hfront, htail]
  dsimp only
  rw [hno, Bool.false_or]

end Conditional

namespace Decision

theorem holdsConditional_print (t : Decision) : Conditional.holdsConditional t.print = t.forks := by
  cases t with
  | done => rfl
  | plain t rest =>
    rw [print, forks, Conditional.holdsConditional_append_calm (calm_of_notMem t.2.1), rest.holdsConditional_print]
  | foreign f rest =>
    rw [print, forks, Conditional.holdsConditional_append_foreign, rest.holdsConditional_print]
  | choice i yes others rest => exact Conditional.holdsConditional_ifWord i.lead i.gap i.condition.1 _

variable (ctx : RenderContext)

theorem applies_met (condition : Bare) :
    Conditional.applies ctx (some (trim condition.1)) = met ctx.surroundings condition := by
  rw [Conditional.applies, Option.all, Render.valueAt, met]
  cases (Expr.evaluate ctx.surroundings (trim condition.1)).result <;> rfl

theorem Others.print_pick (o : Others) :
    (o.layout.pick ctx).print = (o.resolved ctx.surroundings 0).print := by
  cases o with
  | close e => rfl
  | otherwise e no f =>
    change no.layout.print = (no.resolved ctx.surroundings 0).print
    rw [no.print_layout, no.resolved_zero]
  | elseIf e yes others =>
    rw [Others.layout, Layout.Others.pick, applies_met, Others.resolved]
    split
    · rw [yes.print_layout, yes.resolved_zero]
    · exact others.print_pick

theorem print_chosen (i : IfTag) (yes : Decision) (others : Others) :
    ((Layout.Others.branch (wrap i.body) (some (trim i.condition.1)) yes.layout others.layout).pick ctx).print =
      (if met ctx.surroundings i.condition then yes.resolved ctx.surroundings 0
        else others.resolved ctx.surroundings 0).print := by
  rw [Layout.Others.pick, applies_met]
  split
  · rw [yes.print_layout, yes.resolved_zero]
  · exact others.print_pick ctx

theorem print_step (t : Decision) : (t.layout.step ctx).print = (t.resolved ctx.surroundings 1).print := by
  cases t with
  | done => rfl
  | plain t rest => simp only [layout, Layout.step, Layout.print, resolved, print, rest.print_step]
  | foreign f rest => simp only [layout, Layout.step, Layout.print, resolved, print, rest.print_step]
  | choice i yes others rest =>
    rw [layout, Layout.step, Layout.print_append, print_chosen, rest.print_step, resolved, print_append]

theorem nested_layout (t : Decision) : t.layout.nested ctx = (t.resolved ctx.surroundings 1).forks := by
  cases t with
  | done => rfl
  | plain t rest => exact rest.nested_layout
  | foreign f rest => exact rest.nested_layout
  | choice i yes others rest =>
    rw [layout, Layout.nested, print_chosen, holdsConditional_print, rest.nested_layout, resolved, forks_append]

end Decision

open Render

namespace Layout

variable (ctx : RenderContext)

theorem Others.gives_weigh (o : Others) : Gives (o.weigh ctx) () := by
  cases o with
  | close tag => exact gives_pure ()
  | branch tag condition body others =>
    cases condition with
    | none => exact gives_pure ()
    | some c =>
      refine (gives_valueOf ctx c).bind ?_
      split
      · exact gives_pure ()
      · exact others.gives_weigh

theorem gives_weigh (p : Layout) : Gives (p.weigh ctx) () := by
  cases p with
  | done => exact gives_pure ()
  | text t rest => exact rest.gives_weigh
  | choice tag condition yes others rest => exact (Others.gives_weigh ctx _).bind rest.gives_weigh
  | loop tag names collection body ending rest => exact rest.gives_weigh

end Layout

namespace Decision

variable (ctx : RenderContext)

/-- A pass resolves one level, and tells whether there is another. -/
theorem gives_pass (t : Decision) : Gives (Conditional.pass ctx t.print)
    ((t.resolved ctx.surroundings 1).print, (t.resolved ctx.surroundings 1).forks) := by
  have hscan : scan BranchTag.read t.layout.print = t.layout.branchPieces := by
    simpa [print_layout] using t.scan_print []
  rw [← print_layout, Layout.pass_print ctx hscan, print_step, nested_layout]
  exact (t.layout.gives_weigh ctx).bind (gives_pure _)

theorem gives_passes (t : Decision) (k : Nat) :
    Gives (Conditional.passes ctx k t.print) (t.resolved ctx.surroundings k).print := by
  induction k generalizing t with
  | zero =>
    rw [t.resolved_zero]
    exact gives_pure _
  | succ k ih =>
    refine (t.gives_pass ctx).bind ?_
    rw [t.resolved_succ k]
    cases hforks : (t.resolved ctx.surroundings 1).forks with
    | true => exact ih (t.resolved ctx.surroundings 1)
    | false =>
      rw [(t.resolved ctx.surroundings 1).resolved_of_not_forks k hforks]
      exact gives_pure _

/-- With a limit of `k` passes the outermost `k` levels of conditionals are resolved and all else stays as it was,
and from the depth of the page on that is what the page means. -/
theorem resolveConditionals_print (t : Decision) (k : Nat) :
    Gives (resolveConditionals { ctx with maxConditionalPasses := k } t.print)
        (t.resolved ctx.surroundings k).print ∧
      Gives (resolveConditionals { ctx with maxConditionalPasses := ↑(t.depth + k) } t.print)
        (t.meaning ctx.surroundings) := by
  have hlimit : ∀ n : Nat, Gives (resolveConditionals { ctx with maxConditionalPasses := n } t.print)
      (t.resolved ctx.surroundings n).print := fun n => t.gives_passes { ctx with maxConditionalPasses := n } n
  refine ⟨hlimit k, ?_⟩
  rw [← t.print_resolved (Nat.le_add_right t.depth k)]
  exact hlimit (t.depth + k)

end Decision

end PageTemplate
