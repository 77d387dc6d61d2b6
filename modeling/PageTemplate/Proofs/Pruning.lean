import PageTemplate.Proofs.Layout
set_option autoImplicit false
/-!
Pages without what stands in branches that are not chosen, the loops there aside. Loops are expanded before the
conditionals around them are decided, so they cannot be left out; all else in such a branch makes no difference
to the expansion of a page.
-/
namespace PageTemplate

/-- Does a branch apply, once those in front of it do not? -/
def Conditional.applies (ctx : RenderContext) (condition : Option Text) : Bool :=
  condition.all fun c => (Render.valueAt ctx c).truthy

namespace Layout

/-- One page behind another. -/
def append : Layout → Layout → Layout
  | .done, u => u
  | .text t rest, u => .text t (rest.append u)
  | .choice tag condition yes others rest, u => .choice tag condition yes others (rest.append u)
  | .loop tag names collection body ending rest, u => .loop tag names collection body ending (rest.append u)

theorem print_append (p u : Layout) : (p.append u).print = p.print ++ u.print := by
  cases p with
  | done => rfl
  | text t rest => simp only [append, print, rest.print_append u, List.append_assoc]
  | choice tag condition yes others rest => simp only [append, print, rest.print_append u, List.append_assoc]
  | loop tag names collection body ending rest => simp only [append, print, rest.print_append u, List.append_assoc]

theorem append_assoc (p u v : Layout) : (p.append u).append v = p.append (u.append v) := by
  cases p with
  | done => rfl
  | text t rest => simp only [append, rest.append_assoc u v]
  | choice tag condition yes others rest => simp only [append, rest.append_assoc u v]
  | loop tag names collection body ending rest => simp only [append, rest.append_assoc u v]

end Layout

mutual

/-- The loops of a page, with nothing between them. -/
def Layout.onlyLoops : Layout → Layout
  | .done => .done
  | .text _ rest => rest.onlyLoops
  | .choice _ _ yes others rest => yes.onlyLoops.append (others.onlyLoops.append rest.onlyLoops)
  | .loop tag names collection body ending rest => .loop tag names collection body ending rest.onlyLoops

def Layout.Others.onlyLoops : Layout.Others → Layout
  | .close _ => .done
  | .branch _ _ body others => body.onlyLoops.append others.onlyLoops

end

/-- Branches of which none is chosen. -/
def Layout.Others.emptied : Layout.Others → Layout.Others
  | .close tag => .close tag
  | .branch tag condition body others => .branch tag condition body.onlyLoops others.emptied

mutual

/-- The page with nothing but loops in the branches that are not chosen. -/
def Layout.pruned (ctx : RenderContext) : Layout → Layout
  | .done => .done
  | .text t rest => .text t (rest.pruned ctx)
  | .choice tag condition yes others rest =>
    if Conditional.applies ctx condition then
      .choice tag condition (yes.pruned ctx) others.emptied (rest.pruned ctx)
    else .choice tag condition yes.onlyLoops (others.pruned ctx) (rest.pruned ctx)
  | .loop tag names collection body ending rest => .loop tag names collection body ending (rest.pruned ctx)

def Layout.Others.pruned (ctx : RenderContext) : Layout.Others → Layout.Others
  | .close tag => .close tag
  | .branch tag condition body others =>
    if Conditional.applies ctx condition then .branch tag condition (body.pruned ctx) others.emptied
    else .branch tag condition body.onlyLoops (others.pruned ctx)

end

section Emptying

theorem Layout.onlyLoops_append (p u : Layout) : (p.append u).onlyLoops = p.onlyLoops.append u.onlyLoops := by
  cases p with
  | done => rfl
  | text t rest => simp only [append, Layout.onlyLoops, rest.onlyLoops_append u]
  | choice tag condition yes others rest =>
    simp only [append, Layout.onlyLoops, rest.onlyLoops_append u, append_assoc]
  | loop tag names collection body ending rest => simp only [append, Layout.onlyLoops, rest.onlyLoops_append u]

mutual

theorem Layout.onlyLoops_onlyLoops (p : Layout) : p.onlyLoops.onlyLoops = p.onlyLoops := by
  cases p with
  | done => rfl
  | text t rest => exact rest.onlyLoops_onlyLoops
  | choice tag condition yes others rest =>
    simp only [Layout.onlyLoops, Layout.onlyLoops_append, yes.onlyLoops_onlyLoops, others.onlyLoops_onlyLoops,
      rest.onlyLoops_onlyLoops]
  | loop tag names collection body ending rest => simp only [Layout.onlyLoops, rest.onlyLoops_onlyLoops]

theorem Layout.Others.onlyLoops_onlyLoops (o : Layout.Others) : o.onlyLoops.onlyLoops = o.onlyLoops := by
  cases o with
  | close tag => rfl
  | branch tag condition body others =>
    simp only [Layout.Others.onlyLoops, Layout.onlyLoops_append, body.onlyLoops_onlyLoops,
      others.onlyLoops_onlyLoops]

end

theorem Layout.Others.emptied_emptied (o : Layout.Others) : o.emptied.emptied = o.emptied := by
  cases o with
  | close tag => rfl
  | branch tag condition body others => simp only [emptied, body.onlyLoops_onlyLoops, others.emptied_emptied]

variable (ctx : RenderContext)

mutual

theorem Layout.pruned_pruned (p : Layout) : (p.pruned ctx).pruned ctx = p.pruned ctx := by
  cases p with
  | done => rfl
  | text t rest => simp only [Layout.pruned, rest.pruned_pruned]
  | choice tag condition yes others rest =>
    by_cases h : Conditional.applies ctx condition
    · simp only [Layout.pruned, h, if_true, yes.pruned_pruned, others.emptied_emptied, rest.pruned_pruned]
    · simp only [Layout.pruned, h, Bool.false_eq_true, if_false, yes.onlyLoops_onlyLoops, others.pruned_pruned,
        rest.pruned_pruned]
  | loop tag names collection body ending rest => simp only [Layout.pruned, rest.pruned_pruned]

theorem Layout.Others.pruned_pruned (o : Layout.Others) : (o.pruned ctx).pruned ctx = o.pruned ctx := by
  cases o with
  | close tag => rfl
  | branch tag condition body others =>
    by_cases h : Conditional.applies ctx condition
    · simp only [Layout.Others.pruned, h, if_true, body.pruned_pruned, others.emptied_emptied]
    · simp only [Layout.Others.pruned, h, Bool.false_eq_true, if_false, body.onlyLoops_onlyLoops,
        others.pruned_pruned]

end

end Emptying

section Expanding

variable {β : Type} (render : Renderer) (ctx : RenderContext)

theorem Layout.expand_append (p u : Layout) : (p.append u).expand render ctx =
    p.expand render ctx >>= fun x => u.expand render ctx >>= fun y => pure (x.append y) := by
  cases p with
  | done => simp [append, expand]
  | text t rest => simp only [append, expand, rest.expand_append u, bind_assoc, pure_bind]
  | choice tag condition yes others rest =>
    simp only [append, expand, rest.expand_append u, bind_assoc, pure_bind]
  | loop tag names collection body ending rest =>
    simp only [append, expand, rest.expand_append u, bind_assoc, pure_bind]

mutual

/-- Expanding a page does to the state what expanding its loops does. -/
theorem Layout.expand_onlyLoops (p : Layout) (next : Render β) :
    (p.onlyLoops.expand render ctx >>= fun _ => next) = p.expand render ctx >>= fun _ => next := by
  cases p with
  | done => rfl
  | text t rest => simp only [Layout.onlyLoops, Layout.expand, rest.expand_onlyLoops, bind_assoc, pure_bind]
  | choice tag condition yes others rest =>
    simp only [Layout.onlyLoops, Layout.expand, Layout.expand_append, yes.expand_onlyLoops,
      others.expand_onlyLoops, rest.expand_onlyLoops, bind_assoc, pure_bind]
  | loop tag names collection body ending rest =>
    simp only [Layout.onlyLoops, Layout.expand, rest.expand_onlyLoops, bind_assoc, pure_bind]

theorem Layout.Others.expand_onlyLoops (o : Layout.Others) (next : Render β) :
    (o.onlyLoops.expand render ctx >>= fun _ => next) = o.expand render ctx >>= fun _ => next := by
  cases o with
  | close tag => rfl
  | branch tag condition body others =>
    simp only [Layout.Others.onlyLoops, Layout.Others.expand, Layout.expand_append, body.expand_onlyLoops,
      others.expand_onlyLoops, bind_assoc, pure_bind]

end

mutual

/-- No loop is left in an expanded page. -/
theorem Layout.onlyLoops_expanded (p : Layout) (next : Layout → Render β) :
    (p.expand render ctx >>= fun x => next x.onlyLoops) = p.expand render ctx >>= fun _ => next .done := by
  cases p with
  | done => rfl
  | text t rest => simp only [Layout.expand, Layout.onlyLoops, bind_assoc, pure_bind, rest.onlyLoops_expanded next]
  | choice tag condition yes others rest =>
    -- from the last part to the first: each has no loops left once those behind it have none
    have hrest := fun (y o : Layout) => rest.onlyLoops_expanded fun z => next (y.append (o.append z))
    have hothers := fun (y : Layout) => others.onlyLoops_expanded fun z =>
      rest.expand render ctx >>= fun _ => next (y.append (z.append .done))
    have hyes := yes.onlyLoops_expanded fun z =>
      others.expand render ctx >>= fun _ => rest.expand render ctx >>= fun _ => next (z.append .done)
    simp only [Layout.expand, Layout.onlyLoops, bind_assoc, pure_bind, hrest, hothers, Layout.append, hyes]
  | loop tag names collection body ending rest =>
    have hrest := rest.onlyLoops_expanded next
    simp only [Layout.expand, Layout.onlyLoops, bind_assoc, pure_bind, hrest]

theorem Layout.Others.onlyLoops_expanded (o : Layout.Others) (next : Layout → Render β) :
    (o.expand render ctx >>= fun x => next x.onlyLoops) = o.expand render ctx >>= fun _ => next .done := by
  cases o with
  | close tag => rfl
  | branch tag condition body others =>
    have hothers := fun (y : Layout) => others.onlyLoops_expanded fun z => next (y.append z)
    have hbody := body.onlyLoops_expanded fun z =>
      others.expand render ctx >>= fun _ => next (z.append .done)
    simp only [Layout.Others.expand, Layout.Others.onlyLoops, bind_assoc, pure_bind, hothers, hbody, Layout.append]

end

theorem Layout.expand_dropped (p : Layout) (next : Layout → Render β) :
    (p.onlyLoops.expand render ctx >>= fun x => next x.onlyLoops) =
      p.expand render ctx >>= fun x => next x.onlyLoops := by
  rw [onlyLoops_expanded, onlyLoops_expanded, expand_onlyLoops]

theorem Layout.Others.expand_emptied (o : Layout.Others) (next : Layout.Others → Render β) :
    (o.emptied.expand render ctx >>= fun x => next x.emptied) = o.expand render ctx >>= fun x => next x.emptied := by
  cases o with
  | close tag => rfl
  | branch tag condition body others =>
    have hothers := fun (y : Layout) => others.expand_emptied fun z => next (.branch tag condition y z)
    have hbody := body.expand_dropped render ctx fun y =>
      others.expand render ctx >>= fun z => next (.branch tag condition y z.emptied)
    simp only [Layout.Others.emptied, Layout.Others.expand, bind_assoc, pure_bind, hothers, hbody]

mutual

/-- The expansion of a page and of the pruned page differ only in what is pruned. -/
theorem Layout.expand_pruned (p : Layout) (next : Layout → Render β) :
    ((p.pruned ctx).expand render ctx >>= fun x => next (x.pruned ctx)) =
      p.expand render ctx >>= fun x => next (x.pruned ctx) := by
  cases p with
  | done => rfl
  | text t rest =>
    have hrest := rest.expand_pruned fun z => next (.text t z)
    simpa only [Layout.pruned, Layout.expand, bind_assoc, pure_bind] using hrest
  | choice tag condition yes others rest =>
    have hrest := fun (y : Layout) (o : Layout.Others) =>
      rest.expand_pruned fun z => next (.choice tag condition y o z)
    -- either the first branch is chosen and the others keep their loops only, or the other way round
    by_cases h : Conditional.applies ctx condition
    · have hothers := fun (y : Layout) => others.expand_emptied render ctx fun o =>
        rest.expand render ctx >>= fun z => next (.choice tag condition y o (z.pruned ctx))
      have hyes := yes.expand_pruned fun y =>
        others.expand render ctx >>= fun o => rest.expand render ctx >>= fun z =>
          next (.choice tag condition y o.emptied (z.pruned ctx))
      simp only [Layout.pruned, h, if_true, Layout.expand, bind_assoc, pure_bind, hrest, hothers, hyes]
    · have hothers := fun (y : Layout) => others.expand_pruned fun o =>
        rest.expand render ctx >>= fun z => next (.choice tag condition y o (z.pruned ctx))
      have hyes := yes.expand_dropped render ctx fun y =>
        others.expand render ctx >>= fun o => rest.expand render ctx >>= fun z =>
          next (.choice tag condition y (o.pruned ctx) (z.pruned ctx))
      simp only [Layout.pruned, h, Bool.false_eq_true, if_false, Layout.expand, bind_assoc, pure_bind, hrest,
        hothers, hyes]
  | loop tag names collection body ending rest =>
    have hrest := fun (t : Text) => rest.expand_pruned fun z => next (.text t z)
    simp only [Layout.pruned, Layout.expand, bind_assoc, pure_bind, hrest]

theorem Layout.Others.expand_pruned (o : Layout.Others) (next : Layout.Others → Render β) :
    ((o.pruned ctx).expand render ctx >>= fun x => next (x.pruned ctx)) =
      o.expand render ctx >>= fun x => next (x.pruned ctx) := by
  cases o with
  | close tag => rfl
  | branch tag condition body others =>
    by_cases h : Conditional.applies ctx condition
    · have hothers := fun (y : Layout) => others.expand_emptied render ctx fun z => next (.branch tag condition y z)
      have hbody := body.expand_pruned fun y =>
        others.expand render ctx >>= fun z => next (.branch tag condition y z.emptied)
      simp only [Layout.Others.pruned, h, if_true, Layout.Others.expand, bind_assoc, pure_bind, hothers, hbody]
    · have hothers := fun (y : Layout) => others.expand_pruned fun z => next (.branch tag condition y z)
      have hbody := body.expand_dropped render ctx fun y =>
        others.expand render ctx >>= fun z => next (.branch tag condition y (z.pruned ctx))
      simp only [Layout.Others.pruned, h, Bool.false_eq_true, if_false, Layout.Others.expand, bind_assoc, pure_bind,
        hothers, hbody]

end

end Expanding

end PageTemplate
