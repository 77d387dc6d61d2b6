import PageTemplate.Proofs.Expansion
set_option autoImplicit false
/-!
The conditionals of a page whose loops are expanded. A pass replaces every outermost conditional by the
branch that it chooses, which takes one level of nesting away and leaves the meaning as it was; as many
passes as conditionals nest leave none.
-/
namespace PageTemplate

open Piece Tag

namespace BranchTag

open Template

theorem scan_wrap {body : Text} {a : BranchTag} (hb : '\x7d' ∉ body) (h : ofBody? body = some a)
    (rest : Text) : scan BranchTag.read (wrap body ++ rest) = .tag a (wrap body) :: scan BranchTag.read rest := by
  refine scan_of_read (wrap_ne_nil body) ?_
  rw [read_wrap rest hb, h, Option.map_some]

theorem scan_if (i : IfTag) (rest : Text) : scan BranchTag.read (wrap i.body ++ rest) =
    .tag (.ifTag (trim i.condition.1)) (wrap i.body) :: scan BranchTag.read rest :=
  scan_wrap (notMem_of_plain i.plain_body).2.1 (ofBody?_if i) rest

theorem scan_elseIf (e : ElseIfTag) (rest : Text) : scan BranchTag.read (wrap e.body ++ rest) =
    .tag (.elseIf (trim e.test.condition.1)) (wrap e.body) :: scan BranchTag.read rest :=
  scan_wrap (notMem_of_plain e.plain_body).2.1 (ofBody?_elseIf e) rest

theorem scan_else (w : WordTag) (rest : Text) : scan BranchTag.read (wrap (w.body (text "else")) ++ rest) =
    .tag .elseTag (wrap (w.body (text "else"))) :: scan BranchTag.read rest :=
  scan_wrap (notMem_of_plain (w.plain_body (by decide))).2.1 (ofBody?_else w) rest

theorem scan_endif (w : WordTag) (rest : Text) : scan BranchTag.read (wrap (w.body (text "endif")) ++ rest) =
    .tag .endTag (wrap (w.body (text "endif"))) :: scan BranchTag.read rest :=
  scan_wrap (notMem_of_plain (w.plain_body (by decide))).2.1 (ofBody?_endif w) rest

theorem inert_wrap {body : Text} (ho : '\x7b' ∉ body) (hc : '\x7d' ∉ body) (h : ofBody? body = none) :
    Inert BranchTag.read (wrap body) := by
  refine bracketed_read.inert_wrap ho hc ?_
  rw [← List.append_nil (wrap body), read_wrap [] hc, h, Option.map_none]

theorem inert_expr (e : ExprTag) : Inert BranchTag.read (wrap e.body) :=
  inert_wrap (notMem_of_plain e.plain).1 (notMem_of_plain e.plain).2.1 (Option.isNone_iff_eq_none.1 e.noBranch)

theorem inert_calm {x : Text} (h : calm x) : Inert BranchTag.read x := bracketed_read.opening.inert h

end BranchTag

namespace Conditional

@[reducible] def collector : Collector BranchTag Enclosed where
  read := BranchTag.read
  enclose := enclose
  push := Enclosed.push
  push_nil _ := rfl
  push_push x y e := by simp [Enclosed.push]
  enclose_char _ _ _ := rfl

/-- The texts to which an enclosing conditional pays no attention. -/
abbrev Kept (depth after : Nat) (x : Text) : Prop := collector.Kept depth after x

theorem kept_iff {a b : Nat} {x : Text} : Kept a b x ↔
    ∀ y, enclose a (scan BranchTag.read (x ++ y)) = (enclose b (scan BranchTag.read y)).map (·.push x) :=
  Iff.rfl

theorem kept_if (i : Template.IfTag) (d : Nat) : Kept d (d + 1) (wrap i.body) := by
  refine kept_iff.2 fun y => ?_
  rw [BranchTag.scan_if, enclose]

theorem kept_elseIf (e : Template.ElseIfTag) (d : Nat) : Kept (d + 1) (d + 1) (wrap e.body) := by
  refine kept_iff.2 fun y => ?_
  rw [BranchTag.scan_elseIf, enclose]
  rfl

theorem kept_else (w : Template.WordTag) (d : Nat) : Kept (d + 1) (d + 1) (wrap (w.body (text "else"))) := by
  refine kept_iff.2 fun y => ?_
  rw [BranchTag.scan_else, enclose]
  rfl

theorem kept_endif (w : Template.WordTag) (d : Nat) : Kept (d + 1) d (wrap (w.body (text "endif"))) := by
  refine kept_iff.2 fun y => ?_
  rw [BranchTag.scan_endif, enclose]

end Conditional

mutual

theorem Template.kept_shape (t : Template) {live : Bool} {ctx : RenderContext} (hq : t.Quiet live ctx)
    (d : Nat) : Conditional.Kept d d (t.shape ctx) := by
  cases t with
  | done => exact Collector.kept_nil d
  | plain t rest =>
    exact (Collector.kept_of_inert (Template.inert_plain BranchTag.bracketed_read.opening t) d).append
      (rest.kept_shape hq d)
  | expr e rest => exact (Collector.kept_of_inert (BranchTag.inert_expr e) d).append (rest.kept_shape hq.2 d)
  | choice i yes others rest =>
    exact (Conditional.kept_if i d).append ((yes.kept_shape hq.1 (d + 1)).append
      ((others.kept_shape hq.2.1 d).append (rest.kept_shape hq.2.2 d)))
  | loop f body alternative rest =>
    exact (Collector.kept_of_inert (BranchTag.inert_calm hq.1.1) d).append (rest.kept_shape hq.2.2.2 d)

theorem Branches.kept_shape (b : Branches) {live : Bool} {ctx : RenderContext} (hq : b.Quiet live ctx)
    (d : Nat) : Conditional.Kept (d + 1) d (b.shape ctx) := by
  cases b with
  | close e => exact Conditional.kept_endif e d
  | otherwise e no f =>
    exact (Conditional.kept_else e d).append ((no.kept_shape hq (d + 1)).append (Conditional.kept_endif f d))
  | elseIf e yes others =>
    exact (Conditional.kept_elseIf e d).append ((yes.kept_shape hq.1 (d + 1)).append
      (others.kept_shape hq.2 d))

end

/-- The branches behind the first one, with their texts. -/
def Branches.listed : Branches → RenderContext → List Branch
  | .close _, _ => []
  | .otherwise _ no _, ctx => [⟨none, no.shape ctx⟩]
  | .elseIf e yes others, ctx => ⟨some (trim e.test.condition.1), yes.shape ctx⟩ :: others.listed ctx

/-- The branch that applies if the first one does not. -/
def Branches.pick : Branches → RenderContext → Template
  | .close _, _ => .done
  | .otherwise _ no _, _ => no
  | .elseIf e yes others, ctx => if e.test.holds ctx then yes else others.pick ctx

theorem Branches.enclose_shape (b : Branches) {live : Bool} {ctx : RenderContext} (hq : b.Quiet live ctx)
    (u : Text) : Conditional.enclose 0 (scan BranchTag.read (b.shape ctx ++ u)) =
      some ⟨[], b.listed ctx, scan BranchTag.read u⟩ := by
  cases b with
  | close e => rw [shape, BranchTag.scan_endif, Conditional.enclose, listed]
  | otherwise e no f =>
    rw [shape, List.append_assoc, BranchTag.scan_else, Conditional.enclose, List.append_assoc,
      Conditional.kept_iff.1 (no.kept_shape hq 0), BranchTag.scan_endif, Conditional.enclose]
    simp [Conditional.Enclosed.push, Conditional.Enclosed.branch, listed]
  | elseIf e yes others =>
    rw [shape, List.append_assoc, BranchTag.scan_elseIf, Conditional.enclose, List.append_assoc,
      Conditional.kept_iff.1 (yes.kept_shape hq.1 0), others.enclose_shape hq.2]
    simp [Conditional.Enclosed.push, Conditional.Enclosed.branch, listed]

namespace Conditional

open Render

/-- A condition decides between a branch and those behind it. -/
theorem gives_choose_cons {ctx : RenderContext} (i : Template.IfTag) {x y : Text} {bs : List Branch}
    (h : Gives (choose ctx bs) y) :
    Gives (choose ctx (⟨some (trim i.condition.1), x⟩ :: bs)) (if i.holds ctx then x else y) := by
  refine (gives_valueOf ctx (trim i.condition.1)).bind ?_
  rw [Template.IfTag.holds]
  split
  · exact gives_pure x
  · exact h

theorem gives_choose (b : Branches) (ctx : RenderContext) :
    Gives (choose ctx (b.listed ctx)) ((b.pick ctx).shape ctx) := by
  cases b with
  | close e => exact gives_pure []
  | otherwise e no f => exact gives_pure (no.shape ctx)
  | elseIf e yes others =>
    have h := gives_choose_cons e.test (x := yes.shape ctx) (gives_choose others ctx)
    rwa [← apply_ite (Template.shape · ctx)] at h

end Conditional

/-- One page behind another. -/
def Template.append : Template → Template → Template
  | .done, u => u
  | .plain t rest, u => .plain t (rest.append u)
  | .expr e rest, u => .expr e (rest.append u)
  | .choice i yes others rest, u => .choice i yes others (rest.append u)
  | .loop f body alternative rest, u => .loop f body alternative (rest.append u)

/-- The branch that a conditional chooses. -/
def Template.chosen (i : IfTag) (yes : Template) (others : Branches) (ctx : RenderContext) : Template :=
  if i.holds ctx then yes else others.pick ctx

/-- The page with every outermost conditional replaced by the branch that it chooses. -/
def Template.step : Template → RenderContext → Template
  | .done, _ => .done
  | .plain t rest, ctx => .plain t (rest.step ctx)
  | .expr e rest, ctx => .expr e (rest.step ctx)
  | .choice i yes others rest, ctx => (chosen i yes others ctx).append (rest.step ctx)
  | .loop f body alternative rest, ctx => .loop f body alternative (rest.step ctx)

/-- Does a conditional look as if it chose a branch with another one? -/
def Template.nested : Template → RenderContext → Bool
  | .done, _ => false
  | .plain _ rest, ctx | .expr _ rest, ctx | .loop _ _ _ rest, ctx => rest.nested ctx
  | .choice i yes others rest, ctx =>
    Conditional.holdsConditional ((chosen i yes others ctx).shape ctx) || rest.nested ctx

section Steps

variable {ctx : RenderContext}

theorem Template.shape_append (t u : Template) : (t.append u).shape ctx = t.shape ctx ++ u.shape ctx := by
  cases t with
  | done => rfl
  | plain t rest => simp only [append, shape, rest.shape_append u, List.append_assoc]
  | expr e rest => simp only [append, shape, rest.shape_append u, List.append_assoc]
  | choice i yes others rest => simp only [append, shape, rest.shape_append u, List.append_assoc]
  | loop f body alternative rest => simp only [append, shape, rest.shape_append u, List.append_assoc]

theorem Template.reading_append (t u : Template) :
    (t.append u).reading ctx = t.reading ctx ++ u.reading ctx := by
  cases t with
  | done => rfl
  | plain t rest => simp only [append, reading, rest.reading_append u, List.append_assoc]
  | expr e rest => simp only [append, reading, rest.reading_append u, List.append_assoc]
  | choice i yes others rest => simp only [append, reading, rest.reading_append u, List.append_assoc]
  | loop f body alternative rest => simp only [append, reading, rest.reading_append u, List.append_assoc]

theorem Template.quiet_append {t u : Template} {live : Bool} (ht : t.Quiet live ctx) (hu : u.Quiet live ctx) :
    (t.append u).Quiet live ctx := by
  cases t with
  | done => exact hu
  | plain t rest => exact rest.quiet_append ht hu
  | expr e rest => exact ⟨ht.1, rest.quiet_append ht.2 hu⟩
  | choice i yes others rest => exact ⟨ht.1, ht.2.1, rest.quiet_append ht.2.2 hu⟩
  | loop f body alternative rest => exact ⟨ht.1, ht.2.1, ht.2.2.1, rest.quiet_append ht.2.2.2 hu⟩

theorem Template.within_append {t u : Template} {cap k : Nat} (ht : t.Within cap k) (hu : u.Within cap k) :
    (t.append u).Within cap k := by
  cases t with
  | done => exact hu
  | plain t rest => exact rest.within_append ht hu
  | expr e rest => exact rest.within_append ht hu
  | choice i yes others rest => exact ⟨ht.1, ht.2.1, ht.2.2.1, rest.within_append ht.2.2.2 hu⟩
  | loop f body alternative rest => exact ⟨ht.1, ht.2.1, rest.within_append ht.2.2 hu⟩

theorem Branches.reading_pick (b : Branches) : (b.pick ctx).reading ctx = b.reading ctx := by
  cases b with
  | close e => rfl
  | otherwise e no f => rfl
  | elseIf e yes others => simp only [pick, reading, apply_ite (Template.reading · ctx), others.reading_pick]

theorem Branches.quiet_pick (b : Branches) (h : b.Quiet true ctx) : (b.pick ctx).Quiet true ctx := by
  cases b with
  | close e => trivial
  | otherwise e no f => exact h
  | elseIf e yes others =>
    cases hi : e.test.holds ctx with
    | true => simpa [pick, hi] using h.1
    | false => simpa [pick, hi] using others.quiet_pick (by simpa [hi] using h.2)

theorem Branches.within_pick (b : Branches) {cap k : Nat} (h : b.Within cap k) :
    (b.pick ctx).Within cap k := by
  cases b with
  | close e => trivial
  | otherwise e no f => exact h
  | elseIf e yes others =>
    rw [pick]
    split
    · exact h.1
    · exact others.within_pick h.2

theorem Template.reading_step (t : Template) : (t.step ctx).reading ctx = t.reading ctx := by
  cases t with
  | done => rfl
  | plain t rest => simp only [step, reading, rest.reading_step]
  | expr e rest => simp only [step, reading, rest.reading_step]
  | choice i yes others rest =>
    simp only [step, chosen, reading, reading_append, apply_ite (Template.reading · ctx), others.reading_pick,
      rest.reading_step]
  | loop f body alternative rest => simp only [step, reading, rest.reading_step]

theorem Template.quiet_step (t : Template) (h : t.Quiet true ctx) : (t.step ctx).Quiet true ctx := by
  cases t with
  | done => trivial
  | plain t rest => exact rest.quiet_step h
  | expr e rest => exact ⟨h.1, rest.quiet_step h.2⟩
  | choice i yes others rest =>
    refine quiet_append ?_ (rest.quiet_step h.2.2)
    cases hi : i.holds ctx with
    | true => simpa [chosen, hi] using h.1
    | false => simpa [chosen, hi] using others.quiet_pick (by simpa [hi] using h.2.1)
  | loop f body alternative rest => exact ⟨h.1, h.2.1, h.2.2.1, rest.quiet_step h.2.2.2⟩

theorem Template.within_chosen {i : IfTag} {yes : Template} {others : Branches} {cap k : Nat}
    (hyes : yes.Within cap k) (hothers : others.Within cap k) : (chosen i yes others ctx).Within cap k := by
  rw [chosen]
  split
  · exact hyes
  · exact others.within_pick hothers

theorem Template.within_step (t : Template) {cap k : Nat} (h : t.Within cap (k + 1)) :
    (t.step ctx).Within cap k := by
  cases t with
  | done => trivial
  | plain t rest => exact rest.within_step h
  | expr e rest => exact rest.within_step h
  | choice i yes others rest => exact within_append (within_chosen h.2.1 h.2.2.1) (rest.within_step h.2.2.2)
  | loop f body alternative rest => exact ⟨h.1, h.2.1, rest.within_step h.2.2⟩

end Steps

namespace Conditional

open Render

variable {ctx : RenderContext}

/-- A text is resolved to another one, whatever follows it. -/
def Resolves (ctx : RenderContext) (x y : Text) (n : Bool) : Prop :=
  ∀ u r m, Gives (resolve ctx (parts (scan BranchTag.read u))) (r, m) →
    Gives (resolve ctx (parts (scan BranchTag.read (x ++ u)))) (y ++ r, n || m)

theorem resolves_of_inert {x : Text} (h : Inert BranchTag.read x) : Resolves ctx x x false := by
  intro u r m hu
  rw [h]
  clear h
  induction x with
  | nil => exact hu
  | cons c cs ih =>
    rw [chars_cons, List.cons_append, parts, resolve]
    exact ih.bind (gives_pure _)

theorem Resolves.append {x y x' y' : Text} {n n' : Bool} (h : Resolves ctx x y n)
    (h' : Resolves ctx x' y' n') : Resolves ctx (x ++ x') (y ++ y') (n || n') := by
  intro u r m hu
  rw [List.append_assoc, List.append_assoc, Bool.or_assoc]
  exact h _ _ _ (h' u r m hu)

theorem resolves_choice (i : Template.IfTag) {yes : Template} {others : Branches} {live live' : Bool}
    (hyes : yes.Quiet live ctx) (hothers : others.Quiet live' ctx) :
    Resolves ctx (wrap i.body ++ (yes.shape ctx ++ others.shape ctx))
      ((Template.chosen i yes others ctx).shape ctx)
      (holdsConditional ((Template.chosen i yes others ctx).shape ctx)) := by
  intro u r m hu
  have henclose : enclose 0 (scan BranchTag.read (yes.shape ctx ++ (others.shape ctx ++ u))) =
      some ⟨yes.shape ctx, others.listed ctx, scan BranchTag.read u⟩ := by
    rw [Conditional.kept_iff.1 (yes.kept_shape hyes 0), others.enclose_shape hothers]
    simp [Enclosed.push]
  have hchoose : Gives (choose ctx (⟨some (trim i.condition.1), yes.shape ctx⟩ :: others.listed ctx))
      ((Template.chosen i yes others ctx).shape ctx) := by
    have h := gives_choose_cons i (x := yes.shape ctx) (gives_choose others ctx)
    rwa [← apply_ite (Template.shape · ctx)] at h
  rw [List.append_assoc, List.append_assoc, BranchTag.scan_if, parts_enclosed _ _ henclose]
  exact hchoose.bind (hu.bind (gives_pure _))

end Conditional

theorem Template.resolves_shape (t : Template) {ctx : RenderContext} {live : Bool} (hq : t.Quiet live ctx) :
    Conditional.Resolves ctx (t.shape ctx) ((t.step ctx).shape ctx) (t.nested ctx) := by
  cases t with
  | done => exact fun u r m hu => hu
  | plain t rest =>
    exact (Conditional.resolves_of_inert (inert_plain BranchTag.bracketed_read.opening t)).append
      (rest.resolves_shape hq)
  | expr e rest =>
    exact (Conditional.resolves_of_inert (BranchTag.inert_expr e)).append (rest.resolves_shape hq.2)
  | choice i yes others rest =>
    have h := (Conditional.resolves_choice i hq.1 hq.2.1).append (rest.resolves_shape hq.2.2)
    rwa [List.append_assoc, List.append_assoc, ← shape_append] at h
  | loop f body alternative rest =>
    exact (Conditional.resolves_of_inert (BranchTag.inert_calm hq.1.1)).append (rest.resolves_shape hq.2.2.2)

namespace Conditional

open Template

theorem holdsConditional_of_suffix {t u : Text} (hu : u <:+ t) (h : holdsConditional u) :
    holdsConditional t := by
  obtain ⟨v, hv, hv'⟩ := anywhere_iff.1 h
  exact anywhere_iff.2 ⟨v, hv.trans hu, hv'⟩

theorem holdsConditional_ifWord (lead : Blanks) (gap : Gap) (t rest : Text) :
    holdsConditional (wrap (lead.1 ++ (text "if" ++ (gap.1 ++ t))) ++ rest) := by
  refine anywhere_iff.2 ⟨_, List.suffix_rfl, ?_⟩
  simp only [after?_opening_wrap, List.append_assoc, skipBlanks_append lead.2]
  rw [skipBlanks_of_solid (solid_append (by decide) _), afterWord?_append, Option.isSome_some]

theorem holdsConditional_if (i : IfTag) (rest : Text) : holdsConditional (wrap i.body ++ rest) := by
  rw [i.body_eq, List.append_assoc]
  exact holdsConditional_ifWord i.lead i.gap i.condition.1 rest

end Conditional

section Settling

variable {ctx : RenderContext} {cap : Nat}

theorem Template.within_zero (t : Template) {k : Nat} (h : Conditional.holdsConditional (t.shape ctx) = false)
    (hw : t.Within cap k) : t.Within cap 0 := by
  have htail : ∀ {x : Text} {rest : Template},
      Conditional.holdsConditional (x ++ rest.shape ctx) = false →
        Conditional.holdsConditional (rest.shape ctx) = false := by
    intro x rest h
    have := mt (Conditional.holdsConditional_of_suffix (List.suffix_append x (rest.shape ctx)))
    simpa using this (by simpa using h)
  cases t with
  | done => trivial
  | plain t rest => exact rest.within_zero (htail h) hw
  | expr e rest => exact rest.within_zero (htail h) hw
  | choice i yes others rest =>
    rw [shape, Conditional.holdsConditional_if] at h
    simp at h
  | loop f body alternative rest => exact ⟨hw.1, hw.2.1, rest.within_zero (htail h) hw.2.2⟩

theorem Template.within_zero_step (t : Template) {k : Nat} (h : t.nested ctx = false) (hw : t.Within cap k) :
    (t.step ctx).Within cap 0 := by
  cases t with
  | done => trivial
  | plain t rest => exact rest.within_zero_step h hw
  | expr e rest => exact rest.within_zero_step h hw
  | choice i yes others rest =>
    rw [nested, Bool.or_eq_false_iff] at h
    exact within_append ((chosen i yes others ctx).within_zero h.1 (within_chosen hw.2.1 hw.2.2.1))
      (rest.within_zero_step h.2 hw.2.2.2)
  | loop f body alternative rest => exact ⟨hw.1, hw.2.1, rest.within_zero_step h hw.2.2⟩

theorem Template.gives_pass (t : Template) {live : Bool} (hq : t.Quiet live ctx) :
    Render.Gives (Conditional.pass ctx (t.shape ctx)) ((t.step ctx).shape ctx, t.nested ctx) := by
  have hnil :
      Render.Gives (Conditional.resolve ctx (Conditional.parts (scan BranchTag.read []))) ([], false) := by
    rw [scan_nil, Conditional.parts]
    exact Render.gives_pure ([], false)
  have h := t.resolves_shape hq [] [] false hnil
  rwa [List.append_nil, List.append_nil, Bool.or_false] at h

/-- As many passes as conditionals nest leave a page without conditionals that means the same. -/
theorem Template.gives_passes (n : Nat) (t : Template) (hw : t.Within cap n) (hq : t.Quiet true ctx) :
    ∃ u : Template, Render.Gives (Conditional.passes ctx n (t.shape ctx)) (u.shape ctx) ∧
      u.Within cap 0 ∧ u.Quiet true ctx ∧ u.reading ctx = t.reading ctx := by
  induction n generalizing t with
  | zero => exact ⟨t, Render.gives_pure _, hw, hq, rfl⟩
  | succ n ih =>
    have hpass := t.gives_pass hq
    cases hn : t.nested ctx with
    | true =>
      obtain ⟨u, hu, hwu, hqu, hread⟩ := ih (t.step ctx) (t.within_step hw) (t.quiet_step hq)
      exact ⟨u, (hn ▸ hpass).bind hu, hwu, hqu, hread.trans t.reading_step⟩
    | false =>
      exact ⟨t.step ctx, (hn ▸ hpass).bind (Render.gives_pure _), t.within_zero_step hn hw, t.quiet_step hq,
        t.reading_step⟩

end Settling

end PageTemplate
