import PageTemplate.Proofs.Deciding
import PageTemplate.Proofs.Reading
import PageTemplate.Proofs.Visibility
set_option autoImplicit false
/-!
What stands in a branch that is not chosen makes no difference, its loops aside. Pages that agree once such
branches are emptied render alike, with the same calls and reports, where their conditionals nest no deeper than
they are resolved, where no tag of a conditional comes out of a loop or out of texts that come to stand side by
side, and where the first pass does not give the page back.
-/
namespace PageTemplate

mutual

/-- How deep conditionals nest in branches that are chosen. -/
def Layout.levels (ctx : RenderContext) : Layout → Nat
  | .done => 0
  | .text _ rest | .loop _ _ _ _ _ rest => rest.levels ctx
  | .choice _ condition yes others rest =>
    max (1 + if Conditional.applies ctx condition then yes.levels ctx else others.levels ctx) (rest.levels ctx)

def Layout.Others.levels (ctx : RenderContext) : Layout.Others → Nat
  | .close _ => 0
  | .branch _ condition body others =>
    if Conditional.applies ctx condition then body.levels ctx else others.levels ctx

end

namespace Layout

variable {ctx : RenderContext}

theorem levels_choice (tag condition : Text) (yes : Layout) (others : Others) (rest : Layout) :
    (Layout.choice tag condition yes others rest).levels ctx =
      max (1 + (Others.branch tag (some condition) yes others).levels ctx) (rest.levels ctx) := rfl

theorem levels_append (p u : Layout) : (p.append u).levels ctx = max (p.levels ctx) (u.levels ctx) := by
  cases p with
  | done => simp [append, levels]
  | text t rest => simp only [append, levels, rest.levels_append]
  | choice tag condition yes others rest => simp only [append, levels, rest.levels_append, Nat.max_assoc]
  | loop tag names collection body ending rest => simp only [append, levels, rest.levels_append]

theorem Others.levels_pick (o : Others) : (o.pick ctx).levels ctx = o.levels ctx := by
  cases o with
  | close tag => rfl
  | branch tag condition body others =>
    by_cases h : Conditional.applies ctx condition
    · simp only [pick, levels, h, if_true]
    · simp only [pick, levels, h, Bool.false_eq_true, if_false, others.levels_pick]

variable (ctx) in
theorem levels_step (p : Layout) : (p.step ctx).levels ctx ≤ p.levels ctx - 1 := by
  cases p with
  | done => exact Nat.le_refl 0
  | text t rest => exact rest.levels_step
  | choice tag condition yes others rest =>
    have hrest := rest.levels_step
    rw [step, levels_append, Others.levels_pick, levels_choice]
    omega
  | loop tag names collection body ending rest => exact rest.levels_step

theorem pruned_of_levels (p : Layout) (h : p.levels ctx = 0) : p.pruned ctx = p := by
  cases p with
  | done => rfl
  | text t rest => rw [pruned, rest.pruned_of_levels h]
  | choice tag condition yes others rest =>
    rw [levels_choice] at h
    omega
  | loop tag names collection body ending rest => rw [pruned, rest.pruned_of_levels h]

theorem pruned_append (p u : Layout) : (p.append u).pruned ctx = (p.pruned ctx).append (u.pruned ctx) := by
  cases p with
  | done => rfl
  | text t rest => simp only [append, pruned, rest.pruned_append]
  | choice tag condition yes others rest =>
    by_cases h : Conditional.applies ctx condition
    · simp only [append, pruned, h, if_true, rest.pruned_append]
    · simp only [append, pruned, h, Bool.false_eq_true, if_false, rest.pruned_append]
  | loop tag names collection body ending rest => simp only [append, pruned, rest.pruned_append]

theorem Others.pick_pruned (o : Others) : (o.pruned ctx).pick ctx = (o.pick ctx).pruned ctx := by
  cases o with
  | close tag => rfl
  | branch tag condition body others =>
    by_cases h : Conditional.applies ctx condition
    · simp only [pruned, pick, h, if_true]
    · simp only [pruned, pick, h, Bool.false_eq_true, if_false, others.pick_pruned]

theorem Others.weigh_pruned (o : Others) : (o.pruned ctx).weigh ctx = o.weigh ctx := by
  cases o with
  | close tag => rfl
  | branch tag condition body others =>
    cases condition with
    | none => rfl
    | some c =>
      by_cases h : Conditional.applies ctx c
      · simp only [pruned, weigh, h, if_true]
      · simp only [pruned, weigh, h, Bool.false_eq_true, if_false, others.weigh_pruned]

variable (ctx) in
theorem pruned_choice (tag condition : Text) (yes : Layout) (others : Others) (rest : Layout) :
    ∃ yes' others', (Layout.choice tag condition yes others rest).pruned ctx =
        .choice tag condition yes' others' (rest.pruned ctx) ∧
      Others.branch tag (some condition) yes' others' =
        (Others.branch tag (some condition) yes others).pruned ctx := by
  by_cases h : Conditional.applies ctx condition
  · exact ⟨yes.pruned ctx, others.emptied, by rw [pruned, if_pos h], by rw [Others.pruned, if_pos h]⟩
  · exact ⟨yes.onlyLoops, others.pruned ctx, by rw [pruned, if_neg h], by rw [Others.pruned, if_neg h]⟩

theorem weigh_pruned (p : Layout) : (p.pruned ctx).weigh ctx = p.weigh ctx := by
  cases p with
  | done => rfl
  | text t rest => exact rest.weigh_pruned
  | choice tag condition yes others rest =>
    obtain ⟨yes', others', hp, ho⟩ := pruned_choice ctx tag condition yes others rest
    rw [hp, weigh, weigh, ho, Others.weigh_pruned, rest.weigh_pruned]
  | loop tag names collection body ending rest => exact rest.weigh_pruned

theorem step_pruned (p : Layout) : (p.pruned ctx).step ctx = (p.step ctx).pruned ctx := by
  cases p with
  | done => rfl
  | text t rest => simp only [pruned, step, rest.step_pruned]
  | choice tag condition yes others rest =>
    obtain ⟨yes', others', hp, ho⟩ := pruned_choice ctx tag condition yes others rest
    rw [hp, step, step, ho, Others.pick_pruned, rest.step_pruned, pruned_append]
  | loop tag names collection body ending rest => simp only [pruned, step, rest.step_pruned]

end Layout

namespace Tag

theorem isSome_afterWord?_append {word t : Text} (h : (afterWord? word t).isSome) (y : Text) :
    (afterWord? word (t ++ y)).isSome := by
  simp only [afterWord?, Option.bind_eq_bind] at h ⊢
  cases ha : after? word t with
  | none => simp [ha] at h
  | some r =>
    rw [ha, Option.bind_some] at h
    obtain rfl := after?_eq_some_iff.1 ha
    rw [List.append_assoc, after?_append, Option.bind_some]
    cases r with
    | nil => simp [startsBlank] at h
    | cons c r =>
      by_cases hc : isBlank c
      · simp [startsBlank, hc]
      · simp [startsBlank, hc] at h

end Tag

namespace Conditional

/-- The tags that open conditionals look like that, whatever stands behind them. -/
def Opens (ps : List (Piece BranchTag)) : Prop :=
  ∀ c s, .tag (.ifTag c) s ∈ ps → ∀ u, holdsConditional (s ++ u)

theorem Opens.split {ps qs : List (Piece BranchTag)} (h : Opens (ps ++ qs)) : Opens ps ∧ Opens qs :=
  ⟨fun c s hs => h c s (List.mem_append_left qs hs), fun c s hs => h c s (List.mem_append_right ps hs)⟩

theorem Opens.tail {a : Piece BranchTag} {ps : List (Piece BranchTag)} (h : Opens (a :: ps)) : Opens ps :=
  fun c s hs => h c s (List.mem_cons_of_mem a hs)

theorem isSome_afterWord?_of_ofBody? {body c : Text} (h : BranchTag.ofBody? body = some (.ifTag c)) :
    (Tag.afterWord? (text "if") (skipBlanks body)).isSome := by
  unfold BranchTag.ofBody? at h
  split at h
  · simp at h
  · split at h
    · simp at h
    · split at h
      · next c' hc =>
        obtain ⟨r, hr, -⟩ := Option.map_eq_some_iff.1 hc
        rw [hr, Option.isSome_some]
      · obtain ⟨b, -, hb⟩ := Option.map_eq_some_iff.1 h
        cases hb

theorem opens_scan (t : Text) : Opens (Piece.scan BranchTag.read t) := by
  intro c s hs u
  obtain ⟨body, rest, hb, rfl, hread⟩ := BranchTag.bracketed_read.mem_scan hs
  have hbody : BranchTag.ofBody? body = some (.ifTag c) := by
    rw [← List.append_nil (Tag.wrap body), BranchTag.read_wrap [] hb, Option.map_eq_some_iff] at hread
    obtain ⟨a, ha, he⟩ := hread
    rw [ha, (Prod.mk.inj he).1]
  have hword := isSome_afterWord?_of_ofBody? hbody
  have hne : (skipBlanks body).isEmpty = false := by
    cases hskip : skipBlanks body with
    | nil => simp [hskip, Tag.afterWord?, after?, text] at hword
    | cons d ds => rfl
  have hskip : ∀ y, skipBlanks (body ++ y) = skipBlanks body ++ y := by
    intro y
    unfold skipBlanks at hne ⊢
    rw [List.dropWhile_append, hne, if_neg Bool.false_ne_true]
  refine Tag.anywhere_iff.2 ⟨_, List.suffix_rfl, ?_⟩
  simp only [Tag.after?_opening_wrap, hskip]
  exact Tag.isSome_afterWord?_append hword _

end Conditional

namespace Layout

open Conditional

variable {ctx : RenderContext}

theorem Others.opens_pick (o : Others) (h : Opens o.branchPieces) : Opens (o.pick ctx).branchPieces := by
  cases o with
  | close tag => exact fun c s hs => by cases hs
  | branch tag condition body others =>
    have hparts := h.tail.split
    rw [pick]
    split
    · exact hparts.1
    · exact others.opens_pick hparts.2

/-- A page with a conditional looks like one, also with the branches emptied that are not chosen. -/
theorem holdsConditional_of_levels (p : Layout) (h : Opens p.branchPieces) (hl : p.levels ctx ≠ 0) :
    holdsConditional p.print ∧ holdsConditional (p.pruned ctx).print := by
  cases p with
  | done => exact absurd rfl hl
  | text t rest =>
    have hrest := rest.holdsConditional_of_levels h.split.2 hl
    exact hrest.imp (holdsConditional_of_suffix (List.suffix_append _ _))
      (holdsConditional_of_suffix (List.suffix_append _ _))
  | choice tag condition yes others rest =>
    obtain ⟨yes', others', hp, -⟩ := pruned_choice ctx tag condition yes others rest
    have htag := h condition tag List.mem_cons_self
    exact ⟨htag _, by rw [hp]; exact htag _⟩
  | loop tag names collection body ending rest =>
    have hrest := rest.holdsConditional_of_levels h.split.2 hl
    have hsuffix : ∀ u : Layout, u.print <:+ (Layout.loop tag names collection body ending u).print := by
      intro u
      simp only [print, ← List.append_assoc]
      exact List.suffix_append _ _
    exact hrest.imp (holdsConditional_of_suffix (hsuffix rest))
      (holdsConditional_of_suffix (hsuffix (rest.pruned ctx)))

variable (ctx) in
theorem holdsConditional_pruned (p : Layout) (h : Opens p.branchPieces) :
    holdsConditional (p.pruned ctx).print = holdsConditional p.print := by
  by_cases hl : p.levels ctx = 0
  · rw [p.pruned_of_levels hl]
  · obtain ⟨hp, hpruned⟩ := p.holdsConditional_of_levels h hl
    rw [hp, hpruned]

theorem opens_choice {tag condition : Text} {yes : Layout} {others : Others} {rest : Layout}
    (h : Opens (Layout.choice tag condition yes others rest).branchPieces) :
    Opens (Others.branch tag (some condition) yes others).branchPieces ∧ Opens rest.branchPieces := by
  obtain ⟨hyes, htail⟩ := h.tail.split
  obtain ⟨hothers, hrest⟩ := htail.split
  refine ⟨fun c s hs => ?_, hrest⟩
  rcases List.mem_cons.1 hs with heq | hs
  · cases heq
  · rcases List.mem_append.1 hs with hs | hs
    · exact hyes c s hs
    · exact hothers c s hs

theorem nested_pruned (p : Layout) (h : Opens p.branchPieces) : (p.pruned ctx).nested ctx = p.nested ctx := by
  cases p with
  | done => rfl
  | text t rest => exact rest.nested_pruned h.split.2
  | choice tag condition yes others rest =>
    obtain ⟨yes', others', hp, ho⟩ := pruned_choice ctx tag condition yes others rest
    obtain ⟨hbranch, hrest⟩ := opens_choice h
    have hpick := ((Others.branch tag (some condition) yes others).pick ctx).holdsConditional_pruned ctx
      (Others.opens_pick _ hbranch)
    rw [hp, nested, nested, ho, Others.pick_pruned, hpick, rest.nested_pruned hrest]
  | loop tag names collection body ending rest => exact rest.nested_pruned h.split.2

/-- Where no branch that is chosen looks as if it held a conditional, none does. -/
theorem levels_step_of_nested (p : Layout) (h : Opens p.branchPieces) (hn : p.nested ctx = false) :
    (p.step ctx).levels ctx = 0 := by
  cases p with
  | done => rfl
  | text t rest => exact rest.levels_step_of_nested h.split.2 hn
  | choice tag condition yes others rest =>
    obtain ⟨hbranch, hrest⟩ := opens_choice h
    rw [nested, Bool.or_eq_false_iff] at hn
    have hpick : ((Others.branch tag (some condition) yes others).pick ctx).levels ctx = 0 := by
      refine Decidable.byContradiction fun hl => ?_
      have := holdsConditional_of_levels _ (Others.opens_pick _ hbranch) hl
      simp [hn.1] at this
    rw [step, levels_append, hpick, rest.levels_step_of_nested hrest hn.2]
    rfl
  | loop tag names collection body ending rest => exact rest.levels_step_of_nested h.split.2 hn

/-- Resolving the conditionals does not depend on what stands in branches that are not chosen. -/
theorem settle_pruned (n : Nat) (p : Layout) (hl : p.levels ctx ≤ n) (hp : p.Legible ctx n) :
    (p.pruned ctx).settle ctx n = p.settle ctx n := by
  induction n generalizing p with
  | zero => rw [p.pruned_of_levels (by omega)]
  | succ n ih =>
    have hopens : Opens p.branchPieces := hp.1 ▸ opens_scan p.print
    have hstep := p.levels_step ctx
    rw [settle, settle, weigh_pruned, p.nested_pruned hopens, step_pruned]
    cases hn : p.nested ctx with
    | true => simp only [if_true, ih _ (by omega) (hp.2 hn)]
    -- no conditional is left, so nothing is left to prune
    | false => simp only [(p.step ctx).pruned_of_levels (p.levels_step_of_nested hopens hn)]

end Layout

section Expanding

open Render

variable (render : Renderer) (ctx : RenderContext)

mutual

theorem Layout.levels_expand (p : Layout) : Ensures (p.expand render ctx) fun x => x.levels ctx = p.levels ctx := by
  cases p with
  | done => exact ensures_pure rfl
  | text t rest => exact rest.levels_expand.bind fun x hx => ensures_pure hx
  | choice tag condition yes others rest =>
    refine yes.levels_expand.bind fun y hy => others.levels_expand.bind fun o ho =>
      rest.levels_expand.bind fun x hx => ensures_pure ?_
    rw [Layout.levels, Layout.levels, hy, ho, hx]
  | loop tag names collection body ending rest =>
    exact (ensures_true _).bind fun t _ => rest.levels_expand.bind fun x hx => ensures_pure hx

theorem Layout.Others.levels_expand (o : Layout.Others) :
    Ensures (o.expand render ctx) fun x => x.levels ctx = o.levels ctx := by
  cases o with
  | close tag => exact ensures_pure rfl
  | branch tag condition body others =>
    refine body.levels_expand.bind fun y hy => others.levels_expand.bind fun x hx => ensures_pure ?_
    rw [Layout.Others.levels, Layout.Others.levels, hy, hx]

end

/-- What is asked of a result can be decided if there is one. -/
instance decidableOfResult {ε α : Type} (o : Except ε α) (P : α → Prop) [DecidablePred P] :
    Decidable (∀ a, o = .ok a → P a) :=
  match o with
  | .ok a => decidable_of_iff (P a) ⟨fun h _ hb => Except.ok.inj hb ▸ h, fun h => h a rfl⟩
  | .error _ => .isTrue nofun

namespace Layout

variable {render ctx}

/-- What a pass makes of a page once its loops are expanded. -/
def finish (ctx : RenderContext) (x : Layout) : Render Text := do
  let t ← x.settle ctx ctx.maxConditionalPasses.toNat
  let t ← resolveCalls ctx t
  substituteVariables ctx t

/-- A page on which loops and conditionals do what its layout says, in the first pass of a rendering. -/
structure Regular (p : Pipeline) (render : Renderer) (ctx : RenderContext) (s : RenderState) (x : Layout) : Prop where
  loops : x.Loops
  nesting : x.levels ctx ≤ ctx.maxConditionalPasses.toNat
  legible : ∀ y, ((x.expand render ctx).runFrom s).1 = .ok y → y.Legible ctx ctx.maxConditionalPasses.toNat
  changes : ((p.runOnce render ctx x.print).runFrom s).1 ≠ .ok x.print

theorem Regular.runOnce_print {maxPasses : Int} {s : RenderState} {x : Layout}
    (h : x.Regular (.standard maxPasses) render ctx s) :
    ((Pipeline.standard maxPasses).runOnce render ctx x.print).runFrom s =
      (((x.pruned ctx).expand render ctx) >>= fun y => (y.pruned ctx).finish ctx).runFrom s := by
  have honce : (Pipeline.standard maxPasses).runOnce render ctx x.print =
      x.expand render ctx >>= fun y => resolveConditionals ctx y.print >>= resolveCalls ctx >>=
        substituteVariables ctx := by
    simp [Pipeline.runOnce, Pipeline.standard, Phase.standard, Phase.apply, expandLoops_print render ctx h.loops]
  have hresolve : ∀ y, ((x.expand render ctx).runFrom s).1 = .ok y →
      (resolveConditionals ctx y.print >>= resolveCalls ctx >>= substituteVariables ctx) =
        (y.pruned ctx).finish ctx := by
    intro y hy
    have hlegible := h.legible y hy
    have hlevels : y.levels ctx ≤ ctx.maxConditionalPasses.toNat :=
      (x.levels_expand render ctx s y hy).symm ▸ h.nesting
    rw [finish, settle_pruned _ y hlevels hlegible, resolveConditionals, passes_print ctx _ hlegible, bind_assoc]
  rw [honce, runFrom_bind_congr hresolve, x.expand_pruned render ctx fun y => y.finish ctx]

end Layout

namespace Pipeline

/-- Do two texts differ at most in what stands in branches that are not chosen, their loops aside? -/
def SameChosen (p : Pipeline) (depth : Nat) (ctx : RenderContext) (s : RenderState) (t u : Text) : Prop :=
  t = u ∨ ∃ x y : Layout, t = x.print ∧ u = y.print ∧ x.pruned ctx = y.pruned ctx ∧
    x.Regular p (p.execute depth) ctx s ∧ y.Regular p (p.execute depth) ctx s

/-- A page may be compared with what is left of it once such branches are emptied. -/
theorem sameChosen_pruned {p : Pipeline} {depth : Nat} {ctx : RenderContext} {s : RenderState} {x : Layout}
    (h : x.Regular p (p.execute depth) ctx s) (h' : (x.pruned ctx).Regular p (p.execute depth) ctx s) :
    p.SameChosen depth ctx s x.print (x.pruned ctx).print :=
  .inr ⟨x, x.pruned ctx, rfl, rfl, (x.pruned_pruned ctx).symm, h, h'⟩

theorem SameChosen.execute_eq {maxPasses : Int} (hpasses : 0 ≤ maxPasses) {depth : Nat} {ctx : RenderContext}
    {s : RenderState} {t u : Text} (h : SameChosen (standard maxPasses) depth ctx s t u) :
    ((standard maxPasses).execute (depth + 1) ctx t).runFrom s =
      ((standard maxPasses).execute (depth + 1) ctx u).runFrom s := by
  obtain rfl | ⟨x, y, rfl, rfl, hsame, hx, hy⟩ := h
  · rfl
  obtain ⟨n, hlimit⟩ : ∃ n, (standard maxPasses).maxPasses.toNat = n + 1 := by
    by_cases hzero : maxPasses = 0
    · exact ⟨9, by rw [hzero]; rfl⟩
    · exact ⟨maxPasses.toNat - 1, by rw [Template.maxPasses_standard hzero]; omega⟩
  have honce : ((standard maxPasses).runOnce ((standard maxPasses).execute depth) ctx x.print).runFrom s =
      ((standard maxPasses).runOnce ((standard maxPasses).execute depth) ctx y.print).runFrom s := by
    rw [hx.runOnce_print, hy.runOnce_print, hsame]
  -- neither page comes back, so both go on with the same text or stop with it
  have hxne := hx.changes
  have hyne := hy.changes
  rw [execute, execute, hlimit, repeatPasses, repeatPasses]
  rw [honce] at hxne
  rcases hrun : ((standard maxPasses).runOnce ((standard maxPasses).execute depth) ctx y.print).runFrom s with
    ⟨_ | next, s'⟩
  · rw [runFrom_bind_of_error _ hrun, runFrom_bind_of_error _ (honce.trans hrun)]
  · rw [hrun] at hxne hyne
    have hx' : next ≠ x.print := fun h => hxne (h ▸ rfl)
    have hy' : next ≠ y.print := fun h => hyne (h ▸ rfl)
    rw [runFrom_bind_of_ok _ hrun, runFrom_bind_of_ok _ (honce.trans hrun), decide_eq_false hx',
      decide_eq_false hy']

/-- Execution in which the text of every rendering, of the page and of the bodies of loops, may be edited
before its first pass. -/
def executeEdited (p : Pipeline) (edit : Nat → RenderContext → RenderState → Text → Text) :
    Nat → RenderContext → Text → Render Text
  | 0, _, _ => Render.giveUp
  | depth + 1, ctx, t => do
    let s ← get
    p.repeatPasses (p.executeEdited edit depth) ctx p.maxPasses.toNat (edit depth ctx s t)

/-- Edits of what stands in branches that are not chosen, their loops aside, change nothing: not the text of the
page, and neither calls nor reports. -/
theorem executeEdited_eq {maxPasses : Int} (hpasses : 0 ≤ maxPasses)
    (edit : Nat → RenderContext → RenderState → Text → Text)
    (hedit : ∀ depth ctx s t, SameChosen (standard maxPasses) depth ctx s t (edit depth ctx s t))
    (depth : Nat) (ctx : RenderContext) (t : Text) :
    (standard maxPasses).executeEdited edit depth ctx t = (standard maxPasses).execute depth ctx t := by
  induction depth generalizing ctx t with
  | zero => rfl
  | succ depth ih =>
    have hrender : (standard maxPasses).executeEdited edit depth = (standard maxPasses).execute depth :=
      funext fun ctx => funext fun t => ih ctx t
    refine ext fun s => ?_
    rw [executeEdited, hrender, runFrom_bind_of_ok _ (runFrom_get s), (hedit depth ctx s t).execute_eq hpasses,
      execute]

section Samples

/-- A call under a condition, with a loop in front of it. -/
def guardedCall : Layout :=
  .choice (text "\x7b\x7bif a\x7d\x7d") (text "a")
    (.loop (text "\x7b\x7bfor b in [a]\x7d\x7d") [text "b"] (text "[a]") (.text (text "\x7b\x7bb\x7d\x7d") .done)
      (.close (text "\x7b\x7bendfor\x7d\x7d")) (.text (text "\x7b\x7buser: f(a)\x7d\x7d") .done))
    (.close (text "\x7b\x7bendif\x7d\x7d")) .done

def guardedPage : Text :=
  text "\x7b\x7bfor a in [0, 1]\x7d\x7d" ++ (guardedCall.print ++ text "\x7b\x7bendfor\x7d\x7d")

/-- The first iteration, in which the branch with the call is not chosen. -/
def firstIteration : RenderContext := bareContext.bind (Loop.bindings [text "a"] 2 0 (.nat 0) (.nat 0))

open Classical in
/-- Leaves out the call in the first iteration. -/
noncomputable def skipGuarded (depth : Nat) (ctx : RenderContext) (s : RenderState) (t : Text) : Text :=
  if depth = 1 ∧ ctx = firstIteration ∧ s = echoing ∧ t = guardedCall.print then
    (guardedCall.pruned firstIteration).print
  else t

theorem regular_guardedCall :
    guardedCall.Regular (standard 10) ((standard 10).execute 1) firstIteration echoing ∧
      (guardedCall.pruned firstIteration).Regular (standard 10) ((standard 10).execute 1) firstIteration echoing := by
  refine ⟨⟨?_, ?_, ?_, ?_⟩, ⟨?_, ?_, ?_, ?_⟩⟩ <;> decide +kernel

theorem skipGuarded_guardedCall :
    skipGuarded 1 firstIteration echoing guardedCall.print = (guardedCall.pruned firstIteration).print :=
  if_pos ⟨rfl, rfl, rfl, rfl⟩

theorem executeEdited_eq_guarded :
    skipGuarded 1 firstIteration echoing guardedCall.print ≠ guardedCall.print ∧
      (standard 10).executeEdited skipGuarded 3 bareContext guardedPage =
        (standard 10).execute 3 bareContext guardedPage := by
  refine ⟨by rw [skipGuarded_guardedCall]; decide +kernel, ?_⟩
  refine executeEdited_eq (show (0 : Int) ≤ 10 by decide) skipGuarded (fun depth ctx s t => ?_) 3 bareContext
    guardedPage
  by_cases h : depth = 1 ∧ ctx = firstIteration ∧ s = echoing ∧ t = guardedCall.print
  · obtain ⟨rfl, rfl, rfl, rfl⟩ := h
    rw [skipGuarded_guardedCall]
    exact sameChosen_pruned regular_guardedCall.1 regular_guardedCall.2
  · rw [skipGuarded, if_neg h]
    exact .inl rfl

/-- How many calls a page makes of a function that always returns the same. -/
def callsWith (result : Value) (cap : Int) (vars : Entries) (t : Text) : Nat :=
  (((standard 10).execute 3 ⟨vars, ⟨0.5, 0, 1.0⟩, cap, 0⟩ t).runFrom
    (.start (some ⟨[(text "f", .function 0 fun _ _ => .ok result)], []⟩))).2.calls.length

/-- It does make a difference whether such a branch is empty where it holds a loop, where chosen branches nest
deeper than passes go, where a loop shows a tag of a conditional, where one comes out of the texts around a tag,
and where the first pass gives the page back. -/
theorem executeEdited_eq_limits :
    let call := text "\x7b\x7buser: f()\x7d\x7d"
    let yes := text "\x7b\x7bif 1\x7d\x7d"
    let no := text "\x7b\x7bif 0\x7d\x7d"
    let close := text "\x7b\x7bendif\x7d\x7d"
    let loop := text "\x7b\x7bfor a in xs\x7d\x7d"
    let item := text "\x7b\x7ba\x7d\x7d"
    let endLoop := text "\x7b\x7bendfor\x7d\x7d"
    let one : Entries := [(.str (text "xs"), .list [.nat 1])]
    let opened : Entries := [(.str (text "xs"), .list [.str yes])]
    let again : Value := .str (call ++ no ++ text "X" ++ close)
    let lent := text "\x7b" ++ yes ++ text "\x7bif 1\x7d\x7d" ++ close
    (callsWith .null 20 one (no ++ loop ++ call ++ endLoop ++ close) = 1 ∧
      callsWith .null 20 one (no ++ close) = 0) ∧
    (callsWith .null 1 [] (yes ++ no ++ call ++ close ++ close) = 1 ∧
      callsWith .null 1 [] (yes ++ no ++ close ++ close) = 0) ∧
    (callsWith .null 20 opened (loop ++ item ++ endLoop ++ no ++ call ++ close) = 1 ∧
      callsWith .null 20 opened (loop ++ item ++ endLoop ++ no ++ close) = 0) ∧
    (callsWith .null 20 [] (lent ++ yes ++ no ++ call ++ close ++ close) = 1 ∧
      callsWith .null 20 [] (lent ++ yes ++ no ++ close ++ close) = 0) ∧
    (callsWith again 20 [] (call ++ no ++ text "X" ++ close) = 1 ∧
      callsWith again 20 [] (call ++ no ++ close) = 2) := by
  decide +kernel

end Samples

end Pipeline

end Expanding

end PageTemplate
