import PageTemplate.Proofs.Composition
import PageTemplate.Proofs.Reading
import PageTemplate.Proofs.Untagged
set_option autoImplicit false
/-!
When rendering ends. The passes of one rendering always end, whatever they are given for the bodies of
loops, so that only renderings inside renderings can go on for ever: rendering ends, with a text or at a number
with too many digits, if and only if the chains of renderings that are started one inside the other are bounded.
-/
namespace PageTemplate

open Render

/-- A rendering that is asked for. -/
structure RenderCall where
  ctx : RenderContext
  text : Text
  state : RenderState

def RenderCall.run (c : RenderCall) (render : Renderer) : Except Halt Text × RenderState :=
  (render c.ctx c.text).runFrom c.state

/-- A run that may ask for renderings and goes on with what they give. -/
inductive Script (α : Type) where
  | done (a : α) (s : RenderState)
  | overlong (s : RenderState)
  | ask (c : RenderCall) (next : Text → RenderState → Script α)

namespace Script

variable {α β : Type}

def run (render : Renderer) : Script α → Except Halt α × RenderState
  | done a s => (.ok a, s)
  | overlong s => (.error (.fault .tooManyDigits), s)
  | ask c next =>
    match c.run render with
    | (.ok t, s) => (next t s).run render
    | (.error h, s) => (.error h, s)

def andThen (f : α → RenderState → Script β) : Script α → Script β
  | done a s => f a s
  | overlong s => overlong s
  | ask c next => ask c fun t s => (next t s).andThen f

theorem run_andThen (f : α → RenderState → Script β) (p : Script α) (render : Renderer) :
    (p.andThen f).run render =
      match p.run render with
      | (.ok a, s) => (f a s).run render
      | (.error h, s) => (.error h, s) := by
  induction p with
  | done a s => rfl
  | overlong s => rfl
  | ask c next ih =>
    rw [andThen, run, run]
    rcases c.run render with ⟨_ | t, s⟩
    · rfl
    · exact ih t s

end Script

/-- What a step does with a renderer is to ask for renderings, one after the other. -/
def Scripted {α : Type} (act : Renderer → Render α) : Prop :=
  ∀ s, ∃ p : Script α, ∀ render, (act render).runFrom s = p.run render

section Scripts

variable {α β : Type}

theorem scripted_of_total {r : Render α} (h : Total r) : Scripted fun _ => r := by
  intro s
  obtain ⟨a, s', hr⟩ := h s
  exact ⟨.done a s', fun _ => hr⟩

theorem scripted_render (ctx : RenderContext) (t : Text) : Scripted fun render => render ctx t := by
  intro s
  refine ⟨.ask ⟨ctx, t, s⟩ .done, fun render => ?_⟩
  rw [Script.run, RenderCall.run]
  rcases (render ctx t).runFrom s with ⟨_ | a, s'⟩ <;> rfl

theorem Scripted.bind {act : Renderer → Render α} {f : α → Renderer → Render β} (h : Scripted act)
    (hf : ∀ a, Scripted (f a)) : Scripted fun render => act render >>= fun a => f a render := by
  intro s
  obtain ⟨p, hp⟩ := h s
  refine ⟨p.andThen fun a s' => (hf a s').choose, fun render => ?_⟩
  rw [runFrom_bind, hp, Script.run_andThen]
  rcases p.run render with ⟨_ | a, s'⟩
  · rfl
  · exact (hf a s').choose_spec render

theorem Composed.scripted {act : Renderer → Render α} (h : Composed act) : Scripted act := by
  induction h with
  | pure a => exact scripted_of_total (total_pure a)
  | bind _ _ ih ihf => exact ih.bind ihf
  | overlong => exact fun s => ⟨.overlong s, fun _ => rfl⟩
  | report ns => exact scripted_of_total (total_report ns)
  | known name => exact scripted_of_total (total_known name)
  | call? name args => exact scripted_of_total (total_call? name args)
  | render ctx t => exact scripted_render ctx t

end Scripts

/-- The renderer that stops at a call, leaving a given state. -/
noncomputable def haltAt (c : RenderCall) (s : RenderState) (render : Renderer) : Renderer :=
  open Classical in
  fun ctx t s' => if (⟨ctx, t, s'⟩ : RenderCall) = c then (.error .tooDeep, s) else render ctx t s'

theorem run_haltAt_self (c : RenderCall) (s : RenderState) (render : Renderer) :
    c.run (haltAt c s render) = (.error .tooDeep, s) := if_pos rfl

theorem run_haltAt_of_ne {c d : RenderCall} (h : d ≠ c) (s : RenderState) (render : Renderer) :
    d.run (haltAt c s render) = d.run render := if_neg h

/-- A renderer that ends as another one does, wherever that one ends. -/
def Extends (render render' : Renderer) : Prop :=
  ∀ c : RenderCall, (c.run render).1 ≠ .error .tooDeep → c.run render' = c.run render

namespace Script

variable {α : Type} {render render' : Renderer}

/-- The run comes to a call: if it stops there, the run is over. -/
def Reaches (p : Script α) (render : Renderer) (c : RenderCall) : Prop :=
  ∀ s, p.run (haltAt c s render) = (.error .tooDeep, s)

theorem not_reaches_done {a : α} {s : RenderState} {c : RenderCall} : ¬ (done a s).Reaches render c :=
  fun h => nomatch h s

theorem not_reaches_overlong {s : RenderState} {c : RenderCall} : ¬ (overlong s : Script α).Reaches render c :=
  fun h => nomatch h s

theorem run_of_extends (h : Extends render render') (p : Script α) (hp : (p.run render).1 ≠ .error .tooDeep) :
    p.run render' = p.run render := by
  induction p with
  | done a s => rfl
  | overlong s => rfl
  | ask c next ih =>
    rw [run] at hp
    rcases hrun : c.run render with ⟨e | t, s'⟩
    · simp only [hrun] at hp
      have hdeep : e ≠ .tooDeep := fun he => hp (congrArg Except.error he)
      have hc := h c (by rw [hrun]; exact fun he => hdeep (Except.error.inj he))
      rw [run, run, hc, hrun]
    · simp only [hrun] at hp
      have hc := h c (by rw [hrun]; nofun)
      rw [run, run, hc, hrun]
      exact ih t s' hp

/-- A run that gives up comes to a call that gives up. -/
theorem reaches_of_run_tooDeep (p : Script α) (h : (p.run render).1 = .error .tooDeep) :
    ∃ c, p.Reaches render c ∧ (c.run render).1 = .error .tooDeep := by
  induction p with
  | done a s => cases h
  | overlong s => cases h
  | ask d next ih =>
    rw [run] at h
    rcases hd : d.run render with ⟨e | t, s'⟩
    · simp only [hd] at h
      refine ⟨d, fun s => ?_, by rw [hd, Except.error.inj h]⟩
      rw [run, run_haltAt_self]
    · simp only [hd] at h
      obtain ⟨c, hc, hdeep⟩ := ih t s' h
      refine ⟨c, fun s => ?_, hdeep⟩
      have hne : d ≠ c := by
        rintro rfl
        rw [hd] at hdeep
        cases hdeep
      rw [run, run_haltAt_of_ne hne, hd]
      exact hc s

/-- Where a run comes to a call, another one with a renderer that gives up more often gives up there or before. -/
theorem run_tooDeep_of_reaches (h : Extends render render') (p : Script α) {c : RenderCall}
    (hp : p.Reaches render' c) (hc : (c.run render).1 = .error .tooDeep) : (p.run render).1 = .error .tooDeep := by
  induction p with
  | done a s => exact absurd hp not_reaches_done
  | overlong s => exact absurd hp not_reaches_overlong
  | ask d next ih =>
    by_cases hdeep : (d.run render).1 = .error .tooDeep
    · rw [run]
      rcases hrun : d.run render with ⟨e | t, s'⟩
      · rw [hrun] at hdeep
        exact congrArg Except.error (Except.error.inj hdeep)
      · rw [hrun] at hdeep
        cases hdeep
    · have hne : d ≠ c := by
        rintro rfl
        exact hdeep hc
      have hnext : ∀ s, (ask d next).run (haltAt c s render') = (.error .tooDeep, s) := hp
      simp only [run, run_haltAt_of_ne hne, h d hdeep] at hnext
      rw [run]
      rcases hrun : d.run render with ⟨e | t, s'⟩
      · simp only [hrun] at hnext
        exact absurd (congrArg Prod.fst (hnext s')) (by simpa [hrun] using hdeep)
      · simp only [hrun] at hnext
        exact ih t s' hnext

/-- A renderer that fails only where it gives up, or for too many digits. -/
def Forthright (render : Renderer) : Prop :=
  ∀ (c : RenderCall) e, (c.run render).1 = .error e → e = .tooDeep ∨ e = .fault .tooManyDigits

theorem error_of_run (h : Forthright render) (p : Script α) {e : Halt} (hp : (p.run render).1 = .error e) :
    e = .tooDeep ∨ e = .fault .tooManyDigits := by
  induction p with
  | done a s => cases hp
  | overlong s => exact .inr (Except.error.inj hp).symm
  | ask c next ih =>
    rw [run] at hp
    rcases hrun : c.run render with ⟨e' | t, s'⟩
    · simp only [hrun] at hp
      exact h c e (by rw [hrun, Except.error.inj hp])
    · simp only [hrun] at hp
      exact ih t s' hp

/-- A run comes to a call even if the renderer gives up less often. -/
theorem Reaches.of_extends (h : Extends render render') {p : Script α} {c : RenderCall}
    (hp : p.Reaches render c) : p.Reaches render' c := by
  induction p with
  | done a s => exact absurd hp not_reaches_done
  | overlong s => exact absurd hp not_reaches_overlong
  | ask d next ih =>
    intro s
    rw [run]
    by_cases hd : d = c
    · rw [hd, run_haltAt_self]
    · have hp' := hp
      unfold Reaches at hp'
      simp only [run, run_haltAt_of_ne hd] at hp'
      rw [run_haltAt_of_ne hd]
      rcases hrun : d.run render with ⟨e | t, s'⟩
      · -- then every state would be the one that this call leaves
        simp only [hrun, Prod.mk.injEq] at hp'
        have := (hp' ⟨none, [], []⟩).2.symm.trans (hp' ⟨some .empty, [], []⟩).2
        simp at this
      · simp only [hrun] at hp'
        rw [h d (by rw [hrun]; nofun), hrun]
        exact ih t s' hp' s

end Script

namespace Pipeline

/-- All passes of a rendering, with a renderer for the bodies of loops. -/
def level (p : Pipeline) (render : Renderer) (c : RenderCall) : Except Halt Text × RenderState :=
  (p.repeatPasses render c.ctx p.maxPasses.toNat c.text).runFrom c.state

/-- The passes of a rendering start another one: where that one stops, they are over. The renderings that
they start before it end, at some depth. -/
def Starts (p : Pipeline) (c d : RenderCall) : Prop :=
  ∃ depth, ∀ s, p.level (haltAt d s (p.execute depth)) c = (.error .tooDeep, s)

/-- There is a chain of `n` renderings, each started by the one before it, below a rendering. -/
def Nests (p : Pipeline) : Nat → RenderCall → Prop
  | 0, _ => True
  | n + 1, c => ∃ d, p.Starts c d ∧ p.Nests n d

variable (p : Pipeline)

theorem run_execute_succ (depth : Nat) (c : RenderCall) :
    c.run (p.execute (depth + 1)) = p.level (p.execute depth) c := rfl

theorem exists_script (c : RenderCall) : ∃ q : Script Text, ∀ render, p.level render c = q.run render :=
  (Composed.repeatPasses c.ctx p p.maxPasses.toNat c.text).scripted c.state

theorem extends_execute_succ (depth : Nat) : Extends (p.execute depth) (p.execute (depth + 1)) := by
  induction depth with
  | zero => exact fun c h => absurd rfl h
  | succ depth ih =>
    intro c h
    obtain ⟨q, hq⟩ := p.exists_script c
    rw [run_execute_succ, hq] at h
    rw [run_execute_succ, run_execute_succ, hq, hq]
    exact q.run_of_extends ih h

/-- How rendering ends does not depend on the depth that is allowed, once it is enough. -/
theorem extends_execute {depth depth' : Nat} (h : depth ≤ depth') :
    Extends (p.execute depth) (p.execute depth') := by
  induction h with
  | refl => exact fun _ _ => rfl
  | step _ ih =>
    intro c h
    have hmore := ih c h
    rw [p.extends_execute_succ _ c (by rw [hmore]; exact h), hmore]

theorem forthright_execute (depth : Nat) : Script.Forthright (p.execute depth) := by
  induction depth with
  | zero => exact fun c e h => .inl (Except.error.inj h).symm
  | succ depth ih =>
    intro c e h
    obtain ⟨q, hq⟩ := p.exists_script c
    rw [run_execute_succ, hq] at h
    exact q.error_of_run ih h

/-- Rendering gives up at a depth if and only if renderings nest as deep. -/
theorem run_execute_tooDeep_iff (n : Nat) (c : RenderCall) :
    (c.run (p.execute n)).1 = .error .tooDeep ↔ p.Nests n c := by
  induction n generalizing c with
  | zero => exact ⟨fun _ => trivial, fun _ => rfl⟩
  | succ n ih =>
    obtain ⟨q, hq⟩ := p.exists_script c
    rw [run_execute_succ, hq]
    constructor
    · intro h
      obtain ⟨d, hreach, hd⟩ := q.reaches_of_run_tooDeep h
      exact ⟨d, ⟨n, fun s => (hq _).trans (hreach s)⟩, (ih d).1 hd⟩
    · rintro ⟨d, ⟨depth, hstart⟩, hd⟩
      have hreach : q.Reaches (p.execute depth) d := fun s => (hq _).symm.trans (hstart s)
      have hmore := hreach.of_extends (p.extends_execute (Nat.le_max_left depth n))
      exact q.run_tooDeep_of_reaches (p.extends_execute (Nat.le_max_right depth n)) hmore ((ih d).2 hd)

/-- Rendering a page ends, within some depth, if and only if the chains of renderings that it starts are bounded.
It ends with a text, or at a number with too many digits. -/
theorem execute_ends_iff (maxPasses : Int) (ctx : RenderContext) (t : Text) (s : RenderState) :
    (∃ depth, (∃ u, (((standard maxPasses).execute depth ctx t).runFrom s).1 = .ok u) ∨
        (((standard maxPasses).execute depth ctx t).runFrom s).1 = .error (.fault .tooManyDigits)) ↔
      ∃ n, ¬ (standard maxPasses).Nests n ⟨ctx, t, s⟩ := by
  simp only [← run_execute_tooDeep_iff]
  refine exists_congr fun depth => ⟨?_, fun hends => ?_⟩
  · rintro (⟨u, h⟩ | h)
    · rw [RenderCall.run, h]
      nofun
    · rw [RenderCall.run, h]
      nofun
  · cases h : (((standard maxPasses).execute depth ctx t).runFrom s).1 with
    | ok u => exact .inl ⟨u, rfl⟩
    | error e =>
      obtain rfl | rfl := (standard maxPasses).forthright_execute depth ⟨ctx, t, s⟩ e h
      · exact absurd h hends
      · exact .inr rfl

end Pipeline

section SelfFeeding

open Piece Tag Template

variable {render : Renderer} {ctx : RenderContext}

/-- A loop fails with the rendering of its first body. -/
theorem Loop.fails_expand {f : ForTag} {body : Text} {alternative : Option Text} {c : RenderContext}
    {cs : List RenderContext} (hs : f.scopes? ctx = some (c :: cs)) (h : Fails (render c body) .tooDeep) :
    Fails (expand render ctx ⟨f.names, trim f.source.1, body, alternative⟩) .tooDeep := by
  rw [ForTag.scopes?] at hs
  split at hs
  · simp at hs
  · next hany =>
    rw [← Loop.filter_refused_eq_nil_iff] at hany
    split at hs
    · simp at hs
    · next v hv =>
      split at hs
      · simp at hs
      · next he =>
        obtain ⟨es, hes, hmap⟩ := Option.map_eq_some_iff.1 hs
        cases es with
        | nil => simp at hmap
        | cons e es =>
          obtain ⟨key, value⟩ := e
          simp only [List.zipIdx_cons, List.map_cons, List.cons.injEq] at hmap
          unfold expand
          simp only [hany]
          refine (gives_evaluate ctx _).bind_fails ?_
          simp only [hv, he, keyed_eq, hes]
          rw [← hmap.1] at h
          exact h.bind _

theorem Pipeline.fails_repeatPasses_loop {maxPasses : Int} {f : ForTag} {body : Template} {a : Alternative}
    {rest : Template} {c : RenderContext} {cs : List RenderContext} (hs : f.scopes? ctx = some (c :: cs))
    (h : Fails (render c body.print) .tooDeep) (n : Nat) :
    Fails ((standard maxPasses).repeatPasses render ctx (n + 1) (Template.loop f body a rest).print) .tooDeep := by
  have hloops : Fails (expandLoops render ctx (Template.loop f body a rest).print) .tooDeep := by
    rw [expandLoops, Template.print, Loop.parts_for, Loop.expandParts]
    exact (Loop.fails_expand hs h).bind _
  rw [repeatPasses]
  exact (hloops.bind _).bind _

/-- Loops around a tag. -/
def Template.around (f : ForTag) (w : WordTag) (e : ExprTag) : Nat → Template
  | 0 => .expr e .done
  | k + 1 => .loop f (around f w e k) (.close w) .done

/-- A tag that shows loops around itself is never rendered to the end, where the contexts of the first
iterations are such contexts again. -/
theorem Pipeline.fails_execute_around {maxPasses : Int} (hpasses : 2 ≤ maxPasses) {f : ForTag} {w : WordTag}
    {e : ExprTag} {S : RenderContext → Prop}
    (hscope : ∀ ctx, S ctx → ∃ c cs, f.scopes? ctx = some (c :: cs) ∧ S c)
    (hshown : ∀ ctx, S ctx → ∃ k, alone ctx e = .ok (around f w e (k + 1)).print)
    (depth : Nat) {ctx : RenderContext} (hctx : S ctx) (k : Nat) :
    Fails ((standard maxPasses).execute depth ctx (around f w e k).print) .tooDeep := by
  have hlimit : (standard maxPasses).maxPasses.toNat = (maxPasses.toNat - 2) + 1 + 1 := by
    rw [maxPasses_standard (by omega)]
    omega
  induction depth generalizing ctx k with
  | zero => exact fails_giveUp
  | succ depth ih =>
    obtain ⟨c, cs, hs, hc⟩ := hscope ctx hctx
    rw [execute, hlimit]
    cases k with
    | succ k => exact fails_repeatPasses_loop hs (ih hc k) _
    | zero =>
      obtain ⟨k, hk⟩ := hshown ctx hctx
      have honce : Gives ((standard maxPasses).runOnce ((standard maxPasses).execute depth) ctx (wrap e.body))
          (around f w e (k + 1)).print := by
        have hok : (alone ctx e).isOk = true := by rw [hk]; rfl
        obtain ⟨hown, hshowable⟩ := shownAlone_eq hok
        rw [shownAlone, hk] at hown
        rw [show (around f w e (k + 1)).print = Variable.shown ctx (wrap e.body) from hown]
        exact (settles_runOnce_expr maxPasses e).gives hshowable
      have hne : (around f w e (k + 1)).print ≠ wrap e.body := by
        intro h
        rw [← List.append_nil (wrap e.body)] at h
        have hbody := (wrap_append_inj (notMem_of_plain f.plain_body).2.1 (notMem_of_plain e.plain).2.1 h).1
        have hno := e.noLoop
        rw [← hbody, LoopTag.ofBody?_for] at hno
        simp at hno
      have hremains : remains (around f w e (k + 1)).print := remains_wrap f.body _
      rw [around, Template.print, Template.print, List.append_nil, repeatPasses]
      refine honce.bind_fails ?_
      rw [hremains, decide_eq_false hne, if_neg (by simp)]
      exact fails_repeatPasses_loop hs (ih hc k) _

/-- Is the source read as a name? -/
def Expr.isName (source : Text) : Bool :=
  match Expr.ofTextWithin nestingLimit (trim source) with
  | .ok (.name n) => n == source
  | _ => false

theorem Expr.evaluate_of_lookup? {s : Surroundings} {source n : Text} {v : Value}
    (hparse : ofTextWithin nestingLimit (trim source) = .ok (.name n)) (htime : s.ambient.expired = false)
    (hsafe : isUnsafeName n = false) (hv : Scope.lookup? s.context n = some v) : evaluate s source = .ok v := by
  have hdepth : ¬ nestingLimit < (Expr.name n).depth := by simp [Expr.depth, nestingLimit]
  simp only [evaluate, hparse, htime, hdepth, eval, hsafe, hv, Bool.false_eq_true, if_false, Option.elim_some]

theorem Expr.evaluate_name {s : Surroundings} {source : Text} {v : Value} (hname : isName source)
    (htime : s.ambient.expired = false) (hsafe : isUnsafeName source = false)
    (hv : Scope.lookup? s.context source = some v) : (evaluate s source).result = .ok v := by
  have hparse : Expr.ofTextWithin nestingLimit (trim source) = .ok (.name source) := by
    unfold isName at hname
    split at hname
    · next n hn => rw [hn, eq_of_beq hname]
    · simp at hname
  rw [evaluate_of_lookup? hparse htime hsafe hv]
  rfl

theorem Variable.scan_expression {body : Text} (hc : '\x7d' ∉ body) (hne : body ≠ []) (rest : Text) :
    scan readExpression (wrap body ++ rest) = .tag body (wrap body) :: scan readExpression rest := by
  refine scan_of_read (wrap_ne_nil body) ?_
  rw [readExpression_eq, readBody_wrap rest hc, Option.bind_some, if_neg (by simpa using hne), Option.map_some]

def selfTag : ExprTag := ⟨text "tpl", by decide, by decide, by decide, by decide +kernel⟩

def selfLoop : ForTag := { forA with first := ⟨text "i", by decide⟩ }

/-- A variable that holds a loop around its own tag. -/
def selfVars : Entries :=
  [(.str (text "xs"), .list [.nat 1]), (.str (text "tpl"), .str (around selfLoop bare selfTag 1).print)]

/-- The variables in the loop. -/
def selfInner : Entries := selfVars.overlay (Loop.bindings [text "i"] 1 0 (.nat 0) (.nat 1))

def SelfFed (ctx : RenderContext) : Prop :=
  ctx.ambient = ⟨0.5, 0, 1.0⟩ ∧ (ctx.vars = selfVars ∨ ctx.vars = selfInner)

theorem SelfFed.evaluate (h : SelfFed ctx) {source : Text} {v : Value} (hname : Expr.isName source)
    (hsafe : isUnsafeName source = false) (hv : Scope.lookup? selfVars source = some v)
    (hv' : Scope.lookup? selfInner source = some v) :
    (Expr.evaluate ctx.surroundings source).result = .ok v := by
  have htime : ctx.surroundings.ambient.expired = false := by
    change ctx.ambient.expired = false
    rw [h.1]
    decide
  refine Expr.evaluate_name hname htime hsafe ?_
  rcases h.2 with hvars | hvars
  · rwa [RenderContext.surroundings, hvars]
  · rwa [RenderContext.surroundings, hvars]

theorem SelfFed.scope (h : SelfFed ctx) : ∃ c cs, selfLoop.scopes? ctx = some (c :: cs) ∧ SelfFed c := by
  refine ⟨ctx.bind (Loop.bindings [text "i"] 1 0 (.nat 0) (.nat 1)), [], ?_, h.1, .inr ?_⟩
  · have hnames : ¬ selfLoop.names.any Loop.refused = true := by decide
    have hsource : trim selfLoop.source.1 = text "xs" := by decide
    rw [ForTag.scopes?, if_neg hnames, hsource, h.evaluate (by decide +kernel) (by decide) rfl rfl]
    rfl
  · rcases h.2 with hv | hv
    · rw [RenderContext.bind, hv]; rfl
    · rw [RenderContext.bind, hv]; rfl

theorem SelfFed.shown (h : SelfFed ctx) :
    alone ctx selfTag = .ok (around selfLoop bare selfTag (1 + 1)).print := by
  have hpath : Variable.pathsShown ctx (wrap selfTag.body) = wrap selfTag.body := by
    have huntagged : Untagged Variable.readPath (wrap selfTag.body) := occurs_eq_false_iff.1 (by decide +kernel)
    rw [Variable.pathsShown, huntagged.scan_eq, rewritten_chars]
  have hpathShowable : Variable.pathsShowable ctx (wrap selfTag.body) = true := by
    have huntagged : Untagged Variable.readPath (wrap selfTag.body) := occurs_eq_false_iff.1 (by decide +kernel)
    rw [Variable.pathsShowable, huntagged.scan_eq, allTags_chars]
  have hkeys : Variable.keysShown ctx.vars (wrap selfTag.body) = (around selfLoop bare selfTag 1).print ∧
      Variable.keysShowable ctx.vars (wrap selfTag.body) = true := by
    rcases h.2 with hv | hv
    · rw [hv]; decide +kernel
    · rw [hv]; decide +kernel
  have hempty : remove Variable.readEmpty (around selfLoop bare selfTag 1).print =
      wrap selfLoop.body ++ (wrap selfTag.body ++ (wrap (bare.body (text "endfor")) ++ [])) := by decide +kernel
  have hvalue : Render.valueAt ctx (trim selfTag.body) = .str (around selfLoop bare selfTag 1).print := by
    rw [show trim selfTag.body = text "tpl" by decide, Render.valueAt,
      h.evaluate (by decide +kernel) (by decide) rfl rfl]
    rfl
  have hscan : scan Variable.readExpression
      (wrap selfLoop.body ++ (wrap selfTag.body ++ (wrap (bare.body (text "endfor")) ++ []))) =
      [.tag selfLoop.body (wrap selfLoop.body), .tag selfTag.body (wrap selfTag.body),
        .tag (bare.body (text "endfor")) (wrap (bare.body (text "endfor")))] := by
    rw [Variable.scan_expression (by decide) (by decide), Variable.scan_expression (by decide) (by decide),
      Variable.scan_expression (by decide) (by decide), scan_nil]
  have hloop : isReservedBody selfLoop.body = true := by decide +kernel
  have htag : isReservedBody selfTag.body = false := by decide +kernel
  have hend : isReservedBody (bare.body (text "endfor")) = true := by decide +kernel
  have hshowable : Variable.showable ctx (wrap selfTag.body) = true := by
    rw [Variable.showable, hpath, hpathShowable, hkeys.1, hkeys.2, hempty, Variable.tagsShowable, hscan]
    simp only [allTags_tag, allTags_nil, hloop, htag, hend, hvalue]
    rfl
  rw [alone_eq, if_pos hshowable, Variable.shown, hpath, hkeys.1, hempty, Variable.tagsShown, hscan]
  simp only [rewritten, List.flatMap_cons, List.flatMap_nil, hvalue, hloop, htag, hend]
  rfl

/-- The passes of one rendering are limited, and still a variable can make a page nest without end. -/
theorem not_ends_selfFed : ¬ ∃ depth, (((Pipeline.standard 10).execute depth
    ⟨selfVars, ⟨0.5, 0, 1.0⟩, 20, 0⟩ (text "\x7b\x7btpl\x7d\x7d")).runFrom (.start none)).1 ≠ .error .tooDeep := by
  rintro ⟨depth, hends⟩
  have hfails : Fails ((Pipeline.standard 10).execute depth ⟨selfVars, ⟨0.5, 0, 1.0⟩, 20, 0⟩
      (around selfLoop bare selfTag 0).print) .tooDeep :=
    Pipeline.fails_execute_around (by decide) (fun _ => SelfFed.scope) (fun _ h => ⟨1, h.shown⟩) depth
      ⟨rfl, .inl rfl⟩ 0
  have hpage : (around selfLoop bare selfTag 0).print = text "\x7b\x7btpl\x7d\x7d" := rfl
  exact hends (hpage ▸ hfails (.start none))

end SelfFeeding

end PageTemplate
