import PageTemplate.Dynamic.Pipeline
import PageTemplate.Proofs.Search
set_option autoImplicit false
/-!
Which variables a page can see. Everything that rendering reads of the variables it reads under safe text
keys, and the bindings of a loop respect the division; so a page is rendered alike under all variables that
agree on their entries under safe text keys.
-/
namespace PageTemplate

/-- Keys that are texts and safe. -/
def Value.isVisibleKey : Value → Bool
  | .str k => !isUnsafeName k
  | _ => false

namespace Entries

/-- The entries under safe text keys. -/
def visible (es : Entries) : Entries := es.filter fun e => e.1.isVisibleKey

theorem get?_visible {key : Text} (h : isUnsafeName key = false) (es : Entries) :
    es.visible.get? key = es.get? key := by
  induction es with
  | nil => rfl
  | cons e es ih =>
    obtain ⟨k, v⟩ := e
    cases k with
    | str k =>
      by_cases hk : k = key
      · subst hk
        simp [visible, Value.isVisibleKey, h, get?]
      · cases hu : isUnsafeName k with
        | true => simpa [visible, Value.isVisibleKey, hu, get?, hk] using ih
        | false => simpa [visible, Value.isVisibleKey, hu, get?, hk] using ih
    | _ => simpa [visible, Value.isVisibleKey, get?] using ih

theorem isVisibleKey_of_alike {k key : Value} (h : k.alike key) : k.isVisibleKey = key.isVisibleKey := by
  cases k <;> cases key <;> simp_all [Value.alike, Value.isVisibleKey]

theorem visible_put (key value : Value) (es : Entries) :
    (es.put key value).visible = if key.isVisibleKey then es.visible.put key value else es.visible := by
  induction es with
  | nil => cases h : key.isVisibleKey <;> simp [put, visible, h]
  | cons e es ih =>
    obtain ⟨k, v⟩ := e
    by_cases ha : k.alike key
    · have hk := isVisibleKey_of_alike ha
      cases hv : key.isVisibleKey with
      | true => simp [put, visible, ha, hk, hv]
      | false => simp [put, visible, ha, hk, hv]
    · cases hk : k.isVisibleKey with
      | true =>
        simp only [visible] at ih ⊢
        simp only [put, ha, hk, List.filter_cons, if_true, if_false, Bool.false_eq_true, ih]
        split <;> rfl
      | false =>
        simp only [visible] at ih ⊢
        simp only [put, ha, hk, List.filter_cons, if_false, Bool.false_eq_true, ih]

theorem visible_visible (es : Entries) : es.visible.visible = es.visible := by
  simp [visible]

theorem visible_overlay (base extra : Entries) :
    (base.overlay extra).visible = (base.visible.overlay extra).visible := by
  induction extra generalizing base with
  | nil => exact (visible_visible base).symm
  | cons e es ih =>
    obtain ⟨key, value⟩ := e
    have hput : (base.put key value).visible = (base.visible.put key value).visible := by
      rw [visible_put, visible_put, visible_visible]
    change ((base.put key value).overlay es).visible = ((base.visible.put key value).overlay es).visible
    rw [ih, hput, ← ih]

end Entries

theorem Scope.lookup?_visible (es : Entries) (name : Text) : lookup? es.visible name = lookup? es name := by
  unfold lookup?
  cases h : isUnsafeName name with
  | true => simp
  | false => rw [Entries.get?_visible h]

/-- The surroundings with the entries under safe text keys only. -/
def Surroundings.veiled (s : Surroundings) : Surroundings := { s with context := s.context.visible }

namespace Expr

mutual

theorem eval_veiled (s : Surroundings) (mark : Mark) (e : Expr) : e.eval s.veiled mark = e.eval s mark := by
  cases e with
  | literal l => rfl
  | name n => simp only [eval, Surroundings.veiled, Scope.lookup?_visible]
  | array es => simp only [eval, evalAll_veiled s mark 0 es]
  | unary op e => simp only [eval, eval_veiled s _ e]
  | binary op l r => simp only [eval, eval_veiled s _ l, eval_veiled s _ r]
  | logical op l r => simp only [eval, eval_veiled s _ l, eval_veiled s _ r]
  | conditional t a b => simp only [eval, eval_veiled s _ t, eval_veiled s _ a, eval_veiled s _ b]
  | member o k => simp only [eval, eval_veiled s _ o, eval_veiled s _ k]
  | call f es =>
    simp only [eval, eval_veiled s _ f, evalAll_veiled s mark 1 es]
    rfl

theorem evalAll_veiled (s : Surroundings) (mark : Mark) (i : Nat) (es : List Expr) :
    evalAll s.veiled mark i es = evalAll s mark i es := by
  cases es with
  | nil => rfl
  | cons e es => simp only [evalAll, eval_veiled s _ e, evalAll_veiled s mark (i + 1) es]

end

theorem evaluate_veiled (s : Surroundings) (source : Text) : evaluate s.veiled source = evaluate s source := by
  simp only [evaluate, eval_veiled]
  rfl

end Expr

theorem Value.atPath?_visible (es : Entries) (path : Text) :
    (Value.map es.visible).atPath? path = (Value.map es).atPath? path := by
  unfold atPath?
  cases h : splitAt ['.'] path with
  | nil => exact absurd h (splitAt_ne_nil _ _)
  | cons s ss =>
    cases hs : isUnsafeName s with
    | true => simp [follow?, hs]
    | false => simp [follow?, hs, member?, Entries.get?_visible hs]

namespace Argument

theorem bare_visible (es : Entries) (arg : Text) : bare es.visible arg = bare es arg := by
  unfold bare
  cases h : isUnsafeName arg with
  | true => simp
  | false => rw [Entries.get?_visible h]

theorem classify_visible (es : Entries) (arg : Text) : classify es.visible arg = classify es arg := by
  unfold classify
  cases quoted? arg with
  | some t => rfl
  | none =>
    cases reference? arg with
    | none => exact bare_visible es arg
    | some name =>
      dsimp only
      cases h : isUnsafeName name with
      | true => simp
      | false => rw [Entries.get?_visible h, bare_visible]

theorem meanings_visible (es : Entries) (raw : Text) : meanings es.visible raw = meanings es raw := by
  have h : classify es.visible = classify es := funext (classify_visible es)
  rw [meanings, h, meanings]

end Argument

theorem Variable.substituteKeys_visible (es : Entries) (t : Text) :
    substituteKeys es.visible t = substituteKeys es t := by
  induction es generalizing t with
  | nil => rfl
  | cons e es ih =>
    obtain ⟨k, v⟩ := e
    have hcons : Entries.visible ((k, v) :: es) =
        if k.isVisibleKey then (k, v) :: Entries.visible es else Entries.visible es := by
      simp only [Entries.visible, List.filter_cons]
    cases k with
    | str k =>
      rw [hcons, Value.isVisibleKey]
      cases h : isUnsafeName k with
      | true => simp [substituteKeys, h, ih]
      | false => simp [substituteKeys, h, ih]
    | _ => exact ih t

/-- What is in force, with the entries under safe text keys only. -/
def RenderContext.veiled (ctx : RenderContext) : RenderContext := { ctx with vars := ctx.vars.visible }

theorem RenderContext.veiled_bind (ctx : RenderContext) (bindings : Entries) :
    (ctx.veiled.bind bindings).veiled = (ctx.bind bindings).veiled := by
  simp only [veiled, bind, ← Entries.visible_overlay]

/-- A way to render that sees no other entries. -/
def Blind (render : RenderContext → Text → Render Text) : Prop :=
  ∀ ctx t, render ctx.veiled t = render ctx t

theorem Blind.render_bind {render : RenderContext → Text → Render Text} (h : Blind render)
    (ctx : RenderContext) (bindings : Entries) (t : Text) :
    render (ctx.veiled.bind bindings) t = render (ctx.bind bindings) t := by
  rw [← h, RenderContext.veiled_bind, h]

namespace Render

variable (ctx : RenderContext)

theorem evaluate_veiled (source : Text) : evaluate ctx.veiled source = evaluate ctx source := by
  unfold evaluate
  rw [show ctx.veiled.surroundings = ctx.surroundings.veiled from rfl, Expr.evaluate_veiled]

theorem valueOf_veiled (source : Text) : valueOf ctx.veiled source = valueOf ctx source := by
  unfold valueOf
  rw [evaluate_veiled]
  rfl

end Render

section Phases

variable (ctx : RenderContext)

theorem Conditional.choose_veiled (bs : List Branch) : choose ctx.veiled bs = choose ctx bs := by
  induction bs with
  | nil => rfl
  | cons b bs ih =>
    unfold choose
    cases b.condition with
    | none => rfl
    | some c => simp only [Render.valueOf_veiled, ih]

theorem Conditional.resolve_veiled (ps : List Part) : resolve ctx.veiled ps = resolve ctx ps := by
  induction ps with
  | nil => rfl
  | cons p ps ih => cases p <;> simp only [resolve, choose_veiled, ih]

theorem Conditional.passes_veiled (n : Nat) (t : Text) : passes ctx.veiled n t = passes ctx n t := by
  induction n generalizing t with
  | zero => rfl
  | succ n ih => simp only [passes, pass, resolve_veiled, ih]

theorem resolveConditionals_veiled (t : Text) : resolveConditionals ctx.veiled t = resolveConditionals ctx t :=
  Conditional.passes_veiled ctx _ t

theorem CallTag.shown_veiled (c : CallTag) : c.shown ctx.veiled = c.shown ctx := by
  have hmeanings : Argument.meanings ctx.veiled.vars c.arguments = Argument.meanings ctx.vars c.arguments :=
    Argument.meanings_visible ctx.vars c.arguments
  simp only [shown, Argument.notices, Argument.values, hmeanings]

theorem resolveCalls_veiled (t : Text) : resolveCalls ctx.veiled t = resolveCalls ctx t := by
  simp only [resolveCalls, CallTag.shown_veiled]

theorem Variable.substitutePaths_veiled (t : Text) : substitutePaths ctx.veiled t = substitutePaths ctx t := by
  have hpath : ∀ path, (Value.map ctx.veiled.vars).atPath? path = (Value.map ctx.vars).atPath? path :=
    Value.atPath?_visible ctx.vars
  simp only [substitutePaths, hpath]

theorem Variable.evaluateTags_veiled (t : Text) : evaluateTags ctx.veiled t = evaluateTags ctx t := by
  simp only [evaluateTags, Render.valueOf_veiled]

theorem substituteVariables_veiled (t : Text) :
    substituteVariables ctx.veiled t = substituteVariables ctx t := by
  have hkeys : ∀ t, Variable.substituteKeys ctx.veiled.vars t = Variable.substituteKeys ctx.vars t :=
    Variable.substituteKeys_visible ctx.vars
  simp only [substituteVariables, Variable.substitutePaths_veiled, hkeys, Variable.evaluateTags_veiled]

variable {render : RenderContext → Text → Render Text} (hr : Blind render)

include hr

theorem Loop.iterate_veiled (l : Loop) (total index : Nat) (es : List (Value × Value)) :
    iterate render ctx.veiled l total index es = iterate render ctx l total index es := by
  induction es generalizing index with
  | nil => rfl
  | cons e es ih => simp only [iterate, hr.render_bind, ih]

theorem Loop.expand_veiled (l : Loop) : expand render ctx.veiled l = expand render ctx l := by
  unfold expand
  simp only [Render.evaluate_veiled, Loop.iterate_veiled ctx hr, hr ctx]

theorem Loop.expandParts_veiled (ps : List Part) :
    expandParts render ctx.veiled ps = expandParts render ctx ps := by
  induction ps with
  | nil => rfl
  | cons p ps ih => cases p <;> simp only [expandParts, Loop.expand_veiled ctx hr, ih]

theorem Phase.apply_veiled (phase : Phase) (t : Text) :
    phase.apply render ctx.veiled t = phase.apply render ctx t := by
  cases phase with
  | loops => exact Loop.expandParts_veiled ctx hr _
  | conditionals => exact resolveConditionals_veiled ctx t
  | functions => exact resolveCalls_veiled ctx t
  | names => exact substituteVariables_veiled ctx t

theorem Pipeline.runOnce_veiled (p : Pipeline) (t : Text) :
    p.runOnce render ctx.veiled t = p.runOnce render ctx t := by
  simp only [runOnce, Phase.apply_veiled ctx hr]

theorem Pipeline.repeatPasses_veiled (p : Pipeline) (n : Nat) (t : Text) :
    p.repeatPasses render ctx.veiled n t = p.repeatPasses render ctx n t := by
  induction n generalizing t with
  | zero => rfl
  | succ n ih => simp only [repeatPasses, Pipeline.runOnce_veiled ctx hr, ih]

end Phases

namespace Pipeline

theorem blind_execute (p : Pipeline) (depth : Nat) : Blind (p.execute depth) := by
  induction depth with
  | zero => exact fun _ _ => rfl
  | succ depth ih => exact fun ctx t => repeatPasses_veiled ctx ih p p.maxPasses.toNat t

/-- Variables that agree under safe text keys give the same result, reports and calls of user functions,
from every state. -/
theorem execute_of_visible_eq (maxPasses : Int) (depth : Nat) (ctx : RenderContext) (vars vars' : Entries)
    (h : vars.visible = vars'.visible) (t : Text) (s : RenderState) :
    ((standard maxPasses).execute depth { ctx with vars := vars } t).runFrom s =
      ((standard maxPasses).execute depth { ctx with vars := vars' } t).runFrom s := by
  have hveiled :
      RenderContext.veiled { ctx with vars := vars } = RenderContext.veiled { ctx with vars := vars' } := by
    simp only [RenderContext.veiled, h]
  rw [← blind_execute _ depth { ctx with vars := vars } t, hveiled, blind_execute]

def bareContext : RenderContext := ⟨[], ⟨0.5, 0, 1.0⟩, 20, 0⟩

/-- A registry with one function, which returns its arguments. -/
def echoing : RenderState := .start (some ⟨[(text "f", .function 0 fun _ args => .ok (.list args))], []⟩)

def onePrivate : Entries := [(.str (text "then"), .nat 0), (.str (text "a"), .nat 1), (.null, .nat 2)]

def otherPrivate : Entries := [(.str (text "a"), .nat 1), (.str (text "prototype"), .nat 3)]

theorem execute_of_visible_eq_sample :
    onePrivate.visible = otherPrivate.visible ∧
      ((standard 10).execute 2 { bareContext with vars := onePrivate }
          (text "\x7b\x7buser: f(then, a)\x7d\x7d\x7b\x7bthen\x7d\x7d")).runFrom echoing =
        ((standard 10).execute 2 { bareContext with vars := otherPrivate }
          (text "\x7b\x7buser: f(then, a)\x7d\x7d\x7b\x7bthen\x7d\x7d")).runFrom echoing :=
  ⟨rfl, execute_of_visible_eq 10 2 bareContext onePrivate otherPrivate rfl _ echoing⟩

end Pipeline

end PageTemplate
