import PageTemplate.Dynamic.Pipeline
import PageTemplate.Proofs.Rendering
set_option autoImplicit false
/-!
What rendering is composed of: reports, questions to the registry, calls of user functions, renderings of the
bodies of loops, and the end at a number with too many digits. A property that these have and that sequences
inherit holds of every phase and of all passes.
-/
namespace PageTemplate

namespace Argument

theorem numeral_eq_error {arg : Text} {f : Fault} (h : numeral arg = .error f) : f = .tooManyDigits := by
  simp only [numeral, readWhole?] at h
  split at h
  · next o ho =>
    split at ho
    · obtain rfl := Option.some.inj ho
      exact readDigits_eq_error (Except.map_eq_error_iff.mp (Except.map_eq_error_iff.mp h))
    · cases ho
  · cases h

theorem bare_eq_failed {vars : Entries} {arg : Text} {f : Fault} (h : bare vars arg = .failed f) : f = .tooManyDigits := by
  have hnumeral : Meaning.ofExcept (numeral arg) = .failed f := by
    unfold bare at h
    repeat' split at h
    all_goals first | exact h | cases h
  cases hn : numeral arg with
  | ok v => rw [hn] at hnumeral; cases hnumeral
  | error f' => rw [hn] at hnumeral; cases hnumeral; exact numeral_eq_error hn

theorem classify_eq_failed {vars : Entries} {arg : Text} {f : Fault} (h : classify vars arg = .failed f) :
    f = .tooManyDigits := by
  rw [classify] at h
  split at h
  · cases h
  · split at h
    · exact bare_eq_failed h
    · split at h
      · cases h
      · split at h
        · cases h
        · exact bare_eq_failed h

theorem valuesOf_eq_error {ms : List Meaning} {f : Fault} (h : valuesOf ms = .error f) : .failed f ∈ ms := by
  fun_induction valuesOf ms with
  | case1 => cases h
  | case2 v ms ih =>
    exact List.mem_cons_of_mem _ (ih (Except.map_eq_error_iff.mp h))
  | case3 g ms => cases h; exact List.mem_cons_self
  | case4 ms ih => exact List.mem_cons_of_mem _ (ih h)
  | case5 n ms ih => exact List.mem_cons_of_mem _ (ih h)

theorem values_eq_error {vars : Entries} {raw : Text} {f : Fault} (h : values vars raw = .error f) :
    f = .tooManyDigits := by
  obtain ⟨arg, -, hf⟩ := List.mem_map.mp (valuesOf_eq_error h)
  exact classify_eq_failed hf

end Argument

/-- A way to render texts. -/
abbrev Renderer := RenderContext → Text → Render Text

/-- Steps composed of the basic ones and of renderings. -/
inductive Composed : {α : Type} → (Renderer → Render α) → Prop
  | pure {α : Type} (a : α) : Composed fun _ => pure a
  | bind {α β : Type} {act : Renderer → Render α} {f : α → Renderer → Render β} :
    Composed act → (∀ a, Composed (f a)) → Composed fun render => act render >>= fun a => f a render
  | overlong {α : Type} : Composed fun _ => (throw (.fault .tooManyDigits) : Render α)
  | report (ns : List Notice) : Composed fun _ => Render.report ns
  | known (name : Text) : Composed fun _ => Render.known name
  | call? (name : Text) (args : List Value) : Composed fun _ => Render.call? name args
  | render (ctx : RenderContext) (t : Text) : Composed fun render => render ctx t

namespace Composed

variable {α : Type}

theorem ite {act act' : Renderer → Render α} (c : Prop) [Decidable c] (h : Composed act)
    (h' : Composed act') : Composed fun render => if c then act render else act' render := by
  by_cases hc : c
  · simpa only [hc, if_true] using h
  · simpa only [hc, if_false] using h'

theorem ofExcept {o : Except Fault α} (h : ∀ f, o = .error f → f = .tooManyDigits) :
    Composed fun _ => Render.ofExcept o := by
  cases o with
  | ok a => exact .pure a
  | error f => exact h f rfl ▸ .overlong

theorem display (v : Value) : Composed fun _ => Render.display v := by
  unfold Render.display
  cases hv : v.display? with
  | ok t => exact .pure t
  | error f =>
    cases hcontainer : v.isContainer with
    | true => exact (Composed.report _).bind fun _ => .pure []
    | false => exact Value.display?_eq_error hv hcontainer ▸ .overlong

variable (ctx : RenderContext)

theorem evaluate (source : Text) : Composed fun _ => Render.evaluate ctx source :=
  (Composed.report _).bind fun _ => .pure _

theorem valueOf (source : Text) : Composed fun _ => Render.valueOf ctx source := by
  refine (evaluate ctx source).bind fun o => ?_
  cases o with
  | ok v => exact .pure v
  | error e => cases e <;> exact (Composed.report _).bind fun _ => .pure Value.null

theorem replaceM {f : α → Text → Render Text} (h : ∀ a s, Composed fun _ => f a s) (ps : List (Piece α)) :
    Composed fun _ => Piece.replaceM f ps := by
  induction ps with
  | nil => exact .pure []
  | cons p ps ih =>
    cases p with
    | char c => exact ih.bind fun _ => .pure _
    | tag a s => exact (h a s).bind fun _ => ih.bind fun _ => .pure _

theorem choose (bs : List Branch) : Composed fun _ => Conditional.choose ctx bs := by
  induction bs with
  | nil => exact .pure []
  | cons b bs ih =>
    unfold Conditional.choose
    cases b.condition with
    | none => exact .pure b.body
    | some c => exact (valueOf ctx c).bind fun _ => .ite _ (.pure b.body) ih

theorem resolve (ps : List Conditional.Part) : Composed fun _ => Conditional.resolve ctx ps := by
  induction ps with
  | nil => exact .pure _
  | cons p ps ih =>
    cases p with
    | verbatim t => exact ih.bind fun _ => .pure _
    | choice bs => exact (choose ctx bs).bind fun _ => ih.bind fun _ => .pure _

theorem resolveConditionals (t : Text) : Composed fun _ => PageTemplate.resolveConditionals ctx t := by
  unfold PageTemplate.resolveConditionals
  induction ctx.maxConditionalPasses.toNat generalizing t with
  | zero => exact .pure t
  | succ n ih => exact (resolve ctx _).bind fun r => .ite _ (ih r.1) (.pure r.1)

theorem shown (c : CallTag) : Composed fun _ => c.shown ctx := by
  unfold CallTag.shown
  refine .ite _ ((Composed.report _).bind fun _ => .pure []) ?_
  refine (Composed.known c.name).bind fun found => .ite _ ?_ ((Composed.report _).bind fun _ => .pure [])
  refine (Composed.report _).bind fun _ => (ofExcept fun _ => Argument.values_eq_error).bind fun _ =>
    (Composed.call? c.name _).bind fun o => ?_
  rcases o with _ | (f | v)
  · exact .pure []
  · exact (Composed.report _).bind fun _ => .pure []
  · exact display v

theorem resolveCalls (t : Text) : Composed fun _ => PageTemplate.resolveCalls ctx t :=
  replaceM (fun c _ => shown ctx c) _

theorem substituteKey (key : Text) (value : Value) (t : Text) :
    Composed fun _ => Variable.substituteKey key value t :=
  .ite _ ((display value).bind fun _ => .pure _) (.pure t)

theorem substituteKeys (es : Entries) (t : Text) : Composed fun _ => Variable.substituteKeys es t := by
  induction es generalizing t with
  | nil => exact .pure t
  | cons e es ih =>
    obtain ⟨key, value⟩ := e
    cases key with
    | str key =>
      simp only [Variable.substituteKeys]
      exact .ite _ ((Composed.pure t).bind ih) ((substituteKey key value t).bind ih)
    | _ => exact ih t

theorem substitutePaths (t : Text) : Composed fun _ => Variable.substitutePaths ctx t :=
  replaceM (fun _ _ => (ofExcept fun _ => Value.follow?_eq_error).bind fun v => display (v.getD .null)) _

theorem evaluateTags (t : Text) : Composed fun _ => Variable.evaluateTags ctx t := by
  refine replaceM (fun body source => ?_) _
  cases isReservedBody body with
  | true => exact .pure source
  | false => exact (valueOf ctx (trim body)).bind display

theorem substituteVariables (t : Text) : Composed fun _ => PageTemplate.substituteVariables ctx t :=
  (substitutePaths ctx _).bind fun _ => (substituteKeys ctx.vars _).bind fun _ => evaluateTags ctx _

theorem iterate (l : Loop) (total index : Nat) (es : List (Value × Value)) :
    Composed fun render => Loop.iterate render ctx l total index es := by
  induction es generalizing index with
  | nil => exact .pure []
  | cons e es ih =>
    refine (Composed.render _ l.body).bind fun rendered => .ite _ (.pure _) (.ite _ (ih _) ?_)
    exact (ih _).bind fun _ => .pure _

theorem expand (l : Loop) : Composed fun render => Loop.expand render ctx l := by
  unfold Loop.expand
  cases l.names.filter Loop.refused with
  | cons name more => exact (Composed.report _).bind fun _ => .pure []
  | nil =>
    refine (evaluate ctx l.source).bind fun o => ?_
    cases o with
    | error e => exact (Composed.report _).bind fun _ => .pure []
    | ok v =>
      refine .ite _ ?_ ?_
      · rcases l.alternative with _ | (_ | ⟨c, cs⟩)
        · exact .pure []
        · exact .pure []
        · exact .render ctx (c :: cs)
      · cases Loop.entriesOf? (1 < l.names.length) v with
        | none => exact (Composed.report _).bind fun _ => .pure []
        | some es => exact iterate ctx l es.length 0 es

theorem expandParts (ps : List Loop.Part) : Composed fun render => Loop.expandParts render ctx ps := by
  induction ps with
  | nil => exact .pure []
  | cons p ps ih =>
    cases p with
    | verbatim t => exact ih.bind fun _ => .pure _
    | loop l => exact (expand ctx l).bind fun _ => ih.bind fun _ => .pure _

theorem apply (phase : Phase) (t : Text) : Composed fun render => phase.apply render ctx t := by
  cases phase with
  | loops => exact expandParts ctx _
  | conditionals => exact resolveConditionals ctx t
  | functions => exact resolveCalls ctx t
  | names => exact substituteVariables ctx t

theorem runOnce (p : Pipeline) (t : Text) : Composed fun render => p.runOnce render ctx t := by
  unfold Pipeline.runOnce
  induction p.phases generalizing t with
  | nil => exact .pure t
  | cons phase phases ih => exact (apply ctx phase t).bind ih

theorem repeatPasses (p : Pipeline) (n : Nat) (t : Text) :
    Composed fun render => p.repeatPasses render ctx n t := by
  induction n generalizing t with
  | zero => exact (Composed.report _).bind fun _ => .pure t
  | succ n ih => exact (runOnce ctx p t).bind fun next => .ite _ (.pure next) (ih next)

end Composed

end PageTemplate
