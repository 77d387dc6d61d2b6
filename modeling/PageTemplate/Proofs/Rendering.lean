import PageTemplate.Dynamic.Render
import PageTemplate.Proofs.Digits
set_option autoImplicit false
/-!
Laws of rendering steps. A step is run from a state; one that reads nothing of the state but what it only
reports about gives the same result from every state, or fails from every state.
-/
namespace PageTemplate

namespace Render

variable {α β : Type}

@[simp] theorem runFrom_pure (a : α) (s : RenderState) :
    (pure a : Render α).runFrom s = (.ok a, s) := rfl

@[simp] theorem runFrom_giveUp (s : RenderState) :
    (giveUp : Render α).runFrom s = (.error .tooDeep, s) := rfl

@[simp] theorem runFrom_throw (h : Halt) (s : RenderState) :
    (throw h : Render α).runFrom s = (.error h, s) := rfl

theorem runFrom_bind (r : Render α) (f : α → Render β) (s : RenderState) :
    (r >>= f).runFrom s =
      match r.runFrom s with
      | (.ok a, s') => (f a).runFrom s'
      | (.error h, s') => (.error h, s') := by
  simp only [runFrom, ExceptT.run_bind, StateT.run_bind]
  rcases r.run.run s with ⟨_ | a, s'⟩ <;> rfl

theorem runFrom_bind_of_ok {r : Render α} {a : α} {s s' : RenderState} (f : α → Render β)
    (h : r.runFrom s = (.ok a, s')) : (r >>= f).runFrom s = (f a).runFrom s' := by
  rw [runFrom_bind, h]

theorem runFrom_bind_of_error {r : Render α} {e : Halt} {s s' : RenderState} (f : α → Render β)
    (h : r.runFrom s = (.error e, s')) : (r >>= f).runFrom s = (.error e, s') := by
  rw [runFrom_bind, h]

theorem ext {r r' : Render α} (h : ∀ s, r.runFrom s = r'.runFrom s) : r = r' :=
  ExceptT.ext (StateT.ext h)

/-- Continuations that agree on the result may replace each other. -/
theorem runFrom_bind_congr {r : Render α} {f g : α → Render β} {s : RenderState}
    (h : ∀ a, (r.runFrom s).1 = .ok a → f a = g a) : (r >>= f).runFrom s = (r >>= g).runFrom s := by
  rcases hrun : r.runFrom s with ⟨_ | a, s'⟩
  · rw [runFrom_bind_of_error f hrun, runFrom_bind_of_error g hrun]
  · rw [runFrom_bind_of_ok f hrun, runFrom_bind_of_ok g hrun, h a (by rw [hrun])]

@[simp] theorem runFrom_report (ns : List Notice) (s : RenderState) :
    (report ns).runFrom s = (.ok (), { s with notices := s.notices ++ ns }) := rfl

/-- The step has this result from every state. -/
def Gives (r : Render α) (a : α) : Prop := ∀ s, (r.runFrom s).1 = .ok a

theorem gives_pure (a : α) : Gives (pure a) a := fun _ => rfl

theorem gives_report (ns : List Notice) : Gives (report ns) () := fun _ => rfl

theorem Gives.bind {r : Render α} {a : α} {f : α → Render β} {b : β} (hr : Gives r a)
    (hf : Gives (f a) b) : Gives (r >>= f) b := by
  intro s
  rcases hrun : r.runFrom s with ⟨o, s'⟩
  obtain rfl : o = .ok a := by simpa [hrun] using hr s
  rw [runFrom_bind_of_ok f hrun]
  exact hf s'

theorem gives_evaluate (ctx : RenderContext) (source : Text) :
    Gives (evaluate ctx source) (Expr.evaluate ctx.surroundings source).result :=
  (gives_report _).bind (gives_pure _)

/-- The value of a source, null where evaluation fails. -/
def valueAt (ctx : RenderContext) (source : Text) : Value :=
  (Expr.evaluate ctx.surroundings source).result.toOption.getD .null

theorem gives_valueOf (ctx : RenderContext) (source : Text) :
    Gives (valueOf ctx source) (valueAt ctx source) := by
  refine (gives_evaluate ctx source).bind ?_
  unfold valueAt
  cases (Expr.evaluate ctx.surroundings source).result with
  | ok v => exact gives_pure v
  | error e => cases e <;> exact (gives_report _).bind (gives_pure _)

/-- The step has some result from every state. -/
def Total (r : Render α) : Prop := ∀ s, ∃ a s', r.runFrom s = (.ok a, s')

theorem Gives.total {r : Render α} {a : α} (h : Gives r a) : Total r := by
  intro s
  rcases hrun : r.runFrom s with ⟨o, s'⟩
  obtain rfl : o = .ok a := by simpa [hrun] using h s
  exact ⟨a, s', rfl⟩

/-- What follows a step may take the result of the step from elsewhere. -/
theorem Gives.bind_eq {r : Render α} {a : α} (h : Gives r a) (f : α → Render β) :
    (r >>= f) = r >>= fun _ => f a := by
  refine ext fun s => runFrom_bind_congr fun b hb => ?_
  rw [h s] at hb
  rw [Except.ok.inj hb]

/-- Whatever result the step has, it is such. -/
def Ensures (r : Render α) (P : α → Prop) : Prop := ∀ s a, (r.runFrom s).1 = .ok a → P a

theorem ensures_pure {P : α → Prop} {a : α} (h : P a) : Ensures (pure a) P :=
  fun _ _ hb => Except.ok.inj hb ▸ h

theorem ensures_true (r : Render α) : Ensures r fun _ => True := fun _ _ _ => trivial

theorem Ensures.bind {r : Render α} {P : α → Prop} {f : α → Render β} {Q : β → Prop} (h : Ensures r P)
    (hf : ∀ a, P a → Ensures (f a) Q) : Ensures (r >>= f) Q := by
  intro s b hb
  rcases hrun : r.runFrom s with ⟨_ | a, s'⟩
  · rw [runFrom_bind_of_error f hrun] at hb
    cases hb
  · rw [runFrom_bind_of_ok f hrun] at hb
    exact hf a (h s a (by rw [hrun])) s' b hb

theorem total_pure (a : α) : Total (pure a : Render α) := (gives_pure a).total

theorem total_report (ns : List Notice) : Total (report ns) := (gives_report ns).total

theorem total_known (name : Text) : Total (known name) := fun s => ⟨_, s, rfl⟩

@[simp] theorem runFrom_get (s : RenderState) : (get : Render RenderState).runFrom s = (.ok s, s) := rfl

theorem runFrom_call? (name : Text) (args : List Value) (s : RenderState) :
    (call? name args).runFrom s =
      match s.registry.bind (Registry.call name args) with
      | none => (.ok none, s)
      | some (o, registry) => (.ok (some o.result),
          ⟨some registry, s.notices ++ o.reports.map .unserializable, s.calls ++ [(name, args)]⟩) := by
  rw [call?, runFrom_bind, runFrom_get]
  dsimp only
  cases s.registry.bind (Registry.call name args) <;> rfl

theorem total_call? (name : Text) (args : List Value) : Total (call? name args) := by
  intro s
  rw [runFrom_call?]
  split
  · exact ⟨_, _, rfl⟩
  · exact ⟨_, _, rfl⟩

/-- The step has no result, for one reason whatever the state. -/
def Fails (r : Render α) (h : Halt) : Prop := ∀ s, (r.runFrom s).1 = .error h

theorem fails_giveUp : Fails (giveUp : Render α) .tooDeep := fun _ => rfl

theorem fails_throw (h : Halt) : Fails (throw h : Render α) h := fun _ => rfl

theorem Fails.bind {r : Render α} {h : Halt} (hr : Fails r h) (f : α → Render β) : Fails (r >>= f) h := by
  intro s
  rcases hrun : r.runFrom s with ⟨o, s'⟩
  obtain rfl : o = .error h := by simpa [hrun] using hr s
  rw [runFrom_bind_of_error f hrun]

theorem Gives.bind_fails {r : Render α} {a : α} {f : α → Render β} {h : Halt} (hr : Gives r a)
    (hf : Fails (f a) h) : Fails (r >>= f) h := by
  intro s
  obtain ⟨b, s', hrun⟩ := hr.total s
  obtain rfl : b = a := by simpa [hrun] using hr s
  rw [runFrom_bind_of_ok f hrun]
  exact hf s'

/-- The step has this result from every state under a condition, and else fails for too many digits. -/
def Settles (r : Render α) (c : Bool) (a : α) : Prop :=
  ∀ s, (r.runFrom s).1 = if c then .ok a else .error (.fault .tooManyDigits)

theorem Gives.settles {r : Render α} {a : α} (h : Gives r a) : Settles r true a := h

theorem Settles.gives {r : Render α} {c : Bool} {a : α} (h : Settles r c a) (hc : c = true) : Gives r a :=
  fun s => (h s).trans (if_pos hc)

theorem Settles.fails {r : Render α} {c : Bool} {a : α} (h : Settles r c a) (hc : c = false) :
    Fails r (.fault .tooManyDigits) := fun s => (h s).trans (if_neg (by rw [hc]; decide))

/-- A condition and a result under it are settled at once. -/
theorem Settles.unique {r : Render α} {c d : Bool} {a b : α} (h : Settles r c a) (h' : Settles r d b) :
    c = d ∧ (d = true → a = b) := by
  have hsame := (h (.start none)).symm.trans (h' (.start none))
  cases c <;> cases d
  · exact ⟨rfl, fun h => nomatch h⟩
  · cases hsame
  · cases hsame
  · exact ⟨rfl, fun _ => Except.ok.inj hsame⟩

theorem Settles.congr {r : Render α} {c : Bool} {a b : α} (h : Settles r c a) (hab : c = true → a = b) :
    Settles r c b := by
  cases c with
  | false => exact h
  | true => exact hab rfl ▸ h

theorem Settles.bind {r : Render α} {c d : Bool} {a : α} {f : α → Render β} {b : β} (hr : Settles r c a)
    (hf : Settles (f a) d b) : Settles (r >>= f) (c && d) b := by
  cases c with
  | true =>
    cases d with
    | true => exact (hr.gives rfl).bind (hf.gives rfl)
    | false => exact (hr.gives rfl).bind_fails (hf.fails rfl)
  | false => exact (hr.fails rfl).bind f

theorem settles_ofExcept {o : Except Fault α} (h : ∀ f, o = .error f → f = .tooManyDigits) (a : α) :
    Settles (ofExcept o) o.isOk (o.toOption.getD a) := by
  intro s
  cases o with
  | ok a => rfl
  | error f => rw [h f rfl]; rfl

theorem settles_display (v : Value) : Settles (display v) v.showable v.display := by
  unfold display Value.display Value.showable
  cases hv : v.display? with
  | ok t =>
    rw [show (Except.ok t : Except Fault Text).isOk = true from rfl, Bool.or_true]
    exact (gives_pure t).settles
  | error f =>
    cases hcontainer : v.isContainer with
    | true => exact ((gives_report _).bind (gives_pure [])).settles
    | false =>
      rw [Value.display?_eq_error hv hcontainer]
      exact fails_throw _

end Render

end PageTemplate
