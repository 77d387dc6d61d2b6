import PageTemplate.Site.Engine
set_option autoImplicit false
/-!
Laws of actions on files and on a site. An action is run from a state; it ends with a result or an error, and
in both cases leaves a state, from which the next one goes on.
-/
namespace PageTemplate

variable {α β : Type}

@[simp] theorem mapError_ok {ε ε' : Type} (f : ε → ε') (x : α) :
    (Except.ok x : Except ε α).mapError f = .ok x := rfl

@[simp] theorem mapError_error {ε ε' : Type} (f : ε → ε') (e : ε) :
    (Except.error e : Except ε α).mapError f = .error (f e) := rfl

namespace FileAction

@[simp] theorem runOn_get (t : FileTree) : (get : FileAction FileTree).runOn t = (.ok t, t) := rfl

@[simp] theorem runOn_inspect (f : FileTree → Except FileFailure α) (t : FileTree) :
    (inspect f).runOn t = (f t, t) := rfl

theorem runOn_bind (a : FileAction α) (f : α → FileAction β) (t : FileTree) :
    (a >>= f).runOn t =
      match a.runOn t with
      | (.ok x, t') => (f x).runOn t'
      | (.error e, t') => (.error e, t') := by
  simp only [runOn, ExceptT.run_bind, StateT.run_bind]
  rcases a.run.run t with ⟨_ | x, t'⟩ <;> rfl

theorem runOn_tryCatch (a : FileAction α) (handle : FileFailure → FileAction α) (t : FileTree) :
    (tryCatch a handle).runOn t =
      match a.runOn t with
      | (.ok x, t') => (.ok x, t')
      | (.error e, t') => (handle e).runOn t' := by
  unfold runOn ExceptT.run StateT.run
  change ExceptT.tryCatch a handle t = _
  simp only [ExceptT.tryCatch, ExceptT.mk, bind, StateT.bind]
  cases a t with
  | mk r t' => cases r <;> rfl

end FileAction

namespace SiteAction

/-- The result or the error of an action, and the site it leaves. -/
def runFrom (a : SiteAction α) (s : Site) : Except SiteError α × Site := a.run.run s

@[simp] theorem runFrom_pure (a : α) (s : Site) : (pure a : SiteAction α).runFrom s = (.ok a, s) := rfl

@[simp] theorem runFrom_throw (e : SiteError) (s : Site) : (throw e : SiteAction α).runFrom s = (.error e, s) := rfl

@[simp] theorem runFrom_get (s : Site) : (get : SiteAction Site).runFrom s = (.ok s, s) := rfl

@[simp] theorem runFrom_modify (f : Site → Site) (s : Site) :
    (modify f : SiteAction Unit).runFrom s = (.ok (), f s) := rfl

@[simp] theorem runFrom_report (ns : List Notice) (s : Site) :
    (report ns).runFrom s = (.ok (), { s with notices := s.notices ++ ns }) := rfl

@[simp] theorem runFrom_onContext (f : EngineContext → EngineContext) (s : Site) :
    (onContext f).runFrom s = (.ok (), { s with context := f s.context }) := rfl

@[simp] theorem runFrom_fail (f : ResolutionFailure) (s : Site) :
    (fail f : SiteAction α).runFrom s = (.error (.resolution f), s) := rfl

@[simp] theorem runFrom_ofFile (r : Except FileFailure α) (s : Site) :
    (ofFile r).runFrom s = (r.mapError .file, s) := by
  cases r <;> rfl

@[simp] theorem runFrom_locate (p : Path) (s : Site) :
    (locate p).runFrom s = (p.location?.elim (.error (.file .unnameable)) .ok, s) := by
  rw [locate, runFrom_ofFile]
  cases p.location? <;> rfl

@[simp] theorem runFrom_onTree (a : FileAction α) (s : Site) :
    (onTree a).runFrom s = ((a.runOn s.tree).1.mapError .file, { s with tree := (a.runOn s.tree).2 }) :=
  runFrom_ofFile (a.runOn s.tree).1 { s with tree := (a.runOn s.tree).2 }

theorem runFrom_bind (a : SiteAction α) (f : α → SiteAction β) (s : Site) :
    (a >>= f).runFrom s =
      match a.runFrom s with
      | (.ok x, s') => (f x).runFrom s'
      | (.error e, s') => (.error e, s') := by
  simp only [runFrom, ExceptT.run_bind, StateT.run_bind]
  rcases a.run.run s with ⟨_ | x, s'⟩ <;> rfl

theorem runFrom_tryCatch (a : SiteAction α) (handle : SiteError → SiteAction α) (s : Site) :
    (tryCatch a handle).runFrom s =
      match a.runFrom s with
      | (.ok x, s') => (.ok x, s')
      | (.error e, s') => (handle e).runFrom s' := by
  unfold runFrom ExceptT.run StateT.run
  change ExceptT.tryCatch a handle s = _
  simp only [ExceptT.tryCatch, ExceptT.mk, bind, StateT.bind]
  cases a s with
  | mk r s' => cases r <;> rfl

theorem runFrom_tryFinally (a : SiteAction α) (b : SiteAction β) (s : Site) :
    (tryFinally a b).runFrom s =
      match b.runFrom (a.runFrom s).2 with
      | (.ok _, s') => ((a.runFrom s).1, s')
      | (.error e, s') => (.error e, s') := by
  unfold runFrom ExceptT.run StateT.run tryFinally
  simp only [tryFinally', Functor.map, ExceptT.map, ExceptT.mk, bind, StateT.bind]
  cases a s with
  | mk r s' =>
    cases r with
    | error e =>
      simp only [pure]
      cases b s' with
      | mk q s'' => cases q <;> rfl
    | ok x =>
      simp only [pure]
      cases b s' with
      | mk q s'' => cases q <;> rfl

end SiteAction

end PageTemplate
