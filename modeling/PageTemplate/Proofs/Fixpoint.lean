import PageTemplate.Proofs.Composition
import PageTemplate.Proofs.Untagged
import PageTemplate.Proofs.Visibility
set_option autoImplicit false
/-!
Where passes stop before their limit they have reached a fixpoint. They stop after a pass that changes
nothing, which would change nothing again, since with pure functions a pass is a function of the text; or
they stop at a text in which nothing looks like a tag, and such a text no phase changes.
-/
namespace PageTemplate

namespace Registered

/-- The calls that were made make no difference to a function. -/
def Pure : Registered → Prop
  | .function _ run => ∀ h h', run h = run h'
  | .plain _ => True

theorem Pure.outcome_eq {item : Registered} (hp : item.Pure) (h h' : CallHistory) (args : List Value) :
    item.outcome h args = item.outcome h' args := by
  cases item with
  | function id run => exact congrFun (hp h h') args
  | plain v => rfl

end Registered

namespace Registry

theorem find?_of_items_eq {r r' : Registry} (h : r.items = r'.items) (name : Text) :
    r.find? name = r'.find? name := by
  rw [find?, find?, h]

theorem mem_items_of_find? {r : Registry} {name : Text} {item : Registered} (h : r.find? name = some item) :
    (name, item) ∈ r.items := by
  obtain ⟨l₁, l₂, hitems, -⟩ := List.lookup_eq_some_iff.1 (Option.filter_eq_some_iff.1 h).1
  rw [hitems]
  exact List.mem_append_right _ List.mem_cons_self

end Registry

namespace RenderState

/-- The functions that a page may call. -/
def items (s : RenderState) : Option (List (Text × Registered)) := s.registry.map Registry.items

def Pure (s : RenderState) : Prop := ∀ is, s.items = some is → ∀ i ∈ is, i.2.Pure

theorem Pure.of_items_eq {s s' : RenderState} (hs : s.Pure) (h : s'.items = s.items) : s'.Pure :=
  fun is his => hs is (h ▸ his)

theorem registry_cases {s s' : RenderState} (h : s'.items = s.items) :
    s'.registry = none ∧ s.registry = none ∨
      ∃ r' r, s'.registry = some r' ∧ s.registry = some r ∧ r'.items = r.items := by
  unfold items at h
  cases h' : s'.registry with
  | none =>
    rw [h', Option.map_none, eq_comm, Option.map_eq_none_iff] at h
    exact .inl ⟨rfl, h⟩
  | some r' =>
    rw [h', Option.map_some, eq_comm, Option.map_eq_some_iff] at h
    obtain ⟨r, h₀, hr⟩ := h
    exact .inr ⟨r', r, rfl, h₀, hr.symm⟩

end RenderState

/-- With pure functions the result depends on the state through the functions alone, and these stay. -/
def Steady {α : Type} (r : Render α) : Prop :=
  ∀ s s', s.Pure → s'.items = s.items →
    (r.runFrom s').1 = (r.runFrom s).1 ∧ (r.runFrom s').2.items = s.items

section Steps

open Render

variable {α β : Type}

theorem steady_pure (a : α) : Steady (pure a : Render α) := fun _ _ _ h => ⟨rfl, h⟩

theorem steady_report (ns : List Notice) : Steady (report ns) := fun _ _ _ h => ⟨rfl, h⟩

theorem Steady.bind {r : Render α} {f : α → Render β} (hr : Steady r) (hf : ∀ a, Steady (f a)) :
    Steady (r >>= f) := by
  intro s s' hs h
  obtain ⟨heq, hitems'⟩ := hr s s' hs h
  obtain ⟨-, hitems⟩ := hr s s hs rfl
  rcases hrun : r.runFrom s with ⟨o, s₁⟩
  rcases hrun' : r.runFrom s' with ⟨o', s₁'⟩
  rw [hrun] at heq hitems
  rw [hrun'] at heq hitems'
  obtain rfl : o' = o := heq
  cases o' with
  | error e =>
    rw [runFrom_bind_of_error f hrun, runFrom_bind_of_error f hrun']
    exact ⟨rfl, hitems'⟩
  | ok a =>
    rw [runFrom_bind_of_ok f hrun, runFrom_bind_of_ok f hrun']
    obtain ⟨hsame, hkept⟩ := hf a s₁ s₁' (hs.of_items_eq hitems) (hitems'.trans hitems.symm)
    exact ⟨hsame, hkept.trans hitems⟩

theorem steady_known (name : Text) : Steady (known name) := by
  intro s s' _ h
  refine ⟨?_, h⟩
  have hfound :
      (s'.registry.bind (Registry.find? name)).isSome = (s.registry.bind (Registry.find? name)).isSome := by
    rcases RenderState.registry_cases h with ⟨h', h₀⟩ | ⟨r', r, h', h₀, hr⟩
    · rw [h', h₀]
    · rw [h', h₀, Option.bind_some, Option.bind_some, Registry.find?_of_items_eq hr]
  exact congrArg Except.ok hfound

theorem steady_call? (name : Text) (args : List Value) : Steady (call? name args) := by
  intro s s' hs h
  rw [runFrom_call?, runFrom_call?]
  rcases RenderState.registry_cases h with ⟨h', h₀⟩ | ⟨r', r, h', h₀, hr⟩
  · rw [h', h₀]
    exact ⟨rfl, h⟩
  · rw [h', h₀, Option.bind_some, Option.bind_some, Registry.call, Registry.call, Registry.find?_of_items_eq hr]
    cases hfound : r.find? name with
    | none => exact ⟨rfl, h⟩
    | some item =>
      have hp : item.Pure := hs r.items (congrArg (Option.map _) h₀) _ (Registry.mem_items_of_find? hfound)
      refine ⟨?_, ?_⟩
      · exact congrArg (fun o : CallOutcome => Except.ok (some o.result)) (hp.outcome_eq r'.calls r.calls args)
      · show some r'.items = s.items
        rw [hr, RenderState.items, h₀]
        rfl

theorem Composed.steady {render : Renderer} (hr : ∀ ctx t, Steady (render ctx t))
    {act : Renderer → Render α} (h : Composed act) : Steady (act render) := by
  induction h with
  | pure a => exact steady_pure a
  | bind _ _ ih ihf => exact ih.bind ihf
  | overlong => exact fun _ _ _ h => ⟨rfl, h⟩
  | report ns => exact steady_report ns
  | known name => exact steady_known name
  | call? name args => exact steady_call? name args
  | render ctx t => exact hr ctx t

end Steps

namespace Pipeline

open Render

variable (p : Pipeline) (ctx : RenderContext)

theorem steady_execute (depth : Nat) (t : Text) : Steady (p.execute depth ctx t) := by
  induction depth generalizing ctx t with
  | zero => exact fun _ _ _ h => ⟨rfl, h⟩
  | succ depth ih => exact (Composed.repeatPasses ctx p p.maxPasses.toNat t).steady ih

theorem steady_runOnce (depth : Nat) (t : Text) : Steady (p.runOnce (p.execute depth) ctx t) :=
  (Composed.runOnce ctx p t).steady (p.steady_execute · depth ·)

/-- Do the passes end before the limit? -/
def stops (render : Renderer) : Nat → Text → RenderState → Bool
  | 0, _, _ => false
  | n + 1, t, s =>
    match (p.runOnce render ctx t).runFrom s with
    | (.error _, _) => false
    | (.ok next, s') => next = t || !Tag.remains next || stops render n next s'

variable {p ctx} {render : Renderer}

/-- Passes that do not end before the limit report it at the end. -/
theorem reports_passLimit (n : Nat) {t r : Text} {s : RenderState} (hstop : p.stops ctx render n t s = false)
    (hr : ((p.repeatPasses render ctx n t).runFrom s).1 = .ok r) :
    ∃ ns, ((p.repeatPasses render ctx n t).runFrom s).2.notices = ns ++ [.passLimit p.maxPasses] := by
  induction n generalizing t s with
  | zero => exact ⟨s.notices, rfl⟩
  | succ n ih =>
    rcases hrun : (p.runOnce render ctx t).runFrom s with ⟨_ | next, s'⟩
    · rw [repeatPasses, runFrom_bind_of_error _ hrun] at hr
      cases hr
    · simp only [stops, hrun, Bool.or_eq_false_iff] at hstop
      rw [repeatPasses, runFrom_bind_of_ok _ hrun] at hr ⊢
      simp only [hstop.1, Bool.or_self, Bool.false_eq_true, if_false] at hr ⊢
      exact ih hstop.2 hr

/-- Passes that end before the limit end with a pass that changed nothing or left nothing like a tag. -/
theorem last_pass (hsteady : ∀ t, Steady (p.runOnce render ctx t)) (n : Nat) {t r : Text} {s : RenderState}
    (hp : s.Pure) (hstop : p.stops ctx render n t s)
    (hr : ((p.repeatPasses render ctx n t).runFrom s).1 = .ok r) :
    Tag.remains r = false ∨
      ∃ s', s'.items = s.items ∧ ((p.runOnce render ctx r).runFrom s').1 = .ok r := by
  induction n generalizing t s with
  | zero => simp [stops] at hstop
  | succ n ih =>
    obtain ⟨-, hitems⟩ := hsteady t s s hp rfl
    rcases hrun : (p.runOnce render ctx t).runFrom s with ⟨_ | next, s'⟩
    · simp [stops, hrun] at hstop
    · rw [hrun] at hitems
      rw [repeatPasses, runFrom_bind_of_ok _ hrun] at hr
      split at hr
      · rename_i hends
        obtain rfl := Except.ok.inj hr
        rcases Bool.or_eq_true_iff.1 hends with hsame | hnone
        · obtain rfl := of_decide_eq_true hsame
          exact .inr ⟨s, rfl, congrArg Prod.fst hrun⟩
        · exact .inl (by simpa using hnone)
      · rename_i hends
        have hrest : p.stops ctx render n next s' := by simpa [stops, hrun, hends] using hstop
        obtain hnone | ⟨s₀, h₀, hfix⟩ := ih (hp.of_items_eq hitems) hrest hr
        · exact .inl hnone
        · exact .inr ⟨s₀, h₀.trans hitems, hfix⟩

theorem repeatPasses_of_runOnce {n : Nat} (hn : n ≠ 0) {r : Text} {s : RenderState}
    (h : ((p.runOnce render ctx r).runFrom s).1 = .ok r) :
    ((p.repeatPasses render ctx n r).runFrom s).1 = .ok r := by
  cases n with
  | zero => exact absurd rfl hn
  | succ n =>
    rcases hrun : (p.runOnce render ctx r).runFrom s with ⟨o, s'⟩
    obtain rfl : o = .ok r := by simpa [hrun] using h
    rw [repeatPasses, runFrom_bind_of_ok _ hrun, decide_eq_true rfl, Bool.true_or]
    rfl

/-- With pure functions, where passes end before their limit the result is a fixpoint of one more pass
over all phases, and of execution, whatever the calls that were made in between. -/
theorem execute_fixpoint (maxPasses : Int) (depth : Nat) (ctx : RenderContext) (t r : Text)
    (s s' : RenderState) (hp : s.Pure)
    (hstop : (standard maxPasses).stops ctx ((standard maxPasses).execute depth)
      (standard maxPasses).maxPasses.toNat t s)
    (hr : (((standard maxPasses).execute (depth + 1) ctx t).runFrom s).1 = .ok r)
    (hs : s'.items = s.items) :
    (((standard maxPasses).runOnce ((standard maxPasses).execute depth) ctx r).runFrom s').1 = .ok r ∧
      (((standard maxPasses).execute (depth + 1) ctx r).runFrom s').1 = .ok r := by
  have hpass : (((standard maxPasses).runOnce ((standard maxPasses).execute depth) ctx r).runFrom s').1 =
      .ok r := by
    obtain hnone | ⟨s₀, h₀, hfix⟩ := last_pass (steady_runOnce _ ctx depth) _ hp hstop hr
    · rw [runOnce_of_remains _ hnone]
      rfl
    · obtain ⟨hsame, -⟩ := steady_runOnce _ ctx depth r s₀ s' (hp.of_items_eq h₀) (hs.trans h₀.symm)
      exact hsame.trans hfix
  have hn : (standard maxPasses).maxPasses.toNat ≠ 0 := by
    intro hzero
    rw [hzero] at hstop
    simp [stops] at hstop
  exact ⟨hpass, repeatPasses_of_runOnce hn hpass⟩

theorem pure_echoing : echoing.Pure := by
  intro is his i hi
  obtain rfl := Option.some.inj his
  obtain rfl := List.mem_singleton.1 hi
  exact fun _ _ => rfl

def fedContext : RenderContext :=
  { bareContext with
    vars := [(.str (text "a"), .str (text "\x7b\x7buser: f(b)\x7d\x7d")), (.str (text "b"), .nat 1)] }

def fedPage : Text :=
  text "\x7b\x7bfor i in [b]\x7d\x7d\x7b\x7ba\x7d\x7d\x7b\x7bendfor\x7d\x7d\x7b\x7bfor i in b\x7d\x7d"

theorem execute_fixpoint_fed :
    (((standard 10).runOnce ((standard 10).execute 1) fedContext (text "[1]\x7b\x7bfor i in b\x7d\x7d")).runFrom
        (((standard 10).execute 2 fedContext fedPage).runFrom echoing).2).1 =
          .ok (text "[1]\x7b\x7bfor i in b\x7d\x7d") ∧
      (((standard 10).execute 2 fedContext (text "[1]\x7b\x7bfor i in b\x7d\x7d")).runFrom
        (((standard 10).execute 2 fedContext fedPage).runFrom echoing).2).1 =
          .ok (text "[1]\x7b\x7bfor i in b\x7d\x7d") :=
  execute_fixpoint 10 1 fedContext fedPage _ echoing _ pure_echoing (by decide +kernel) (by decide +kernel)
    (steady_execute _ fedContext 2 fedPage echoing echoing pure_echoing rfl).2

end Pipeline

end PageTemplate
