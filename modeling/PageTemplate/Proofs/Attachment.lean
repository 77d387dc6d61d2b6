import Mathlib.Data.List.Induction
import PageTemplate.Logging
import PageTemplate.Proofs.History
set_option autoImplicit false
/-!
Which handler a log has. Whatever was configured and reset before, there is at most one, and it is the one that the
log remembers; it is for the target that was configured last, at the level that was given last, and it stays as long
as the target does.
-/
namespace PageTemplate.LogState

/-- The target of a handler for a file, or for the standard error stream; none for a path that leads nowhere. -/
def target? : Option Path → Option (Option Location)
  | none => some none
  | some p => p.location?.map some

/-- Can a handler for the target be set up with the given files? -/
def Opens (tree : FileTree) : Option Location → Prop
  | none => True
  | some l => ((openFile l).runOn tree).1.isOk

/-- Something done to a log. A configuration finds some files. -/
inductive Operation where
  | configure (name : Text) (file : Option Path) (tree : FileTree)
  | reset

def perform (s : LogState) : Operation → LogState
  | .configure name file tree => (s.configure (LogLevel.ofName name) file tree).1
  | .reset => s.reset

def run (s : LogState) (operations : List Operation) : LogState := operations.foldl perform s

/-- The level that a configuration sets. -/
def Operation.level? : Operation → Option LogLevel
  | .configure name file _ => (target? file).map fun _ => LogLevel.ofName name
  | .reset => none

/-- What is attached is what is remembered. -/
structure Tidy (s : LogState) : Prop where
  free : s.own = none → s.handlers = []
  held : ∀ n, s.own = some n → ∃ h, s.handlers = [h] ∧ h.number = n ∧ s.target = some h.target
  fresh : ∀ h ∈ s.handlers, h.number < s.made

variable {s : LogState} {level : LogLevel} {target : Option Location} {tree : FileTree}

theorem Tidy.length_le (h : Tidy s) : s.handlers.length ≤ 1 := by
  cases hown : s.own with
  | none => simp [h.free hown]
  | some n =>
    obtain ⟨handler, hhandlers, -⟩ := h.held n hown
    simp [hhandlers]

/-- An attached handler is the one that is remembered. -/
theorem Tidy.of_mem (h : Tidy s) {handler : LogHandler} (hmem : handler ∈ s.handlers) :
    s.handlers = [handler] ∧ s.own = some handler.number ∧ s.target = some handler.target := by
  cases hown : s.own with
  | none =>
    rw [h.free hown] at hmem
    nomatch hmem
  | some n =>
    obtain ⟨held, hhandlers, rfl, htarget⟩ := h.held n hown
    obtain rfl : handler = held := by simpa [hhandlers] using hmem
    exact ⟨hhandlers, rfl, htarget⟩

theorem Tidy.detach_handlers (h : Tidy s) : s.detach.handlers = [] := by
  cases hown : s.own with
  | none => simp [detach, h.free hown]
  | some n =>
    obtain ⟨handler, hhandlers, rfl, -⟩ := h.held n hown
    simp [detach, hhandlers, isOwn, hown]

theorem configure_eq {file : Option Path} (h : target? file = some target) :
    s.configure level file tree = s.attach level target tree := by
  cases file with
  | none =>
    obtain rfl := Option.some.inj h
    rfl
  | some p =>
    obtain ⟨l, hl, rfl⟩ := Option.map_eq_some_iff.1 h
    simp [configure, hl]

theorem configure_eq_of_none {file : Option Path} (h : target? file = none) :
    s.configure level file tree = (s, .error .unnameable, tree) := by
  cases file with
  | none => nomatch h
  | some p => simp [configure, Option.map_eq_none_iff.1 h]

/-- A target that is attached already keeps its handler. -/
theorem attach_of_mem (h : Tidy s) {handler : LogHandler} (hmem : handler ∈ s.handlers) :
    s.attach level handler.target tree =
      ({ s with level := level, handlers := [{ handler with level := level }] }, .ok (), tree) := by
  obtain ⟨hhandlers, hown, htarget⟩ := h.of_mem hmem
  simp [attach, adjust, isOwn, hown, htarget, hhandlers]

section New

variable (h : Tidy s) (hnew : ∀ handler ∈ s.handlers, handler.target ≠ target)

include h hnew

theorem own_target_ne : (s.own.isSome && s.target == some target) = false := by
  cases hown : s.own with
  | none => rfl
  | some n =>
    obtain ⟨held, hhandlers, -, htarget⟩ := h.held n hown
    simpa [htarget] using hnew held (by simp [hhandlers])

theorem attach_of_new : s.attach level target tree =
    match target with
    | none => (add level none ⟨level, [], none, s.target, s.made⟩, .ok (), tree)
    | some l =>
      (if ((openFile l).runOn tree).1.isOk then add level (some l) ⟨level, [], none, s.target, s.made⟩
        else ⟨level, [], none, s.target, s.made⟩, (openFile l).runOn tree) := by
  have hdetach : ({ s with level := level } : LogState).detach = ⟨level, [], none, s.target, s.made⟩ :=
    congrArg (fun handlers => (⟨level, handlers, none, s.target, s.made⟩ : LogState)) h.detach_handlers
  have hother : ¬ (s.own.isSome && s.target == some target) := by simp [own_target_ne h hnew]
  unfold attach
  dsimp only
  rw [if_neg hother, hdetach]
  cases target <;> rfl

theorem attach_of_opens (hopens : Opens tree target) :
    (s.attach level target tree).2.1 = .ok () ∧ (s.attach level target tree).1 =
      ⟨level, [⟨s.made, target, level⟩], some s.made, some target, s.made + 1⟩ := by
  rw [attach_of_new h hnew]
  cases target with
  | none => exact ⟨rfl, rfl⟩
  | some l =>
    have hok : ((openFile l).runOn tree).1.isOk := hopens
    dsimp only
    rw [if_pos hok]
    refine ⟨?_, rfl⟩
    cases hresult : ((openFile l).runOn tree).1 with
    | error f => simp [hresult, Except.isOk, Except.toBool] at hok
    | ok u => rfl

theorem attach_of_not_opens (hfails : ¬ Opens tree target) :
    (s.attach level target tree).1 = ⟨level, [], none, s.target, s.made⟩ := by
  rw [attach_of_new h hnew]
  cases target with
  | none => exact absurd trivial hfails
  | some l => exact if_neg hfails

end New

/-- Setting up a handler keeps what is attached and what is remembered in agreement. -/
theorem Tidy.attach (h : Tidy s) (level : LogLevel) (target : Option Location) (tree : FileTree) :
    Tidy (s.attach level target tree).1 := by
  by_cases hmem : ∃ handler ∈ s.handlers, handler.target = target
  · obtain ⟨handler, hmem, rfl⟩ := hmem
    obtain ⟨-, hown, htarget⟩ := h.of_mem hmem
    rw [attach_of_mem h hmem]
    refine ⟨fun hnone => ?_, fun n hn => ⟨_, rfl, ?_, htarget⟩, ?_⟩
    · simp [hown] at hnone
    · simpa [hown] using hn
    · simpa using h.fresh handler hmem
  · have hnew : ∀ handler ∈ s.handlers, handler.target ≠ target := fun handler hm heq => hmem ⟨handler, hm, heq⟩
    by_cases hopens : Opens tree target
    · rw [(attach_of_opens h hnew hopens).2]
      exact ⟨nofun, fun n hn => ⟨_, rfl, Option.some.inj hn, rfl⟩, by simp⟩
    · rw [attach_of_not_opens h hnew hopens]
      exact ⟨fun _ => rfl, nofun, nofun⟩

theorem Tidy.reset (h : Tidy s) : Tidy s.reset where
  free _ := h.detach_handlers
  held := nofun
  fresh handler hmem := by
    rw [LogState.reset, h.detach_handlers] at hmem
    nomatch hmem

theorem Tidy.perform (h : Tidy s) (o : Operation) : Tidy (s.perform o) := by
  cases o with
  | reset => exact h.reset
  | configure name file tree =>
    cases htarget : target? file with
    | none => simpa [LogState.perform, configure_eq_of_none htarget] using h
    | some target => simpa [LogState.perform, configure_eq htarget] using h.attach ..

theorem Tidy.run (h : Tidy s) (operations : List Operation) : Tidy (s.run operations) := by
  induction operations generalizing s with
  | nil => exact h
  | cons o operations ih => exact ih (h.perform o)

theorem attach_level (s : LogState) (level : LogLevel) (target : Option Location) (tree : FileTree) :
    (s.attach level target tree).1.level = level := by
  unfold attach
  dsimp only
  split
  · rfl
  · cases target with
    | none => rfl
    | some l =>
      dsimp only
      split <;> rfl

theorem perform_level (s : LogState) (o : Operation) : (s.perform o).level = o.level?.getD s.level := by
  cases o with
  | reset => rfl
  | configure name file tree =>
    cases htarget : target? file with
    | none => simp [perform, configure_eq_of_none htarget, Operation.level?, htarget]
    | some target => simp [perform, configure_eq htarget, Operation.level?, htarget, attach_level]

theorem run_concat (s : LogState) (operations : List Operation) (o : Operation) :
    s.run (operations ++ [o]) = (s.run operations).perform o := by
  simp [run]

theorem run_level (s : LogState) (operations : List Operation) :
    (s.run operations).level = (latest Operation.level? operations).getD s.level := by
  induction operations using List.reverseRecOn with
  | nil => rfl
  | append_singleton operations o ih =>
    rw [run_concat, perform_level, ih, latest_concat]
    cases o.level? <;> rfl

/-- Whatever was done before, a log has at most one handler and the level that was given last. After a configuration
whose file can be opened it has just one, for the target and at the level given, which is the handler attached before
exactly if that was for the same target. A reset takes the handler off and leaves the level. -/
theorem run_handlers (s : LogState) (hhandlers : s.handlers = []) (hown : s.own = none) (operations : List Operation) :
    (s.run operations).handlers.length ≤ 1 ∧
      (s.run operations).level = (latest Operation.level? operations).getD s.level ∧
      (∀ name file tree target, target? file = some target → Opens tree target →
        ((s.run operations).configure (LogLevel.ofName name) file tree).2.1 = .ok () ∧
          ∃ n, (s.run (operations ++ [.configure name file tree])).handlers = [⟨n, target, LogLevel.ofName name⟩] ∧
            (s.run (operations ++ [.configure name file tree])).level = LogLevel.ofName name ∧
            ∀ handler ∈ (s.run operations).handlers, handler.number = n ↔ handler.target = target) ∧
      (s.run (operations ++ [.reset])).handlers = [] ∧
      (s.run (operations ++ [.reset])).level = (s.run operations).level := by
  have hstart : Tidy s := ⟨fun _ => hhandlers, by simp [hown], by simp [hhandlers]⟩
  have h : Tidy (s.run operations) := hstart.run operations
  refine ⟨h.length_le, run_level s operations, fun name file tree target htarget hopens => ?_, ?_, ?_⟩
  · simp only [run_concat, perform, configure_eq htarget]
    by_cases hmem : ∃ handler ∈ (s.run operations).handlers, handler.target = target
    · obtain ⟨handler, hmem, rfl⟩ := hmem
      obtain ⟨honly, -⟩ := h.of_mem hmem
      rw [attach_of_mem h hmem]
      refine ⟨rfl, handler.number, rfl, rfl, ?_⟩
      simp [honly]
    · have hnew : ∀ handler ∈ (s.run operations).handlers, handler.target ≠ target :=
        fun handler hm heq => hmem ⟨handler, hm, heq⟩
      refine ⟨(attach_of_opens h hnew hopens).1, (s.run operations).made, ?_⟩
      rw [(attach_of_opens h hnew hopens).2]
      refine ⟨rfl, rfl, fun handler hm => ?_⟩
      exact iff_of_false (Nat.ne_of_lt (h.fresh handler hm)) (hnew handler hm)
  · rw [run_concat]
    exact h.detach_handlers
  · rw [run_concat]
    rfl

/-- A file takes the place of the error stream; an unknown level counts as information. -/
theorem run_handlers_sample :
    let s := start.run [.configure (text "debug") none .empty]
    let file : Path := ⟨false, [text "log"]⟩
    s.handlers = [⟨0, none, 10⟩] ∧ Opens .empty (some [text "log"]) ∧
      ∃ n, n ≠ 0 ∧ (s.perform (.configure (text "loud") (some file) .empty)).handlers =
        [⟨n, some [text "log"], LogLevel.info⟩] := by
  intro s file
  have hfirst : s.handlers = [⟨0, none, 10⟩] := by decide +kernel
  have hopens : Opens .empty (some [text "log"]) := by
    unfold Opens
    decide +kernel
  obtain ⟨-, -, hconfigure, -⟩ := run_handlers start rfl rfl [.configure (text "debug") none .empty]
  obtain ⟨-, n, hhandlers, -, hsame⟩ :=
    hconfigure (text "loud") (some file) .empty (some [text "log"]) (by decide +kernel) hopens
  refine ⟨hfirst, hopens, n, fun hn => ?_, ?_⟩
  · have hkept := (hsame ⟨0, none, 10⟩ (by rw [hfirst]; simp)).1 hn.symm
    nomatch hkept
  · have hlevel : LogLevel.ofName (text "loud") = LogLevel.info := by decide +kernel
    rwa [run_concat, hlevel] at hhandlers

end PageTemplate.LogState
