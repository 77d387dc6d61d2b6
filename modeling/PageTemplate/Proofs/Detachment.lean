import PageTemplate.Proofs.Attachment
set_option autoImplicit false
/-!
What a log is left with when its handler cannot be replaced. The old handler is taken off before the file of the new
one is opened, so a failure leaves none; only a path that leads nowhere is found out before.
-/
namespace PageTemplate.LogState

variable {s : LogState} {level : LogLevel} {target : Option Location} {tree : FileTree} {name : Text}
  {file : Option Path} {operations : List Operation} {o : Operation}

/-- Is the operation done without a failure? -/
def Accepts (s : LogState) : Operation → Prop
  | .configure name file tree => (s.configure (LogLevel.ofName name) file tree).2.1 = .ok ()
  | .reset => True

/-- Are all operations done without a failure, one after the other? -/
def AcceptsAll (s : LogState) : List Operation → Prop
  | [] => True
  | o :: operations => s.Accepts o ∧ (s.perform o).AcceptsAll operations

theorem acceptsAll_concat :
    s.AcceptsAll (operations ++ [o]) ↔ s.AcceptsAll operations ∧ (s.run operations).Accepts o := by
  induction operations generalizing s with
  | nil => simp [AcceptsAll, run]
  | cons first operations ih =>
    rw [List.cons_append, AcceptsAll, AcceptsAll, ih, and_assoc]
    rfl

/-- A configuration that fails leaves no handler, and one that does not fail leaves one. -/
theorem attach_handlers_eq_nil_iff (h : Tidy s) :
    (s.attach level target tree).1.handlers = [] ↔ (s.attach level target tree).2.1 ≠ .ok () := by
  by_cases hmem : ∃ handler ∈ s.handlers, handler.target = target
  · obtain ⟨handler, hmem, rfl⟩ := hmem
    simp [attach_of_mem h hmem]
  · have hnew : ∀ handler ∈ s.handlers, handler.target ≠ target := fun handler hm heq => hmem ⟨handler, hm, heq⟩
    by_cases hopens : Opens tree target
    · simp [attach_of_opens h hnew hopens]
    · refine iff_of_true (by rw [attach_of_not_opens h hnew hopens]) fun hok => hopens ?_
      rw [attach_of_new h hnew] at hok
      cases target with
      | none => trivial
      | some l =>
        have hopened : ((openFile l).runOn tree).1 = .ok () := hok
        rw [Opens, hopened]
        rfl

/-- After operations without a failure a log has no handler only if there was none of them or the last one took it
off. -/
theorem run_handlers_eq_nil_iff (h : Tidy s) (hhandlers : s.handlers = []) (haccepts : s.AcceptsAll operations) :
    (s.run operations).handlers = [] ↔ ∀ o, operations.getLast? = some o → o = .reset := by
  obtain rfl | ⟨operations, o, rfl⟩ := List.eq_nil_or_concat operations
  · simp [run, hhandlers]
  · rw [List.concat_eq_append] at haccepts ⊢
    have hrun := h.run operations
    have hlast := (acceptsAll_concat.1 haccepts).2
    rw [run_concat, List.getLast?_concat]
    cases o with
    | reset => simp [perform, reset, hrun.detach_handlers]
    | configure name file tree =>
      refine iff_of_false ?_ (by simp)
      cases htarget : target? file with
      | none => simp [Accepts, configure_eq_of_none htarget] at hlast
      | some target =>
        rw [Accepts, configure_eq htarget] at hlast
        rw [perform, configure_eq htarget, attach_handlers_eq_nil_iff hrun]
        exact not_not_intro hlast

/-- A configuration that fails leaves no handler, unless its path leads nowhere, which changes nothing. So the handlers
are the same as before only for such a path or where there was no handler. -/
theorem run_failed (hhandlers : s.handlers = []) (hown : s.own = none) (haccepts : s.AcceptsAll operations)
    (hfails : ¬(s.run operations).Accepts (.configure name file tree)) :
    (target? file = none → s.run (operations ++ [.configure name file tree]) = s.run operations) ∧
      (target? file ≠ none → (s.run (operations ++ [.configure name file tree])).handlers = []) ∧
      ((s.run (operations ++ [.configure name file tree])).handlers = (s.run operations).handlers ↔
        target? file = none ∨ ∀ o, operations.getLast? = some o → o = .reset) := by
  have hstart : Tidy s := ⟨fun _ => hhandlers, by simp [hown], by simp [hhandlers]⟩
  rw [run_concat, ← run_handlers_eq_nil_iff hstart hhandlers haccepts, perform]
  cases htarget : target? file with
  | none => simp [configure_eq_of_none htarget]
  | some target =>
    rw [Accepts, configure_eq htarget] at hfails
    have hnone := (attach_handlers_eq_nil_iff (hstart.run operations)).2 hfails
    rw [configure_eq htarget, hnone]
    simp only [reduceCtorEq, ne_eq, not_false_eq_true, false_implies, forall_const, false_or, true_and]
    exact eq_comm

/-- The root is a directory and no file. Where the handler was taken off before there is nothing to lose. -/
theorem run_failed_after_reset :
    let operations : List Operation := [.configure (text "info") none .empty, .reset]
    let last : Operation := .configure (text "info") (some ⟨false, []⟩) .empty
    start.AcceptsAll operations ∧ ¬(start.run operations).Accepts last ∧
      (start.run (operations ++ [last])).handlers = (start.run operations).handlers := by
  intro operations last
  have haccepts : start.AcceptsAll operations := ⟨rfl, trivial, trivial⟩
  have hfails : ¬(start.run operations).Accepts last := by
    unfold Accepts
    decide +kernel
  obtain ⟨-, -, hsame⟩ := run_failed rfl rfl haccepts hfails
  exact ⟨haccepts, hfails, hsame.2 (.inr (by simp [operations]))⟩

/-- The handler for the error stream gets lost. -/
theorem handlers_lost :
    let operations : List Operation := [.configure (text "info") none .empty]
    let last : Operation := .configure (text "info") (some ⟨false, []⟩) .empty
    start.AcceptsAll operations ∧ ¬(start.run operations).Accepts last ∧
      (start.run operations).handlers = [⟨0, none, LogLevel.info⟩] ∧
      (start.run (operations ++ [last])).handlers = [] := by
  refine ⟨⟨rfl, trivial⟩, ?_, by decide +kernel, by decide +kernel⟩
  unfold Accepts
  decide +kernel

end PageTemplate.LogState
