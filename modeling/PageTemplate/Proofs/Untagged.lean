import PageTemplate.Proofs.Reader
set_option autoImplicit false
/-!
A phase leaves a text alone that has none of its tags, and none of the tags of any phase stands in a text
in which nothing looks like a tag.
-/
namespace PageTemplate

open Piece

variable {render : RenderContext → Text → Render Text} {ctx : RenderContext} {t : Text}

theorem expandLoops_of_untagged (h : Untagged LoopTag.read t) : expandLoops render ctx t = pure t := by
  rw [expandLoops, h.scan_eq]
  clear h
  induction t with
  | nil => rw [chars_nil, Loop.parts, Loop.expandParts]
  | cons c cs ih =>
    rw [chars_cons, Loop.parts, Loop.expandParts, ih]
    rfl

theorem Conditional.pass_of_untagged (h : Untagged BranchTag.read t) : pass ctx t = pure (t, false) := by
  rw [pass, h.scan_eq]
  clear h
  induction t with
  | nil => rw [chars_nil, parts, resolve]
  | cons c cs ih =>
    rw [chars_cons, parts, resolve, ih]
    rfl

theorem resolveConditionals_of_untagged (h : Untagged BranchTag.read t) :
    resolveConditionals ctx t = pure t := by
  rw [resolveConditionals]
  cases ctx.maxConditionalPasses.toNat with
  | zero => rfl
  | succ n =>
    rw [Conditional.passes, Conditional.pass_of_untagged h]
    rfl

theorem resolveCalls_of_untagged (h : Untagged CallTag.read t) : resolveCalls ctx t = pure t := by
  rw [resolveCalls, h.scan_eq, replaceM_chars]

theorem after?_suffix {p x y : Text} (h : after? p x = some y) : y <:+ x :=
  ⟨p, (after?_eq_some_iff.1 h).symm⟩

namespace Tag

theorem remains_of_suffix {u : Text} (hu : u <:+ t) (h : remains u) : remains t := by
  obtain ⟨v, hv, ht⟩ := anywhere_iff.1 h
  exact anywhere_iff.2 ⟨v, hv.trans hu, ht⟩

theorem remains_of_closes {r v : Text} (h : after? opening t = some r) (hv : v <:+ r) (hc : closes v) :
    remains t := by
  refine anywhere_iff.2 ⟨t, List.suffix_rfl, ?_⟩
  rw [h]
  exact anywhere_iff.2 ⟨v, hv, hc⟩

theorem closes_of_after? {v rest : Text} (h : after? closing v = some rest) : closes v := by
  rw [closes, h, Option.isSome_some]

theorem remains_wrap (body rest : Text) : remains (wrap body ++ rest) := by
  refine remains_of_closes (after?_opening_wrap body rest) (List.suffix_append body _) ?_
  simp [closes, closing, after?]

/-- Recognises only what looks like a tag. -/
def Probed {α : Type} (read : TagReader α) : Prop := ∀ ⦃t : Text⦄ ⦃r : α × Text⦄, read t = some r → remains t

theorem Probed.untagged {α : Type} {read : TagReader α} (h : Probed read) (ht : remains t = false) :
    Untagged read t := by
  intro u hu _
  cases hr : read u with
  | none => rfl
  | some r =>
    have := remains_of_suffix hu (h hr)
    simp [ht] at this

theorem Bracketed.probed {α : Type} {read : TagReader α} (h : Bracketed read) : Probed read := by
  intro t r hr
  obtain ⟨body, -, rfl⟩ := h.shape hr
  exact remains_wrap body r.2

end Tag

theorem CallTag.probed_read : Tag.Probed CallTag.read := by
  intro t r h
  simp only [read, Option.bind_eq_bind, Option.bind_eq_some_iff] at h
  obtain ⟨r, hr, r₁, h₁, r₂, h₂, r₃, h₃, rest, hc, -⟩ := h
  refine Tag.remains_of_closes hr ?_ (Tag.closes_of_after? hc)
  have hclose : skipBlanks r₃ <:+ r₂ :=
    (skipBlanks_suffix r₃).trans ((after?_suffix h₃).trans (List.dropWhile_suffix _))
  have hopen : r₂ <:+ r₁ := (after?_suffix h₂).trans ((skipBlanks_suffix _).trans
    ((List.dropWhile_suffix _).trans (skipBlanks_suffix r₁)))
  exact hclose.trans (hopen.trans ((after?_suffix h₁).trans (skipBlanks_suffix r)))

namespace Variable

theorem closes_of_readAccented {r : Text × Text} (h : readAccented t = some r) :
    ∃ v, v <:+ t ∧ Tag.closes v := by
  induction t generalizing r with
  | nil => simp [readAccented] at h
  | cons c cs ih =>
    rw [readAccented] at h
    split at h
    · next rest hsome =>
      obtain ⟨u, hu, -⟩ := Option.bind_eq_some_iff.1 hsome
      exact ⟨c :: cs, List.suffix_rfl, Tag.closes_of_after? hu⟩
    · split at h
      · simp at h
      · obtain ⟨q, hq, -⟩ := Option.map_eq_some_iff.1 h
        obtain ⟨v, hv, hc⟩ := ih hq
        exact ⟨v, hv.trans (List.suffix_cons c cs), hc⟩

theorem probed_readEscaped : Tag.Probed readEscaped := by
  intro t r h
  simp only [readEscaped, Option.bind_eq_bind, Option.bind_eq_some_iff] at h
  obtain ⟨r, hr, r₁, h₁, q, hq, -⟩ := h
  obtain ⟨v, hv, hc⟩ := closes_of_readAccented hq
  have hinner := Tag.remains_of_closes h₁ hv hc
  exact Tag.remains_of_suffix ((skipBlanks_suffix r).trans (after?_suffix hr)) hinner

theorem probed_readKey (key : Text) : Tag.Probed (readKey key) := by
  intro t r h
  simp only [readKey, Option.bind_eq_bind, Option.bind_eq_some_iff] at h
  obtain ⟨r, hr, rest, hsome, -⟩ := h
  obtain ⟨n, -, hfound⟩ := List.exists_of_findSome?_eq_some hsome
  obtain ⟨r', hr', hc⟩ := Option.bind_eq_some_iff.1 hfound
  refine Tag.remains_of_closes hr ?_ (Tag.closes_of_after? hc)
  exact (skipBlanks_suffix r').trans ((after?_suffix hr').trans (List.drop_suffix n r))

theorem substituteKey_of_untagged {key : Text} (h : Untagged (readKey key) t) (value : Value) :
    substituteKey key value t = pure t := by
  rw [substituteKey, occurs_eq_false_iff.2 h]
  rfl

/-- The keys leave a text alone in which none of the safe ones has a tag. -/
theorem substituteKeys_of_untagged {es : Entries}
    (h : ∀ key ∈ Scope.keys es, isUnsafeName key = false → Untagged (readKey key) t) : substituteKeys es t = pure t := by
  induction es with
  | nil => rfl
  | cons e es ih =>
    obtain ⟨key, value⟩ := e
    cases key with
    | str key =>
      obtain ⟨hkey, hrest⟩ := List.forall_mem_cons.1 h
      rw [substituteKeys]
      split
      · exact ih hrest
      · next hsafe =>
        rw [substituteKey_of_untagged (hkey (Bool.not_eq_true _ ▸ hsafe)) value]
        exact ih hrest
    | _ => exact ih h

theorem substituteKeys_of_remains (es : Entries) (h : Tag.remains t = false) : substituteKeys es t = pure t :=
  substituteKeys_of_untagged fun key _ _ => (probed_readKey key).untagged h

end Variable

theorem substituteVariables_of_remains (h : Tag.remains t = false) : substituteVariables ctx t = pure t := by
  have hescaped := (Variable.probed_readEscaped.untagged h).replace_eq id
  have hpaths : Variable.substitutePaths ctx t = pure t := by
    rw [Variable.substitutePaths, (Variable.bracketed_readPath.probed.untagged h).scan_eq, replaceM_chars]
  have hempty : remove Variable.readEmpty t = t := (Variable.bracketed_readEmpty.probed.untagged h).replace_eq _
  have htags : Variable.evaluateTags ctx t = pure t := by
    rw [Variable.evaluateTags, (Variable.bracketed_readExpression.probed.untagged h).scan_eq, replaceM_chars]
  simp only [substituteVariables, hescaped, hpaths, pure_bind, Variable.substituteKeys_of_remains ctx.vars h,
    hempty, htags]

theorem Phase.apply_of_remains (phase : Phase) (h : Tag.remains t = false) :
    phase.apply render ctx t = pure t := by
  cases phase with
  | loops => exact expandLoops_of_untagged (LoopTag.bracketed_read.probed.untagged h)
  | conditionals => exact resolveConditionals_of_untagged (BranchTag.bracketed_read.probed.untagged h)
  | functions => exact resolveCalls_of_untagged (CallTag.probed_read.untagged h)
  | names => exact substituteVariables_of_remains h

/-- A pass leaves a text alone in which nothing looks like a tag. -/
theorem Pipeline.runOnce_of_remains (p : Pipeline) (h : Tag.remains t = false) :
    p.runOnce render ctx t = pure t := by
  rw [runOnce]
  induction p.phases with
  | nil => rfl
  | cons phase phases ih => rw [List.foldlM_cons, phase.apply_of_remains h, pure_bind, ih]

end PageTemplate
