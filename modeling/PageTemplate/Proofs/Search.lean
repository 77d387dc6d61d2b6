import PageTemplate.Text.Search
set_option autoImplicit false
/-!
Where a text is cut. The part before the cut and the part behind it are what was there around the first
occurrence; and a stretch in which no occurrence starts, whatever stands behind it, is passed over as a whole.
-/
namespace PageTemplate

variable {needle x y before rest : Text}

theorem cut?_eq_some {hay : Text} (h : cut? needle hay = some (before, rest)) : hay = before ++ needle ++ rest := by
  induction hay generalizing before with
  | nil =>
    unfold cut? at h
    split at h
    · next he =>
      obtain ⟨rfl, rfl⟩ := Prod.mk.inj (Option.some.inj h)
      simp_all
    · cases h
  | cons c cs ih =>
    unfold cut? at h
    split at h
    · next r hr =>
      obtain ⟨rfl, rfl⟩ := Prod.mk.inj (Option.some.inj h)
      exact after?_eq_some_iff.1 hr
    · obtain ⟨⟨b, r⟩, hb, he⟩ := Option.map_eq_some_iff.1 h
      obtain ⟨rfl, rfl⟩ := Prod.mk.inj he
      rw [ih hb]
      rfl

theorem cut?_self (needle rest : Text) : cut? needle (needle ++ rest) = some ([], rest) := by
  cases hay : needle ++ rest with
  | nil =>
    obtain ⟨rfl, rfl⟩ := List.append_eq_nil_iff.1 hay
    rfl
  | cons c cs => rw [cut?, after?_eq_some_iff.2 hay.symm]

/-- No occurrence starts in a text if another one follows it. -/
def Clear (needle x y : Text) : Prop := ∀ u, u <:+ x → u ≠ [] → after? needle (u ++ y) = none

theorem cut?_of_clear (h : Clear needle x y) :
    cut? needle (x ++ y) = (cut? needle y).map fun (before, rest) => (x ++ before, rest) := by
  induction x with
  | nil => simp
  | cons c cs ih =>
    have hhere : after? needle (c :: (cs ++ y)) = none := h (c :: cs) List.suffix_rfl (by simp)
    rw [List.cons_append, cut?, hhere, ih fun u hu => h u (hu.trans (List.suffix_cons c cs))]
    cases cut? needle y <;> rfl

theorem Clear.cons {c : Char} (h : after? needle (c :: (x ++ y)) = none) (hx : Clear needle x y) :
    Clear needle (c :: x) y := by
  intro u hu hne
  rcases List.suffix_cons_iff.1 hu with rfl | hu
  · exact h
  · exact hx u hu hne

theorem Clear.append {z : Text} (hx : Clear needle x (y ++ z)) (hy : Clear needle y z) : Clear needle (x ++ y) z := by
  induction x with
  | nil => exact hy
  | cons c cs ih =>
    have hhere : after? needle (c :: cs ++ (y ++ z)) = none := hx (c :: cs) List.suffix_rfl (by simp)
    exact .cons (by simpa using hhere) (ih fun u hu => hx u (hu.trans (List.suffix_cons c cs)))

theorem clear_of_head {c : Char} {cs : Text} (h : c ∉ x) : Clear (c :: cs) x y := by
  intro u hu hne
  cases u with
  | nil => exact absurd rfl hne
  | cons d ds =>
    have hd : c ≠ d := fun he => h (he ▸ hu.subset List.mem_cons_self)
    simp [after?, hd]

theorem cut?_eq_none {c : Char} {t : Text} (h : c ∉ t) : cut? [c] t = none := by
  have hcut : cut? [c] (t ++ []) = _ := cut?_of_clear (clear_of_head h)
  rwa [List.append_nil] at hcut

theorem cut?_append {c : Char} {t : Text} (h : c ∉ t) (rest : Text) : cut? [c] (t ++ c :: rest) = some (t, rest) := by
  have hself : cut? [c] (c :: rest) = some ([], rest) := cut?_self [c] rest
  rw [cut?_of_clear (clear_of_head h), hself]
  simp

theorem cut?_isSome_iff {c : Char} {t : Text} : (cut? [c] t).isSome ↔ c ∈ t := by
  refine ⟨fun h => ?_, fun h => ?_⟩
  · obtain ⟨⟨before, rest⟩, hcut⟩ := Option.isSome_iff_exists.1 h
    rw [cut?_eq_some hcut]
    simp
  · obtain ⟨before, rest, rfl, hfirst⟩ := List.eq_append_cons_of_mem h
    rw [cut?_append hfirst]
    rfl

theorem after?_eq_none_iff {t : Text} : after? needle t = none ↔ ¬ needle <+: t := by
  rw [Option.eq_none_iff_forall_ne_some]
  constructor
  · rintro h ⟨rest, ht⟩
    exact h rest (after?_eq_some_iff.2 ht.symm)
  · exact fun h rest hrest => h ⟨rest, (after?_eq_some_iff.1 hrest).symm⟩

theorem cut?_eq_none_iff {hay : Text} : cut? needle hay = none ↔ ¬ needle <:+: hay := by
  induction hay with
  | nil => cases needle <;> simp [cut?]
  | cons c cs ih =>
    rw [List.infix_cons_iff, not_or, ← after?_eq_none_iff, ← ih, cut?]
    cases after? needle (c :: cs) <;> simp

/-- Nothing is found in front of the first occurrence. -/
theorem not_infix_of_cut? {hay : Text} (hne : needle ≠ []) (h : cut? needle hay = some (before, rest)) :
    ¬ needle <:+: before := by
  induction hay generalizing before with
  | nil => simp [cut?, hne] at h
  | cons c cs ih =>
    rw [cut?] at h
    cases hhere : after? needle (c :: cs) with
    | some r =>
      simp only [hhere, Option.some.injEq, Prod.mk.injEq] at h
      simpa [← h.1] using hne
    | none =>
      simp only [hhere, Option.map_eq_some_iff, Prod.mk.injEq, Prod.exists] at h
      obtain ⟨b, r, hcut, rfl, rfl⟩ := h
      have hprefix : c :: b <+: c :: cs := ⟨needle ++ r, by rw [cut?_eq_some hcut]; simp⟩
      rw [List.infix_cons_iff]
      rintro (hfront | hbehind)
      · exact after?_eq_none_iff.1 hhere (hfront.trans hprefix)
      · exact ih hcut hbehind

/-- An occurrence that starts behind a text is found without it. -/
theorem cut?_of_append {x y : Text} (h : cut? needle (x ++ y) = some (x ++ before, rest)) :
    cut? needle y = some (before, rest) := by
  induction x with
  | nil => exact h
  | cons c cs ih =>
    rw [List.cons_append, cut?] at h
    cases hhere : after? needle (c :: (cs ++ y)) with
    | some r => simp [hhere] at h
    | none =>
      simp only [hhere, Option.map_eq_some_iff, Prod.mk.injEq, Prod.exists, List.cons_append, List.cons.injEq,
        true_and] at h
      obtain ⟨b, r, hcut, rfl, rfl⟩ := h
      exact ih hcut

theorem notMem_of_cut? {c : Char} {hay : Text} (h : cut? [c] hay = some (before, rest)) : c ∉ before := by
  intro hc
  obtain ⟨x, y, rfl⟩ := List.append_of_mem hc
  exact not_infix_of_cut? (by simp) h ⟨x, y, by simp⟩

theorem splitAt_ne_nil (separator hay : Text) : splitAt separator hay ≠ [] := by
  unfold splitAt
  split
  · simp
  · split <;> simp

theorem splitAt_of_none {hay : Text} (h : cut? needle hay = none) : splitAt needle hay = [hay] := by
  rw [splitAt]
  split
  · rfl
  · next hcut => cases h.symm.trans hcut

theorem splitAt_of_cut? {hay : Text} (hne : needle ≠ []) (h : cut? needle hay = some (before, rest)) :
    splitAt needle hay = before :: splitAt needle rest := by
  rw [splitAt]
  split
  · next hnone => cases h.symm.trans hnone
  · next hcut =>
    obtain ⟨rfl, rfl⟩ := Prod.mk.inj (Option.some.inj (h.symm.trans hcut))
    rw [if_pos (List.length_pos_iff.2 hne)]

end PageTemplate
