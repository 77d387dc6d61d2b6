import PageTemplate.Text.Basic
set_option autoImplicit false
/-!
Histories of a state. What holds now is often what one event of the history made, if nothing behind it has
undone it, or what the latest event that says something says. Both are told of a history that grows at its
end.
-/
namespace PageTemplate

variable {α β : Type}

/-- Is there an event that made something, given the events before it, and none behind it that undid it? -/
def Stands (made : List α → α → Prop) (undone : α → Prop) (history : List α) : Prop :=
  ∃ before a after, history = before ++ a :: after ∧ made before a ∧ ∀ b ∈ after, ¬ undone b

variable {made : List α → α → Prop} {undone : α → Prop} {history : List α} {a : α}

@[simp] theorem not_stands_nil : ¬ Stands made undone [] := by
  rintro ⟨before, a, after, h, -⟩
  simp at h

theorem stands_concat :
    Stands made undone (history ++ [a]) ↔ made history a ∨ (¬ undone a ∧ Stands made undone history) := by
  constructor
  · rintro ⟨before, maker, after, heq, hmade, hafter⟩
    rcases List.eq_nil_or_concat after with rfl | ⟨after, last, rfl⟩
    · obtain ⟨rfl, hlast⟩ := List.append_inj' heq rfl
      cases hlast
      exact .inl hmade
    · have heq' : history ++ [a] = (before ++ maker :: after) ++ [last] := by simpa using heq
      obtain ⟨rfl, hlast⟩ := List.append_inj' heq' rfl
      cases hlast
      exact .inr ⟨hafter a (by simp), before, maker, after, rfl, hmade, fun b hb => hafter b (by simp [hb])⟩
  · rintro (hmade | ⟨hkeeps, before, maker, after, rfl, hmade, hafter⟩)
    · exact ⟨history, a, [], rfl, hmade, by simp⟩
    · refine ⟨before, maker, after ++ [a], by simp, hmade, fun b hb => ?_⟩
      rcases List.mem_append.1 hb with hb | hb
      · exact hafter b hb
      · rw [List.mem_singleton.1 hb]
        exact hkeeps

/-- What the latest event that says something says. -/
def latest (says? : α → Option β) (history : List α) : Option β := history.reverse.findSome? says?

theorem latest_concat (says? : α → Option β) (history : List α) (a : α) :
    latest says? (history ++ [a]) = (says? a).or (latest says? history) := by
  cases h : says? a <;> simp [latest, h]

end PageTemplate
