import PageTemplate.Proofs.Reader
set_option autoImplicit false
/-!
The plain tags of a key. They are read wherever they stand, so a text in which the reader of a key finds nothing is
one in which no such tag stands.
-/
namespace PageTemplate.Variable

open Piece Tag

/-- Between blanks a key is found, whatever blanks it holds itself. -/
theorem readKey_isSome {lead trail : Text} (hlead : lead.all isBlank) (htrail : trail.all isBlank) (key rest : Text) :
    (readKey key (wrap (lead ++ (key ++ trail)) ++ rest)).isSome := by
  have hskip : skipBlanks (trail ++ '\x7d' :: '\x7d' :: rest) = '\x7d' :: '\x7d' :: rest := by
    rw [skipBlanks_append htrail, skipBlanks_cons (by decide)]
  have hlength : lead.length ≤ (blankRun (lead ++ (key ++ trail) ++ '\x7d' :: '\x7d' :: rest)).length := by
    rw [List.append_assoc, blankRun, List.takeWhile_append_of_pos (List.all_eq_true.1 hlead), List.length_append]
    exact Nat.le_add_right _ _
  have hsome : ((List.range ((blankRun (lead ++ (key ++ trail) ++ '\x7d' :: '\x7d' :: rest)).length + 1)).reverse.findSome?
      fun n => (after? key ((lead ++ (key ++ trail) ++ '\x7d' :: '\x7d' :: rest).drop n)).bind fun r =>
        after? closing (skipBlanks r)).isSome := by
    rw [List.findSome?_isSome_iff]
    refine ⟨lead.length, List.mem_reverse.2 (List.mem_range.2 (Nat.lt_succ_of_le hlength)), ?_⟩
    rw [List.append_assoc, List.append_assoc, List.drop_left, after?_append, Option.bind_some, hskip]
    rfl
  obtain ⟨u, hu⟩ := Option.isSome_iff_exists.1 hsome
  simp only [readKey, Option.bind_eq_bind, after?_opening_wrap, Option.bind_some, hu, Option.isSome_some]

/-- A plain tag of the key stands in the text. -/
def Tagged (key t : Text) : Prop :=
  ∃ lead trail : Text, lead.all isBlank ∧ trail.all isBlank ∧ wrap (lead ++ (key ++ trail)) <:+: t

theorem untagged_readKey_iff {key t : Text} : Untagged (readKey key) t ↔ ¬ Tagged key t := by
  constructor
  · rintro h ⟨lead, trail, hlead, htrail, before, after, rfl⟩
    have hsome := readKey_isSome hlead htrail key after
    rw [h _ ⟨before, (List.append_assoc ..).symm⟩ (by simp [wrap_append])] at hsome
    cases hsome
  · intro h u hu _
    refine Option.eq_none_iff_forall_ne_some.2 fun r hr => h ?_
    obtain ⟨lead, trail, hlead, htrail, rfl⟩ := readKey_shape hr
    exact ⟨lead, trail, hlead, htrail, (List.prefix_append _ _).isInfix.trans hu.isInfix⟩

end PageTemplate.Variable
