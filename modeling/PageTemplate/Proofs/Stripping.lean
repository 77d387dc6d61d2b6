import PageTemplate.Block.Inherit
import PageTemplate.Proofs.Marking
import PageTemplate.Proofs.Span
set_option autoImplicit false
/-!
What taking the markers out of a text leaves. It is one pass from the left, and what it leaves can hold a marker
again: the two characters that start one may have stood on the two sides of a marker that was taken out. A
document type that starts a marker brings in one more.
-/
namespace PageTemplate

namespace Piece

variable {α : Type} {read : TagReader α}

/-- The characters between the tags. -/
def kept (ps : List (Piece α)) : Text := rewritten (fun _ _ => []) ps

theorem remove_eq_kept (read : TagReader α) (t : Text) : remove read t = kept (scan read t) := rfl

@[simp] theorem kept_char (c : Char) (ps : List (Piece α)) : kept (.char c :: ps) = c :: kept ps := rfl

@[simp] theorem kept_tag (a : α) (s : Text) (ps : List (Piece α)) : kept (.tag a s :: ps) = kept ps := rfl

@[simp] theorem kept_append (ps qs : List (Piece α)) : kept (ps ++ qs) = kept ps ++ kept qs := rewritten_append ..

/-- A tag that is taken out takes characters with it. -/
theorem length_kept_scan (read : TagReader α) (t : Text) :
    (kept (scan read t)).length ≤ t.length ∧ (occurs read t → (kept (scan read t)).length < t.length) := by
  unfold occurs
  fun_induction scan read t with
  | case1 => simp [kept, rewritten]
  | case2 c cs a rest hread n ih =>
    have hdrop : (cs.drop n).length ≤ cs.length := by simp
    simp only [kept_tag, List.length_cons]
    omega
  | case3 c cs hread ih =>
    simp only [kept_char, List.length_cons, List.any_cons, isTag, Bool.false_or]
    exact ⟨Nat.succ_le_succ ih.1, fun h => Nat.succ_lt_succ (ih.2 h)⟩

theorem remove_eq_self_iff {t : Text} : remove read t = t ↔ Untagged read t := by
  refine ⟨fun h => occurs_eq_false_iff.1 (Bool.eq_false_iff.2 fun hoccurs => ?_), fun h => h.replace_eq _⟩
  have hless := (length_kept_scan read t).2 hoccurs
  rw [← remove_eq_kept, h] at hless
  exact Nat.lt_irrefl _ hless

/-- A character between the tags is one where no tag is recognised. -/
theorem read_of_scan_eq {t : Text} {c : Char} {ps qs : List (Piece α)} (h : scan read t = ps ++ .char c :: qs) :
    read (c :: join qs) = none := by
  fun_induction scan read t generalizing ps with
  | case1 => simp at h
  | @case2 d cs a rest hread n ih =>
    cases ps with
    | nil => simp at h
    | cons p ps => exact ih (List.cons.inj h).2
  | case3 d cs hread ih =>
    cases ps with
    | nil =>
      obtain ⟨hc, rfl⟩ := List.cons.inj h
      rw [join_scan, ← Piece.char.inj hc]
      exact hread
    | cons p ps => exact ih (List.cons.inj h).2

theorem mem_kept {c : Char} {ps : List (Piece α)} : c ∈ kept ps ↔ .char c ∈ ps := by
  induction ps with
  | nil => simp [kept, rewritten]
  | cons p ps ih => cases p <;> simp [ih]

theorem kept_eq_nil {ps : List (Piece α)} : kept ps = [] ↔ ∀ p ∈ ps, p.isTag := by
  induction ps with
  | nil => simp [kept, rewritten]
  | cons p ps ih => cases p <;> simp [isTag, ih]

theorem mem_join_of_char {c : Char} {ps : List (Piece α)} (h : .char c ∈ ps) : c ∈ join ps :=
  List.mem_flatMap.2 ⟨_, h, List.mem_singleton_self c⟩

theorem kept_eq_append_cons {ps : List (Piece α)} {x y : Text} {c : Char} (h : kept ps = x ++ c :: y) :
    ∃ qs rs, ps = qs ++ .char c :: rs ∧ kept qs = x ∧ kept rs = y := by
  induction ps generalizing x with
  | nil => simp [kept, rewritten] at h
  | cons p ps ih =>
    cases p with
    | tag a s =>
      obtain ⟨qs, rs, rfl, hqs, hrs⟩ := ih h
      exact ⟨.tag a s :: qs, rs, rfl, hqs, hrs⟩
    | char d =>
      rw [kept_char] at h
      cases x with
      | nil =>
        obtain ⟨rfl, hps⟩ := List.cons.inj h
        exact ⟨[], ps, rfl, rfl, hps⟩
      | cons e x =>
        obtain ⟨rfl, hps⟩ := List.cons.inj h
        obtain ⟨qs, rs, rfl, hqs, hrs⟩ := ih hps
        exact ⟨.char d :: qs, rs, rfl, by rw [kept_char, hqs], hrs⟩

end Piece

namespace Block

open Piece

/-- Do the characters between the tags make up a marker again? The two that start it stand on the two sides of tags,
and a closing bracket stands behind them outside the tags. -/
def Rejoins (ps : List (Piece (MarkerKind × Text))) : Prop :=
  ∃ (kind : MarkerKind) (before gap rest : List (Piece (MarkerKind × Text))),
    ps = before ++ .char '[' :: (gap ++ .char kind.mark :: rest) ∧ gap ≠ [] ∧ (∀ p ∈ gap, p.isTag) ∧ .char ']' ∈ rest

theorem stripMarkers_eq_self_iff {t : Text} : stripMarkers t = t ↔ ¬Marked t :=
  remove_eq_self_iff.trans not_marked_iff.symm

theorem marked_stripMarkers_iff {t : Text} : Marked (stripMarkers t) ↔ Rejoins (scan readMarker t) := by
  rw [stripMarkers, remove_eq_kept]
  constructor
  · rintro ⟨kind, front, behind, h, hclose⟩
    rw [kind.start_eq, List.append_assoc] at h
    obtain ⟨before, ps, hscan, -, hps⟩ := kept_eq_append_cons h
    obtain ⟨gap, rest, rfl, hgap, rfl⟩ := kept_eq_append_cons (x := []) hps
    refine ⟨kind, before, gap, rest, hscan, ?_, kept_eq_nil.1 hgap, mem_kept.1 hclose⟩
    -- Side by side the two characters would have been read as the start of a marker.
    rintro rfl
    refine Option.not_isSome_iff_eq_none.2 (read_of_scan_eq hscan) (readMarker_isSome_iff.2 ?_)
    exact ⟨kind, join rest, by rw [kind.start_eq]; rfl, mem_join_of_char (mem_kept.1 hclose)⟩
  · rintro ⟨kind, before, gap, rest, hscan, -, hgap, hclose⟩
    refine ⟨kind, kept before, kept rest, ?_, mem_kept.2 hclose⟩
    simp [hscan, kind.start_eq, kept_eq_nil.2 hgap]

/-- A line in front brings in its own markers and one that it starts and the text closes. -/
theorem marked_append_line {line t : Text} :
    Marked (line ++ '\n' :: t) ↔ Marked line ∨ Marked t ∨ (Opened line ∧ ']' ∈ t) := by
  constructor
  · rintro ⟨kind, before, rest, h, hclose⟩
    rw [kind.start_eq, List.append_assoc] at h
    obtain ⟨x, rfl, hx⟩ | ⟨x, rfl, hx⟩ := List.append_eq_append_iff.1 h
    · cases x with
      | nil => simp at hx
      | cons c x =>
        obtain ⟨-, rfl⟩ := List.cons.inj hx
        exact .inr (.inl ⟨kind, x, rest, by simp [kind.start_eq], hclose⟩)
    · obtain ⟨y, rfl, hrest⟩ : ∃ y, x = '[' :: kind.mark :: y ∧ rest = y ++ '\n' :: t := by
        rcases x with _ | ⟨c, _ | ⟨d, y⟩⟩ <;> cases kind <;> simp_all [MarkerKind.mark]
      subst hrest
      rcases List.mem_append.1 hclose with hclose | hclose
      · exact .inl ⟨kind, before, y, by simp [kind.start_eq], hclose⟩
      · exact .inr (.inr ⟨⟨kind, before, y, by simp [kind.start_eq]⟩, by simpa using hclose⟩)
  · rintro (⟨kind, before, rest, rfl, hclose⟩ | ⟨kind, before, rest, rfl, hclose⟩ | ⟨⟨kind, before, rest, rfl⟩, hclose⟩)
    · exact ⟨kind, before, rest ++ '\n' :: t, by simp, List.mem_append_left _ hclose⟩
    · exact ⟨kind, line ++ '\n' :: before, rest, by simp, hclose⟩
    · exact ⟨kind, before, rest ++ '\n' :: t, by simp, List.mem_append_right _ (List.mem_cons_of_mem _ hclose)⟩

end Block

namespace Inherit

open Block Piece

theorem mergeParts_none (seen : List Text) (ps : List Part) :
    mergeParts (fun _ _ => none) seen ps = ps.flatMap Part.source := by
  induction ps generalizing seen with
  | nil => rfl
  | cons p ps ih => cases p <;> exact congrArg _ (ih _)

theorem mergeBlocks_nil (base : Text) : mergeBlocks base [] = base := by
  have hparts : mergeBlocks base [] = mergeParts (fun _ _ => none) [] (parts base) := by
    unfold mergeBlocks
    rw [show locate [] = [] by decide +kernel]
    rfl
  rw [hparts, mergeParts_none, flatMap_source_parts]

theorem compose_eq (doctype base child : Text) :
    compose doctype base child = ensureDoctype doctype (stripMarkers (mergeBlocks base child)) := by
  unfold compose
  cases child with
  | nil => rw [mergeBlocks_nil]; rfl
  | cons c cs => rfl

theorem marked_ensureDoctype_iff {doctype html : Text} : Marked (ensureDoctype doctype html) ↔
    Marked html ∨ (hasDoctype html = false ∧ (Marked doctype ∨ (Opened doctype ∧ ']' ∈ html))) := by
  unfold ensureDoctype
  split
  · next hkept =>
    rcases Bool.or_eq_true_iff.1 hkept with hempty | htyped
    · obtain rfl := List.isEmpty_iff.1 hempty
      have hunmarked : ¬Marked [] := fun h => not_opened_nil h.opened
      simp [hunmarked, not_opened_nil]
    · simp [htyped]
  · next hline =>
    obtain ⟨-, huntyped⟩ := Bool.or_eq_false_iff.1 (Bool.eq_false_iff.2 hline)
    rw [marked_append_line, or_left_comm, huntyped]
    simp

/-- Taking the markers out again changes what was composed exactly if a marker is left. One is left if the
characters around the markers of the merged text make one up, or if the document type holds or starts one. -/
theorem compose_marked_iff (doctype base child : Text) :
    (stripMarkers (compose doctype base child) = compose doctype base child ↔ ¬Marked (compose doctype base child)) ∧
    (Marked (compose doctype base child) ↔ Rejoins (scan readMarker (mergeBlocks base child)) ∨
      (hasDoctype (stripMarkers (mergeBlocks base child)) = false ∧
        (Marked doctype ∨ (Opened doctype ∧ ']' ∈ stripMarkers (mergeBlocks base child))))) := by
  refine ⟨stripMarkers_eq_self_iff, ?_⟩
  rw [compose_eq, marked_ensureDoctype_iff, marked_stripMarkers_iff]

/-- A marker around a marker's first character, with no child and the usual document type. -/
theorem compose_marked_split :
    ¬Marked defaultDoctype ∧ compose defaultDoctype (text "[[!a]!b]") [] = text "<!DOCTYPE html>\n[!b]" ∧
      Marked (compose defaultDoctype (text "[[!a]!b]") []) ∧
      stripMarkers (compose defaultDoctype (text "[[!a]!b]") []) ≠ compose defaultDoctype (text "[[!a]!b]") [] := by
  decide +kernel

end Inherit

end PageTemplate
