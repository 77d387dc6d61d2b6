import PageTemplate.Block.Marker
import PageTemplate.Proofs.Scan
import PageTemplate.Proofs.Search
set_option autoImplicit false
/-!
Where markers start and which of them are complete. Two characters start a marker, whatever follows; a closing
bracket anywhere behind them completes it.
-/
namespace PageTemplate.Block

open Piece

/-- The second character of a marker. -/
def MarkerKind.mark : MarkerKind → Char
  | .opening => '!'
  | .closing => '~'

theorem MarkerKind.start_eq (kind : MarkerKind) : kind.start = ['[', kind.mark] := by cases kind <;> rfl

theorem markerStart?_eq_some_iff {t rest : Text} {kind : MarkerKind} :
    markerStart? t = some (kind, rest) ↔ t = kind.start ++ rest := by
  unfold markerStart?
  split
  · next r h =>
    rw [after?_eq_some_iff.1 h]
    cases kind <;> simp [MarkerKind.start, openStart, closeStart, eq_comm]
  · next h =>
    simp only [Option.map_eq_some_iff, Prod.mk.injEq]
    constructor
    · rintro ⟨r, hr, rfl, rfl⟩
      exact after?_eq_some_iff.1 hr
    · intro ht
      cases kind with
      | opening => nomatch h.symm.trans (after?_eq_some_iff.2 ht)
      | closing => exact ⟨rest, after?_eq_some_iff.2 ht, rfl, rfl⟩

def marker (kind : MarkerKind) (label : Text) : Text := kind.start ++ label ++ [']']

/-- Do two characters start a marker somewhere? -/
def Opened (t : Text) : Prop := ∃ (kind : MarkerKind) (before rest : Text), t = before ++ kind.start ++ rest

/-- Is there a complete marker, that is a closing bracket anywhere behind a start? -/
def Marked (t : Text) : Prop :=
  ∃ (kind : MarkerKind) (before rest : Text), t = before ++ kind.start ++ rest ∧ ']' ∈ rest

theorem Marked.opened {t : Text} : Marked t → Opened t := fun ⟨kind, before, rest, h, _⟩ => ⟨kind, before, rest, h⟩

theorem not_opened_nil : ¬Opened [] := fun ⟨kind, before, rest, h⟩ => by simp [kind.start_eq] at h

theorem not_opened_of_notMem {t : Text} (h : '[' ∉ t) : ¬Opened t := by
  rintro ⟨kind, before, rest, rfl⟩
  simp [kind.start_eq] at h

theorem readMarker_isSome_iff {t : Text} :
    (readMarker t).isSome ↔ ∃ (kind : MarkerKind) (rest : Text), t = kind.start ++ rest ∧ ']' ∈ rest := by
  constructor
  · intro h
    obtain ⟨⟨m, behind⟩, hread⟩ := Option.isSome_iff_exists.1 h
    simp only [readMarker, Option.bind_eq_bind, Option.bind_eq_some_iff] at hread
    obtain ⟨⟨kind, rest⟩, hstart, ⟨label, behind'⟩, hcut, -⟩ := hread
    exact ⟨kind, rest, markerStart?_eq_some_iff.1 hstart, cut?_isSome_iff.1 (by rw [hcut]; rfl)⟩
  · rintro ⟨kind, rest, ht, hclose⟩
    obtain ⟨⟨label, behind⟩, hcut⟩ := Option.isSome_iff_exists.1 (cut?_isSome_iff.2 hclose)
    simp [readMarker, markerStart?_eq_some_iff.2 ht, hcut]

theorem not_marked_iff {t : Text} : ¬Marked t ↔ Untagged readMarker t := by
  constructor
  · rintro h u ⟨before, rfl⟩ -
    refine Option.not_isSome_iff_eq_none.1 fun hsome => h ?_
    obtain ⟨kind, rest, rfl, hclose⟩ := readMarker_isSome_iff.1 hsome
    exact ⟨kind, before, rest, (List.append_assoc ..).symm, hclose⟩
  · rintro h ⟨kind, before, rest, rfl, hclose⟩
    have hnone := h (kind.start ++ rest) ⟨before, (List.append_assoc ..).symm⟩ (by simp [kind.start_eq])
    exact Option.not_isSome_iff_eq_none.2 hnone (readMarker_isSome_iff.2 ⟨kind, rest, rfl, hclose⟩)

theorem occurs_readMarker_iff {t : Text} : occurs readMarker t = true ↔ Marked t := by
  rw [← Bool.not_eq_false, occurs_eq_false_iff, ← not_marked_iff, Classical.not_not]

instance (t : Text) : Decidable (Marked t) := decidable_of_iff _ occurs_readMarker_iff

end PageTemplate.Block
