import Mathlib.Data.List.Infix
import PageTemplate.Proofs.Reader
import PageTemplate.Proofs.Stripping
set_option autoImplicit false
/-!
Markers inside tags. Markers are taken out of a text whatever they stand in. Where all of them stand inside tags,
each tag loses the markers in its body and nothing else changes, so that the text is left as it is only if no body
holds a marker.
-/
namespace PageTemplate

namespace Block

open Piece Tag

theorem readMarker_of_ne {c : Char} (hc : c ≠ '[') (cs : Text) : readMarker (c :: cs) = none := by
  refine Option.not_isSome_iff_eq_none.1 fun hsome => ?_
  obtain ⟨kind, rest, h, -⟩ := readMarker_isSome_iff.1 hsome
  rw [kind.start_eq] at h
  exact hc (List.cons.inj h).1

theorem readMarker_eq_some_iff {t rest label : Text} {kind : MarkerKind} :
    readMarker t = some ((kind, label), rest) ↔ ']' ∉ label ∧ t = marker kind label ++ rest := by
  simp only [readMarker, Option.bind_eq_bind, Option.bind_eq_some_iff, Option.some.injEq, Prod.mk.injEq]
  constructor
  · rintro ⟨⟨kind', r⟩, hstart, ⟨label', rest'⟩, hcut, ⟨rfl, rfl⟩, rfl⟩
    obtain rfl : r = label' ++ [']'] ++ rest' := cut?_eq_some hcut
    exact ⟨notMem_of_cut? hcut, by simp [marker, markerStart?_eq_some_iff.1 hstart]⟩
  · rintro ⟨hlabel, rfl⟩
    exact ⟨(kind, label ++ ']' :: rest), markerStart?_eq_some_iff.2 (by simp [marker]), (label, rest),
      cut?_append hlabel rest, ⟨rfl, rfl⟩, rfl⟩

theorem marker_ne_nil (kind : MarkerKind) (label : Text) : marker kind label ≠ [] := by
  simp [marker, kind.start_eq]

/-- Does a part of a text, between what stands before it and behind it, stand inside one tag? -/
def Inside (before part behind : Text) : Prop :=
  ∃ front x y back, before = front ++ opening ++ x ∧ behind = y ++ closing ++ back ∧ '\x7d' ∉ x ++ part ++ y

/-- What stands behind the last closing brace of a text. -/
def lastRun (t : Text) : Text := (t.reverse.takeWhile (· != '\x7d')).reverse

theorem exists_lastRun (t : Text) : ∃ front, t = front ++ lastRun t :=
  ⟨(t.reverse.dropWhile (· != '\x7d')).reverse, by
    rw [lastRun, ← List.reverse_append, List.takeWhile_append_dropWhile, List.reverse_reverse]⟩

theorem notMem_lastRun (t : Text) : '\x7d' ∉ lastRun t := fun h =>
  absurd (List.all_eq_true.1 List.all_takeWhile _ (List.mem_reverse.1 h)) (by decide)

theorem lastRun_append {x : Text} (hx : '\x7d' ∉ x) (front : Text) : lastRun (front ++ x) = lastRun front ++ x := by
  have hall : ∀ c ∈ x.reverse, (c != '\x7d') = true := fun c hc =>
    bne_iff_ne.2 fun he => hx (List.mem_reverse.1 (he ▸ hc))
  rw [lastRun, List.reverse_append, List.takeWhile_append_of_pos hall, List.reverse_append, List.reverse_reverse,
    lastRun]

theorem inside_iff {before part behind : Text} : Inside before part behind ↔
    opening <:+: lastRun before ∧ '\x7d' ∉ part ∧ closing <+: behind.dropWhile (· != '\x7d') := by
  constructor
  · rintro ⟨front, x, y, back, rfl, rfl, hfree⟩
    obtain ⟨hx, hpart, hy⟩ : '\x7d' ∉ x ∧ '\x7d' ∉ part ∧ '\x7d' ∉ y := by simpa using hfree
    have hopening : '\x7d' ∉ opening ++ x := by simpa [opening] using hx
    have hall : ∀ c ∈ y, (c != '\x7d') = true := fun c hc => bne_iff_ne.2 fun he => hy (he ▸ hc)
    refine ⟨⟨lastRun front, x, ?_⟩, hpart, ⟨back, ?_⟩⟩
    · rw [List.append_assoc front, lastRun_append hopening, List.append_assoc]
    · rw [List.append_assoc, List.dropWhile_append_of_pos hall]
      rfl
  · rintro ⟨⟨u, x, hrun⟩, hpart, ⟨back, hback⟩⟩
    obtain ⟨front, hfront⟩ := exists_lastRun before
    have hx : '\x7d' ∉ x := fun hm => notMem_lastRun before (hrun ▸ List.mem_append_right _ hm)
    refine ⟨front ++ u, x, behind.takeWhile (· != '\x7d'), back, ?_, ?_, ?_⟩
    · rw [hfront, ← hrun]
      simp
    · rw [List.append_assoc, hback, List.takeWhile_append_dropWhile]
    · simpa [hx, hpart] using notMem_takeWhile (by decide) behind

instance (before part behind : Text) : Decidable (Inside before part behind) := decidable_of_iff _ inside_iff.symm

/-- Do all markers of a text stand inside tags? -/
def Tagged (t : Text) : Prop :=
  ∀ (kind : MarkerKind) (label before behind : Text), ']' ∉ label → t = before ++ (marker kind label ++ behind) →
    Inside before (marker kind label) behind

theorem tagged_iff {t : Text} : Tagged t ↔ ∀ i < t.length, ∀ r ∈ readMarker (t.drop i),
    Inside (t.take i) (marker r.1.1 r.1.2) r.2 := by
  constructor
  · rintro h i - ⟨⟨kind, label⟩, rest⟩ hr
    obtain ⟨hlabel, hdrop⟩ := readMarker_eq_some_iff.1 hr
    exact h kind label _ rest hlabel (by rw [← hdrop, List.take_append_drop])
  · rintro h kind label before behind hlabel rfl
    have hlength := List.length_pos_iff.2 (marker_ne_nil kind label)
    have hinside := h before.length (by simp; omega) ((kind, label), behind) <| by
      rw [List.drop_left]
      exact readMarker_eq_some_iff.2 ⟨hlabel, rfl⟩
    rwa [List.take_left] at hinside

instance (t : Text) : Decidable (Tagged t) := decidable_of_iff _ tagged_iff.symm

theorem mem_of_wrap_eq {body x z : Text} (h : wrap body = x ++ z) (hz : z ≠ []) : '\x7d' ∈ z := by
  obtain rfl | ⟨z, c, rfl⟩ := List.eq_nil_or_concat z
  · exact absurd rfl hz
  · have hlast : (opening ++ body ++ ['\x7d']) ++ ['\x7d'] = x ++ z ++ [c] := by simpa [wrap, closing] using h
    obtain rfl := List.singleton_inj.1 (List.append_inj_right' hlast rfl)
    simp

theorem Tagged.of_wrap {body rest : Text} (h : Tagged (wrap body ++ rest)) : Tagged rest := by
  intro kind label before behind hlabel ht
  obtain ⟨front, x, y, back, hfront, hback, hfree⟩ :=
    h kind label (wrap body ++ before) behind hlabel (by rw [ht, List.append_assoc])
  -- The tag around a marker behind a tag begins behind it: all of its text up to the marker holds no closing brace.
  have hx : '\x7d' ∉ x := fun hm => hfree (by simp [hm])
  obtain ⟨z, hbefore, hz⟩ : ∃ z, before = z ++ x ∧ front ++ opening = wrap body ++ z := by
    obtain ⟨z, hz, hbefore⟩ | ⟨z, hwrap, rfl⟩ := List.append_eq_append_iff.1 hfront
    · exact ⟨z, hbefore, hz⟩
    · by_cases hnil : z = []
      · exact ⟨[], by simp [hnil], by simp [hwrap, hnil]⟩
      · exact absurd (List.mem_append_left _ (mem_of_wrap_eq hwrap hnil)) hx
  obtain ⟨front', rfl⟩ : ∃ front', z = front' ++ opening := by
    obtain ⟨z', hwrap, hopening⟩ | ⟨z', rfl, hz'⟩ := List.append_eq_append_iff.1 hz
    · have hnil : z' = [] := by_contra fun hne =>
        absurd (hopening ▸ List.mem_append_left z (mem_of_wrap_eq hwrap hne)) (by decide)
      exact ⟨[], by rw [hopening, hnil]; rfl⟩
    · exact ⟨z', hz'⟩
  exact ⟨front', x, y, back, hbefore, hback, hfree⟩

theorem Tagged.of_cons {c : Char} {cs : Text} (h : Tagged (c :: cs)) (hread : readBody (c :: cs) = none) :
    Tagged cs := by
  intro kind label before behind hlabel ht
  obtain ⟨front, x, y, back, hfront, hback, hfree⟩ :=
    h kind label (c :: before) behind hlabel (by rw [ht, List.cons_append])
  cases front with
  | nil =>
    have hwrap : c :: cs = wrap (x ++ marker kind label ++ y) ++ back := by
      rw [ht, ← List.cons_append, hfront, hback]
      simp [wrap]
    rw [hwrap, readBody_wrap back hfree] at hread
    cases hread
  | cons d front => exact ⟨front, x, y, back, (List.cons.inj hfront).2, hback, hfree⟩

theorem scan_readMarker_append {x : Text} (hx : '[' ∉ x) (y : Text) :
    scan readMarker (x ++ y) = chars x ++ scan readMarker y := by
  induction x with
  | nil => rfl
  | cons c x ih =>
    have hc : c ≠ '[' := fun h => hx (h ▸ List.mem_cons_self)
    rw [List.cons_append, scan_of_skip (readMarker_of_ne hc _), ih fun h => hx (List.mem_cons_of_mem c h), chars_cons,
      List.cons_append]

/-- A marker that holds no closing brace ends in front of the next one. -/
theorem readMarker_append {u y : Text} (h : ∀ kind label rest, ']' ∉ label →
      u ++ '\x7d' :: y = marker kind label ++ rest → '\x7d' ∉ marker kind label) :
    readMarker (u ++ '\x7d' :: y) = (readMarker u).map fun r => (r.1, r.2 ++ '\x7d' :: y) := by
  cases hshort : readMarker u with
  | some r =>
    obtain ⟨⟨kind, label⟩, rest⟩ := r
    obtain ⟨hlabel, rfl⟩ := readMarker_eq_some_iff.1 hshort
    exact readMarker_eq_some_iff.2 ⟨hlabel, List.append_assoc ..⟩
  | none =>
    refine Option.eq_none_iff_forall_not_mem.2 fun ⟨⟨kind, label⟩, rest⟩ hm => ?_
    obtain ⟨hlabel, ht⟩ := readMarker_eq_some_iff.1 hm
    obtain ⟨z, hmarker, hz⟩ | ⟨z, rfl, -⟩ := List.append_eq_append_iff.1 ht
    · cases z with
      | nil =>
        have hu : u = marker kind label ++ [] := by rw [hmarker]; simp
        cases hshort.symm.trans (readMarker_eq_some_iff.2 ⟨hlabel, hu⟩)
      | cons d z =>
        obtain ⟨rfl, -⟩ := List.cons.inj hz
        exact h kind label rest hlabel ht (by rw [hmarker]; simp)
    · cases hshort.symm.trans (readMarker_eq_some_iff.2 ⟨hlabel, rfl⟩)

/-- The markers and characters of a tag or a character. -/
def markerPieces : Piece Text → List (Piece (MarkerKind × Text))
  | .char c => [.char c]
  | .tag body _ => chars opening ++ (scan readMarker body ++ chars closing)

/-- The markers of the whole are the markers of the bodies. -/
theorem scan_tagged {t : Text} (h : Tagged t) : scan readMarker t = (scan readBody t).flatMap markerPieces := by
  induction hn : t.length using Nat.strongRecOn generalizing t with
  | ind n ih =>
    subst hn
    cases t with
    | nil => simp
    | cons c cs =>
      cases hread : readBody (c :: cs) with
      | none =>
        have hskip : readMarker (c :: cs) = none := by
          refine Option.eq_none_iff_forall_not_mem.2 ?_
          rintro ⟨⟨kind, label⟩, rest⟩ hm
          obtain ⟨hlabel, ht⟩ := readMarker_eq_some_iff.1 hm
          obtain ⟨front, x, -, -, hfront, -, -⟩ := h kind label [] rest hlabel ht
          simp [opening] at hfront
        rw [scan_of_skip hskip, scan_of_skip hread, ih cs.length (Nat.lt_succ_self _) (h.of_cons hread) rfl]
        rfl
      | some p =>
        obtain ⟨body, rest⟩ := p
        obtain ⟨hbody, ht⟩ := readBody_shape hread
        have hlength : rest.length < (c :: cs).length := by
          rw [ht, List.length_append]
          exact Nat.lt_add_of_pos_left (List.length_pos_iff.2 (wrap_ne_nil body))
        have hbody : scan readMarker (body ++ (closing ++ rest)) =
            scan readMarker body ++ scan readMarker (closing ++ rest) := by
          refine scan_append (fun hm => ⟨_, marker_ne_nil _ _, (readMarker_eq_some_iff.1 hm).2⟩) ?_
          rintro u ⟨v, hv⟩ -
          refine readMarker_append fun kind label behind hlabel hu hmem => ?_
          obtain ⟨front, x, y, back, -, -, hfree⟩ := h kind label (opening ++ v) behind hlabel <| by
            rw [ht, ← hv, List.append_assoc, ← hu]
            simp [wrap, closing]
          exact hfree (by simp [hmem])
        rw [ht] at h hread
        rw [ht, scan_of_read (wrap_ne_nil body) hread, List.flatMap_cons, ← ih _ hlength h.of_wrap rfl]
        calc scan readMarker (wrap body ++ rest)
          _ = scan readMarker (opening ++ (body ++ (closing ++ rest))) := by simp [wrap]
          _ = chars opening ++ (scan readMarker body ++ (chars closing ++ scan readMarker rest)) := by
            rw [scan_readMarker_append (by decide), hbody, scan_readMarker_append (by decide)]
          _ = markerPieces (.tag body (wrap body)) ++ scan readMarker rest := by simp [markerPieces]

theorem kept_chars {α : Type} (t : Text) : kept (chars t : List (Piece α)) = t := rewritten_chars _ t

theorem kept_markerPieces (p : Piece Text) : kept (markerPieces p) = match p with
    | .char c => [c]
    | .tag body _ => wrap (stripMarkers body) := by
  cases p with
  | char c => rfl
  | tag body s => simp [markerPieces, kept_chars, stripMarkers, remove_eq_kept, wrap]

theorem kept_flatMap {α β : Type} (f : Piece β → List (Piece α)) (ps : List (Piece β)) :
    kept (ps.flatMap f) = ps.flatMap fun p => kept (f p) := by
  induction ps with
  | nil => rfl
  | cons p ps ih => rw [List.flatMap_cons, kept_append, ih, List.flatMap_cons]

theorem stripMarkers_tagged {t : Text} (h : Tagged t) :
    stripMarkers t = rewritten (fun body _ => wrap (stripMarkers body)) (scan readBody t) := by
  rw [stripMarkers, remove_eq_kept, scan_tagged h, kept_flatMap]
  exact List.flatMap_congr fun p _ => by rw [kept_markerPieces]; cases p <;> rfl

theorem any_isTag_chars {α : Type} (t : Text) : (chars t : List (Piece α)).any isTag = false := by
  simp [chars, isTag]

theorem any_isTag_markerPieces (body source : Text) :
    (markerPieces (.tag body source)).any isTag = occurs readMarker body := by
  rw [markerPieces, List.any_append, List.any_append, any_isTag_chars, any_isTag_chars, Bool.false_or, Bool.or_false]
  rfl

/-- The bodies of the tags of a text. -/
def bodies (t : Text) : List Text := (scan readBody t).filterMap fun
  | .char _ => none
  | .tag body _ => some body

theorem marked_tagged_iff {t : Text} (h : Tagged t) : Marked t ↔ ∃ body ∈ bodies t, Marked body := by
  rw [← occurs_readMarker_iff, occurs, scan_tagged h, List.any_flatMap, List.any_eq_true]
  simp only [← occurs_readMarker_iff, bodies, List.mem_filterMap]
  constructor
  · rintro ⟨p, hp, hany⟩
    cases p with
    | char c => cases hany
    | tag body source => exact ⟨body, ⟨_, hp, rfl⟩, by rw [← any_isTag_markerPieces body source, hany]⟩
  · rintro ⟨body, ⟨p, hp, hbody⟩, hany⟩
    cases p with
    | char c => cases hbody
    | tag body' source =>
      obtain rfl := Option.some.inj hbody
      exact ⟨_, hp, by rw [any_isTag_markerPieces, hany]⟩

end Block

namespace Inherit

open Block Piece Tag

/-- A text by itself, whose markers all stand inside tags, comes back with the markers taken out of the bodies. It comes
back as it was exactly if no body holds one, that is two characters that start a marker and a bracket behind them. -/
theorem compose_tagged_iff {document : Text} (h : Tagged document) :
    compose [] document [] = rewritten (fun body _ => wrap (stripMarkers body)) (scan readBody document) ∧
      (compose [] document [] = document ↔ ∀ body ∈ bodies document, ¬Marked body) := by
  have hcompose : compose [] document [] = stripMarkers document := rfl
  refine ⟨hcompose.trans (stripMarkers_tagged h), ?_⟩
  rw [hcompose, stripMarkers_eq_self_iff, marked_tagged_iff h]
  simp only [not_exists, not_and]

/-- The index of the first tag does no harm, the negated one of the second is taken for a marker. -/
theorem compose_tagged_index : ∃ document : Text,
    document = text "\x7b\x7b a[0] \x7d\x7d, \x7b\x7b b[!c][1] \x7d\x7d" ∧
      Tagged document ∧ compose [] document [] ≠ document := by
  have htagged : Tagged (text "\x7b\x7b a[0] \x7d\x7d, \x7b\x7b b[!c][1] \x7d\x7d") := by decide +kernel
  exact ⟨_, rfl, htagged, mt (compose_tagged_iff htagged).2.1 (by decide +kernel)⟩

/-- An index that is a negation is taken for a marker. -/
theorem compose_negated_index : Tagged (text "\x7b\x7b a[!b] \x7d\x7d") ∧
    compose [] (text "\x7b\x7b a[!b] \x7d\x7d") [] = text "\x7b\x7b a \x7d\x7d" := by
  decide +kernel

end Inherit

end PageTemplate
