import Mathlib.Data.List.Pairwise
import PageTemplate.Proofs.Merging
import PageTemplate.Proofs.Outline
set_option autoImplicit false
/-!
Opening markers that begin no block. A block runs to the first closing marker of its name, so that none is left in
its inner text; and an opening marker that lies in no block has no closing marker of its name anywhere behind it.
-/
namespace PageTemplate

namespace Block

/-- An opening marker at its place. -/
structure Opening where
  start : Nat
  label : Text
  deriving DecidableEq, Repr

def Opening.stop (m : Opening) : Nat := m.start + (marker .opening m.label).length

theorem Opening.stop_eq (m : Opening) : m.stop = m.start + m.label.length + 3 := by
  simp only [stop, marker, MarkerKind.start, openStart, List.length_append, List.length_cons, List.length_nil]
  omega

/-- The opening markers of a text, read from the left: each reaches to the next closing bracket, and the reading
goes on behind it. -/
def openings (position : Nat) (t : Text) : List Opening :=
  match _h : cut? openStart t with
  | none => []
  | some (before, r) =>
    match _h' : cut? [']'] r with
    | none => []
    | some (label, rest) =>
      let m : Opening := ⟨position + before.length, label⟩
      m :: openings m.stop rest
termination_by t.length
decreasing_by
  have h1 := cut?_length _h
  have h2 := cut?_length _h'
  simp only [openStart, List.length_cons, List.length_nil] at h1
  omega

theorem openings_eq_nil {t : Text} (position : Nat) (h : cut? openStart t = none) : openings position t = [] := by
  rw [openings]
  split
  · rfl
  · next hsome => simp [h] at hsome

theorem openings_eq_nil_of_unclosed {t before r : Text} (position : Nat) (h : cut? openStart t = some (before, r))
    (h' : cut? [']'] r = none) : openings position t = [] := by
  rw [openings]
  split
  · rfl
  · next hsome =>
    obtain ⟨rfl, rfl⟩ := Prod.mk.inj (Option.some.inj (h.symm.trans hsome))
    split
    · rfl
    · next hclose => simp [h'] at hclose

theorem openings_eq_cons {t before r label rest : Text} (position : Nat) (h : cut? openStart t = some (before, r))
    (h' : cut? [']'] r = some (label, rest)) :
    openings position t = ⟨position + before.length, label⟩ ::
      openings (Opening.stop ⟨position + before.length, label⟩) rest := by
  rw [openings]
  split
  · next hnone => simp [h] at hnone
  · next hsome =>
    obtain ⟨rfl, rfl⟩ := Prod.mk.inj (Option.some.inj (h.symm.trans hsome))
    split
    · next hnone => simp [h'] at hnone
    · next hclose =>
      obtain ⟨rfl, rfl⟩ := Prod.mk.inj (Option.some.inj (h'.symm.trans hclose))
      rfl

theorem le_start_of_mem_openings {position : Nat} {t : Text} {m : Opening} (h : m ∈ openings position t) :
    position ≤ m.start := by
  fun_induction openings position t with
  | case1 | case2 => nomatch h
  | case3 position t before r _ label rest _ m' ih =>
    rcases List.mem_cons.1 h with rfl | h
    · exact Nat.le_add_right ..
    · have hlater := ih h
      have hstop : m'.stop = position + before.length + label.length + 3 := m'.stop_eq
      omega

/-- What stands behind a marker does not depend on what stands in front of the reading. -/
theorem drop_stop_of_mem_openings {position : Nat} {front t : Text} {m : Opening}
    (h : m ∈ openings (position + front.length) t) :
    (front ++ t).drop (m.stop - position) = t.drop (m.stop - (position + front.length)) := by
  have hlater := le_start_of_mem_openings h
  have hplace : m.stop - position = front.length + (m.stop - (position + front.length)) := by
    rw [m.stop_eq]
    omega
  rw [hplace, ← List.drop_drop, List.drop_left]

/-- A closing bracket is no part of the two characters that start an opening marker. -/
theorem start_beside_close {u v before r : Text} (h : u ++ ']' :: v = before ++ openStart ++ r) :
    (∃ x, before = u ++ ']' :: x ∧ v = x ++ openStart ++ r) ∨
      ∃ x, u = before ++ openStart ++ x ∧ r = x ++ ']' :: v := by
  rw [List.append_assoc, List.append_eq_append_iff] at h
  rcases h with ⟨x, rfl, hx⟩ | ⟨x, rfl, hx⟩
  · cases x with
    | nil => simp [openStart] at hx
    | cons c x =>
      obtain ⟨rfl, rfl⟩ := List.cons.inj hx
      exact .inl ⟨x, rfl, (List.append_assoc ..).symm⟩
  · cases x with
    | nil => simp [openStart] at hx
    | cons c x =>
      cases x with
      | nil => simp [openStart] at hx
      | cons d x =>
        simp only [openStart, List.cons_append, List.nil_append, List.cons.injEq] at hx
        obtain ⟨rfl, rfl, rfl⟩ := hx
        exact .inr ⟨x, by simp [openStart], rfl⟩

/-- The reading falls into step at a closing bracket: a marker starts in front of it, or is read from there on. -/
theorem openings_append_close {position : Nat} {t v : Text} {m : Opening} (h : m ∈ openings position t) :
    ∀ u, t = u ++ ']' :: v → m.start < position + u.length ∨ m ∈ openings (position + u.length + 1) v := by
  fun_induction openings position t with
  | case1 | case2 => nomatch h
  | case3 position t before r hcut label rest hcut' m' ih =>
    have hstop : m'.stop = position + before.length + label.length + 3 := m'.stop_eq
    intro u ht
    rcases start_beside_close (ht.symm.trans (cut?_eq_some hcut)) with ⟨x, rfl, rfl⟩ | ⟨x, rfl, rfl⟩
    · have hbehind : cut? openStart (x ++ openStart ++ r) = some (x, r) :=
        cut?_of_append (x := u ++ [']']) (by simpa [ht] using hcut)
      have hplace : position + u.length + 1 + x.length = position + (u ++ ']' :: x).length := by simp; omega
      right
      rwa [openings_eq_cons _ hbehind hcut', hplace]
    · have hlength : (before ++ openStart ++ x).length = before.length + x.length + 2 := by simp [openStart]; omega
      rw [hlength]
      rcases List.mem_cons.1 h with rfl | h
      · exact .inl (by dsimp only [m']; omega)
      -- The label ends in front of the bracket or at it.
      by_cases hclose : ']' ∈ x
      · obtain ⟨x', y, rfl, hfirst⟩ := List.eq_append_cons_of_mem hclose
        rw [List.append_assoc, List.cons_append, cut?_append hfirst] at hcut'
        obtain ⟨rfl, rfl⟩ := Prod.mk.inj (Option.some.inj hcut')
        have hplace : position + (before.length + (x' ++ ']' :: y).length + 2) = m'.stop + y.length := by
          simp only [List.length_append, List.length_cons]
          omega
        rw [hplace]
        exact ih h y rfl
      · rw [cut?_append hclose] at hcut'
        obtain ⟨rfl, rfl⟩ := Prod.mk.inj (Option.some.inj hcut')
        have hplace : position + (before.length + x.length + 2) + 1 = m'.stop := by omega
        right
        rwa [hplace]

/-- An opening marker that starts in none of the blocks has no closing marker of its name behind it. -/
theorem unpaired_of_outside {position : Nat} {t : Text} {m : Opening} (hm : m ∈ openings position t)
    (hout : ∀ b ∈ locateIn position (parts t), ¬ (b.start ≤ m.start ∧ m.start < b.stop)) :
    ¬ closingMarker (trim m.label) <:+: t.drop (m.stop - position) := by
  fun_induction parts t generalizing position with
  | case1 t h => simp [openings_eq_nil position h] at hm
  | case2 t before r h h' => simp [openings_eq_nil_of_unclosed position h h'] at hm
  | case3 t before r h label rest h' h'' ih =>
    -- The first marker begins no block.
    have hsource : t = (before ++ openStart ++ label ++ [']']) ++ rest := by
      rw [cut?_eq_some h, cut?_eq_some h']
      simp
    generalize hfront : before ++ openStart ++ label ++ [']'] = front at hsource hout
    have hstop : (Opening.mk (position + before.length) label).stop = position + front.length := by
      rw [Opening.stop_eq, ← hfront]
      simp [openStart]
      omega
    rw [openings_eq_cons position h h', hstop] at hm
    subst hsource
    rcases List.mem_cons.1 hm with rfl | hm
    · rw [hstop, Nat.add_sub_cancel_left, List.drop_left]
      exact cut?_eq_none_iff.1 h''
    · rw [drop_stop_of_mem_openings hm]
      exact ih hm hout
  | case4 t before r h label rest h' inner behind h'' ih =>
    -- The first marker begins a block, which ends with a closing bracket.
    have hrest : rest = (inner ++ closeStart ++ trim label) ++ ']' :: behind := by
      rw [cut?_eq_some h'']
      simp [closingMarker]
    have hsource : t = (before ++ source ⟨label, inner⟩) ++ behind := by
      rw [cut?_eq_some h, cut?_eq_some h', hrest]
      simp [source, name, closingMarker]
    have hlength : (source ⟨label, inner⟩).length =
        label.length + 3 + (inner ++ closeStart ++ trim label).length + 1 := by
      simp [source, name, closingMarker, openStart]
      omega
    have hfront : (before ++ source ⟨label, inner⟩).length = before.length + (source ⟨label, inner⟩).length :=
      List.length_append
    rw [openings_eq_cons position h h'] at hm
    simp only [locateIn, List.forall_mem_cons] at hout
    obtain ⟨hfirst, hout⟩ := hout
    have hstop := Opening.stop_eq ⟨position + before.length, label⟩
    dsimp only at hstop
    rw [hstop] at hm
    rcases List.mem_cons.1 hm with rfl | hm
    · exact absurd ⟨Nat.le_refl _, Nat.lt_add_of_pos_right (source_length_pos _)⟩ hfirst
    rcases openings_append_close hm _ hrest with hinside | hbehind
    · have hlater := le_start_of_mem_openings hm
      omega
    · have hplace : position + before.length + label.length + 3 + (inner ++ closeStart ++ trim label).length + 1 =
          position + (before ++ source ⟨label, inner⟩).length := by omega
      rw [hplace] at hbehind
      rw [hsource, drop_stop_of_mem_openings hbehind]
      refine ih hbehind ?_
      rwa [hfront, ← Nat.add_assoc]

/-- The label of a located block holds no closing bracket, and its inner text no closing marker of its name. -/
theorem shape_of_mem_locateIn {position : Nat} {t : Text} {b : Located} (hb : b ∈ locateIn position (parts t)) :
    ']' ∉ b.block.label ∧ ¬ closingMarker b.block.name <:+: b.block.inner := by
  fun_induction parts t generalizing position with
  | case1 | case2 => simp [locateIn] at hb
  | case3 t before r h label rest h' h'' ih => exact ih hb
  | case4 t before r h label rest h' inner behind h'' ih =>
    rcases List.mem_cons.1 hb with rfl | hb
    · exact ⟨notMem_of_cut? h', not_infix_of_cut? (by simp [closingMarker]) h''⟩
    · exact ih hb

theorem mem_occurrences {name t : Text} {b : Located} :
    b ∈ occurrences name t ↔ b ∈ locate t ∧ b.block.name = name := by
  simp [occurrences]

/-- Do two blocks have no place in common? -/
def Located.Apart (a b : Located) : Prop := a.stop ≤ b.start ∨ b.stop ≤ a.start

instance : Std.Symm Located.Apart := ⟨fun _ _ => Or.symm⟩

theorem Placed.apart {t : Text} {pos : Nat} {bs : List Located} (h : Placed t pos bs) {a b : Located} (ha : a ∈ bs)
    (hb : b ∈ bs) (hne : a ≠ b) : a.Apart b := by
  have hpairwise : bs.Pairwise Located.Apart := h.pairwise.imp Or.inl
  exact hpairwise.forall ha hb hne

/-- The search for blocks finds each as it is written, up to the first closing marker of its name; the blocks do not
overlap and come in order; and it misses none: an opening marker outside the blocks is never closed. -/
theorem occurrences_exact (t : Text) :
    (∀ name, (occurrences name t).Pairwise fun a b => a.start < b.start) ∧
      (∀ name name', ∀ a ∈ occurrences name t, ∀ b ∈ occurrences name' t, a ≠ b → a.Apart b) ∧
      (∀ name, ∀ b ∈ occurrences name t, b.start < b.stop ∧ b.stop ≤ t.length ∧
        slice t b.start b.stop = openStart ++ b.block.label ++ [']'] ++ b.block.inner ++ closingMarker name ∧
        ']' ∉ b.block.label ∧ trim b.block.label = name ∧ ¬ closingMarker name <:+: b.block.inner) ∧
      ∀ m ∈ openings 0 t,
        (∀ name, ∀ b ∈ occurrences name t, ¬ (b.start ≤ m.start ∧ m.start < b.stop)) →
          ¬ closingMarker (trim m.label) <:+: t.drop m.stop := by
  have hplaced := placed_locate t
  refine ⟨fun name => ?_, fun name name' a ha b hb hne => ?_, fun name b hb => ?_, fun m hm hout => ?_⟩
  · refine (hplaced.pairwise.sublist List.filter_sublist).imp_of_mem fun {a b} ha _ hle => ?_
    obtain ⟨-, hlt, -⟩ := hplaced.forall_mem a (mem_occurrences.1 ha).1
    omega
  · have hmem := (mem_occurrences.1 ha).1
    have hmem' := (mem_occurrences.1 hb).1
    exact hplaced.apart hmem hmem' hne
  · obtain ⟨hmem, rfl⟩ := mem_occurrences.1 hb
    obtain ⟨-, hlt, hle, hstop, hsource⟩ := hplaced.forall_mem b hmem
    obtain ⟨hlabel, hinner⟩ := shape_of_mem_locateIn hmem
    refine ⟨hlt, hle, ?_, hlabel, rfl, hinner⟩
    rw [hstop, slice_eq_of_drop t hsource]
    simp [source, name]
  · exact unpaired_of_outside hm fun b hb => hout b.block.name b (mem_occurrences.2 ⟨hb, rfl⟩)

/-- The marker of `c` lies outside the block of `a`, whose text holds one of `b`. -/
theorem occurrences_exact_sample :
    ¬ closingMarker (text "c") <:+: text "[! a ]x[!b]y[~b][~a]" ∧
      slice (text "[!c ][! a ]x[!b]y[~b][~a]") 5 25 = text "[! a ]x[!b]y[~b][~a]" := by
  obtain ⟨-, -, hwritten, hunpaired⟩ := occurrences_exact (text "[!c ][! a ]x[!b]y[~b][~a]")
  have hlocate : locate (text "[!c ][! a ]x[!b]y[~b][~a]") = [⟨5, 25, ⟨text " a ", text "x[!b]y[~b]"⟩⟩] := by
    decide +kernel
  refine ⟨hunpaired ⟨0, text "c "⟩ (by decide +kernel) fun name b hb => ?_, ?_⟩
  · obtain ⟨hb, -⟩ := mem_occurrences.1 hb
    rw [hlocate, List.mem_singleton] at hb
    subst hb
    decide
  · have hmem : (⟨5, 25, ⟨text " a ", text "x[!b]y[~b]"⟩⟩ : Located) ∈
        occurrences (text "a") (text "[!c ][! a ]x[!b]y[~b][~a]") := by decide +kernel
    obtain ⟨-, -, hslice, -⟩ := hwritten _ _ hmem
    exact hslice.trans (by decide +kernel)

end Block

end PageTemplate
