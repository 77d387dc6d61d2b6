import PageTemplate.Proofs.Outline
import PageTemplate.Proofs.Span
import PageTemplate.Proofs.Trimming
set_option autoImplicit false
/-!
Which blocks of an accepted text are located. The search trims the name of an opening marker but takes that of a
closing marker as it is written, where the check trims both. It finds the outermost blocks if none of them has white
space around the name in its closing marker, and otherwise it does not.
-/
namespace PageTemplate

namespace Block

def Located.span (b : Located) : Text × Nat × Nat := (b.block.name, b.start, b.stop)

namespace Outline

/-- The names of all blocks, at whatever depth. -/
def names : Outline → List Text
  | .last _ => []
  | .block _ opening _ _ inner rest => opening.name :: (inner.names ++ rest.names)

/-- Is no block nested in one of the same name? -/
def Distinct : Outline → Prop
  | .last _ => True
  | .block _ opening _ _ inner rest => opening.name ∉ inner.names ∧ inner.Distinct ∧ rest.Distinct

/-- Is there no white space around the names in the closing markers of the outermost blocks? -/
def Tight : Outline → Prop
  | .last _ => True
  | .block _ _ closing _ _ rest => closing.written = closing.name ∧ rest.Tight

instance decidableDistinct : (d : Outline) → Decidable d.Distinct
  | .last _ => .isTrue trivial
  | .block _ opening _ _ inner rest =>
    have := inner.decidableDistinct
    have := rest.decidableDistinct
    inferInstanceAs (Decidable (opening.name ∉ inner.names ∧ inner.Distinct ∧ rest.Distinct))

instance decidableTight : (d : Outline) → Decidable d.Tight
  | .last _ => .isTrue trivial
  | .block _ _ closing _ _ rest =>
    have := rest.decidableTight
    inferInstanceAs (Decidable (closing.written = closing.name ∧ rest.Tight))

/-- The outermost blocks of an outline that starts at the given place. -/
def outermost (position : Nat) : Outline → List Located
  | .last _ => []
  | .block before opening closing _ inner rest =>
    let start := position + before.1.length
    let stop := start + (marker .opening opening.written ++ inner.print ++ marker .closing closing.written).length
    ⟨start, stop, ⟨opening.written, inner.print⟩⟩ :: rest.outermost stop

end Outline

theorem closingMarker_eq (name : Text) : closingMarker name = MarkerKind.closing.start ++ (name ++ [']']) :=
  List.append_assoc ..

theorem Label.name_closed (l : Label) : ']' ∉ l.name := fun h => l.close_notMem (mem_of_mem_trim h)

theorem Label.name_eq (l : Label) : l.name = trim l.written := rfl

theorem Label.trim_name (l : Label) : trim l.name = l.name := trim_trim _

theorem Label.name_unopened (l : Label) : '[' ∉ l.name := fun h => l.open_notMem (mem_of_mem_trim h)

section Passing

variable {needle tail : Text}

theorem clear_plain (kind : MarkerKind) {more t : Text} (hneedle : needle = kind.start ++ more) (hp : ¬Opened t)
    (hb : Bounds tail) : Clear needle t tail := by
  intro u hu hne
  subst hneedle
  refine Option.eq_none_iff_forall_ne_some.2 fun rest h => ?_
  have hstart : markerStart? (u ++ tail) = some (kind, more ++ rest) :=
    markerStart?_eq_some_iff.2 (by rw [after?_eq_some_iff.1 h, List.append_assoc])
  nomatch hstart.symm.trans (markerStart?_eq_none hp hb hu hne)

/-- A marker is passed over in the search for the closing marker of another name. -/
theorem clear_marker (kind : MarkerKind) {name : Text} (l : Label) (hname : ']' ∉ name)
    (hother : kind = .closing → l.written ≠ name) : Clear (closingMarker name) (marker kind l.written) tail := by
  rw [marker, kind.start_eq]
  refine Clear.cons (Option.eq_none_iff_forall_ne_some.2 fun rest h => ?_) (clear_of_head ?_)
  · have hmarker : marker kind l.written ++ tail = marker .closing name ++ rest := by
      rw [marker, kind.start_eq]
      exact after?_eq_some_iff.1 h
    obtain ⟨hkind, hwritten, -⟩ := marker_append_inj l.close_notMem hname hmarker
    exact hother hkind hwritten
  · cases kind <;> simp [MarkerKind.mark, l.open_notMem]

theorem Outline.clear_print (d : Outline) {l : Label} (hname : l.name ∉ d.names) (hb : Bounds tail) :
    Clear (closingMarker l.name) d.print tail := by
  induction d generalizing tail with
  | last t => exact clear_plain .closing (closingMarker_eq _) t.2 hb
  | block before opening closing same inner rest ihInner ihRest =>
    simp only [names, List.mem_cons, List.mem_append, not_or] at hname
    obtain ⟨hopening, hinner, hrest⟩ := hname
    have hclosing : closing.written ≠ l.name := fun h => hopening (by rw [same, closing.name_eq, h, l.trim_name])
    simp only [print, List.append_assoc]
    refine (clear_plain .closing (closingMarker_eq _) before.2 (by simpa using bounds_marker ..)).append ?_
    refine (clear_marker .opening opening l.name_closed (by simp)).append ?_
    refine (ihInner hinner (by simpa using bounds_marker ..)).append ?_
    exact (clear_marker .closing closing l.name_closed fun _ => hclosing).append (ihRest hrest hb)

end Passing

section Locating

theorem parts_plain {t : Text} (hp : ¬Opened t) : parts t = [.verbatim t] := by
  have hclear : Clear openStart t [] := clear_plain .opening (List.append_nil _).symm hp bounds_nil
  have hcut : cut? openStart t = none := by simpa [cut?, openStart] using cut?_of_clear hclear
  rw [parts]
  split
  · rfl
  · next hsome => simp [hcut] at hsome

/-- The parts of a text that starts with a marker but for a plain text in front. -/
theorem parts_marker {before : Text} (hp : ¬Opened before) (opening : Label) (t : Text) :
    parts (before ++ (marker .opening opening.written ++ t)) =
      match cut? (closingMarker opening.name) t with
      | none => .verbatim (before ++ openStart ++ opening.written ++ [']']) :: parts t
      | some (inner, behind) => .verbatim before :: .block ⟨opening.written, inner⟩ :: parts behind := by
  have hshape : before ++ (marker .opening opening.written ++ t) =
      before ++ (openStart ++ (opening.written ++ ']' :: t)) := by
    simp [marker, MarkerKind.start]
  have hclear : Clear openStart before (openStart ++ (opening.written ++ ']' :: t)) :=
    clear_plain .opening (List.append_nil _).symm hp (.inr ⟨.opening, _, rfl⟩)
  have hstart : cut? openStart (before ++ (openStart ++ (opening.written ++ ']' :: t))) =
      some (before, opening.written ++ ']' :: t) := by
    rw [cut?_of_clear hclear, cut?_self]
    simp
  have hlabel : cut? [']'] (opening.written ++ ']' :: t) = some (opening.written, t) :=
    cut?_append opening.close_notMem t
  rw [hshape, parts]
  split
  · next hnone => simp [hstart] at hnone
  · next before' r hsome =>
    obtain ⟨rfl, rfl⟩ := Prod.mk.inj (Option.some.inj (hstart.symm.trans hsome))
    split
    · next hnone => simp [hlabel] at hnone
    · next label rest hsome =>
      obtain ⟨rfl, rfl⟩ := Prod.mk.inj (Option.some.inj (hlabel.symm.trans hsome))
      rw [Label.name]
      split <;> simp_all

theorem source_eq (label inner : Text) :
    source ⟨label, inner⟩ = marker .opening label ++ (inner ++ closingMarker (trim label)) := by
  simp [source, name, marker, MarkerKind.start]

theorem Outline.locateIn_of_tight (d : Outline) (hd : d.Distinct) (ht : d.Tight) (position : Nat) :
    locateIn position (parts d.print) = d.outermost position := by
  induction d generalizing position with
  | last t =>
    rw [print, parts_plain t.2]
    rfl
  | block before opening closing same inner rest ihInner ihRest =>
    obtain ⟨hname, -, hrest⟩ := hd
    obtain ⟨hclosing, htight⟩ := ht
    have hmarker : closingMarker opening.name = marker .closing closing.written := by rw [same, ← hclosing]; rfl
    have hcut : cut? (closingMarker opening.name) (inner.print ++ (marker .closing closing.written ++ rest.print)) =
        some (inner.print, rest.print) := by
      rw [cut?_of_clear (inner.clear_print hname (bounds_marker ..)), hmarker, cut?_self]
      simp
    simp only [print, List.append_assoc]
    rw [parts_marker before.2, hcut]
    simp only [locateIn, outermost]
    rw [source_eq, ← Label.name_eq, hmarker, ← List.append_assoc, ihRest hrest htight]

theorem le_start_of_mem_locateIn {position : Nat} {ps : List Part} {b : Located} (h : b ∈ locateIn position ps) :
    position ≤ b.start := by
  induction ps generalizing position with
  | nil => nomatch h
  | cons p ps ih =>
    cases p with
    | verbatim t => exact Nat.le_trans (Nat.le_add_right ..) (ih h)
    | block b' =>
      rcases List.mem_cons.1 h with rfl | h
      · exact Nat.le_refl _
      · exact Nat.le_trans (Nat.le_add_right ..) (ih h)

/-- The last marker of a text has one name. -/
theorem eq_of_append_marker {x y l l' : Text} (hl : '[' ∉ l) (hl' : '[' ∉ l')
    (h : x ++ marker .closing l = y ++ marker .closing l') : l = l' := by
  have hback : (l.reverse ++ ['~']) ++ '[' :: x.reverse = (l'.reverse ++ ['~']) ++ '[' :: y.reverse := by
    simpa [marker, MarkerKind.start, closeStart] using congrArg List.reverse h
  have hcut := cut?_append (show '[' ∉ l.reverse ++ ['~'] by simpa using hl) x.reverse
  rw [hback, cut?_append (by simpa using hl')] at hcut
  simpa using (Prod.mk.inj (Option.some.inj hcut)).1.symm

theorem Outline.tight_of_span (d : Outline) {position : Nat}
    (h : (locateIn position (parts d.print)).map Located.span = (d.outermost position).map Located.span) : d.Tight := by
  induction d generalizing position with
  | last t => trivial
  | block before opening closing same inner rest ihInner ihRest =>
    simp only [print, List.append_assoc] at h
    rw [parts_marker before.2] at h
    cases hcut : cut? (closingMarker opening.name) (inner.print ++ (marker .closing closing.written ++ rest.print)) with
    | none =>
      -- The search goes on behind the opening marker, too far for a block that starts with it.
      simp only [hcut, locateIn, outermost, List.map_cons] at h
      obtain ⟨b, bs, hlocated, hspan, -⟩ := List.map_eq_cons_iff.1 h
      have hmem : b ∈ locateIn _ _ := hlocated ▸ List.mem_cons_self
      have hlate := le_start_of_mem_locateIn hmem
      simp only [Located.span, Prod.mk.injEq] at hspan
      simp only [openStart, List.length_append, List.length_cons] at hlate
      omega
    | some m =>
      obtain ⟨inner', behind⟩ := m
      simp only [hcut, locateIn, outermost, List.map_cons, List.cons.injEq, Located.span, Prod.mk.injEq] at h
      obtain ⟨⟨-, -, hstop⟩, htail⟩ := h
      have hsource := cut?_eq_some hcut
      have hlength : (inner.print ++ marker .closing closing.written).length =
          (inner' ++ closingMarker opening.name).length := by
        rw [source_eq, ← Label.name_eq] at hstop
        simp only [List.length_append] at hstop ⊢
        omega
      rw [← List.append_assoc] at hsource
      obtain ⟨hspan, rfl⟩ := List.append_inj hsource hlength
      have hwritten : closing.written = opening.name :=
        eq_of_append_marker closing.open_notMem opening.name_unopened hspan
      rw [hstop] at htail
      exact ⟨hwritten.trans same, ihRest htail⟩

/-- Every accepted text has one outline, and unless a block is nested in one of its own name, the blocks that are
located are the outermost of the outline exactly if these are closed without white space around their names. -/
theorem locate_outermost_iff (t : Text) (h : validateStructure t = []) : ∃ d : Outline,
    d.print = t ∧ (∀ d' : Outline, d'.print = t → d' = d) ∧
      (d.Distinct → (locate t = d.outermost 0 ↔ d.Tight) ∧
        ((locate t).map Located.span = (d.outermost 0).map Located.span ↔ d.Tight)) := by
  obtain ⟨d, rfl⟩ := (validateStructure_eq_nil_iff t).1 h
  refine ⟨d, rfl, fun d' hd' => Outline.print_inj hd', fun hdistinct => ?_⟩
  have hlocate : d.Tight → locate d.print = d.outermost 0 := fun htight => d.locateIn_of_tight hdistinct htight 0
  refine ⟨⟨fun he => d.tight_of_span (congrArg _ he), hlocate⟩, ⟨d.tight_of_span, fun htight => ?_⟩⟩
  rw [hlocate htight]

/-- The outline of `-[! a ][!b]x[~ b][~a]`. -/
def nested : Outline :=
  .block ⟨text "-", not_opened_of_notMem (by decide)⟩ (.ofText (text " a ") (by decide +kernel))
    (.ofText (text "a") (by decide +kernel)) (by decide +kernel)
    (.block .empty (.ofText (text "b") (by decide +kernel)) (.ofText (text " b") (by decide +kernel))
      (by decide +kernel) (.last ⟨text "x", not_opened_of_notMem (by decide)⟩) (.last .empty))
    (.last .empty)

/-- White space around the names in other markers does no harm. -/
theorem locate_outermost_nested :
    validateStructure (text "-[! a ][!b]x[~ b][~a]") = [] ∧
      nested.print = text "-[! a ][!b]x[~ b][~a]" ∧
      nested.Distinct ∧ nested.Tight ∧
      locate (text "-[! a ][!b]x[~ b][~a]") = [⟨1, 21, ⟨text " a ", text "[!b]x[~ b]"⟩⟩] := by
  have hvalid : validateStructure (text "-[! a ][!b]x[~ b][~a]") = [] := by decide +kernel
  have hdistinct : nested.Distinct := by decide +kernel
  have htight : nested.Tight := by decide +kernel
  obtain ⟨d, -, hunique, hlocated⟩ := locate_outermost_iff _ hvalid
  obtain rfl := hunique nested rfl
  exact ⟨hvalid, rfl, hdistinct, htight, (hlocated hdistinct).1.2 htight⟩

/-- The outline of `[!a]x[~ a ]`. -/
def spaced : Outline :=
  .block .empty (.ofText (text "a") (by decide +kernel)) (.ofText (text " a ") (by decide +kernel))
    (by decide +kernel) (.last ⟨text "x", not_opened_of_notMem (by decide)⟩) (.last .empty)

/-- The check accepts a block that is not located at all. -/
theorem locate_spaced :
    validateStructure (text "[!a]x[~ a ]") = [] ∧ spaced.print = text "[!a]x[~ a ]" ∧ spaced.Distinct ∧
      (spaced.outermost 0).map Located.span = [(text "a", 0, 11)] ∧ locate (text "[!a]x[~ a ]") = [] := by
  decide +kernel

end Locating

end Block

end PageTemplate
