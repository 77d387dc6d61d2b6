import PageTemplate.Block.Balance
import PageTemplate.Proofs.Marking
set_option autoImplicit false
/-!
What the strict check accepts: texts of blocks one behind the other and one inside the other, each closed under the
name it was opened with. There is only one way to read a text so.
-/
namespace PageTemplate.Block

/-- The text of a marker with nothing wrong about it. -/
@[ext]
structure Label where
  written : Text
  named : trim written ≠ []
  clean : ∀ c ∈ invalidInNames, c ∉ written

def Label.name (l : Label) : Text := trim l.written

theorem labelFault?_eq_none_iff {kind : MarkerKind} {label : Text} :
    labelFault? kind label = none ↔ trim label ≠ [] ∧ ∀ c ∈ invalidInNames, c ∉ label := by
  unfold labelFault?
  cases hblank : trim label with
  | nil => simp
  | cons c cs =>
    simp only [List.isEmpty_cons, Bool.false_eq_true, if_false]
    cases hfound : invalidInNames.filter label.contains with
    | nil => simpa using hfound
    | cons d ds =>
      have hd : d ∈ invalidInNames.filter label.contains := by simp [hfound]
      obtain ⟨hinvalid, hin⟩ := List.mem_filter.1 hd
      exact ⟨nofun, fun ⟨_, hclean⟩ => absurd (by simpa using hin) (hclean d hinvalid)⟩

theorem Label.fault?_eq_none (l : Label) (kind : MarkerKind) : labelFault? kind l.written = none :=
  labelFault?_eq_none_iff.2 ⟨l.named, l.clean⟩

/-- A text the check finds no fault with. -/
def Label.ofText (t : Text) (h : labelFault? .opening t = none) : Label :=
  ⟨t, (labelFault?_eq_none_iff.1 h).1, (labelFault?_eq_none_iff.1 h).2⟩

theorem Label.open_notMem (l : Label) : '[' ∉ l.written := l.clean _ (by decide)

theorem Label.close_notMem (l : Label) : ']' ∉ l.written := l.clean _ (by decide)

/-- A text in which no marker starts. -/
abbrev Plain := { t : Text // ¬Opened t }

abbrev Plain.empty : Plain := ⟨[], not_opened_nil⟩

inductive Outline where
  | last (t : Plain)
  | block (before : Plain) (opening closing : Label) (same : opening.name = closing.name) (inner rest : Outline)

def Outline.print : Outline → Text
  | .last t => t
  | .block before opening closing _ inner rest =>
    before ++ marker .opening opening.written ++ inner.print ++ marker .closing closing.written ++ rest.print

/-- The end of a text, or a place where a marker starts. -/
def Bounds (tail : Text) : Prop := tail = [] ∨ ∃ (kind : MarkerKind) (rest : Text), tail = kind.start ++ rest

theorem bounds_nil : Bounds [] := .inl rfl

theorem bounds_marker (kind : MarkerKind) (label rest : Text) : Bounds (marker kind label ++ rest) :=
  .inr ⟨kind, label ++ ']' :: rest, by simp [marker]⟩

theorem Bounds.head_ne {c : Char} {tail : Text} (h : Bounds (c :: tail)) (kind : MarkerKind) : c ≠ kind.mark := by
  obtain h | ⟨kind', rest, h⟩ := h
  · nomatch h
  · rw [kind'.start_eq] at h
    obtain ⟨rfl, -⟩ := List.cons.inj h
    cases kind <;> decide

theorem opened_append_right {x t : Text} : Opened t → Opened (x ++ t) :=
  fun ⟨kind, before, rest, h⟩ => ⟨kind, x ++ before, rest, by simp [h]⟩

/-- What stands in front of a bound starts a marker only by itself. -/
theorem opened_of_start {t tail rest : Text} {kind : MarkerKind} (hb : Bounds tail) (ht : t ≠ [])
    (h : t ++ tail = kind.start ++ rest) : Opened t := by
  rw [kind.start_eq] at h
  match t, ht with
  | [c], _ =>
    obtain ⟨rfl, rfl⟩ := List.cons.inj h
    exact absurd rfl (hb.head_ne kind)
  | c :: d :: t, _ =>
    simp only [List.cons_append, List.nil_append, List.cons.injEq] at h
    exact ⟨kind, [], t, by simp [kind.start_eq, h]⟩

theorem markerStart?_eq_none {t u tail : Text} (hp : ¬Opened t) (hb : Bounds tail) (hu : u <:+ t) (hne : u ≠ []) :
    markerStart? (u ++ tail) = none := by
  obtain ⟨x, rfl⟩ := hu
  refine Option.eq_none_iff_forall_ne_some.2 fun ⟨kind, rest⟩ h => hp ?_
  exact opened_append_right (opened_of_start hb hne (markerStart?_eq_some_iff.1 h))

section Acceptance

@[simp] theorem markers_nil (line : Nat) : markers line [] = [] := by simp [markers]

theorem newlines_append (t u : Text) : newlines (t ++ u) = newlines t + newlines u := List.count_append

theorem markers_plain (line : Nat) {t tail : Text} (hp : ¬Opened t) (hb : Bounds tail) :
    markers line (t ++ tail) = markers (line + newlines t) tail := by
  induction t generalizing line with
  | nil => rfl
  | cons c cs ih =>
    have hstart : markerStart? (c :: (cs ++ tail)) = none :=
      markerStart?_eq_none hp hb List.suffix_rfl (List.cons_ne_nil c cs)
    have hcs : ¬Opened cs := fun h => hp (opened_append_right (x := [c]) h)
    have hline : (if c = '\n' then line + 1 else line) + newlines cs = line + newlines (c :: cs) := by
      by_cases hc : c = '\n' <;> simp [newlines, hc]
      omega
    rw [List.cons_append, markers, hstart, ← hline]
    exact ih _ hcs

theorem markers_marker (line : Nat) (kind : MarkerKind) {label : Text} (hl : ']' ∉ label) (rest : Text) :
    markers line (marker kind label ++ rest) =
      ⟨kind, line, some label⟩ :: markers (line + newlines (marker kind label)) rest := by
  have hshape : marker kind label ++ rest = '[' :: (kind.mark :: label ++ ']' :: rest) := by
    simp [marker, kind.start_eq]
  have hstart : markerStart? ('[' :: (kind.mark :: label ++ ']' :: rest)) = some (kind, label ++ ']' :: rest) :=
    markerStart?_eq_some_iff.2 (by simp [kind.start_eq])
  have hcut : cut? [']'] (kind.mark :: label ++ ']' :: rest) = some (kind.mark :: label, rest) :=
    cut?_append (by cases kind <;> simp [MarkerKind.mark, hl]) rest
  have hline : newlines (marker kind label) = newlines (kind.mark :: label) := by
    cases kind <;> simp [newlines, marker, MarkerKind.start, openStart, closeStart, MarkerKind.mark]
  rw [hshape, markers, hstart, hline]
  dsimp only
  split
  · next hnone => cases hcut.symm.trans hnone
  · next body behind hsome =>
    obtain ⟨rfl, rfl⟩ := Prod.mk.inj (Option.some.inj (hcut.symm.trans hsome))
    rfl

theorem check_opening (stack : List OpenBlock) (line : Nat) (l : Label) (ms : List Marker) :
    check stack (⟨.opening, line, some l.written⟩ :: ms) = check ((l.name, line) :: stack) ms := by
  simp [check, l.fault?_eq_none, Label.name]

theorem check_closing (stack : List OpenBlock) (line line' : Nat) (l : Label) (ms : List Marker) :
    check ((l.name, line) :: stack) (⟨.closing, line', some l.written⟩ :: ms) = check stack ms := by
  simp [check, l.fault?_eq_none, Label.name]

/-- An outline leaves the open blocks as it finds them. -/
theorem check_print (d : Outline) (stack : List OpenBlock) (line : Nat) {tail : Text} (hb : Bounds tail) :
    check stack (markers line (d.print ++ tail)) = check stack (markers (line + newlines d.print) tail) := by
  induction d generalizing stack line tail with
  | last t => rw [Outline.print, markers_plain line t.2 hb]
  | block before opening closing same inner rest ihInner ihRest =>
    simp only [Outline.print, List.append_assoc]
    rw [markers_plain line before.2 (bounds_marker ..), markers_marker _ _ opening.close_notMem, check_opening,
      ihInner _ _ (bounds_marker ..), markers_marker _ _ closing.close_notMem, same, check_closing, ihRest _ _ hb]
    simp only [newlines_append, Nat.add_assoc]

theorem validateStructure_print (d : Outline) : validateStructure d.print = [] := by
  have h := check_print d [] 1 bounds_nil
  rw [List.append_nil, markers_nil] at h
  exact h

/-- Texts that close the open blocks with the given names, the innermost first, with outlines between. -/
inductive Unwinds : List Text → Text → Prop
  | last (d : Outline) : Unwinds [] d.print
  | close (d : Outline) (closing : Label) {names : List Text} {rest : Text} :
    Unwinds names rest → Unwinds (closing.name :: names) (d.print ++ (marker .closing closing.written ++ rest))

/-- The outline in front may be any other. -/
theorem Unwinds.front {names : List Text} {t : Text} (h : Unwinds names t) :
    ∃ (d : Outline) (rest : Text), t = d.print ++ rest ∧ ∀ d' : Outline, Unwinds names (d'.print ++ rest) := by
  cases h with
  | last d => exact ⟨d, [], by simp, fun d' => by simpa using last d'⟩
  | close d closing h => exact ⟨d, _, rfl, fun d' => close d' closing h⟩

theorem not_opened_cons {c : Char} {t behind : Text} (hp : ¬Opened t) (h : markerStart? (c :: t ++ behind) = none) :
    ¬Opened (c :: t) := by
  rintro ⟨kind, x, rest, hx⟩
  cases x with
  | nil =>
    have hstart : markerStart? (c :: t ++ behind) = some (kind, rest ++ behind) :=
      markerStart?_eq_some_iff.2 (by rw [hx]; simp)
    cases h.symm.trans hstart
  | cons e x => exact hp ⟨kind, x, rest, (List.cons.inj hx).2⟩

theorem Outline.exists_cons (d : Outline) {c : Char} {tail : Text} (h : markerStart? (c :: (d.print ++ tail)) = none) :
    ∃ d' : Outline, d'.print = c :: d.print := by
  cases d with
  | last t => exact ⟨.last ⟨c :: t.1, not_opened_cons t.2 h⟩, rfl⟩
  | block before opening closing same inner rest =>
    simp only [print, List.append_assoc] at h
    exact ⟨.block ⟨c :: before.1, not_opened_cons before.2 h⟩ opening closing same inner rest, rfl⟩

theorem Unwinds.cons_char {names : List Text} {t : Text} {c : Char} (h : Unwinds names t)
    (hc : markerStart? (c :: t) = none) : Unwinds names (c :: t) := by
  obtain ⟨d, rest, rfl, hany⟩ := h.front
  obtain ⟨d', hd'⟩ := d.exists_cons hc
  have hcons := hany d'
  rwa [hd'] at hcons

theorem Unwinds.opened {names : List Text} {name t : Text} (h : Unwinds (name :: names) t) (opening : Label)
    (hname : opening.name = name) : Unwinds names (marker .opening opening.written ++ t) := by
  cases h with
  | close d closing h =>
    obtain ⟨d', rest, rfl, hany⟩ := h.front
    simpa [Outline.print] using hany (.block .empty opening closing hname d d')

theorem marker_of_cut? {c : Char} {cs rest body behind : Text} {kind : MarkerKind}
    (hstart : markerStart? (c :: cs) = some (kind, rest)) (hcut : cut? [']'] cs = some (body, behind)) :
    c :: cs = marker kind (body.drop 1) ++ behind := by
  have hcs := markerStart?_eq_some_iff.1 hstart
  rw [cut?_eq_some hcut, kind.start_eq] at hcs
  rw [cut?_eq_some hcut]
  cases body with
  | nil => cases kind <;> simp [MarkerKind.mark] at hcs
  | cons m label =>
    simp only [List.cons_append, List.nil_append, List.cons.injEq] at hcs
    simp [marker, kind.start_eq, hcs]

theorem unwinds_of_check {stack : List OpenBlock} {line : Nat} {t : Text} (h : check stack (markers line t) = []) :
    Unwinds (stack.map (·.1)) t := by
  fun_induction markers line t generalizing stack with
  | case1 line =>
    cases stack with
    | nil => exact .last (.last .empty)
    | cons b stack => simp [check, unclosedErrors] at h
  | case2 line c cs hstart ih => exact (ih h).cons_char hstart
  | case3 line c cs kind rest hstart hcut => simp [check] at h
  | case4 line c cs kind rest hstart body behind hcut ih =>
    rw [marker_of_cut? hstart hcut]
    simp only [check] at h
    split at h
    · nomatch h
    · next hfault =>
      obtain ⟨hnamed, hclean⟩ := labelFault?_eq_none_iff.1 hfault
      split at h
      · exact (ih h).opened ⟨_, hnamed, hclean⟩ rfl
      · nomatch h
      · next name line' outer =>
        split at h
        · next hname =>
          subst hname
          exact .close (.last .empty) ⟨_, hnamed, hclean⟩ (ih h)
        · nomatch h

theorem validateStructure_eq_nil_iff (t : Text) : validateStructure t = [] ↔ ∃ d : Outline, d.print = t := by
  constructor
  · intro h
    have hunwinds : Unwinds [] t := unwinds_of_check h
    cases hunwinds with
    | last d => exact ⟨d, rfl⟩
  · rintro ⟨d, rfl⟩
    exact validateStructure_print d

end Acceptance

section Uniqueness

theorem eq_nil_of_bounds {t x tail : Text} (hp : ¬Opened (t ++ x)) (hx : Bounds (x ++ tail)) (hb : Bounds tail) :
    x = [] := by
  rcases hx with h | ⟨kind, rest, h⟩
  · exact (List.append_eq_nil_iff.1 h).1
  · exact Classical.byContradiction fun hne => hp (opened_append_right (opened_of_start hb hne h))

theorem plain_append_inj {t t' x x' : Text} (hp : ¬Opened t) (hp' : ¬Opened t') (hx : Bounds x) (hx' : Bounds x')
    (h : t ++ x = t' ++ x') : t = t' ∧ x = x' := by
  obtain ⟨y, rfl, rfl⟩ | ⟨y, rfl, rfl⟩ := List.append_eq_append_iff.1 h
  · obtain rfl := eq_nil_of_bounds hp' hx hx'
    simp
  · obtain rfl := eq_nil_of_bounds hp hx' hx
    simp

theorem marker_append_inj {kind kind' : MarkerKind} {l l' x x' : Text} (hl : ']' ∉ l) (hl' : ']' ∉ l')
    (h : marker kind l ++ x = marker kind' l' ++ x') : kind = kind' ∧ l = l' ∧ x = x' := by
  have hkind : kind = kind' := by
    cases kind <;> cases kind' <;> simp [marker, MarkerKind.start, openStart, closeStart] at h ⊢
  subst hkind
  have hrest : l ++ ']' :: x = l' ++ ']' :: x' := by simpa [marker, kind.start_eq] using h
  have hcut := cut?_append hl x
  rw [hrest, cut?_append hl' x'] at hcut
  obtain ⟨rfl, rfl⟩ := Prod.mk.inj (Option.some.inj hcut)
  exact ⟨rfl, rfl, rfl⟩

/-- The end of a text, or a place where a block is closed. -/
def Closes (tail : Text) : Prop := tail = [] ∨ ∃ (l : Label) (rest : Text), tail = marker .closing l.written ++ rest

theorem Closes.bounds {tail : Text} (h : Closes tail) : Bounds tail := by
  rcases h with rfl | ⟨l, rest, rfl⟩
  · exact bounds_nil
  · exact bounds_marker ..

theorem Closes.ne_opening {tail : Text} (h : Closes tail) (l : Label) (rest : Text) :
    tail ≠ marker .opening l.written ++ rest := by
  rcases h with rfl | ⟨l', rest', rfl⟩
  · simp [marker]
  · intro h
    nomatch (marker_append_inj l'.close_notMem l.close_notMem h).1

theorem Outline.print_append_inj {d d' : Outline} {tail tail' : Text} (hc : Closes tail) (hc' : Closes tail')
    (h : d.print ++ tail = d'.print ++ tail') : d = d' ∧ tail = tail' := by
  induction d generalizing d' tail tail' with
  | last t =>
    cases d' with
    | last t' =>
      obtain ⟨ht, htail⟩ := plain_append_inj t.2 t'.2 hc.bounds hc'.bounds h
      exact ⟨congrArg last (Subtype.ext ht), htail⟩
    | block before opening closing same inner rest =>
      simp only [print, List.append_assoc] at h
      obtain ⟨-, htail⟩ := plain_append_inj t.2 before.2 hc.bounds (bounds_marker ..) h
      exact absurd htail (hc.ne_opening opening _)
  | block before opening closing same inner rest ihInner ihRest =>
    cases d' with
    | last t' =>
      simp only [print, List.append_assoc] at h
      obtain ⟨-, htail⟩ := plain_append_inj before.2 t'.2 (bounds_marker ..) hc'.bounds h
      exact absurd htail.symm (hc'.ne_opening opening _)
    | block before' opening' closing' same' inner' rest' =>
      simp only [print, List.append_assoc] at h
      obtain ⟨hbefore, h⟩ := plain_append_inj before.2 before'.2 (bounds_marker ..) (bounds_marker ..) h
      obtain ⟨-, hopening, h⟩ := marker_append_inj opening.close_notMem opening'.close_notMem h
      obtain ⟨rfl, hend⟩ := ihInner (.inr ⟨closing, _, rfl⟩) (.inr ⟨closing', _, rfl⟩) h
      obtain ⟨-, hclosing, h⟩ := marker_append_inj closing.close_notMem closing'.close_notMem hend
      obtain ⟨rfl, rfl⟩ := ihRest hc hc' h
      obtain rfl := Subtype.ext hbefore
      obtain rfl := Label.ext hopening
      obtain rfl := Label.ext hclosing
      exact ⟨rfl, rfl⟩

/-- A text has at most one outline. -/
theorem Outline.print_inj {d d' : Outline} (h : d.print = d'.print) : d = d' :=
  (print_append_inj (.inl rfl) (.inl rfl) (congrArg (· ++ []) h)).1

end Uniqueness

end PageTemplate.Block
