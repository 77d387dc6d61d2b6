import PageTemplate.Proofs.Outline
set_option autoImplicit false
/-!
What the strict check reports. It accepts a text exactly if its markers are complete and well named and their opens
and closes nest. Otherwise every fault bears the line on which its marker starts, those met in the reading in the
order of the text, and behind them the blocks that are left open, in the order of their opening.
-/
namespace PageTemplate.Block

/-- A marker at its place in a text. One without closing bracket has no label. -/
structure MarkerAt where
  place : Nat
  kind : MarkerKind
  label : Option Text
  deriving DecidableEq, Repr

/-- The markers of a text whose first character is at the given place: each reaches to the next closing bracket, and
the reading goes on behind it. -/
def markersAt (place : Nat) : Text → List MarkerAt
  | [] => []
  | c :: cs =>
    match _h : markerStart? (c :: cs) with
    | none => markersAt (place + 1) cs
    | some (kind, r) =>
      match _h' : cut? [']'] r with
      | none => [⟨place, kind, none⟩]
      | some (label, rest) => ⟨place, kind, some label⟩ :: markersAt (place + (marker kind label).length) rest
termination_by t => t.length
decreasing_by
  · simp
  · have hstart := congrArg List.length (markerStart?_eq_some_iff.1 _h)
    have hcut := cut?_length _h'
    simp only [List.length_append, List.length_cons, List.length_nil] at hstart hcut ⊢
    omega

namespace MarkerAt

variable (t : Text) (m : MarkerAt)

/-- Is the marker written in the text at its place? -/
def Written : Prop :=
  match m.label with
  | some label => ']' ∉ label ∧ marker m.kind label <+: t.drop m.place
  | none => ']' ∉ t.drop m.place ∧ m.kind.start <+: t.drop m.place

def name : Text := trim (m.label.getD [])

/-- Lines are counted from one. -/
def line : Nat := 1 + newlines (t.take m.place)

def lined : Marker := ⟨m.kind, m.line t, m.label⟩

/-- Has the marker its closing bracket, and a name with nothing wrong about it? -/
def Sound : Prop := ∃ label, m.label = some label ∧ trim label ≠ [] ∧ ∀ c ∈ invalidInNames, c ∉ label

/-- What is wrong with a marker behind open blocks, the innermost of which comes first. -/
def fault? (stack : List MarkerAt) : Option BalanceFault :=
  match m.label with
  | none => some (.unterminated m.kind)
  | some label =>
    (labelFault? m.kind label).or
      (match m.kind, stack with
      | .opening, _ => none
      | .closing, [] => some (.unexpectedClose m.name)
      | .closing, top :: _ => if top.name = m.name then none else some (.mismatch top.name m.name))

/-- The open blocks behind a marker. One with a fault changes nothing. -/
def leave (stack : List MarkerAt) : List MarkerAt :=
  match m.fault? stack, m.kind with
  | some _, _ => stack
  | none, .opening => m :: stack
  | none, .closing => stack.tail

end MarkerAt

/-- The open blocks behind markers, the innermost first. -/
def openAfter (stack : List MarkerAt) (ms : List MarkerAt) : List MarkerAt :=
  ms.foldl (fun stack m => m.leave stack) stack

/-- The markers with faults, in order. -/
def faultsFrom : List MarkerAt → List MarkerAt → List (MarkerAt × BalanceFault)
  | _, [] => []
  | stack, m :: ms => ((m.fault? stack).map (m, ·)).toList ++ faultsFrom (m.leave stack) ms

/-- Markers as opens and closes of names. -/
def word (ms : List MarkerAt) : List (MarkerKind × Text) := ms.map fun m => (m.kind, m.name)

/-- Opens and closes that nest by name. -/
inductive Nested : List (MarkerKind × Text) → Prop
  | nil : Nested []
  | block (name : Text) {inner rest : List (MarkerKind × Text)} :
    Nested inner → Nested rest → Nested ((.opening, name) :: inner ++ (.closing, name) :: rest)

section Reading

variable {m : MarkerAt}

theorem marker_length_pos (kind : MarkerKind) (label : Text) : 0 < (marker kind label).length :=
  List.length_pos_iff.2 (by simp [marker])

theorem eq_marker_append {t r label rest : Text} {kind : MarkerKind} (h : markerStart? t = some (kind, r))
    (h' : cut? [']'] r = some (label, rest)) : t = marker kind label ++ rest := by
  rw [markerStart?_eq_some_iff.1 h, cut?_eq_some h', marker]
  simp only [List.append_assoc]

theorem close_notMem_of_unterminated {t r : Text} {kind : MarkerKind} (h : markerStart? t = some (kind, r))
    (h' : cut? [']'] r = none) : ']' ∉ t := by
  have hr : ']' ∉ r := fun hclose => by
    have hsome := cut?_isSome_iff.2 hclose
    simp [h'] at hsome
  rw [markerStart?_eq_some_iff.1 h]
  cases kind <;> simpa [MarkerKind.start, openStart, closeStart] using hr

theorem place_le_of_mem {place : Nat} {t : Text} (h : m ∈ markersAt place t) : place ≤ m.place := by
  fun_induction markersAt place t with
  | case1 => nomatch h
  | case2 place c cs hstart ih => exact Nat.le_of_succ_le (ih h)
  | case3 place c cs kind r hstart hcut => simp [List.mem_singleton.1 h]
  | case4 place c cs kind r hstart label rest hcut ih =>
    rcases List.mem_cons.1 h with rfl | h
    · exact Nat.le_refl place
    · exact Nat.le_trans (Nat.le_add_right ..) (ih h)

theorem markersAt_pairwise (place : Nat) (t : Text) :
    (markersAt place t).Pairwise fun a b => a.place < b.place := by
  fun_induction markersAt place t with
  | case1 => exact .nil
  | case2 place c cs hstart ih => exact ih
  | case3 => exact List.pairwise_singleton ..
  | case4 place c cs kind r hstart label rest hcut ih =>
    refine .cons (fun m hm => ?_) ih
    have hlater := place_le_of_mem hm
    have hpos := marker_length_pos kind label
    dsimp only
    omega

theorem written_of_mem (front : Text) {t : Text} (h : m ∈ markersAt front.length t) : m.Written (front ++ t) := by
  generalize hplace : front.length = place at h
  fun_induction markersAt place t generalizing front with
  | case1 => nomatch h
  | case2 place c cs hstart ih =>
    have hbehind : m.Written ((front ++ [c]) ++ cs) := ih (front ++ [c]) (by simp [hplace]) h
    simpa using hbehind
  | case3 place c cs kind r hstart hcut =>
    obtain rfl := List.mem_singleton.1 h
    subst hplace
    rw [MarkerAt.Written, List.drop_left]
    exact ⟨close_notMem_of_unterminated hstart hcut, r, (markerStart?_eq_some_iff.1 hstart).symm⟩
  | case4 place c cs kind r hstart label rest hcut ih =>
    rw [eq_marker_append hstart hcut]
    subst hplace
    rcases List.mem_cons.1 h with rfl | h
    · rw [MarkerAt.Written, List.drop_left]
      exact ⟨notMem_of_cut? hcut, List.prefix_append ..⟩
    · have hbehind : m.Written ((front ++ marker kind label) ++ rest) := ih (front ++ marker kind label) (by simp) h
      rwa [List.append_assoc] at hbehind

/-- The line on which a marker starts is counted right, also behind markers that span lines. -/
theorem markers_eq_map_lined (front t : Text) :
    markers (1 + newlines front) t = (markersAt front.length t).map (MarkerAt.lined (front ++ t)) := by
  generalize hplace : front.length = place
  fun_induction markersAt place t generalizing front with
  | case1 => rw [markers_nil, List.map_nil]
  | case2 place c cs hstart ih =>
    have hline : (if c = '\n' then 1 + newlines front + 1 else 1 + newlines front) = 1 + newlines (front ++ [c]) := by
      by_cases hc : c = '\n' <;> simp [newlines, hc, Nat.add_assoc]
    have hbehind := ih (front ++ [c]) (by simp [hplace])
    rw [List.append_assoc] at hbehind
    rw [markers, hstart]
    dsimp only
    rw [hline]
    exact hbehind
  | case3 place c cs kind r hstart hcut =>
    have hclose : ']' ∉ cs := fun h => close_notMem_of_unterminated hstart hcut (List.mem_cons_of_mem c h)
    rw [markers, hstart]
    dsimp only
    split
    · subst hplace
      simp [MarkerAt.lined, MarkerAt.line]
    · next hsome => simp [cut?_eq_none hclose] at hsome
  | case4 place c cs kind r hstart label rest hcut ih =>
    rw [eq_marker_append hstart hcut, markers_marker _ _ (notMem_of_cut? hcut), Nat.add_assoc, ← newlines_append,
      ih (front ++ marker kind label) (by simp [hplace])]
    subst hplace
    simp [MarkerAt.lined, MarkerAt.line]

end Reading

section Checking

/-- Does nothing follow a marker that is cut short? -/
def Tapered : List MarkerAt → Prop
  | [] => True
  | m :: ms => (m.label = none → ms = []) ∧ Tapered ms

theorem tapered_markersAt (place : Nat) (t : Text) : Tapered (markersAt place t) := by
  fun_induction markersAt place t with
  | case1 => trivial
  | case2 place c cs hstart ih => exact ih
  | case3 => exact ⟨fun _ => rfl, trivial⟩
  | case4 place c cs kind r hstart label rest hcut ih => exact ⟨nofun, ih⟩

theorem faultsFrom_cons (stack : List MarkerAt) (m : MarkerAt) (ms : List MarkerAt) :
    faultsFrom stack (m :: ms) = ((m.fault? stack).map (m, ·)).toList ++ faultsFrom (m.leave stack) ms := rfl

theorem openAfter_cons (stack : List MarkerAt) (m : MarkerAt) (ms : List MarkerAt) :
    openAfter stack (m :: ms) = openAfter (m.leave stack) ms := rfl

variable (t : Text)

/-- The check says of markers what is wrong with each behind those before it, and which blocks they leave open. -/
theorem check_lined {ms : List MarkerAt} (h : Tapered ms) (stack : List MarkerAt) :
    check (stack.map fun m => (m.name, m.line t)) (ms.map (MarkerAt.lined t)) =
      (faultsFrom stack ms).map (fun e => ⟨e.1.line t, e.2⟩) ++
        (openAfter stack ms).reverse.map fun m => ⟨m.line t, .unclosed m.name⟩ := by
  induction ms generalizing stack with
  | nil => simp [check, unclosedErrors, faultsFrom, openAfter]
  | cons m ms ih =>
    obtain ⟨hlast, hms⟩ := h
    cases hlabel : m.label with
    | none =>
      obtain rfl := hlast hlabel
      simp [check, unclosedErrors, faultsFrom, openAfter, MarkerAt.lined, MarkerAt.leave, MarkerAt.fault?, hlabel]
    | some label =>
      rw [faultsFrom_cons, openAfter_cons, List.map_append, List.append_assoc, ← ih hms, List.map_cons, check]
      cases hfault : labelFault? m.kind label with
      | some f => simp [MarkerAt.lined, MarkerAt.leave, MarkerAt.fault?, hlabel, hfault]
      | none =>
        have hname : m.name = trim label := by simp [MarkerAt.name, hlabel]
        cases hkind : m.kind with
        | opening =>
          rw [hkind] at hfault
          simp [MarkerAt.lined, MarkerAt.leave, MarkerAt.fault?, hlabel, hkind, hname, hfault]
        | closing =>
          rw [hkind] at hfault
          cases stack with
          | nil => simp [MarkerAt.lined, MarkerAt.leave, MarkerAt.fault?, hlabel, hkind, hname, hfault]
          | cons top outer =>
            by_cases hsame : top.name = trim label <;>
              simp [MarkerAt.lined, MarkerAt.leave, MarkerAt.fault?, hlabel, hkind, hname, hfault, hsame]

end Checking

section Order

theorem faultsFrom_sublist (stack ms : List MarkerAt) : ((faultsFrom stack ms).map Prod.fst).Sublist ms := by
  induction ms generalizing stack with
  | nil => exact .slnil
  | cons m ms ih =>
    rw [faultsFrom_cons, List.map_append]
    cases m.fault? stack with
    | none => exact (ih _).cons m
    | some f => exact (ih _).cons_cons m

theorem leave_cases (m : MarkerAt) (stack : List MarkerAt) :
    m.leave stack = stack ∨ (m.kind = .opening ∧ m.leave stack = m :: stack) ∨ m.leave stack = stack.tail := by
  unfold MarkerAt.leave
  split
  · exact .inl rfl
  · next hkind => exact .inr (.inl ⟨hkind, rfl⟩)
  · exact .inr (.inr rfl)

theorem openAfter_sublist (stack ms : List MarkerAt) :
    (openAfter stack ms).reverse.Sublist (stack.reverse ++ ms.filter (·.kind = .opening)) := by
  induction ms generalizing stack with
  | nil => simp [openAfter]
  | cons m ms ih =>
    have hlonger := (List.sublist_cons_self m ms).filter fun m => decide (m.kind = .opening)
    rw [openAfter_cons]
    refine (ih (m.leave stack)).trans ?_
    rcases leave_cases m stack with hsame | ⟨hkind, hmore⟩ | hless
    · rw [hsame]
      exact (List.Sublist.refl _).append hlonger
    · simp [hmore, hkind]
    · rw [hless]
      exact (List.tail_sublist stack).reverse.append hlonger

end Order

section Acceptance

/-- Words that close open blocks with the given names, the innermost first, with nested words between. -/
inductive Settles : List Text → List (MarkerKind × Text) → Prop
  | nested {w : List (MarkerKind × Text)} : Nested w → Settles [] w
  | close {inner : List (MarkerKind × Text)} (name : Text) {names : List Text} {rest : List (MarkerKind × Text)} :
    Nested inner → Settles names rest → Settles (name :: names) (inner ++ (.closing, name) :: rest)

theorem Settles.opened {name : Text} {names : List Text} {w : List (MarkerKind × Text)}
    (h : Settles (name :: names) w) : Settles names ((.opening, name) :: w) := by
  cases h with
  | close name hinner hrest =>
    cases hrest with
    | nested hrest => exact .nested (.block name hinner hrest)
    | close name' hbetween hrest =>
      have hblock := Settles.close name' (.block name hinner hbetween) hrest
      simpa using hblock

variable {m : MarkerAt} {ms stack : List MarkerAt}

theorem fault?_eq_none_iff : m.fault? stack = none ↔
    m.Sound ∧ (m.kind = .closing → ∃ top outer, stack = top :: outer ∧ top.name = m.name) := by
  unfold MarkerAt.fault? MarkerAt.Sound
  cases m.label with
  | none => simp
  | some label =>
    rw [Option.or_eq_none_iff, labelFault?_eq_none_iff]
    cases m.kind with
    | opening => simp
    | closing =>
      cases stack with
      | nil => simp
      | cons top outer => simp

theorem leave_of_faultless (h : m.fault? stack = none) :
    (m.kind = .opening ∧ m.leave stack = m :: stack) ∨ (m.kind = .closing ∧ m.leave stack = stack.tail) := by
  cases hkind : m.kind <;> simp [MarkerAt.leave, h, hkind]

theorem settles_of_faultless (hfaults : faultsFrom stack ms = []) (hopen : openAfter stack ms = []) :
    (∀ m ∈ ms, m.Sound) ∧ Settles (stack.map MarkerAt.name) (word ms) := by
  induction ms generalizing stack with
  | nil =>
    obtain rfl : stack = [] := hopen
    exact ⟨nofun, .nested .nil⟩
  | cons m ms ih =>
    rw [faultsFrom_cons, List.append_eq_nil_iff] at hfaults
    obtain ⟨hfault, hfaults⟩ := hfaults
    rw [Option.toList_eq_nil_iff, Option.map_eq_none_iff] at hfault
    obtain ⟨hsound, hmatch⟩ := fault?_eq_none_iff.1 hfault
    obtain ⟨hall, hsettles⟩ := ih hfaults hopen
    refine ⟨List.forall_mem_cons.2 ⟨hsound, hall⟩, ?_⟩
    rw [word, List.map_cons]
    rcases leave_of_faultless hfault with ⟨hkind, hleave⟩ | ⟨hkind, hleave⟩
    · rw [hleave] at hsettles
      rw [hkind]
      exact hsettles.opened
    · obtain ⟨top, outer, rfl, hname⟩ := hmatch hkind
      rw [hleave] at hsettles
      rw [hkind, List.map_cons, hname]
      exact .close m.name .nil hsettles

theorem faultsFrom_append (stack ms ms' : List MarkerAt) :
    faultsFrom stack (ms ++ ms') = faultsFrom stack ms ++ faultsFrom (openAfter stack ms) ms' := by
  induction ms generalizing stack with
  | nil => rfl
  | cons m ms ih => rw [List.cons_append, faultsFrom_cons, faultsFrom_cons, ih, openAfter_cons, List.append_assoc]

theorem openAfter_append (stack ms ms' : List MarkerAt) :
    openAfter stack (ms ++ ms') = openAfter (openAfter stack ms) ms' := List.foldl_append ..

/-- Nested markers are without fault behind any open blocks, and leave those as they are. -/
theorem faultless_of_nested {w : List (MarkerKind × Text)} (h : Nested w) (hw : word ms = w)
    (hsound : ∀ m ∈ ms, m.Sound) : faultsFrom stack ms = [] ∧ openAfter stack ms = stack := by
  induction h generalizing ms stack with
  | nil =>
    obtain rfl := List.map_eq_nil_iff.1 hw
    exact ⟨rfl, rfl⟩
  | block name hinner hrest ihInner ihRest =>
    obtain ⟨ms₁, ms₂, rfl, hfront, hback⟩ := List.map_eq_append_iff.1 hw
    obtain ⟨opening, ms₁, rfl, hopening, hfront⟩ := List.map_eq_cons_iff.1 hfront
    obtain ⟨closing, ms₂, rfl, hclosing, hback⟩ := List.map_eq_cons_iff.1 hback
    obtain ⟨hkind, hname⟩ := Prod.mk.inj hopening
    obtain ⟨hkind', hname'⟩ := Prod.mk.inj hclosing
    simp only [List.mem_append, List.mem_cons] at hsound
    obtain ⟨hfaultsInner, hopenInner⟩ :
        faultsFrom (opening :: stack) ms₁ = [] ∧ openAfter (opening :: stack) ms₁ = opening :: stack :=
      ihInner hfront fun m hm => hsound m (.inl (.inr hm))
    obtain ⟨hfaultsRest, hopenRest⟩ : faultsFrom stack ms₂ = [] ∧ openAfter stack ms₂ = stack :=
      ihRest hback fun m hm => hsound m (.inr (.inr hm))
    have hopened : opening.fault? stack = none :=
      fault?_eq_none_iff.2 ⟨hsound opening (.inl (.inl rfl)), by simp [hkind]⟩
    have hclosed : closing.fault? (opening :: stack) = none :=
      fault?_eq_none_iff.2 ⟨hsound closing (.inr (.inl rfl)), fun _ => ⟨opening, stack, rfl, hname.trans hname'.symm⟩⟩
    have hleave : opening.leave stack = opening :: stack := by simp [MarkerAt.leave, hopened, hkind]
    have hleave' : closing.leave (opening :: stack) = stack := by simp [MarkerAt.leave, hclosed, hkind']
    constructor
    · rw [List.cons_append, faultsFrom_cons, hopened, hleave, faultsFrom_append, hfaultsInner, hopenInner,
        faultsFrom_cons, hclosed, hleave', hfaultsRest]
      rfl
    · rw [List.cons_append, openAfter_cons, hleave, openAfter_append, hopenInner, openAfter_cons, hleave', hopenRest]

end Acceptance

theorem validateStructure_eq (t : Text) : validateStructure t =
      (faultsFrom [] (markersAt 0 t)).map (fun e => ⟨e.1.line t, e.2⟩) ++
        (openAfter [] (markersAt 0 t)).reverse.map fun m => ⟨m.line t, .unclosed m.name⟩ := by
  have hmarkers : markers 1 t = (markersAt 0 t).map (MarkerAt.lined t) := markers_eq_map_lined [] t
  rw [validateStructure, hmarkers]
  exact check_lined t (tapered_markersAt 0 t) []

theorem validateStructure_eq_nil_iff_nested (t : Text) :
    validateStructure t = [] ↔ (∀ m ∈ markersAt 0 t, m.Sound) ∧ Nested (word (markersAt 0 t)) := by
  rw [validateStructure_eq, List.append_eq_nil_iff, List.map_eq_nil_iff, List.map_eq_nil_iff, List.reverse_eq_nil_iff]
  constructor
  · rintro ⟨hfaults, hopen⟩
    obtain ⟨hsound, hsettles⟩ := settles_of_faultless hfaults hopen
    cases hsettles with
    | nested hnested => exact ⟨hsound, hnested⟩
  · rintro ⟨hsound, hnested⟩
    exact faultless_of_nested hnested rfl hsound

/-- The check accepts exactly the texts whose markers are complete, well named and nested. Its errors are those of
the markers in their order, each on the line its marker starts on, and then one for each block left open, in the order
of their opening and on the line of their opening. -/
theorem validateStructure_exact (t : Text) :
    (validateStructure t = [] ↔ (∀ m ∈ markersAt 0 t, m.Sound) ∧ Nested (word (markersAt 0 t))) ∧
      (∀ m ∈ markersAt 0 t, m.Written t) ∧ (markersAt 0 t).Pairwise (fun a b => a.place < b.place) ∧
      validateStructure t =
        (faultsFrom [] (markersAt 0 t)).map (fun e => ⟨e.1.line t, e.2⟩) ++
          (openAfter [] (markersAt 0 t)).reverse.map (fun m => ⟨m.line t, .unclosed m.name⟩) ∧
      ((faultsFrom [] (markersAt 0 t)).map Prod.fst).Sublist (markersAt 0 t) ∧
      (openAfter [] (markersAt 0 t)).reverse.Sublist ((markersAt 0 t).filter (·.kind = .opening)) :=
  ⟨validateStructure_eq_nil_iff_nested t, fun _ hm => written_of_mem [] hm, markersAt_pairwise 0 t,
    validateStructure_eq t, faultsFrom_sublist .., openAfter_sublist ..⟩

/-- The first marker spans two lines, so that the second one, which does not match it, is on the third. -/
theorem validateStructure_exact_sample :
    (⟨6, .closing, some (text "b")⟩ : MarkerAt).Written (text "[!a\n]\n[~b]") ∧
      validateStructure (text "[!a\n]\n[~b]") =
        [⟨3, .mismatch (text "a") (text "b")⟩, ⟨1, .unclosed (text "a")⟩] := by
  obtain ⟨-, hwritten, -, herrors, -⟩ := validateStructure_exact (text "[!a\n]\n[~b]")
  exact ⟨hwritten _ (by decide +kernel), herrors.trans (by decide +kernel)⟩

end PageTemplate.Block
