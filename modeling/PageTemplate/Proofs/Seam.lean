import PageTemplate.Proofs.Bracket
set_option autoImplicit false
/-!
Rewriting a text in parts. Where tags are rewritten, the parts of a text may be rewritten apart from each
other, if what comes out of the first does not break off inside a tag: a tag that is broken off stays
broken off under every rewriting.
-/
namespace PageTemplate.Tag

open Piece

/-- Neither holds the opening of a tag nor ends in the middle of one. -/
def calm : Text → Bool
  | [] => true
  | [c] => c != '\x7b'
  | c :: d :: cs => !(c == '\x7b' && d == '\x7b') && calm (d :: cs)

theorem calm_of_cons {c : Char} {cs : Text} (h : calm (c :: cs)) : calm cs := by
  cases cs with
  | nil => rfl
  | cons d cs => simp_all [calm]

theorem calm_of_suffix {t u : Text} (h : calm t) (hu : u <:+ t) : calm u := by
  induction t with
  | nil => simp_all
  | cons c cs ih =>
    rcases List.suffix_cons_iff.1 hu with rfl | hu
    · exact h
    · exact ih (calm_of_cons h) hu

theorem calm_of_notMem {t : Text} (h : '\x7b' ∉ t) : calm t := by
  fun_induction calm t with
  | case1 => rfl
  | case2 c => exact bne_iff_ne.2 (Ne.symm (List.ne_of_not_mem_cons h))
  | case3 c d cs ih =>
    simp only [List.mem_cons, not_or] at h ih
    simp [Ne.symm h.1, ih h.2]

/-- No tag begins in a calm text, whatever follows it. -/
theorem not_opening_of_calm {x y : Text} (h : calm x) (hx : x ≠ []) : ¬ opening <+: x ++ y := by
  rintro ⟨z, hz⟩
  match x, h with
  | [], _ => exact hx rfl
  | [c], h =>
    simp only [opening, List.cons_append, List.cons.injEq] at hz
    simp [calm, ← hz.1] at h
  | c :: d :: cs, h =>
    simp only [opening, List.cons_append, List.cons.injEq] at hz
    simp [calm, ← hz.1, ← hz.2.1] at h

theorem calm_append {x y : Text} (hx : calm x) (hy : calm y) : calm (x ++ y) := by
  fun_induction calm x with
  | case1 => exact hy
  | case2 c =>
    cases y with
    | nil => exact hx
    | cons d y => simp_all [calm]
  | case3 c d cs ih => simp_all [calm]

theorem sealed_of_calm {x : Text} (h : calm x) : Sealed x := by
  intro w hw hd
  have hc := calm_of_suffix h hw
  rcases hd.1 with rfl | hp
  · simp [calm] at hc
  · have hne : w ≠ [] := by rintro rfl; simp [opening] at hp
    exact not_opening_of_calm hc hne (List.append_nil w ▸ hp)

/-- Recognises only what begins with two opening braces. -/
def Opening {α : Type} (read : TagReader α) : Prop :=
  ∀ ⦃t : Text⦄ ⦃r : α × Text⦄, read t = some r → opening <+: t

theorem Bracketed.opening {α : Type} {read : TagReader α} (hr : Bracketed read) : Opening read := by
  intro t r h
  obtain ⟨body, -, rfl⟩ := hr.shape h
  exact ⟨body ++ closing ++ r.2, by simp [wrap]⟩

section Calm

variable {α : Type} {read : TagReader α}

theorem Opening.read_eq_none (hr : Opening read) {x : Text} (y : Text) (hx : calm x)
    (hne : x ≠ []) : read (x ++ y) = none := by
  cases h : read (x ++ y) with
  | none => rfl
  | some r => exact absurd (hr h) (not_opening_of_calm hx hne)

theorem Opening.scan_append (hr : Opening read) {x : Text} (y : Text) (hx : calm x) :
    scan read (x ++ y) = chars x ++ scan read y := by
  induction x with
  | nil => simp
  | cons c cs ih =>
    have hc := hr.read_eq_none y hx (by simp)
    rw [List.cons_append] at hc ⊢
    rw [scan_of_skip hc, ih (calm_of_cons hx), chars_cons, List.cons_append]

theorem Opening.untagged_append (hr : Opening read) {x y : Text} (hx : calm x)
    (hy : Untagged read y) : Untagged read (x ++ y) := by
  intro u hu hne
  induction x with
  | nil => exact hy u hu hne
  | cons c cs ih =>
    rcases List.suffix_cons_iff.1 hu with rfl | hu
    · exact hr.read_eq_none y hx (by simp)
    · exact ih (calm_of_cons hx) hu

theorem Opening.untagged (hr : Opening read) {x : Text} (hx : calm x) : Untagged read x := by
  have hnil : Untagged read [] := fun u hu hne => absurd (List.suffix_nil.1 hu) hne
  simpa using hr.untagged_append hx hnil

/-- No character of the text belongs to a tag, whatever follows the text. -/
def Inert (read : TagReader α) (x : Text) : Prop := ∀ y, scan read (x ++ y) = chars x ++ scan read y

theorem Opening.inert (hr : Opening read) {x : Text} (hx : calm x) : Inert read x :=
  fun y => hr.scan_append y hx

/-- Behind the first brace of a tag nothing opens another one. -/
theorem calm_tail_wrap {body : Text} (hb : '\x7b' ∉ body) : calm ('\x7b' :: (body ++ closing)) := by
  have hrest : calm (body ++ closing) := calm_of_notMem (by simp [hb, closing])
  cases body with
  | nil => rfl
  | cons c cs =>
    have hc : c ≠ '\x7b' := Ne.symm (List.ne_of_not_mem_cons hb)
    simp only [List.cons_append] at hrest ⊢
    simp [calm, hrest, hc]

theorem wrap_eq_cons (body : Text) : wrap body = '\x7b' :: ('\x7b' :: (body ++ closing)) := by
  simp [wrap, Tag.opening]

theorem Bracketed.inert_wrap (hr : Bracketed read) {body : Text} (ho : '\x7b' ∉ body)
    (hc : '\x7d' ∉ body) (h : read (wrap body) = none) : Inert read (wrap body) := by
  intro y
  have hskip : read (wrap body ++ y) = none := by rw [hr.frame y hc, h, Option.map_none]
  rw [wrap_eq_cons, List.cons_append] at hskip ⊢
  rw [scan_of_skip hskip, hr.opening.scan_append y (calm_tail_wrap ho)]
  rfl

/-- A tag that a reader does not recognise holds none that it does. -/
theorem Opening.untagged_wrap (hr : Opening read) {body rest : Text} (ho : '\x7b' ∉ body)
    (h : read (wrap body ++ rest) = none) (hrest : Untagged read rest) :
    Untagged read (wrap body ++ rest) := by
  intro u hu hne
  rw [wrap_eq_cons, List.cons_append] at hu
  rcases List.suffix_cons_iff.1 hu with rfl | hu
  · rwa [← List.cons_append, ← wrap_eq_cons]
  · exact hr.untagged_append (calm_tail_wrap ho) hrest u hu hne

theorem Opening.untagged_wrap_nil (hr : Opening read) {body : Text} (ho : '\x7b' ∉ body)
    (h : read (wrap body) = none) : Untagged read (wrap body) := by
  have hnil : Untagged read [] := fun u hu hne => absurd (List.suffix_nil.1 hu) hne
  rw [← List.append_nil (wrap body)] at h ⊢
  exact hr.untagged_wrap ho h hnil

end Calm

/-- A search through the pieces of a text that puts what it passes in front of what it finds. -/
structure Collector (α β : Type) where
  read : TagReader α
  enclose : Nat → List (Piece α) → Option β
  push : Text → β → β
  push_nil : ∀ e, push [] e = e
  push_push : ∀ x y e, push x (push y e) = push (x ++ y) e
  enclose_char : ∀ d c ps, enclose d (.char c :: ps) = (enclose d ps).map (push [c])

namespace Collector

variable {α β : Type} {p : Collector α β}

theorem map_push_push (x y : Text) (e : Option β) :
    (e.map (p.push y)).map (p.push x) = e.map (p.push (x ++ y)) := by
  cases e <;> simp [p.push_push]

theorem enclose_chars (x : Text) (d : Nat) (ps : List (Piece α)) :
    p.enclose d (chars x ++ ps) = (p.enclose d ps).map (p.push x) := by
  induction x with
  | nil => cases h : p.enclose d ps <;> simp [h, p.push_nil]
  | cons c cs ih =>
    rw [chars_cons, List.cons_append, p.enclose_char, ih, map_push_push]
    rfl

/-- The texts that a search passes, from inside `depth` others to inside `after`. -/
def Kept (p : Collector α β) (depth after : Nat) (x : Text) : Prop :=
  ∀ y, p.enclose depth (scan p.read (x ++ y)) = (p.enclose after (scan p.read y)).map (p.push x)

theorem kept_of_inert {x : Text} (h : Inert p.read x) (d : Nat) : p.Kept d d x := by
  intro y
  rw [h, enclose_chars]

theorem kept_nil (d : Nat) : p.Kept d d [] := kept_of_inert (fun _ => rfl) d

theorem Kept.append {a b c : Nat} {x y : Text} (hx : p.Kept a b x) (hy : p.Kept b c y) :
    p.Kept a c (x ++ y) := by
  intro z
  rw [List.append_assoc, hx, hy, map_push_push]

end Collector

theorem anywhere_iff {test : Text → Bool} {t : Text} : anywhere test t ↔ ∃ u, u <:+ t ∧ test u := by
  induction t with
  | nil => simp [anywhere]
  | cons c cs ih =>
    rw [anywhere, Bool.or_eq_true, ih]
    constructor
    · rintro (h | ⟨u, hu, h⟩)
      · exact ⟨c :: cs, List.suffix_rfl, h⟩
      · exact ⟨u, hu.trans (List.suffix_cons c cs), h⟩
    · rintro ⟨u, hu, h⟩
      rcases List.suffix_cons_iff.1 hu with rfl | hu
      · exact .inl h
      · exact .inr ⟨u, hu, h⟩

/-- Texts in a row may be treated apart, where what comes out of the first does not break off inside a
tag. -/
def Seamless (f : Text → Text) : Prop :=
  ∀ x, Sealed (f x) → Sealed x ∧ ∀ y, f (x ++ y) = f x ++ f y

theorem seamless_id : Seamless id := fun _ hx => ⟨hx, fun _ => rfl⟩

theorem Seamless.comp {f g : Text → Text} (hg : Seamless g) (hf : Seamless f) :
    Seamless (fun t => g (f t)) := by
  intro x hx
  obtain ⟨hfx, happ⟩ := hg _ hx
  obtain ⟨hs, happ'⟩ := hf _ hfx
  refine ⟨hs, fun y => ?_⟩
  change g (f (x ++ y)) = g (f x) ++ g (f y)
  rw [happ', happ]

/-- Rewriting bracketed tags leaves what dangles at the end. -/
theorem Bracketed.seamless {α : Type} {read : TagReader α} (hr : Bracketed read)
    (g : α → Text → Text) : Seamless fun t => rewritten g (scan read t) := by
  intro x hx
  have hs : Sealed x := by
    rintro w ⟨u, rfl⟩ hw
    refine hx w ⟨rewritten g (scan read u), ?_⟩ hw
    change _ = rewritten g (scan read (u ++ w))
    rw [hr.scan_append (hw.apart u), (hr.untagged_of_dangles hw).scan_eq, rewritten_append,
      rewritten_chars]
  refine ⟨hs, fun y => ?_⟩
  change rewritten g (scan read (x ++ y)) = _
  rw [hr.scan_append (hs.apart y), rewritten_append]

/-- A condition on texts that a text meets if its parts meet it, where what `f` makes of the first one is sealed. -/
def Divides (c : Text → Bool) (f : Text → Text) : Prop :=
  ∀ x, Sealed (f x) → ∀ y, c (x ++ y) = (c x && c y)

theorem divides_true (f : Text → Text) : Divides (fun _ => true) f := fun _ _ _ => rfl

theorem Divides.comp {c d : Text → Bool} {f g : Text → Text} (hg : Seamless g) (hd : Divides d g) (hf : Seamless f)
    (hc : Divides c f) : Divides (fun t => c t && d (f t)) fun t => g (f t) := by
  intro x hx y
  have hfx := (hg _ hx).1
  dsimp only
  rw [hc x hfx, (hf x hfx).2, hd _ hx]
  ac_rfl

theorem Bracketed.divides {α : Type} {read : TagReader α} (hr : Bracketed read) (p : α → Text → Bool)
    (g : α → Text → Text) : Divides (fun t => allTags p (scan read t)) fun t => rewritten g (scan read t) := by
  intro x hx y
  have hs := (hr.seamless g x hx).1
  dsimp only
  rw [hr.scan_append (hs.apart y), allTags_append]

end PageTemplate.Tag
