import PageTemplate.Dynamic.Piece
import PageTemplate.Proofs.Rendering
set_option autoImplicit false
/-!
Cutting a text into pieces, and putting it together again with the tags rewritten. A text in which the
reader recognises nothing comes back as it was.
-/
namespace PageTemplate.Piece

variable {α : Type}

@[simp] theorem scan_nil (read : TagReader α) : scan read [] = [] := by simp [scan]

/-- The pieces of a text without tags. -/
def chars (t : Text) : List (Piece α) := t.map .char

@[simp] theorem chars_nil : (chars [] : List (Piece α)) = [] := rfl

@[simp] theorem chars_cons (c : Char) (t : Text) :
    (chars (c :: t) : List (Piece α)) = .char c :: chars t := rfl

@[simp] theorem chars_append (t u : Text) :
    (chars (t ++ u) : List (Piece α)) = chars t ++ chars u := List.map_append

/-- A tag that leaves what stands behind it. -/
theorem scan_of_read {read : TagReader α} {a : α} {x rest : Text} (hx : x ≠ [])
    (h : read (x ++ rest) = some (a, rest)) :
    scan read (x ++ rest) = .tag a x :: scan read rest := by
  obtain ⟨c, cs, rfl⟩ := List.exists_cons_of_ne_nil hx
  have hn : (cs ++ rest).length - rest.length = cs.length := by simp
  rw [List.cons_append] at h ⊢
  rw [scan, h]
  simp only [hn, List.take_left, List.drop_left]

theorem scan_of_skip {read : TagReader α} {c : Char} {cs : Text} (h : read (c :: cs) = none) :
    scan read (c :: cs) = .char c :: scan read cs := by
  rw [scan, h]

/-- A text is cut in two parts where no tag reaches from the one into the other. -/
theorem scan_append {read : TagReader α} {x y : Text}
    (hsplit : ∀ {t rest : Text} {a : α}, read t = some (a, rest) → ∃ s, s ≠ [] ∧ t = s ++ rest)
    (h : ∀ u, u <:+ x → u ≠ [] → read (u ++ y) = (read u).map fun r => (r.1, r.2 ++ y)) :
    scan read (x ++ y) = scan read x ++ scan read y := by
  induction hn : x.length using Nat.strongRecOn generalizing x with
  | ind n ih =>
    cases x with
    | nil => simp
    | cons c cs =>
      have happ := h _ List.suffix_rfl (List.cons_ne_nil c cs)
      cases hread : read (c :: cs) with
      | none =>
        rw [hread, Option.map_none, List.cons_append] at happ
        rw [List.cons_append, scan_of_skip happ, scan_of_skip hread,
          ih cs.length (by simp [← hn]) (fun u hu => h u (hu.trans (List.suffix_cons c cs))) rfl, List.cons_append]
      | some r =>
        obtain ⟨a, rest⟩ := r
        obtain ⟨s, hs, he⟩ := hsplit hread
        rw [hread, Option.map_some] at happ
        rw [he] at happ hread h hn ⊢
        rw [List.append_assoc] at happ ⊢
        have hlt : rest.length < n := by
          have := List.length_pos_iff.2 hs
          rw [← hn, List.length_append]
          omega
        rw [scan_of_read hs happ, scan_of_read hs hread,
          ih _ hlt (fun u hu => h u (hu.trans (List.suffix_append _ _))) rfl, List.cons_append]

theorem join_cons (p : Piece α) (ps : List (Piece α)) : join (p :: ps) = p.source ++ join ps := rfl

@[simp] theorem join_chars (t : Text) : join (chars t : List (Piece α)) = t := by
  induction t with
  | nil => rfl
  | cons c cs ih => rw [chars_cons, join_cons, ih]; rfl

theorem join_append (ps qs : List (Piece α)) : join (ps ++ qs) = join ps ++ join qs := List.flatMap_append

/-- Cutting goes on behind some pieces as it would start there. -/
theorem scan_join_of_append {read : TagReader α} {t : Text} {ps qs : List (Piece α)}
    (h : scan read t = ps ++ qs) : scan read (join qs) = qs := by
  induction ps generalizing t with
  | nil =>
    obtain rfl : scan read t = qs := h
    rw [join_scan]
  | cons p ps ih =>
    cases t with
    | nil => simp at h
    | cons c cs =>
      cases hread : read (c :: cs) with
      | none =>
        rw [scan_of_skip hread] at h
        exact ih (List.cons.inj h).2
      | some r =>
        rw [scan, hread] at h
        exact ih (List.cons.inj h).2

/-- The reader recognises nothing in a text, wherever it is tried. -/
def Untagged (read : TagReader α) (t : Text) : Prop := ∀ u, u <:+ t → u ≠ [] → read u = none

theorem Untagged.of_suffix {read : TagReader α} {t u : Text} (h : Untagged read t) (hu : u <:+ t) :
    Untagged read u := fun v hv => h v (hv.trans hu)

theorem Untagged.scan_eq {read : TagReader α} {t : Text} (h : Untagged read t) :
    scan read t = chars t := by
  induction t with
  | nil => simp
  | cons c cs ih =>
    have hc : read (c :: cs) = none := h _ List.suffix_rfl (by simp)
    rw [scan_of_skip hc, ih (h.of_suffix (List.suffix_cons c cs)), chars_cons]

/-- Where some tag is recognised, some piece is a tag. -/
theorem untagged_of_not_occurs {read : TagReader α} {t : Text} (h : occurs read t = false) :
    Untagged read t := by
  unfold occurs at h
  fun_induction scan read t with
  | case1 => exact fun u hu hne => absurd (List.suffix_nil.1 hu) hne
  | case2 => simp [isTag] at h
  | case3 c cs hc ih =>
    intro u hu hne
    rcases List.suffix_cons_iff.1 hu with rfl | hu
    · exact hc
    · exact ih (by simpa [isTag] using h) u hu hne

theorem occurs_eq_false_iff {read : TagReader α} {t : Text} :
    occurs read t = false ↔ Untagged read t := by
  refine ⟨untagged_of_not_occurs, fun h => ?_⟩
  simp [occurs, h.scan_eq, chars, isTag]

/-- The text with every tag replaced by what a function gives for it and its source. -/
def rewritten (g : α → Text → Text) (pieces : List (Piece α)) : Text :=
  pieces.flatMap fun
    | .char c => [c]
    | .tag a s => g a s

@[simp] theorem rewritten_append (g : α → Text → Text) (ps qs : List (Piece α)) :
    rewritten g (ps ++ qs) = rewritten g ps ++ rewritten g qs := List.flatMap_append

@[simp] theorem rewritten_chars (g : α → Text → Text) (t : Text) :
    rewritten g (chars t) = t := by
  induction t with
  | nil => rfl
  | cons c cs ih => simpa [rewritten] using ih

/-- Every tag among the pieces is such. -/
def allTags (p : α → Text → Bool) (pieces : List (Piece α)) : Bool :=
  pieces.all fun
    | .char _ => true
    | .tag a s => p a s

@[simp] theorem allTags_nil (p : α → Text → Bool) : allTags p [] = true := rfl

@[simp] theorem allTags_char (p : α → Text → Bool) (c : Char) (ps : List (Piece α)) :
    allTags p (.char c :: ps) = allTags p ps := Bool.true_and _

@[simp] theorem allTags_tag (p : α → Text → Bool) (a : α) (s : Text) (ps : List (Piece α)) :
    allTags p (.tag a s :: ps) = (p a s && allTags p ps) := rfl

@[simp] theorem allTags_append (p : α → Text → Bool) (ps qs : List (Piece α)) :
    allTags p (ps ++ qs) = (allTags p ps && allTags p qs) := List.all_append

@[simp] theorem allTags_chars (p : α → Text → Bool) (t : Text) : allTags p (chars t) = true := by
  induction t with
  | nil => rfl
  | cons c cs ih => rw [chars_cons, allTags_char, ih]

theorem allTags_const (b : Bool) (ps : List (Piece α)) : allTags (fun _ _ => b) ps = (!ps.any isTag || b) := by
  induction ps with
  | nil => rfl
  | cons p ps ih =>
    cases p with
    | char c => rw [allTags_char, ih]; rfl
    | tag a s =>
      rw [allTags_tag, ih, List.any_cons, show isTag (.tag a s) = true from rfl]
      cases b <;> simp

theorem replace_eq_rewritten (read : TagReader α) (f : α → Text) (t : Text) :
    replace read f t = rewritten (fun a _ => f a) (scan read t) := rfl

theorem Untagged.replace_eq {read : TagReader α} {t : Text} (h : Untagged read t) (f : α → Text) :
    replace read f t = t := by
  rw [replace_eq_rewritten, h.scan_eq, rewritten_chars]

open Render in
theorem settles_replaceM {f : α → Text → Render Text} {p : α → Text → Bool} {g : α → Text → Text}
    (h : ∀ a s, Settles (f a s) (p a s) (g a s)) (ps : List (Piece α)) :
    Settles (replaceM f ps) (allTags p ps) (rewritten g ps) := by
  induction ps with
  | nil => exact (gives_pure []).settles
  | cons q ps ih =>
    have hcons (t : Text) := ih.bind (f := fun u => pure (t ++ u)) (gives_pure _).settles
    simp only [Bool.and_true] at hcons
    cases q with
    | char c => exact hcons [c]
    | tag a s => exact (h a s).bind (hcons _)

theorem replaceM_chars {m : Type → Type} [Monad m] [LawfulMonad m] (f : α → Text → m Text) (t : Text) :
    replaceM f (chars t) = pure t := by
  induction t with
  | nil => rfl
  | cons c cs ih => simp [replaceM, ih]

theorem replaceM_append {m : Type → Type} [Monad m] [LawfulMonad m] (f : α → Text → m Text) (ps qs : List (Piece α)) :
    replaceM f (ps ++ qs) = (do return (← replaceM f ps) ++ (← replaceM f qs)) := by
  induction ps with
  | nil => simp [replaceM]
  | cons p ps ih =>
    cases p with
    | char c => simp only [List.cons_append, replaceM, ih, bind_assoc, pure_bind]
    | tag a s => simp only [List.cons_append, replaceM, ih, bind_assoc, pure_bind, List.append_assoc]

end PageTemplate.Piece
