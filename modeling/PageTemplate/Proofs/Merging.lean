import Mathlib.Data.List.Basic
import PageTemplate.Block.Inherit
import PageTemplate.Proofs.Span
set_option autoImplicit false
/-!
Merging a child into its base. The result is the base with the spans of its blocks overlaid by the inner texts of
their partners. It comes out the same if the spans are replaced one at a time, from the last to the first, however
the names were gone through; and of the child it shows nothing but those inner texts.
-/
namespace PageTemplate

namespace Block

/-- What a text has between two places. -/
def slice (t : Text) (start stop : Nat) : Text := (t.drop start).take (stop - start)

section Slice

variable (t : Text) {start middle stop : Nat}

@[simp] theorem slice_self (pos : Nat) : slice t pos pos = [] := by simp [slice]

theorem take_append_slice (h : start ≤ stop) : t.take start ++ slice t start stop = t.take stop := by
  rw [slice, ← List.take_add, Nat.add_sub_cancel' h]

theorem slice_append_drop (h : start ≤ stop) : slice t start stop ++ t.drop stop = t.drop start := by
  have hdrop : t.drop stop = (t.drop start).drop (stop - start) := by rw [List.drop_drop, Nat.add_sub_cancel' h]
  rw [slice, hdrop, List.take_append_drop]

theorem slice_append_slice (h : start ≤ middle) (h' : middle ≤ stop) :
    slice t start middle ++ slice t middle stop = slice t start stop := by
  have hlength : stop - start = (middle - start) + (stop - middle) := by omega
  simp only [slice, hlength, List.take_add, List.drop_drop, Nat.add_sub_cancel' h]

theorem slice_eq_of_drop {u rest : Text} (h : t.drop start = u ++ rest) : slice t start (start + u.length) = u := by
  rw [slice, h, Nat.add_sub_cancel_left, List.take_left]

end Slice

/-- A text from a place on, with something else for each block. -/
def overlay (t : Text) (f : Located → Text) (pos : Nat) : List Located → Text
  | [] => t.drop pos
  | b :: bs => slice t pos b.start ++ f b ++ overlay t f b.stop bs

theorem overlay_congr {t : Text} {f g : Located → Text} {bs : List Located} (h : ∀ b ∈ bs, f b = g b) (pos : Nat) :
    overlay t f pos bs = overlay t g pos bs := by
  induction bs generalizing pos with
  | nil => rfl
  | cons b bs ih =>
    obtain ⟨hb, hbs⟩ := List.forall_mem_cons.1 h
    rw [overlay, overlay, hb, ih hbs]

theorem overlay_from {t : Text} {f : Located → Text} {pos pos' : Nat} {bs : List Located} (hle : pos ≤ pos')
    (h : Placed t pos' bs) : overlay t f pos bs = slice t pos pos' ++ overlay t f pos' bs := by
  cases bs with
  | nil => exact (slice_append_drop t hle).symm
  | cons b bs =>
    rw [overlay, overlay, ← slice_append_slice t hle h.1]
    simp only [List.append_assoc]

/-! Replacing spans one at a time -/

/-- A span of a text and what comes in its place. -/
structure Edit where
  start : Nat
  stop : Nat
  new : Text
  deriving DecidableEq, Repr

def Edit.apply (t : Text) (e : Edit) : Text := t.take e.start ++ e.new ++ t.drop e.stop

/-- The order from the last span to the first. -/
def Edit.noSooner (a b : Edit) : Bool := b.start ≤ a.start

/-- Spans replaced from behind leave the places in front of them as they are. -/
theorem foldr_apply_eq_overlay {t : Text} {pos : Nat} {bs : List Located} (h : Placed t pos bs)
    {edit? : Located → Option Edit} (hedit : ∀ b e, edit? b = some e → e.start = b.start ∧ e.stop = b.stop) :
    (bs.filterMap edit?).foldr (fun e u => Edit.apply u e) t =
      t.take pos ++ overlay t (fun b => (edit? b).elim (slice t b.start b.stop) Edit.new) pos bs := by
  induction bs generalizing pos with
  | nil => exact (List.take_append_drop pos t).symm
  | cons b bs ih =>
    obtain ⟨hpos, hstop, -, hbs⟩ := h
    have hlonger := b.block.source_length_pos
    have hle := hbs.le_length
    rw [overlay, List.append_assoc, ← List.append_assoc, take_append_slice t hpos]
    cases he : edit? b with
    | none =>
      rw [List.filterMap_cons_none he, ih hbs, ← take_append_slice t (show b.start ≤ b.stop by omega)]
      simp
    | some e =>
      obtain ⟨hstart, hend⟩ := hedit b e he
      have htake : (t.take b.stop).take b.start = t.take b.start := by
        rw [List.take_take, Nat.min_eq_left (by omega)]
      have hlength : (t.take b.stop).length = b.stop := by rw [List.length_take]; omega
      rw [List.filterMap_cons_some he, List.foldr_cons, ih hbs, Edit.apply, hstart, hend,
        List.take_append_of_le_length (by omega), htake, List.drop_append_of_le_length (by omega),
        List.drop_of_length_le (by omega)]
      simp

/-- The place of a block among those of its name is the number of those in front of it. -/
theorem idxOf_occurrences {t : Text} {earlier later : List Located} {b : Located}
    (h : locate t = earlier ++ b :: later) :
    (occurrences b.block.name t).idxOf b = (earlier.filter (·.block.name == b.block.name)).length := by
  have hnodup : (earlier ++ b :: later).Nodup := h ▸ (placed_locate t).nodup
  have hfresh : b ∉ earlier.filter (·.block.name == b.block.name) := fun hb =>
    (List.nodup_append.1 hnodup).2.2 b ((List.mem_filter.1 hb).1) b List.mem_cons_self rfl
  rw [occurrences, h, List.filter_append, List.filter_cons_of_pos (by simp), List.idxOf_append, if_neg hfresh,
    List.idxOf_cons_self, Nat.zero_add]

end Block

namespace Inherit

open Block

/-- The block of the child that has the same place among those of its name. -/
def partner? (base child : Text) (b : Located) : Option Located :=
  (occurrences b.block.name child)[(occurrences b.block.name base).idxOf b]?

/-- What stands for a block of the base. -/
def merged (base child : Text) (b : Located) : Text :=
  match partner? base child b with
  | some c => c.block.inner
  | none => slice base b.start b.stop

theorem mergeParts_eq_overlay {base : Text} {partner : Text → Nat → Option Text} {ps : List Part} {pos : Nat}
    {earlier : List Located} {seen : List Text} (hall : locate base = earlier ++ locateIn pos ps)
    (hseen : ∀ n, seen.count n = (earlier.filter (·.block.name == n)).length) (hpos : pos ≤ base.length)
    (hps : base.drop pos = ps.flatMap Part.source) :
    mergeParts partner seen ps = overlay base (fun b =>
      (partner b.block.name ((occurrences b.block.name base).idxOf b)).getD (slice base b.start b.stop)) pos
        (locateIn pos ps) := by
  induction ps generalizing pos earlier seen with
  | nil => exact hps.symm
  | cons p ps ih =>
    rw [List.flatMap_cons] at hps
    have hrest : base.drop (pos + p.source.length) = ps.flatMap Part.source := by
      rw [← List.drop_drop, hps, List.drop_left]
    have hlength := congrArg List.length hps
    rw [List.length_drop, List.length_append] at hlength
    have hle : pos + p.source.length ≤ base.length := by omega
    have hslice : slice base pos (pos + p.source.length) = p.source := slice_eq_of_drop base hps
    cases p with
    | verbatim u =>
      rw [mergeParts, ih hall hseen hle hrest, locateIn,
        overlay_from (Nat.le_add_right pos u.length) (placed_locateIn hle hrest)]
      exact congrArg (· ++ _) hslice.symm
    | block b =>
      obtain ⟨l, hl⟩ : ∃ l : Located, l = ⟨pos, pos + b.source.length, b⟩ := ⟨_, rfl⟩
      have hlist : locateIn pos (.block b :: ps) = l :: locateIn (pos + b.source.length) ps := by rw [hl]; rfl
      rw [hlist] at hall ⊢
      have hall' : locate base = (earlier ++ [l]) ++ locateIn (pos + b.source.length) ps := by
        rw [hall, List.append_assoc]
        rfl
      have hname : l.block.name = b.name := by rw [hl]
      have hseen' (n : Text) : (b.name :: seen).count n = ((earlier ++ [l]).filter (·.block.name == n)).length := by
        rw [List.count_cons, hseen, List.filter_append, List.length_append]
        by_cases hn : b.name = n <;> simp [hname, hn]
      have hstart : l.start = pos := by rw [hl]
      have hstop : l.stop = pos + b.source.length := by rw [hl]
      have hspan : slice base l.start l.stop = b.source := by rw [hstart, hstop]; exact hslice
      rw [mergeParts, ih hall' hseen' hle hrest, overlay, idxOf_occurrences hall, hspan, hstart, hstop, slice_self,
        List.nil_append, hname, hseen]

theorem mergeBlocks_eq (base child : Text) :
    mergeBlocks base child = overlay base (merged base child) 0 (locate base) := by
  have hparts : base.drop 0 = (parts base).flatMap Part.source := (flatMap_source_parts base).symm
  have hall : locate base = [] ++ locateIn 0 (parts base) := rfl
  refine (mergeParts_eq_overlay hall (fun _ => rfl) (Nat.zero_le _) hparts).trans ?_
  refine overlay_congr (fun b _ => ?_) 0
  unfold merged partner? occurrences
  cases ((locate child).filter (·.block.name == b.block.name))[
    ((locate base).filter (·.block.name == b.block.name)).idxOf b]? <;> rfl

/-! Names in any order -/

/-- What becomes of a block of the base that has a partner. -/
def edit? (base child : Text) (b : Located) : Option Edit :=
  (partner? base child b).map fun c => ⟨b.start, b.stop, c.block.inner⟩

/-- The replacements for one name: its first block by the first of the child, and so on. -/
def edits (base child name : Text) : List Edit :=
  ((occurrences name base).zip (occurrences name child)).map fun p => ⟨p.1.start, p.1.stop, p.2.block.inner⟩

/-- The base after the replacements for names in some order, the last span first. -/
def mergeInOrder (order : List Text) (base child : Text) : Text :=
  ((order.flatMap (edits base child)).mergeSort Edit.noSooner).foldl Edit.apply base

theorem map_zip_eq_filterMap {α β γ : Type} [BEq α] [LawfulBEq α] {xs : List α} (h : xs.Nodup) (ys : List β)
    (g : α → β → γ) : (xs.zip ys).map (fun p => g p.1 p.2) = xs.filterMap fun x => ys[xs.idxOf x]?.map (g x) := by
  induction xs generalizing ys with
  | nil => rfl
  | cons x xs ih =>
    obtain ⟨hx, hxs⟩ := List.nodup_cons.1 h
    cases ys with
    | nil => simp
    | cons y ys =>
      have hlater : ∀ a ∈ xs, ((y :: ys)[(x :: xs).idxOf a]?.map (g a)) = ys[xs.idxOf a]?.map (g a) := by
        intro a ha
        have hne : (x == a) = false := beq_false_of_ne fun he => hx (he ▸ ha)
        rw [List.idxOf_cons, hne]
        rfl
      rw [List.zip_cons_cons, List.map_cons, ih hxs, List.filterMap_cons, List.idxOf_cons_self,
        List.filterMap_congr hlater]
      rfl

/-- Going through a list by key, in any order of the keys, is going through all of it. -/
theorem perm_flatMap_filter {α κ β : Type} [BEq κ] [LawfulBEq κ] (key : α → κ) (f : α → Option β) {order : List κ}
    (hd : order.Nodup) {xs : List α} (h : ∀ x ∈ xs, (f x).isSome → key x ∈ order) :
    (order.flatMap fun k => (xs.filter (key · == k)).filterMap f).Perm (xs.filterMap f) := by
  induction order generalizing xs with
  | nil =>
    have hnone : ∀ x ∈ xs, f x = none := fun x hx => by simpa using h x hx
    rw [List.filterMap_eq_nil_iff.2 hnone]
    rfl
  | cons k order ih =>
    obtain ⟨hk, hd⟩ := List.nodup_cons.1 hd
    have hothers : ∀ k' ∈ order, (xs.filter (key · == k')).filterMap f =
        ((xs.filter fun x => !(key x == k)).filter (key · == k')).filterMap f := by
      intro k' hk'
      rw [List.filter_filter]
      congr 1
      refine List.filter_congr fun x _ => ?_
      by_cases hx : key x = k'
      · have hne : key x ≠ k := fun he => hk (he ▸ hx ▸ hk')
        simp [hx, hx ▸ hne]
      · simp [hx]
    have hlater : ∀ x ∈ xs.filter (fun x => !(key x == k)), (f x).isSome → key x ∈ order := by
      intro x hx hsome
      obtain ⟨hx, hne⟩ := List.mem_filter.1 hx
      exact (List.mem_cons.1 (h x hx hsome)).resolve_left (by simpa using hne)
    have hrest := ih hd hlater
    rw [List.flatMap_cons, List.flatMap_congr hothers]
    refine (hrest.append_left _).trans ?_
    rw [← List.filterMap_append]
    exact (List.filter_append_perm _ xs).filterMap f

theorem edits_eq (base child name : Text) :
    edits base child name = (occurrences name base).filterMap (edit? base child) := by
  have hnodup : (occurrences name base).Nodup := (placed_locate base).nodup.sublist List.filter_sublist
  refine (map_zip_eq_filterMap hnodup (occurrences name child) fun b c =>
    (⟨b.start, b.stop, c.block.inner⟩ : Edit)).trans (List.filterMap_congr fun b hb => ?_)
  have hname : b.block.name = name := eq_of_beq (List.mem_filter.1 hb).2
  rw [edit?, partner?, hname]

theorem edit?_eq_some {base child : Text} {b : Located} {e : Edit} (h : edit? base child b = some e) :
    e.start = b.start ∧ e.stop = b.stop := by
  obtain ⟨c, -, rfl⟩ := Option.map_eq_some_iff.1 h
  exact ⟨rfl, rfl⟩

theorem mem_locate_of_partner? {base child : Text} {b c : Located} (h : partner? base child b = some c) :
    c ∈ locate child ∧ c.block.name = b.block.name := by
  obtain ⟨hc, hname⟩ := List.mem_filter.1 (List.mem_of_getElem? h)
  exact ⟨hc, eq_of_beq hname⟩

/-- Sorting brings the replacements back into the order of the blocks, reversed. -/
theorem mergeSort_edits (base child : Text) {order : List Text} (hd : order.Nodup)
    (hall : ∀ c ∈ locate child, c.block.name ∈ order) :
    (order.flatMap (edits base child)).mergeSort Edit.noSooner =
      ((locate base).filterMap (edit? base child)).reverse := by
  have hplaced := placed_locate base
  have hperm : (order.flatMap (edits base child)).Perm ((locate base).filterMap (edit? base child)) := by
    rw [List.flatMap_congr fun name _ => edits_eq base child name]
    refine perm_flatMap_filter (fun b : Located => b.block.name) _ hd fun b _ hsome => ?_
    obtain ⟨c, hc⟩ := Option.isSome_iff_exists.1 (by simpa [edit?] using hsome)
    obtain ⟨hmem, hname⟩ := mem_locate_of_partner? hc
    exact hname ▸ hall c hmem
  have horder : ∀ es : List Edit, (es.mergeSort Edit.noSooner).Pairwise fun a b => Edit.noSooner a b :=
    List.pairwise_mergeSort (by simp only [Edit.noSooner, decide_eq_true_eq]; omega)
      (by simp only [Edit.noSooner, Bool.or_eq_true, decide_eq_true_eq]; omega)
  have hreverse : ((locate base).filterMap (edit? base child)).reverse.Pairwise fun a b => Edit.noSooner a b := by
    rw [List.pairwise_reverse, List.pairwise_filterMap]
    refine (hplaced.pairwise.imp_of_mem fun {a b} ha _ hab e he e' he' => ?_)
    have hwide := (hplaced.forall_mem a ha).2.1
    simp only [Edit.noSooner, (edit?_eq_some he).1, (edit?_eq_some he').1, decide_eq_true_eq]
    omega
  refine List.Perm.eq_of_pairwise (fun e e' he he' hle hle' => ?_) (horder _) hreverse
    ((List.mergeSort_perm _ _).trans (hperm.trans (List.reverse_perm _).symm))
  have hmem : e ∈ (locate base).filterMap (edit? base child) := hperm.mem_iff.1 (List.mem_mergeSort.1 he)
  obtain ⟨b, hb, hbe⟩ := List.mem_filterMap.1 hmem
  obtain ⟨b', hb', hbe'⟩ := List.mem_filterMap.1 (List.mem_reverse.1 he')
  simp only [Edit.noSooner, decide_eq_true_eq, (edit?_eq_some hbe).1, (edit?_eq_some hbe').1] at hle hle'
  obtain rfl := hplaced.eq_of_start hb hb' (by omega)
  exact Option.some.inj (hbe.symm.trans hbe')

theorem mergeInOrder_eq (base child : Text) {order : List Text} (hd : order.Nodup)
    (hall : ∀ c ∈ locate child, c.block.name ∈ order) : mergeInOrder order base child = mergeBlocks base child := by
  rw [mergeInOrder, mergeSort_edits base child hd hall, List.foldl_reverse,
    foldr_apply_eq_overlay (placed_locate base) (fun _ _ => edit?_eq_some), mergeBlocks_eq]
  refine overlay_congr (fun b _ => ?_) 0
  unfold edit? merged
  cases partner? base child b <;> rfl

/-- The blocks of the base lie apart, and merging overlays each by the inner text of its partner, if it has one,
and leaves all else. Replacing the spans one at a time gives the same in every order of the names, and what the
child holds besides the partners does not show. -/
theorem mergeBlocks_eq_overlay (base child : Text) :
    ((locate base).Pairwise (fun a b => a.stop ≤ b.start) ∧
      ∀ b ∈ locate base, b.start < b.stop ∧ b.stop ≤ base.length ∧ slice base b.start b.stop = b.block.source) ∧
    mergeBlocks base child = overlay base (merged base child) 0 (locate base) ∧
    (∀ order : List Text, order.Nodup → (∀ c ∈ locate child, c.block.name ∈ order) →
      mergeInOrder order base child = mergeBlocks base child) ∧
    ∀ child' : Text, (∀ b ∈ locate base, (partner? base child b).map (·.block.inner) =
      (partner? base child' b).map (·.block.inner)) → mergeBlocks base child' = mergeBlocks base child := by
  refine ⟨⟨(placed_locate base).pairwise, fun b hb => ?_⟩, mergeBlocks_eq base child,
    fun order hd hall => mergeInOrder_eq base child hd hall, fun child' h => ?_⟩
  · obtain ⟨-, hwide, hend, hstop, hsource⟩ := (placed_locate base).forall_mem b hb
    exact ⟨hwide, hend, hstop ▸ slice_eq_of_drop base hsource⟩
  · rw [mergeBlocks_eq, mergeBlocks_eq]
    refine overlay_congr (fun b hb => ?_) 0
    have hinner := h b hb
    unfold merged
    cases hc : partner? base child b <;> cases hc' : partner? base child' b <;> simp_all

def spareBase : Text := text "1[!a]x[~a]2[!b]y[~b]3[!a]z[~a]4"

def spareChild : Text := text "-[!b][!a][~b]+[!a]long[~a]"

/-- Two names, of which the second has a block to spare in the base; a child with one more block of the first. -/
theorem mergeBlocks_eq_overlay_spare :
    ([text "b", text "a"].Nodup ∧ (∀ c ∈ locate spareChild, c.block.name ∈ [text "b", text "a"]) ∧
      mergeInOrder [text "b", text "a"] spareBase spareChild = mergeBlocks spareBase spareChild) ∧
    (∀ b ∈ locate spareBase, (partner? spareBase spareChild b).map (·.block.inner) =
        (partner? spareBase (spareChild ++ text "+[!b]-[~b]") b).map (·.block.inner)) ∧
      mergeBlocks spareBase (spareChild ++ text "+[!b]-[~b]") = mergeBlocks spareBase spareChild := by
  obtain ⟨-, -, horder, hchild⟩ := mergeBlocks_eq_overlay spareBase spareChild
  have hnames : ∀ c ∈ locate spareChild, c.block.name ∈ [text "b", text "a"] := by decide +kernel
  have hpartners : ∀ b ∈ locate spareBase, (partner? spareBase spareChild b).map (·.block.inner) =
      (partner? spareBase (spareChild ++ text "+[!b]-[~b]") b).map (·.block.inner) := by decide +kernel
  exact ⟨⟨by decide, hnames, horder _ (by decide) hnames⟩, hpartners, hchild _ hpartners⟩

example : mergeBlocks (text "1[!a]x[~a]2[!a]z[~a]3") (text "[!a]long[~a]") = text "1long2[!a]z[~a]3" := by
  decide +kernel

end Inherit

end PageTemplate
