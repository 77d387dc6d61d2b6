import PageTemplate.Block.Basic
import PageTemplate.Proofs.Search
set_option autoImplicit false
/-!
Where the blocks of a text lie. The parts of a text make up the text, so each block is found at its place as it
is written, and the blocks follow one another without overlap.
-/
namespace PageTemplate.Block

theorem flatMap_source_parts (t : Text) : (parts t).flatMap Part.source = t := by
  fun_induction parts t with
  | case1 t h => exact List.append_nil t
  | case2 t before r h h' => exact List.append_nil t
  | case3 t before r h label rest h' h'' ih =>
    rw [List.flatMap_cons, ih, cut?_eq_some h, cut?_eq_some h']
    simp [Part.source]
  | case4 t before r h label rest h' inner behind h'' ih =>
    rw [List.flatMap_cons, List.flatMap_cons, ih, cut?_eq_some h, cut?_eq_some h', cut?_eq_some h'']
    simp [Part.source, source, name]

theorem source_length_pos (b : Block) : 0 < b.source.length := by simp [source, openStart]

/-- Blocks at their places in a text, one behind the other, none in front of a given place. -/
def Placed (t : Text) (pos : Nat) : List Located → Prop
  | [] => pos ≤ t.length
  | b :: bs =>
    pos ≤ b.start ∧ b.stop = b.start + b.block.source.length ∧ t.drop b.start = b.block.source ++ t.drop b.stop ∧
      Placed t b.stop bs

namespace Placed

variable {t : Text} {pos : Nat} {bs : List Located}

theorem mono {pos' : Nat} (h : Placed t pos bs) (hle : pos' ≤ pos) : Placed t pos' bs := by
  cases bs with
  | nil => exact Nat.le_trans hle h
  | cons b bs => exact ⟨Nat.le_trans hle h.1, h.2⟩

theorem le_length (h : Placed t pos bs) : pos ≤ t.length := by
  induction bs generalizing pos with
  | nil => exact h
  | cons b bs ih =>
    obtain ⟨hpos, hstop, -, hbs⟩ := h
    have := ih hbs
    omega

theorem forall_mem (h : Placed t pos bs) : ∀ b ∈ bs, pos ≤ b.start ∧ b.start < b.stop ∧ b.stop ≤ t.length ∧
    b.stop = b.start + b.block.source.length ∧ t.drop b.start = b.block.source ++ t.drop b.stop := by
  induction bs generalizing pos with
  | nil => nofun
  | cons b bs ih =>
    obtain ⟨hpos, hstop, hsource, hbs⟩ := h
    have hlonger := b.block.source_length_pos
    refine List.forall_mem_cons.2 ⟨⟨hpos, by omega, hbs.le_length, hstop, hsource⟩, fun b' hb' => ?_⟩
    obtain ⟨hpos', hrest⟩ := ih hbs b' hb'
    exact ⟨by omega, hrest⟩

theorem pairwise (h : Placed t pos bs) : bs.Pairwise fun a b => a.stop ≤ b.start := by
  induction bs generalizing pos with
  | nil => exact .nil
  | cons b bs ih => exact .cons (fun b' hb' => (h.2.2.2.forall_mem b' hb').1) (ih h.2.2.2)

theorem nodup (h : Placed t pos bs) : bs.Nodup := by
  induction bs generalizing pos with
  | nil => exact .nil
  | cons b bs ih =>
    obtain ⟨hpos, hstop, -, hbs⟩ := h
    refine List.nodup_cons.2 ⟨fun hb => ?_, ih hbs⟩
    obtain ⟨hstart, -⟩ := hbs.forall_mem b hb
    have := b.block.source_length_pos
    omega

theorem eq_of_start (h : Placed t pos bs) {b b' : Located} (hb : b ∈ bs) (hb' : b' ∈ bs) (he : b.start = b'.start) :
    b = b' := by
  induction bs generalizing pos with
  | nil => nomatch hb
  | cons a bs ih =>
    obtain ⟨-, hstop, -, hbs⟩ := h
    have hlonger := a.block.source_length_pos
    have hbehind (c : Located) (hc : c ∈ bs) : a.stop ≤ c.start := (hbs.forall_mem c hc).1
    rcases List.mem_cons.1 hb with rfl | hm <;> rcases List.mem_cons.1 hb' with rfl | hm'
    · rfl
    · have := hbehind b' hm'
      omega
    · have := hbehind b hm
      omega
    · exact ih hbs hm hm'

end Placed

theorem placed_locateIn {t : Text} {pos : Nat} {ps : List Part} (hpos : pos ≤ t.length)
    (h : t.drop pos = ps.flatMap Part.source) : Placed t pos (locateIn pos ps) := by
  induction ps generalizing pos with
  | nil => exact hpos
  | cons p ps ih =>
    have hlength : t.length - pos = (p.source ++ ps.flatMap Part.source).length := by
      rw [← List.length_drop, h, List.flatMap_cons]
    have hle : pos + p.source.length ≤ t.length := by
      rw [List.length_append] at hlength
      omega
    have hrest : t.drop (pos + p.source.length) = ps.flatMap Part.source := by
      rw [← List.drop_drop, h, List.flatMap_cons, List.drop_left]
    cases p with
    | verbatim u => exact (ih hle hrest).mono (Nat.le_add_right ..)
    | block b => exact ⟨Nat.le_refl pos, rfl, by rw [h, List.flatMap_cons, ← hrest]; rfl, ih hle hrest⟩

/-- The blocks of a text are placed in it. -/
theorem placed_locate (t : Text) : Placed t 0 (locate t) :=
  placed_locateIn (Nat.zero_le _) (flatMap_source_parts t).symm

end PageTemplate.Block
