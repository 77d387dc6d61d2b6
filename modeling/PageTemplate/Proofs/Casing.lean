import Mathlib.Data.Char
import PageTemplate.Text.LetterCase
set_option autoImplicit false
/-!
Lower case once more is lower case: the case table sends no character to one that it maps again, and leaves no
capital sigma.
-/
namespace PageTemplate.LetterCase

abbrev Run := Nat × Nat × Nat × Int

/-- Does a run of the case table map the code point? -/
def inRun (r : Run) (n : Nat) : Bool := r.1 ≤ n && n ≤ r.2.1 && (n - r.1) % r.2.2.1 == 0

def image (r : Run) (n : Nat) : Nat := (n + r.2.2.2).toNat

/-- The images of the first run lie beside the second, or between the code points that it maps. -/
def misses (r s : Run) : Bool :=
  Nat.blt (image r r.2.1) s.1 || Nat.blt s.2.1 (image r r.1) ||
    ((r.1 == r.2.1 || r.2.2.1 == 2) && s.2.2.1 == 2 && (image r r.1 + s.1) % 2 == 1)

/-- What is mapped to something else, the one character with a longer image included. -/
def capitals : List Run := (0x130, 0x130, 1, 0) :: lowerRuns

/-- A character that lower case leaves as it is, wherever it stands. -/
def Small (c : Char) : Prop := c.toNat ≠ 0x3A3 ∧ lowerChar c = [c]

theorem not_inRun_of_misses {r s : Run} (h : misses r s = true) {n : Nat} (hn : inRun r n = true)
    (hpos : 0 ≤ r.1 + r.2.2.2) : inRun s (image r n) = false := by
  obtain ⟨first, last, step, shift⟩ := r
  obtain ⟨first', last', step', shift'⟩ := s
  simp only [misses, image, Bool.or_eq_true, Bool.and_eq_true, Nat.blt_eq, beq_iff_eq] at h
  simp only [inRun, Bool.and_eq_true, decide_eq_true_eq, beq_iff_eq] at hn
  dsimp only at hpos
  rw [Bool.eq_false_iff]
  intro hs
  simp only [inRun, Bool.and_eq_true, decide_eq_true_eq, beq_iff_eq] at hs
  simp only [image] at hs
  obtain (hleft | hright) | ⟨⟨hstep, rfl⟩, hodd⟩ := h
  · omega
  · omega
  · obtain rfl | rfl := hstep <;> omega

theorem misses_capitals {r s : Run} (hr : r ∈ lowerRuns) (hs : s ∈ capitals) : misses r s = true := by
  have hall : (lowerRuns.all fun r => capitals.all (misses r)) = true := by decide +kernel
  exact List.all_eq_true.1 (List.all_eq_true.1 hall r hr) s hs

/-- The images are code points of characters. -/
theorem image_valid : ∀ r ∈ lowerRuns, 0 ≤ r.1 + r.2.2.2 ∧ (r.2.1 + r.2.2.2 < 0xD800 ∨
    0xDFFF < r.1 + r.2.2.2 ∧ r.2.1 + r.2.2.2 < 0x110000) := by
  decide +kernel

theorem shifted_eq_none {n : Nat} (h : ∀ r ∈ lowerRuns, inRun r n = false) : shifted lowerRuns n = none := by
  have hfind : lowerRuns.find? (inRun · n) = none := List.find?_eq_none.2 fun r hr => by simp [h r hr]
  exact congrArg _ hfind

theorem of_shifted {n m : Nat} (h : shifted lowerRuns n = some m) :
    ∃ r ∈ lowerRuns, inRun r n = true ∧ m = image r n := by
  obtain ⟨r, hr, rfl⟩ := Option.map_eq_some_iff.1 h
  have hfind : lowerRuns.find? (inRun · n) = some r := hr
  exact ⟨r, List.mem_of_find?_eq_some hfind, by simpa using List.find?_some hfind, rfl⟩

/-- A code point that no run maps is that of a small character. -/
theorem small_of_not_inRun {n : Nat} (hn : n.isValidChar) (h : ∀ r ∈ capitals, inRun r n = false) :
    Small (Char.ofNat n) := by
  have hnat : (Char.ofNat n).toNat = n := by
    rw [Char.ofNat, dif_pos hn]
    rfl
  have hruns : ∀ r ∈ lowerRuns, inRun r n = false := fun r hr => h r (List.mem_cons_of_mem _ hr)
  have hsigma : n ≠ 0x3A3 := by
    rintro rfl
    exact absurd (hruns (0x3A3, 0x3AB, 1, 32) (by decide +kernel)) (by decide)
  refine ⟨by rwa [hnat], ?_⟩
  unfold lowerChar
  split
  · next hascii =>
    have hall : ∀ m < 0x80, inRun (0x41, 0x5A, 1, 32) m = false → (Char.ofNat m).toLower = Char.ofNat m := by
      decide
    rw [hnat] at hascii
    rw [hall n hascii (hruns _ (by decide +kernel))]
  · have hlong : n ≠ 0x130 := by
      rintro rfl
      exact absurd (h (0x130, 0x130, 1, 0) List.mem_cons_self) (by decide)
    simp [mapChar, hnat, shifted_eq_none hruns, lowerExpansions, hlong.symm]

theorem small_image {r : Run} (hr : r ∈ lowerRuns) {n : Nat} (hn : inRun r n = true) :
    Small (Char.ofNat (image r n)) := by
  obtain ⟨hpos, hvalid⟩ := image_valid r hr
  refine small_of_not_inRun ?_ fun s hs => not_inRun_of_misses (misses_capitals hr hs) hn hpos
  obtain ⟨first, last, step, shift⟩ := r
  simp only [inRun, Bool.and_eq_true, decide_eq_true_eq] at hn
  simp only [image, Nat.isValidChar] at hpos hvalid ⊢
  omega

theorem small_of_mem_lowerChar {c d : Char} (hc : c.toNat ≠ 0x3A3) (hd : d ∈ lowerChar c) : Small d := by
  unfold lowerChar at hd
  split at hd
  · next hascii =>
    have hall : ∀ n < 0x80, (Char.ofNat n).toLower.toNat < 0x80 ∧
        (Char.ofNat n).toLower.toLower = (Char.ofNat n).toLower := by
      decide
    have hsmall := hall c.toNat hascii
    rw [Char.ofNat_toNat] at hsmall
    obtain rfl := List.mem_singleton.1 hd
    exact ⟨by omega, by rw [lowerChar, if_pos hsmall.1, hsmall.2]⟩
  · next hbeyond =>
    unfold mapChar at hd
    split at hd
    · next hm =>
      obtain rfl := List.mem_singleton.1 hd
      obtain ⟨r, hr, hin, rfl⟩ := of_shifted hm
      exact small_image hr hin
    · next hnone =>
      split at hd
      · next himage =>
        have hmem := List.mem_of_find?_eq_some himage
        simp only [lowerExpansions, List.mem_singleton, Prod.mk.injEq] at hmem
        obtain ⟨-, rfl⟩ := hmem
        have hall : ∀ n ∈ [0x69, 0x307], n.isValidChar ∧ ∀ r ∈ capitals, inRun r n = false := by decide +kernel
        obtain ⟨n, hn, rfl⟩ := List.mem_map.1 hd
        exact small_of_not_inRun (hall n hn).1 (hall n hn).2
      · next hunlisted =>
        obtain rfl := List.mem_singleton.1 hd
        exact ⟨hc, by rw [lowerChar, if_neg hbeyond, mapChar, hnone, hunlisted]⟩

theorem small_of_mem_lowerAfter {before t : Text} {d : Char} (hd : d ∈ lowerAfter before t) : Small d := by
  induction t generalizing before with
  | nil => simp [lowerAfter] at hd
  | cons c cs ih =>
    rw [lowerAfter, List.mem_append] at hd
    obtain hfirst | hrest := hd
    · split at hfirst
      · obtain rfl := List.mem_singleton.1 hfirst
        split <;> exact small_of_not_inRun (by decide) (by decide +kernel)
      · next hc => exact small_of_mem_lowerChar (by simpa using hc) hfirst
    · exact ih hrest

theorem lowerAfter_of_small {before t : Text} (h : ∀ c ∈ t, Small c) : lowerAfter before t = t := by
  induction t generalizing before with
  | nil => rfl
  | cons c cs ih =>
    obtain ⟨hc, hcs⟩ := List.forall_mem_cons.1 h
    rw [lowerAfter, ih hcs, if_neg (by simpa using hc.1), hc.2]
    rfl

end PageTemplate.LetterCase

namespace PageTemplate

@[simp] theorem toLower_toLower (t : Text) : toLower (toLower t) = toLower t :=
  LetterCase.lowerAfter_of_small fun _ => LetterCase.small_of_mem_lowerAfter

end PageTemplate
