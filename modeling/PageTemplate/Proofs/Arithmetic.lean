import PageTemplate.Number.Basic
import PageTemplate.Proofs.Halves
set_option autoImplicit false
/-!
The two operations on whole numbers that go through floats. A remainder is that of the floats nearest to the operands,
and floats hold it exactly; rounding adds one half to the nearest float, and the sum is rounded once more.
-/
namespace PageTemplate

namespace Binary

variable {a b : Binary} {m n : Nat}

theorem Is.scaled (h : a.Is m 1) {e : Int} (he : e ≤ a.exponent) :
    a.mantissa * twoPow (a.exponent - e).toNat * 2 ^ e.toNat = m * 2 ^ (-e).toNat := by
  have hvalue := (is_iff (i := (a.exponent - e).toNat + e.toNat) (j := (-e).toNat) (by omega)).1 h
  rwa [Nat.mul_one, pow_add, ← Nat.mul_assoc, ← twoPow_eq (a.exponent - e).toNat] at hvalue

/-- The remainder of whole numbers is the float nearest to the whole remainder. -/
theorem exists_remainder (ha : a.Is m 1) (hb : b.Is n 1) :
    ∃ k, a.remainder b = nearest? a.negative (m % n * 2 ^ k) (2 ^ k) := by
  have hnum := ha.scaled (min_le_left a.exponent b.exponent)
  have hden := hb.scaled (min_le_right a.exponent b.exponent)
  simp only [remainder]
  generalize min a.exponent b.exponent = e at *
  generalize a.mantissa * twoPow (a.exponent - e).toNat = num at *
  generalize b.mantissa * twoPow (b.exponent - e).toNat = den at *
  have hrest : num % den * 2 ^ e.toNat = m % n * 2 ^ (-e).toNat := by
    rw [← Nat.mul_mod_mul_right, hnum, hden, Nat.mul_mod_mul_right]
  split_ifs with he
  · refine ⟨0, ?_⟩
    rw [twoPow_eq, hrest, show (-e).toNat = 0 by omega]
    rfl
  · refine ⟨(-e).toNat, ?_⟩
    rw [twoPow_eq, ← hrest, show e.toNat = 0 by omega, pow_zero, Nat.mul_one]

end Binary

theorem Denotes.isNaN {x : Float} {negative : Bool} {n d : Nat} (h : Denotes x negative n d) : x.isNaN = false := by
  obtain ⟨b, hb, -⟩ := h
  rw [Binary.ofFloat?_eq_ofUnpacked?] at hb
  change x.toModel.unpack.isNaN = false
  cases hx : x.toModel.unpack with
  | notANumber =>
    rw [hx] at hb
    cases hb
  | _ => rfl

namespace Number

theorem toFloat_whole_of_inRange {n : Int} (h : InRange n.natAbs) :
    ∃ x, toFloat (.whole n) = .ok x ∧ Denotes x (n < 0) (nearestNat n.natAbs) 1 := by
  obtain ⟨x, hx, hvalue⟩ := nearest?_of_inRange h (n < 0) 0
  rw [pow_zero, Nat.mul_one] at hx
  refine ⟨x, ?_, hvalue⟩
  rw [toFloat, floatOfInt?, hx]
  rfl

theorem toFloat_whole_of_not_inRange {n : Int} (h : ¬InRange n.natAbs) : toFloat (.whole n) = .error .tooLarge := by
  rw [toFloat, floatOfInt?, nearest?_of_not_inRange h]
  rfl

theorem floatRem_eq {x y : Float} {s t : Bool} {m n : Nat} (hx : Denotes x s m 1) (hy : Denotes y t n 1)
    (hm : Fits m) (hn : Fits n) (hlt : m < 2 ^ 1024) : ∃ z, floatRem x y = .ok z ∧ Denotes z s (m % n) 1 := by
  have hnan : (x.isNaN || y.isNaN) = false := by rw [hx.isNaN, hy.isNaN]; rfl
  obtain ⟨a, ha, rfl, hvalue⟩ := hx
  obtain ⟨b, hb, rfl, hvalue'⟩ := hy
  obtain ⟨k, hk⟩ := Binary.exists_remainder hvalue hvalue'
  have hself : nearestNat (m % n) = m % n := fits_iff.1 (hm.mod hn)
  have hrange : InRange (m % n) := by
    rw [InRange, hself]
    exact (Nat.mod_le m n).trans_lt hlt
  obtain ⟨z, hz, hdenotes⟩ := nearest?_of_inRange hrange a.negative k
  refine ⟨z, ?_, hself ▸ hdenotes⟩
  simp only [floatRem, hnan, ha, hb, hk, hz]
  rfl

/-- The remainder of two whole numbers is that of the floats nearest to them. -/
theorem rem_whole (origin : Origin) (a b : Int) : rem origin (.whole a) (.whole b) =
    if InRange a.natAbs ∧ InRange b.natAbs then .ok (.whole ((nearestInt a).tmod (nearestInt b)))
      else .error .tooLarge := by
  by_cases ha : InRange a.natAbs
  · obtain ⟨x, hx, hvalue⟩ := toFloat_whole_of_inRange ha
    by_cases hb : InRange b.natAbs
    · obtain ⟨y, hy, hvalue'⟩ := toFloat_whole_of_inRange hb
      obtain ⟨z, hz, c, hc, hsign, hrest⟩ := floatRem_eq hvalue hvalue' (fits_nearestNat _) (fits_nearestNat _) ha
      rw [if_pos ⟨ha, hb⟩]
      have hrem : rem origin (.whole a) (.whole b) = .ok (.whole c.trunc) := by
        rw [rem, hx, hy]
        change (do
          let r ← floatRem x y
          return Number.whole ((Binary.ofFloat? r).elim 0 Binary.trunc)) = _
        rw [hz]
        change Except.ok (Number.whole ((Binary.ofFloat? z).elim 0 Binary.trunc)) = _
        rw [hc]
        rfl
      rw [hrem, hrest.trunc, hsign, nearestInt_tmod]
      simp only [decide_eq_true_eq]
    · have h := toFloat_whole_of_not_inRange hb
      rw [if_neg (fun hc => hb hc.2), rem, hx, h]
      rfl
  · rw [if_neg (fun hc => ha hc.1), rem, toFloat_whole_of_not_inRange ha]
    rfl

theorem toWhole_floor {x : Float} {negative : Bool} {n d : Nat} (h : Denotes x negative n d) (hd : 0 < d)
    (origin : Origin) :
    toWhole Binary.floor (ofFloat origin x) = .ok ((if negative then -(n : Int) else n) / d) := by
  have hnan := h.isNaN
  obtain ⟨b, hb, rfl, hvalue⟩ := h
  rw [ofFloat, if_neg (by simp only [hnan, Bool.false_eq_true, not_false_eq_true]), ← hvalue.floor hd]
  simp only [toWhole, hb, Option.elim]

/-- Rounding gives half of the number that twice the nearest float and one is rounded to. -/
theorem round_whole (n : Int) : round (.whole n) =
    if InRange n.natAbs then .ok (nearestInt (2 * nearestInt n + 1) / 2) else .error .tooLarge := by
  by_cases h : InRange n.natAbs
  · obtain ⟨x, hx, hvalue⟩ := toFloat_whole_of_inRange h
    have hsum : Denotes (x + 0.5) (nearestInt n < 0) (nearestNat (2 * nearestInt n + 1).natAbs) 2 := by
      refine Denotes.add_half ?_ ?_
      · simpa only [natAbs_nearestInt, nearestInt_lt_zero_iff] using hvalue
      · have hlt : (nearestInt n).natAbs < 2 ^ 1024 := by rwa [natAbs_nearestInt]
        exact nearestNat_two_mul_add_one_lt (fits_nearestInt n) (by norm_num) hlt
    rw [if_pos h, round, hx]
    change toWhole Binary.floor (ofFloat .unreadable (x + 0.5)) = _
    rw [toWhole_floor hsum (by norm_num), nearestInt_eq (2 * nearestInt n + 1)]
    simp only [decide_eq_true_eq]
    congr 2
    exact if_congr (by omega) rfl rfl
  · rw [if_neg h, round, toFloat_whole_of_not_inRange h]
    rfl

end Number

end PageTemplate
