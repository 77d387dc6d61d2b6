import PageTemplate.Proofs.Binary64
set_option autoImplicit false
/-!
The sum of a float that is a whole number and one half.
-/
namespace PageTemplate
open Float.Model (Format UnpackedFloat totalExponent)
open Float.Model.UnpackedFloat

/-- A mantissa shifted to the right by some digits, with what is known about the digits behind. -/
def shifted (m k : Nat) : ExtendedMantissa := ⟨m / 2 ^ k, 2 ^ k ≤ 2 * (m % 2 ^ k), 2 * (m % 2 ^ k) % 2 ^ k ≠ 0⟩

theorem shiftRightOne_shifted (m k : Nat) : (shifted m k).shiftRightOne = shifted m (k + 1) := by
  have hmod : m % 2 ^ (k + 1) = m % 2 ^ k + 2 ^ k * (m / 2 ^ k % 2) := by rw [pow_succ, Nat.mod_mul]
  have hlt : m % 2 ^ k < 2 ^ k := Nat.mod_lt _ (Nat.two_pow_pos k)
  have htwo : 2 ^ (k + 1) = 2 * 2 ^ k := pow_succ' 2 k
  simp only [shifted, ExtendedMantissa.shiftRightOne, Nat.div_div_eq_div_mul, ← pow_succ, hmod,
    ExtendedMantissa.mk.injEq, true_and]
  rw [htwo]
  generalize m % 2 ^ k = r at *
  generalize 2 ^ k = d at *
  have hrest : 2 * (r + d * (m / d % 2)) % (2 * d) = 2 * r := by
    rw [Nat.mul_add, ← Nat.mul_assoc, Nat.add_mul_mod_self_left, Nat.mod_eq_of_lt (by omega)]
  have hsticky : (d ≤ 2 * r ∨ 2 * r % d ≠ 0) ↔ 2 * r ≠ 0 := by
    obtain hgt | hle := Nat.lt_or_ge (2 * r) d
    · rw [Nat.mod_eq_of_lt hgt]
      omega
    · exact iff_of_true (.inl hle) (by omega)
  constructor
  · obtain hbit | hbit := Nat.mod_two_eq_zero_or_one (m / d)
    · simp [hbit]
      omega
    · simp [hbit]
  · rw [hrest, ← Bool.decide_or, decide_eq_decide]
    exact hsticky

theorem shiftRight_eq (m k : Nat) : (⟨m, false, false⟩ : ExtendedMantissa) >>> k = shifted m k := by
  change Nat.repeat ExtendedMantissa.shiftRightOne k _ = _
  induction k with
  | zero => simp [Nat.repeat, shifted, Nat.mod_one]
  | succ k ih => rw [Nat.repeat, ih, shiftRightOne_shifted]

theorem roundedMantissa_shifted (m k : Nat) : (shifted m k).roundedMantissa = roundHalfEven m (2 ^ k) := by
  have hlt : m % 2 ^ k < 2 ^ k := Nat.mod_lt _ (Nat.two_pow_pos k)
  conv_rhs => rw [← Nat.div_add_mod' m (2 ^ k), roundHalfEven_mul_add hlt]
  rw [shifted]
  generalize m % 2 ^ k = r at *
  generalize 2 ^ k = d at *
  by_cases hhalf : d ≤ 2 * r <;> by_cases hsticky : 2 * r % d = 0 <;>
    simp only [ExtendedMantissa.roundedMantissa, ExtendedMantissa.accuracy, Accuracy.roundToNearestEven, hhalf, hsticky,
      decide_true, decide_false, not_true_eq_false, not_false_eq_true, ne_eq]
  · have htie : 2 * r = d := by
      rw [Nat.mod_eq_sub_mod hhalf, Nat.mod_eq_of_lt (by omega)] at hsticky
      omega
    split_ifs <;> omega
  · have hne : 2 * r ≠ d := fun h => hsticky (by rw [h, Nat.mod_self])
    rw [if_neg (by omega)]
  · rw [if_pos (by omega)]
  · rw [if_pos (by omega)]

section Round

variable {m : Nat} {e : Int} (hm : 2 ^ 52 ≤ m) (he : -1074 ≤ e)
include hm he

theorem targetExponent_eq : Format.binary64.targetExponent (totalExponent m e) = e + (m.log2 - 52 : Nat) := by
  have hlog : 52 ≤ m.log2 := (Nat.le_log2 (by omega)).2 hm
  simp only [Format.targetExponent, totalExponent, Format.mantissaBits, Format.minExponent]
  norm_num
  omega

theorem shiftToTargetExponent_eq :
    shiftToTargetExponent Format.binary64 m e .exact = (shifted m (m.log2 - 52), e + (m.log2 - 52 : Nat)) := by
  have hamount : (e + (m.log2 - 52 : Nat) - e).toNat = m.log2 - 52 := by omega
  simp only [shiftToTargetExponent, shiftToExponent, targetExponent_eq hm he, hamount,
    ExtendedMantissa.ofMantissaAndAccuracy, shiftRight_eq]

/-- A number is rounded to the nearest one of fifty-three digits. -/
theorem exists_round (s : Sign) : ∃ m' e', ∃ h : 0 < m', UnpackedFloat.round Format.binary64 s m e = .finite s m' e' h ∧
    2 ^ 52 ≤ m' ∧ m' < 2 ^ 53 ∧ e ≤ e' ∧ m' * 2 ^ (e' - e).toNat = nearestNat m := by
  obtain ⟨hlow, hhigh⟩ := significand_bounds hm
  set q := roundHalfEven m (spacing m) with hq
  -- The digits that are kept may be one more than a float has, and then the last of them is zero.
  obtain ⟨m', t, hlog, hvalue, hlow', hhigh'⟩ :
      ∃ m' t, q.log2 = 52 + t ∧ m' * 2 ^ t = q ∧ 2 ^ 52 ≤ m' ∧ m' < 2 ^ 53 := by
    obtain hcarry | hlt := hhigh.eq_or_lt
    · exact ⟨2 ^ 52, 1, by rw [hcarry, Nat.log2_two_pow], by rw [hcarry]; norm_num, le_rfl, by norm_num⟩
    · exact ⟨q, 0, (Nat.log2_eq_iff (by omega)).2 ⟨hlow, hlt⟩, by simp, hlow, hlt⟩
  have hagain : shiftToTargetExponent Format.binary64 q (e + (m.log2 - 52 : Nat)) .exact =
      (shifted q t, e + (m.log2 - 52 : Nat) + t) := by
    rw [shiftToTargetExponent_eq hlow (by omega), hlog, Nat.add_sub_cancel_left]
  have hdigits : (shifted q t).mantissa = m' := by
    rw [← hvalue]
    exact Nat.mul_div_cancel _ (Nat.two_pow_pos t)
  refine ⟨m', e + (m.log2 - 52 : Nat) + t, by omega, ?_, hlow', hhigh', by omega, ?_⟩
  · have hstay : (e - (e + (m.log2 - 52 : Nat))).toNat = 0 := by omega
    simp only [UnpackedFloat.round, decreaseExponent, targetExponent_eq hm he, hstay, Nat.shiftLeft_zero, Int.natCast_zero,
      Int.sub_zero, roundWithAccuracy, shiftToTargetExponent_eq hm he, roundedMantissa_shifted]
    change (let again := shiftToTargetExponent Format.binary64 q (e + (m.log2 - 52 : Nat)) .exact
      if h : again.1.mantissa = 0 then UnpackedFloat.zero s
      else .finite s again.1.mantissa again.2 (Nat.pos_of_ne_zero h)) = _
    simp only [hagain, hdigits]
    exact dif_neg (by omega)
  · rw [show (e + (m.log2 - 52 : Nat) + t - e).toNat = t + (m.log2 - 52) by omega, pow_add, ← Nat.mul_assoc, hvalue]
    rfl

end Round

theorem normalize_eq {m : Int} (hm : m ≠ 0) (e : Int) (zeroSign : Sign) :
    UnpackedFloat.normalize Format.binary64 m e zeroSign =
      UnpackedFloat.round Format.binary64 (if m < 0 then .negative else .positive) m.natAbs e := by
  obtain hneg | hpos := Int.lt_or_gt_of_ne hm
  · simp only [UnpackedFloat.normalize, compare_lt_iff_lt.2 hneg, if_pos hneg]
    congr 1
    omega
  · simp only [UnpackedFloat.normalize, compare_gt_iff_gt.2 hpos, if_neg (show ¬m < 0 by omega)]
    congr 1
    omega

theorem add_half_eq (x : Float) : x + 0.5 =
    .ofModel (.pack (add Format.binary64 x.toModel.unpack (.finite .positive (2 ^ 52) (-53) (by decide)))) := rfl

/-- The sum of a positive or negative whole number and one half, before it is packed. -/
theorem add_finite_half {s : Sign} {m n : Nat} {e : Int} (h : 0 < m) (he : -53 ≤ e)
    (hvalue : m * 2 ^ (e + 53).toNat = n * 2 ^ 53) :
    add Format.binary64 (.finite s m e h) (.finite .positive (2 ^ 52) (-53) (by decide)) =
      UnpackedFloat.round Format.binary64 s ((2 * s.apply n + 1).natAbs * 2 ^ 52) (-53) := by
  have hn : 0 < n := by
    refine Nat.pos_of_ne_zero fun hn => ?_
    rw [hn, Nat.zero_mul] at hvalue
    exact absurd hvalue (Nat.mul_pos h (Nat.two_pow_pos _)).ne'
  have hmin : min e (-53) = -53 := min_eq_right he
  have hshift : m <<< (e - -53).toNat = n * 2 ^ 53 := by rw [Nat.shiftLeft_eq, Int.sub_neg, hvalue]
  have hsum : s.apply (n * 2 ^ 53 : Nat) + Sign.positive.apply ((2 ^ 52) <<< ((-53 : Int) - -53).toNat : Nat) =
      (2 * s.apply n + 1) * 2 ^ 52 := by
    cases s <;> simp [Sign.apply] <;> ring
  have hodd : 2 * s.apply n + 1 ≠ 0 := by omega
  simp only [add, hmin, decreaseExponent, hshift, hsum]
  rw [normalize_eq (mul_ne_zero hodd (by norm_num)), Int.natAbs_mul]
  congr 1
  cases s with
  | negative => exact if_pos (by rw [Sign.apply]; omega)
  | positive => exact if_neg (by rw [Sign.apply]; omega)

theorem apply_natAbs {s : Sign} {n : Int} (h : isNegative s = decide (n < 0)) : s.apply n.natAbs = n := by
  cases s with
  | negative =>
    have := of_decide_eq_true h.symm
    simp only [Sign.apply]
    omega
  | positive =>
    have := of_decide_eq_false h.symm
    simp only [Sign.apply]
    omega

theorem lt_of_mul_two_pow {m n k t : Nat} (hlow : 2 ^ 52 ≤ m) (h : m * 2 ^ k = n * 2 ^ 52) (hn : n < 2 ^ t) :
    k < t := by
  have hlt : 2 ^ k * 2 ^ 52 < 2 ^ t * 2 ^ 52 := calc
    2 ^ k * 2 ^ 52 ≤ m * 2 ^ k := by rw [Nat.mul_comm]; exact Nat.mul_le_mul_right _ hlow
    _ = n * 2 ^ 52 := h
    _ < 2 ^ t * 2 ^ 52 := Nat.mul_lt_mul_of_pos_right hn (Nat.two_pow_pos _)
  exact (Nat.pow_lt_pow_iff_right (by norm_num)).1 (Nat.lt_of_mul_lt_mul_right hlt)

namespace Binary

variable {x : Float} {b : Binary} {n : Nat}

theorem Is.mul_two_pow (h : b.Is n 1) {i j : Nat} (hij : (i : Int) - j = b.exponent) :
    b.mantissa * 2 ^ i = n * 2 ^ j := by
  simpa using (is_iff hij).1 h

theorem Is.mantissa_eq_zero_iff (h : b.Is n 1) : b.mantissa = 0 ↔ n = 0 := by
  have hvalue := h.mul_two_pow (i := b.exponent.toNat) (j := (-b.exponent).toNat) (by omega)
  refine ⟨fun hm => ?_, fun hn => ?_⟩
  · simpa [hm] using hvalue.symm
  · simpa [hn] using hvalue

/-- A float that is a whole number other than zero has no digit below the first behind the point. -/
theorem Is.exponent_ge (h : b.Is n 1) (hn : 0 < n) (hb : ofFloat? x = some b) : -53 ≤ b.exponent := by
  by_contra hlt
  have hdigits := mantissa_lt hb
  have hvalue := h.mul_two_pow (i := 0) (j := (-b.exponent).toNat) (by omega)
  have hpow : 2 ^ 53 ≤ 2 ^ (-b.exponent).toNat := Nat.pow_le_pow_right (by norm_num) (by omega)
  have hmul := Nat.le_mul_of_pos_left (2 ^ (-b.exponent).toNat) hn
  omega

end Binary

theorem Denotes.zero_add_half {x : Float} {negative : Bool} (h : Denotes x negative 0 1) :
    Denotes (x + 0.5) false 1 2 := by
  obtain ⟨b, hb, -, his⟩ := h
  obtain ⟨s, hs⟩ :=
    Binary.ofUnpacked?_eq_zero ((Binary.ofFloat?_eq_ofUnpacked? x).symm.trans hb) (his.mantissa_eq_zero_iff.2 rfl)
  refine ⟨⟨false, 2 ^ 52, -53⟩, ?_, rfl, ?_⟩
  · rw [add_half_eq, hs]
    exact Binary.ofFloat?_pack .positive (by norm_num) le_rfl (by norm_num) (by norm_num) (by norm_num)
  · rw [Binary.is_iff (i := 0) (j := 53) rfl]
    rfl

/-- The sum of a whole number and one half is half of the number nearest to twice the number and one. -/
theorem Denotes.add_half {x : Float} {n : Int} (h : Denotes x (n < 0) n.natAbs 1)
    (hrange : nearestNat (2 * n + 1).natAbs < 2 ^ (1024 + 1)) :
    Denotes (x + 0.5) (n < 0) (nearestNat (2 * n + 1).natAbs) 2 := by
  obtain rfl | hn := eq_or_ne n 0
  · exact h.zero_add_half
  · obtain ⟨b, hb, hnegative, his⟩ := h
    have hn' : 0 < n.natAbs := Int.natAbs_pos.2 hn
    have hpos : 0 < b.mantissa := Nat.pos_of_ne_zero (mt his.mantissa_eq_zero_iff.1 hn'.ne')
    have hexponent := his.exponent_ge hn' hb
    obtain ⟨s, hs, hunpack⟩ :=
      Binary.ofUnpacked?_eq_some ((Binary.ofFloat?_eq_ofUnpacked? x).symm.trans hb) hpos
    have hsum := add_finite_half (s := s) hpos hexponent (his.mul_two_pow (j := 53) (by omega))
    rw [apply_natAbs (hs.trans hnegative)] at hsum
    obtain ⟨m, e, hm, hround, hlow, hhigh, he, hnearest⟩ :=
      exists_round (Nat.le_mul_of_pos_left (2 ^ 52) (show 0 < (2 * n + 1).natAbs by omega))
        (show -1074 ≤ (-53 : Int) by norm_num) s
    rw [nearestNat_mul_two_pow] at hnearest
    have hlimit := lt_of_mul_two_pow hlow hnearest hrange
    refine ⟨⟨isNegative s, m, e⟩, ?_, hs.trans hnegative, ?_⟩
    · rw [add_half_eq, hunpack, hsum, hround]
      exact Binary.ofFloat?_pack s hm hlow hhigh (by omega) (by clear hrange; omega)
    · rw [Binary.is_iff (i := (e - -53).toNat) (j := 53) (by simp; omega)]
      simp only [hnearest]
      ring

end PageTemplate
