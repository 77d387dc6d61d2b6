import Mathlib
import PageTemplate.Proofs.Nearest
set_option autoImplicit false
/-!
The two readings of a float: its word, as the parts of a fraction are read from it, and the unpacked form that
float arithmetic is defined on.
-/
namespace PageTemplate
open Float.Model (Format UnpackedFloat)
open Float.Model.UnpackedFloat

def isNegative : Sign → Bool
  | .negative => true
  | .positive => false

theorem mul_two_pow_eq {m n i j i' j' : Nat} (h : m * 2 ^ i = n * 2 ^ j) (h' : i' + j = i + j') :
    m * 2 ^ i' = n * 2 ^ j' := by
  refine Nat.eq_of_mul_eq_mul_right (Nat.two_pow_pos j) ?_
  calc m * 2 ^ i' * 2 ^ j = m * 2 ^ i * 2 ^ j' := by rw [Nat.mul_assoc, ← pow_add, h', pow_add, Nat.mul_assoc]
    _ = n * 2 ^ j' * 2 ^ j := by rw [h, Nat.mul_right_comm]

namespace Binary

/-- The parts of a float by its word. -/
def ofWord? (word : Nat) : Option Binary :=
  let field : Nat := word / 2 ^ 52 % 2048
  let fraction : Nat := word % 2 ^ 52
  if field = 2047 then none
  else if field = 0 then some ⟨2 ^ 63 ≤ word, fraction, -1074⟩
  else some ⟨2 ^ 63 ≤ word, 2 ^ 52 + fraction, (field : Int) - 1075⟩

theorem ofFloat?_eq_ofWord? (x : Float) : ofFloat? x = ofWord? x.toBits.toNat := by
  simp only [ofFloat?, ofWord?, twoPow_eq]

/-- The parts of a float by its unpacked form. -/
def ofUnpacked? : UnpackedFloat → Option Binary
  | .infinity _ | .notANumber => none
  | .zero s => some ⟨isNegative s, 0, -1074⟩
  | .finite s m e _ => some ⟨isNegative s, m, e⟩

section Word

variable (b : BitVec Format.binary64.numBits)

theorem toNat_unpackExponent : (unpackExponent b).toNat = b.toNat / 2 ^ 52 % 2048 := by
  simp [unpackExponent, Nat.shiftRight_eq_div_pow]

theorem toNat_unpackMantissa : (unpackMantissa b).toNat = b.toNat % 2 ^ 52 := by
  simp [unpackMantissa]

theorem isNegative_unpackSign : isNegative (Sign.ofBitVec (unpackSign b)) = decide (2 ^ 63 ≤ b.toNat) := by
  have hb : b.toNat < 2 ^ 64 := b.isLt
  have hsign : (unpackSign b).toNat = b.toNat / 2 ^ 63 := by
    simp [unpackSign, Nat.shiftRight_eq_div_pow]
    omega
  have hiff : unpackSign b = 0#1 ↔ ¬2 ^ 63 ≤ b.toNat := by
    rw [← BitVec.toNat_inj, hsign, BitVec.toNat_ofNat]
    omega
  rw [Sign.ofBitVec]
  split_ifs with h
  · exact (decide_eq_false (hiff.1 h)).symm
  · exact (decide_eq_true (not_not.1 (mt hiff.2 h))).symm

theorem ofUnpacked?_unpack : ofUnpacked? (unpack Format.binary64 b) = ofWord? b.toNat := by
  have hones : unpackExponent b = -1#_ ↔ b.toNat / 2 ^ 52 % 2048 = 2047 := by
    rw [← BitVec.toNat_inj, toNat_unpackExponent]
    simp
  have hzeros : unpackExponent b = 0#_ ↔ b.toNat / 2 ^ 52 % 2048 = 0 := by
    rw [← BitVec.toNat_inj, toNat_unpackExponent]
    simp
  have hnone : unpackMantissa b = 0#_ ↔ b.toNat % 2 ^ 52 = 0 := by
    rw [← BitVec.toNat_inj, toNat_unpackMantissa]
    simp
  have himplicit : (1#1 ++ unpackMantissa b).toNat = 2 ^ 52 + b.toNat % 2 ^ 52 := by
    rw [BitVec.toNat_append, ← Nat.shiftLeft_add_eq_or_of_lt (unpackMantissa b).isLt, toNat_unpackMantissa]
    rfl
  simp only [unpack, ofWord?, hones, hzeros, hnone]
  by_cases hinfinite : b.toNat / 2 ^ 52 % 2048 = 2047
  · simp only [hinfinite, if_true]
    split <;> rfl
  · simp only [hinfinite, if_false]
    by_cases hsubnormal : b.toNat / 2 ^ 52 % 2048 = 0
    · simp only [hsubnormal, if_true]
      by_cases hzero : b.toNat % 2 ^ 52 = 0
      · simp only [hzero, dif_pos, ofUnpacked?, isNegative_unpackSign]
      · simp only [hzero, dif_neg, not_false_eq_true, ofUnpacked?, isNegative_unpackSign, toNat_unpackMantissa,
          toNat_unpackExponent, hsubnormal]
        rfl
    · simp only [hsubnormal, if_false, ofUnpacked?, isNegative_unpackSign, himplicit, toNat_unpackExponent]
      rfl

end Word

/-- The parts of a float are those of its unpacked form. -/
theorem ofFloat?_eq_ofUnpacked? (x : Float) : ofFloat? x = ofUnpacked? x.toModel.unpack := by
  rw [ofFloat?_eq_ofWord?, Float.Model.unpack, ofUnpacked?_unpack]
  rfl

theorem toNat_packComponents (s : Sign) (exponent : BitVec 11) (mantissa : BitVec 52) :
    (packComponents Format.binary64 s exponent mantissa).toNat =
      signBit (isNegative s) + exponent.toNat * 2 ^ 52 + mantissa.toNat := by
  have hsign : s.toBitVec.toNat * 2 ^ 63 = signBit (isNegative s) := by cases s <;> rfl
  rw [packComponents, BitVec.toNat_append, ← Nat.shiftLeft_add_eq_or_of_lt mantissa.isLt, BitVec.toNat_append,
    ← Nat.shiftLeft_add_eq_or_of_lt exponent.isLt, ← hsign]
  simp only [Nat.shiftLeft_eq]
  ring

theorem ofWord?_word (negative : Bool) {field fraction : Nat} (hpos : 0 < field) (hfield : field < 2047)
    (hfraction : fraction < 2 ^ 52) :
    ofWord? (signBit negative + field * 2 ^ 52 + fraction) =
      some ⟨negative, 2 ^ 52 + fraction, (field : Int) - 1075⟩ := by
  have hsign : signBit negative = if negative then 2 ^ 63 else 0 := by simp [signBit]
  have hlow : (signBit negative + field * 2 ^ 52 + fraction) % 2 ^ 52 = fraction := by
    rw [hsign]
    split_ifs <;> omega
  have hmiddle : (signBit negative + field * 2 ^ 52 + fraction) / 2 ^ 52 % 2048 = field := by
    rw [hsign]
    split_ifs <;> omega
  have hhigh : decide (2 ^ 63 ≤ signBit negative + field * 2 ^ 52 + fraction) = negative := by
    rw [hsign]
    cases negative <;> simp <;> omega
  simp only [ofWord?, hlow, hmiddle, hhigh, hfield.ne, hpos.ne', if_false]

/-- A number with all the digits of a float is packed without loss. -/
theorem ofFloat?_pack (s : Sign) {m : Nat} {e : Int} (h : 0 < m) (hlow : 2 ^ 52 ≤ m) (hhigh : m < 2 ^ 53)
    (he : -1074 ≤ e) (he' : e ≤ 971) :
    ofFloat? (.ofModel (.pack (.finite s m e h))) = some ⟨isNegative s, m, e⟩ := by
  have hlog : m.log2 = 52 := (Nat.log2_eq_iff h.ne').2 ⟨hlow, hhigh⟩
  have hbias : (e + Format.binary64.exponentBias + Format.binary64.mantissaBitsWithoutImplicit).toNat =
      (e + 1075).toNat := by
    change (e + (1023 : Nat) + (52 : Nat)).toNat = _
    omega
  have hpack : pack Format.binary64 (.finite s m e h) =
      packComponents Format.binary64 s (BitVec.ofNat 11 (e + 1075).toNat) (BitVec.ofNat 52 m) := by
    simp only [pack, hbias, hlog]
    rw [if_neg (by omega)]
    exact if_pos rfl
  have hexponent : (BitVec.ofNat 11 (e + 1075).toNat).toNat = (e + 1075).toNat := by
    rw [BitVec.toNat_ofNat]
    omega
  have hmantissa : (BitVec.ofNat 52 m).toNat = m - 2 ^ 52 := by
    rw [BitVec.toNat_ofNat]
    omega
  rw [ofFloat?_eq_ofWord?]
  change ofWord? (pack Format.binary64 (.finite s m e h)).toNat = _
  rw [hpack, toNat_packComponents, hexponent, hmantissa, ofWord?_word _ (by omega) (by omega) (by omega)]
  simp
  omega

theorem ofUnpacked?_eq_some {u : UnpackedFloat} {b : Binary} (h : ofUnpacked? u = some b) (hm : 0 < b.mantissa) :
    ∃ s, isNegative s = b.negative ∧ u = .finite s b.mantissa b.exponent hm := by
  cases u with
  | finite s m e _ =>
    obtain rfl := Option.some.inj h
    exact ⟨s, rfl, rfl⟩
  | zero s =>
    obtain rfl := Option.some.inj h
    cases hm
  | _ => cases h

theorem ofUnpacked?_eq_zero {u : UnpackedFloat} {b : Binary} (h : ofUnpacked? u = some b) (hm : b.mantissa = 0) :
    ∃ s, u = .zero s := by
  cases u with
  | finite s m e hpos =>
    obtain rfl := Option.some.inj h
    exact absurd hm hpos.ne'
  | zero s => exact ⟨s, rfl⟩
  | _ => cases h

theorem mantissa_lt {x : Float} {b : Binary} (h : ofFloat? x = some b) : b.mantissa < 2 ^ 53 := by
  rw [ofFloat?_eq_ofWord?] at h
  simp only [ofWord?] at h
  split_ifs at h
  all_goals
    obtain rfl := Option.some.inj h
    simp only
    omega

/-- The parts of the float of a word with all the digits. -/
theorem ofFloat?_ofBits (negative : Bool) {field fraction : Nat} (hpos : 0 < field) (hfield : field < 2047)
    (hfraction : fraction < 2 ^ 52) :
    ofFloat? (Float.ofBits (UInt64.ofNat (signBit negative + field * 2 ^ 52 + fraction))) =
      some ⟨negative, 2 ^ 52 + fraction, (field : Int) - 1075⟩ := by
  have hsign : signBit negative ≤ 2 ^ 63 := by cases negative <;> simp [signBit]
  set bits := (UInt64.ofNat (signBit negative + field * 2 ^ 52 + fraction)).toBitVec with hbits
  have hword : bits.toNat = signBit negative + field * 2 ^ 52 + fraction := by
    rw [hbits, UInt64.toBitVec_ofNat', BitVec.toNat_ofNat]
    omega
  have hparts : ofUnpacked? (unpack Format.binary64 bits) =
      some ⟨negative, 2 ^ 52 + fraction, (field : Int) - 1075⟩ := by
    rw [ofUnpacked?_unpack, hword, ofWord?_word negative hpos hfield hfraction]
  obtain ⟨s, rfl, hunpack⟩ := ofUnpacked?_eq_some hparts (by simp)
  change ofFloat? (.ofModel (.pack (unpack Format.binary64 bits))) = _
  rw [hunpack]
  exact ofFloat?_pack s _ (by simp) (by simp; omega) (by simp; omega) (by simp; omega)

theorem ofFloat?_signBit (negative : Bool) :
    ofFloat? (Float.ofBits (UInt64.ofNat (signBit negative))) = some ⟨negative, 0, -1074⟩ := by
  cases negative <;> rfl

/-- Is the magnitude `n / d`? -/
def Is (b : Binary) (n d : Nat) : Prop := b.fraction.1 * d = n * b.fraction.2

variable {b : Binary} {n d : Nat}

theorem is_iff {i j : Nat} (h : (i : Int) - j = b.exponent) : b.Is n d ↔ b.mantissa * 2 ^ i * d = n * 2 ^ j := by
  rw [Is, fraction]
  split_ifs with hexponent
  · obtain rfl : i = b.exponent.toNat + j := by omega
    rw [twoPow_eq, Nat.mul_one, pow_add, ← Nat.mul_right_cancel_iff (Nat.two_pow_pos j)]
    ring_nf
  · obtain rfl : j = i + (-b.exponent).toNat := by omega
    rw [twoPow_eq, pow_add, ← Nat.mul_right_cancel_iff (Nat.two_pow_pos i)]
    ring_nf

theorem fraction_pos (b : Binary) : 0 < b.fraction.2 := by
  rw [fraction]
  split_ifs <;> simp

theorem Is.trunc (h : b.Is n 1) : b.trunc = if b.negative then -(n : Int) else n := by
  have hdiv : b.fraction.1 / b.fraction.2 = n := Nat.div_eq_of_eq_mul_left b.fraction_pos (by simpa [Is] using h)
  simp [Binary.trunc, hdiv]

theorem floor_eq (b : Binary) :
    b.floor = (if b.negative then -(b.fraction.1 : Int) else b.fraction.1) / (b.fraction.2 : Int) := by
  have hpos := b.fraction_pos
  simp only [Binary.floor]
  split_ifs
  · have hmod := Nat.div_add_mod (b.fraction.1 + b.fraction.2 - 1) b.fraction.2
    have hlt := Nat.mod_lt (b.fraction.1 + b.fraction.2 - 1) hpos
    generalize (b.fraction.1 + b.fraction.2 - 1) / b.fraction.2 = q at *
    have hmul : ((b.fraction.2 * q : Nat) : Int) = q * b.fraction.2 := by
      rw [Nat.mul_comm, Nat.cast_mul]
    rw [eq_comm, Int.ediv_eq_iff_of_pos (by omega), Int.neg_mul]
    omega
  · rfl

theorem Is.floor (h : b.Is n d) (hd : 0 < d) : b.floor = (if b.negative then -(n : Int) else n) / d := by
  have hpos := b.fraction_pos
  have hcross : (b.fraction.1 : Int) * d = n * b.fraction.2 := by exact_mod_cast h
  rw [floor_eq, ← Int.mul_ediv_mul_of_pos_left _ _ (show (0 : Int) < d by omega)]
  rw [← Int.mul_ediv_mul_of_pos_left _ (d : Int) (show (0 : Int) < b.fraction.2 by omega),
    Int.mul_comm (b.fraction.2 : Int) d]
  congr 1
  split_ifs <;> simp [hcross]

end Binary

theorem log2Ratio_mul_two_pow {n : Nat} (hn : n ≠ 0) (k : Nat) : log2Ratio (n * 2 ^ k) (2 ^ k) = n.log2 := by
  have hlog : ((n * 2 ^ k).log2 : Int) - (2 ^ k).log2 = n.log2 := by
    rw [log2_mul_two_pow hn, Nat.log2_two_pow]
    omega
  have hreached : 2 ^ k * 2 ^ n.log2 ≤ n * 2 ^ k := by
    rw [Nat.mul_comm]
    exact Nat.mul_le_mul_right _ (Nat.log2_self_le hn)
  simp only [log2Ratio, hlog, twoPow_eq, Int.toNat_natCast, Int.natCast_nonneg, if_true, hreached]

/-- Fewer digits than a float has are shifted up, more are cut off; either way it is one fraction that is rounded. -/
theorem roundHalfEven_shift (n l k : Nat) :
    (if 0 ≤ (l : Int) - 52 then roundHalfEven (n * 2 ^ k) (2 ^ k * 2 ^ ((l : Int) - 52).toNat)
      else roundHalfEven (n * 2 ^ k * 2 ^ (-((l : Int) - 52)).toNat) (2 ^ k)) = roundHalfEven (n * 2 ^ 52) (2 ^ l) := by
  split_ifs with h
  · obtain ⟨t, rfl⟩ : ∃ t, l = t + 52 := ⟨l - 52, by omega⟩
    rw [show (((t + 52 : Nat) : Int) - 52).toNat = t by omega]
    exact roundHalfEven_congr (by positivity) (by positivity) (by ring)
  · obtain ⟨t, ht⟩ : ∃ t, 52 = t + l := ⟨52 - l, by omega⟩
    rw [show (-((l : Int) - 52)).toNat = t by omega, ht]
    exact roundHalfEven_congr (by positivity) (by positivity) (by ring)

/-- The digits of the float nearest to a whole number, given as a fraction, and the word they make. -/
theorem exists_significand {n : Nat} (hn : n ≠ 0) (k : Nat) : ∃ m, 2 ^ 52 ≤ m ∧ m ≤ 2 ^ 53 ∧
    m * 2 ^ n.log2 = nearestNat n * 2 ^ 52 ∧ ∀ negative, nearest? negative (n * 2 ^ k) (2 ^ k) =
      if (n.log2 + 1022) * 2 ^ 52 + m < 2047 * 2 ^ 52 then
        some (Float.ofBits (UInt64.ofNat (signBit negative + ((n.log2 + 1022) * 2 ^ 52 + m)))) else none := by
  have hspacing : spacing (n * 2 ^ 52) = 2 ^ n.log2 := by rw [spacing, log2_mul_two_pow hn, Nat.add_sub_cancel]
  obtain ⟨hlow, hhigh⟩ := significand_bounds (Nat.le_mul_of_pos_left (2 ^ 52) (Nat.pos_of_ne_zero hn))
  rw [hspacing] at hlow hhigh
  refine ⟨_, hlow, hhigh, by rw [← nearestNat_mul_two_pow, nearestNat, hspacing], fun negative => ?_⟩
  have hexponent : max ((n.log2 : Int) - 52) (-1074) = (n.log2 : Int) - 52 := by omega
  have hfield : ((n.log2 : Int) - 52 + 1074).toNat = n.log2 + 1022 := by omega
  have hnum : n * 2 ^ k ≠ 0 := by positivity
  simp only [nearest?, hnum, if_false, log2Ratio_mul_two_pow hn, hexponent, hfield, twoPow_eq, roundHalfEven_shift]

theorem nearest?_eq {n : Nat} (hn : n ≠ 0) (k : Nat) : ∃ field fraction, 0 < field ∧ fraction < 2 ^ 52 ∧
    (∀ i j, i + 1075 = field + j → (2 ^ 52 + fraction) * 2 ^ i = nearestNat n * 2 ^ j) ∧
    ∀ negative, nearest? negative (n * 2 ^ k) (2 ^ k) =
      if field < 2047 then some (Float.ofBits (UInt64.ofNat (signBit negative + field * 2 ^ 52 + fraction)))
        else none := by
  obtain ⟨m, hlow, hhigh, hvalue, hnearest⟩ := exists_significand hn k
  obtain rfl | hlt := hhigh.eq_or_lt
  · -- All digits are ones and are rounded up: one digit more, which the next field takes.
    have hcarry : 2 ^ 52 * 2 ^ (n.log2 + 1) = nearestNat n * 2 ^ 52 := by
      rw [← hvalue]
      ring
    refine ⟨n.log2 + 1024, 0, by omega, by norm_num, fun i j h => mul_two_pow_eq hcarry (by omega),
      fun negative => ?_⟩
    have hword : (n.log2 + 1022) * 2 ^ 52 + 2 ^ 53 = (n.log2 + 1024) * 2 ^ 52 + 0 := by omega
    rw [hnearest, hword, Nat.add_assoc]
    exact if_congr (by omega) rfl rfl
  · refine ⟨n.log2 + 1023, m - 2 ^ 52, by omega, by omega, fun i j h => ?_, fun negative => ?_⟩
    · rw [Nat.add_sub_cancel' hlow]
      exact mul_two_pow_eq hvalue (by omega)
    · have hword : (n.log2 + 1022) * 2 ^ 52 + m = (n.log2 + 1023) * 2 ^ 52 + (m - 2 ^ 52) := by omega
      rw [hnearest, hword, Nat.add_assoc]
      exact if_congr (by omega) rfl rfl

/-- Is the value of the float `± n / d`, with the given sign? -/
def Denotes (x : Float) (negative : Bool) (n d : Nat) : Prop :=
  ∃ b, Binary.ofFloat? x = some b ∧ b.negative = negative ∧ b.Is n d

/-- Is there a float nearest to the whole number? Beyond the largest float there is none. -/
def InRange (n : Nat) : Prop := nearestNat n < 2 ^ 1024

instance (n : Nat) : Decidable (InRange n) := inferInstanceAs (Decidable (_ < _))

theorem inRange_iff {n field fraction : Nat} (hfraction : fraction < 2 ^ 52)
    (hvalue : ∀ i j, i + 1075 = field + j → (2 ^ 52 + fraction) * 2 ^ i = nearestNat n * 2 ^ j) :
    InRange n ↔ field < 2047 := by
  rw [InRange]
  obtain hlt | hge := Nat.lt_or_ge field 1075
  · have hsmall : nearestNat n ≤ (2 ^ 52 + fraction) * 2 ^ 0 := by
      rw [hvalue 0 (1075 - field) (by omega)]
      exact Nat.le_mul_of_pos_right _ (Nat.two_pow_pos _)
    have hdigits : nearestNat n < 2 ^ 53 := by omega
    have hlimit : 2 ^ 53 ≤ 2 ^ 1024 := pow_le_pow_right₀ one_le_two (by norm_num)
    exact iff_of_true (Nat.lt_of_lt_of_le hdigits hlimit) (hlt.trans (by norm_num))
  · have hlarge := hvalue (field - 1075) 0 (by omega)
    rw [pow_zero, Nat.mul_one] at hlarge
    rw [← hlarge]
    refine ⟨fun h => ?_, fun h => ?_⟩
    · have hlow : 2 ^ (52 + (field - 1075)) < 2 ^ 1024 := by
        rw [pow_add]
        exact lt_of_le_of_lt (Nat.mul_le_mul_right _ (Nat.le_add_right _ _)) h
      have hexponent : 52 + (field - 1075) < 1024 := (pow_lt_pow_iff_right₀ one_lt_two).1 hlow
      clear h hlow
      omega
    · have hhigh : (2 ^ 52 + fraction) * 2 ^ (field - 1075) < 2 ^ (53 + (field - 1075)) := by
        rw [pow_add]
        exact Nat.mul_lt_mul_of_pos_right (by omega) (Nat.two_pow_pos _)
      exact hhigh.trans_le (pow_le_pow_right₀ one_le_two (by omega))

theorem nearest?_of_inRange {n : Nat} (h : InRange n) (negative : Bool) (k : Nat) :
    ∃ x, nearest? negative (n * 2 ^ k) (2 ^ k) = some x ∧ Denotes x negative (nearestNat n) 1 := by
  obtain rfl | hn := eq_or_ne n 0
  · refine ⟨_, by simp [nearest?], _, Binary.ofFloat?_signBit negative, rfl, ?_⟩
    rw [Binary.is_iff (i := 0) (j := 1074) rfl, show nearestNat 0 = 0 from rfl]
    simp only [Nat.zero_mul]
  · obtain ⟨field, fraction, hpos, hfraction, hvalue, hnearest⟩ := nearest?_eq hn k
    have hfield := (inRange_iff hfraction hvalue).1 h
    refine ⟨_, (hnearest negative).trans (if_pos hfield), _, Binary.ofFloat?_ofBits negative hpos hfield hfraction, rfl,
      ?_⟩
    rw [Binary.is_iff (i := field) (j := 1075) (by simp), Nat.mul_one]
    exact hvalue field 1075 rfl

theorem nearest?_of_not_inRange {n : Nat} (h : ¬InRange n) (negative : Bool) : nearest? negative n 1 = none := by
  obtain rfl | hn := eq_or_ne n 0
  · exact absurd (Nat.two_pow_pos _) h
  · obtain ⟨field, fraction, hpos, hfraction, hvalue, hnearest⟩ := nearest?_eq hn 0
    have hfield := mt (inRange_iff hfraction hvalue).2 h
    simpa [hfield] using hnearest negative

end PageTemplate
