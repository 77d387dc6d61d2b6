import PageTemplate.Proofs.Binary64
import PageTemplate.Proofs.Equality
set_option autoImplicit false
/-!
What numbers amount to. Two numbers are alike just when they amount to the same: whole numbers and floats to a fraction
or to an infinity, and a NaN to the place it came from. So numbers that are alike can stand for each other.
-/
namespace PageTemplate
open Float.Model (UnpackedFloat)
open Float.Model.UnpackedFloat (Sign)

namespace Binary

variable {b : Binary} {x : Float}

def value (b : Binary) : ℚ := (if b.negative then -(b.mantissa : ℚ) else b.mantissa) * 2 ^ b.exponent

theorem value_mul_denominator (b : Binary) :
    b.value * b.fraction.2 = ((if b.negative then -(b.fraction.1 : Int) else b.fraction.1 : Int) : ℚ) := by
  have hscale : (b.mantissa : ℚ) * 2 ^ b.exponent * b.fraction.2 = b.fraction.1 := by
    rw [fraction]
    split_ifs with hexponent
    · simp [twoPow_eq, ← zpow_natCast, Int.toNat_of_nonneg hexponent]
    · have hpower : (2 : ℚ) ^ b.exponent * (2 ^ b.exponent)⁻¹ = 1 := mul_inv_cancel₀ (zpow_ne_zero _ two_ne_zero)
      simp [twoPow_eq, ← zpow_natCast, Int.toNat_of_nonneg (by omega : 0 ≤ -b.exponent), mul_assoc, hpower]
  rw [value]
  split_ifs
  · rw [neg_mul, neg_mul, hscale]
    push_cast
    rfl
  · rw [hscale]
    push_cast
    rfl

theorem compareInt_eq_iff {n : Int} : b.compareInt n = .eq ↔ (n : ℚ) = b.value := by
  have hpos : (b.fraction.2 : ℚ) ≠ 0 := by exact_mod_cast b.fraction_pos.ne'
  unfold compareInt
  simp only
  rw [compare_eq_iff_eq, ← mul_left_inj' hpos, value_mul_denominator]
  norm_cast

/-- The parts of a float have all its digits, unless the exponent is the least. -/
theorem bounds_of_ofFloat? (h : ofFloat? x = some b) :
    b.mantissa < 2 ^ 53 ∧ -1074 ≤ b.exponent ∧ (2 ^ 52 ≤ b.mantissa ∨ b.exponent = -1074) := by
  refine ⟨mantissa_lt h, ?_⟩
  rw [ofFloat?_eq_ofWord?] at h
  simp only [ofWord?] at h
  split_ifs at h with hinfinite hsubnormal
  · obtain rfl := Option.some.inj h
    exact ⟨le_rfl, .inr rfl⟩
  · obtain rfl := Option.some.inj h
    refine ⟨?_, .inl (Nat.le_add_right _ _)⟩
    simp only
    omega

/-- Of two equal numbers written with a mantissa and an exponent, the one with the lower exponent has a longer
mantissa, which is too long if the other one's has all digits. -/
theorem parts_unique {m m' : Nat} {e e' : Int} (hle : e ≤ e') (hm : m < 2 ^ 53) (he : -1074 ≤ e)
    (hdigits : 2 ^ 52 ≤ m' ∨ e' = -1074) (h : (m : ℚ) * 2 ^ e = m' * 2 ^ e') : m = m' ∧ e = e' := by
  obtain ⟨k, rfl⟩ := Int.le.dest hle
  have hmantissa : m = m' * 2 ^ k := by
    rw [zpow_add₀ two_ne_zero, zpow_natCast, mul_comm ((2 : ℚ) ^ e), ← mul_assoc] at h
    exact_mod_cast mul_right_cancel₀ (zpow_ne_zero e two_ne_zero) h
  cases k with
  | zero => simpa using hmantissa
  | succ k =>
    have hlong : 2 ^ 52 ≤ m' := by omega
    have htwice : m' * 2 ≤ m' * 2 ^ (k + 1) := Nat.mul_le_mul_left m' (Nat.le_self_pow k.succ_ne_zero 2)
    omega

theorem parts_eq {m m' : Nat} {e e' : Int} (hm : m < 2 ^ 53 ∧ -1074 ≤ e ∧ (2 ^ 52 ≤ m ∨ e = -1074))
    (hm' : m' < 2 ^ 53 ∧ -1074 ≤ e' ∧ (2 ^ 52 ≤ m' ∨ e' = -1074)) :
    (m : ℚ) * 2 ^ e = m' * 2 ^ e' ↔ m = m' ∧ e = e' := by
  refine ⟨fun h => ?_, fun h => by rw [h.1, h.2]⟩
  obtain hle | hle := le_total e e'
  · exact parts_unique hle hm.1 hm.2.1 hm'.2.2 h
  · obtain ⟨hmantissa, hexponent⟩ := parts_unique hle hm'.1 hm'.2.1 hm.2.2 h.symm
    exact ⟨hmantissa.symm, hexponent.symm⟩

theorem value_ne_zero (negative : Bool) {m : Nat} (hm : 0 < m) (e : Int) : value ⟨negative, m, e⟩ ≠ 0 := by
  have hpos : (m : ℚ) ≠ 0 := by exact_mod_cast hm.ne'
  have hpower : (2 : ℚ) ^ e ≠ 0 := zpow_ne_zero e two_ne_zero
  cases negative <;> simp [value, hpos, hpower]

theorem value_eq_value {n n' : Bool} {m m' : Nat} {e e' : Int} (hm : 0 < m) (hm' : 0 < m') :
    value ⟨n, m, e⟩ = value ⟨n', m', e'⟩ ↔ n = n' ∧ (m : ℚ) * 2 ^ e = m' * 2 ^ e' := by
  have hpos : (0 : ℚ) < m * 2 ^ e := by positivity
  have hpos' : (0 : ℚ) < m' * 2 ^ e' := by positivity
  cases n <;> cases n' <;> simp [value]
  · linarith
  · linarith

end Binary

namespace Number

inductive Magnitude where
  | finite (value : ℚ)
  | infinite (negative : Bool)
  | nan (origin : Origin)

def Magnitude.ofUnpacked : UnpackedFloat → Magnitude
  | .finite s m e _ => .finite (Binary.value ⟨isNegative s, m, e⟩)
  | .infinity s => .infinite (isNegative s)
  | .zero _ | .notANumber => .finite 0

def magnitude : Number → Magnitude
  | .whole n => .finite n
  | .float x => .ofUnpacked x.toModel.unpack
  | .nan o => .nan o

/-- A float that is no NaN; a NaN is told by its origin. -/
def IsProper : Number → Prop
  | .float x => x.isNaN = false
  | _ => True

variable {m n : Number} {x y : Float}

theorem float_lt_iff : x < y ↔ x.toModel.unpack.compare y.toModel.unpack = some .lt := by
  have hmodel : x < y ↔ x.toModel < y.toModel := by
    change Float.lt x y = true ↔ _
    simp [Float.lt]
  rw [hmodel]
  change (x.toModel.unpack.compare y.toModel.unpack == some .lt) = true ↔ _
  simp

theorem float_beq_iff : (x == y) = true ↔ x.toModel.unpack.compare y.toModel.unpack = some .eq := by
  change (x.toModel.unpack.compare y.toModel.unpack == some .eq) = true ↔ _
  simp

theorem equals_float : (Number.float x).equals (.float y) = true ↔
    x.toModel.unpack.compare y.toModel.unpack = some .eq := by
  simp only [equals, compare?]
  split_ifs with hlt heq
  · rw [float_lt_iff] at hlt
    simp [hlt]
  · rw [float_beq_iff] at heq
    simp [heq]
  · rw [float_beq_iff] at heq
    simp [heq]

theorem bounds_of_finite {s : Sign} {m : Nat} {e : Int} {h : 0 < m} (hx : x.toModel.unpack = .finite s m e h) :
    m < 2 ^ 53 ∧ -1074 ≤ e ∧ (2 ^ 52 ≤ m ∨ e = -1074) :=
  Binary.bounds_of_ofFloat? (x := x) (b := ⟨isNegative s, m, e⟩) (by
    rw [Binary.ofFloat?_eq_ofUnpacked?, hx]
    rfl)

theorem compare_finite_eq_iff {s s' : Sign} {m m' : Nat} {e e' : Int} {h : 0 < m} {h' : 0 < m'} :
    UnpackedFloat.compare (.finite s m e h) (.finite s' m' e' h') = some .eq ↔ s = s' ∧ m = m' ∧ e = e' := by
  cases s <;> cases s' <;>
    simp [UnpackedFloat.compare, Ordering.then_eq_eq, and_comm]

theorem compare_eq_iff {u v : UnpackedFloat} (hu : u.isNaN = false) (hv : v.isNaN = false)
    (hparts : ∀ s m e h s' m' e' h', u = .finite s m e h → v = .finite s' m' e' h' →
      ((m : ℚ) * 2 ^ e = m' * 2 ^ e' ↔ m = m' ∧ e = e')) :
    u.compare v = some .eq ↔ Magnitude.ofUnpacked u = .ofUnpacked v := by
  cases u with
  | notANumber => cases hu
  | infinity s =>
    cases v with
    | notANumber => cases hv
    | infinity s' => cases s <;> cases s' <;> simp [UnpackedFloat.compare, Magnitude.ofUnpacked, isNegative] <;> rfl
    | zero s' => cases s <;> simp [UnpackedFloat.compare, Magnitude.ofUnpacked]
    | finite s' m' e' h' => cases s <;> simp [UnpackedFloat.compare, Magnitude.ofUnpacked]
  | zero s =>
    cases v with
    | notANumber => cases hv
    | infinity s' => cases s' <;> simp [UnpackedFloat.compare, Magnitude.ofUnpacked]
    | zero s' => simp [UnpackedFloat.compare, Magnitude.ofUnpacked]
    | finite s' m' e' h' =>
      have hne := (Binary.value_ne_zero (isNegative s') h' e').symm
      cases s' <;> simp [UnpackedFloat.compare, Magnitude.ofUnpacked, hne]
  | finite s m e h =>
    cases v with
    | notANumber => cases hv
    | infinity s' => cases s' <;> simp [UnpackedFloat.compare, Magnitude.ofUnpacked]
    | zero s' =>
      have hne := Binary.value_ne_zero (isNegative s) h e
      cases s <;> simp [UnpackedFloat.compare, Magnitude.ofUnpacked, hne]
    | finite s' m' e' h' =>
      have hsign : isNegative s = isNegative s' ↔ s = s' := by cases s <;> cases s' <;> simp [isNegative]
      rw [compare_finite_eq_iff, Magnitude.ofUnpacked, Magnitude.ofUnpacked, Magnitude.finite.injEq,
        Binary.value_eq_value h h', hparts s m e h s' m' e' h' rfl rfl, hsign]

theorem equals_float_iff (hx : x.isNaN = false) (hy : y.isNaN = false) :
    (Number.float x).equals (.float y) = true ↔ (Number.float x).magnitude = (Number.float y).magnitude := by
  rw [equals_float, magnitude, magnitude, compare_eq_iff hx hy]
  intro s m e h s' m' e' h' hu hv
  exact Binary.parts_eq (bounds_of_finite hu) (bounds_of_finite hv)

theorem equals_whole_float (n : Int) (hx : x.isNaN = false) :
    (Number.whole n).equals (.float x) = true ↔ (Number.whole n).magnitude = (Number.float x).magnitude := by
  have hx' : x.toModel.unpack.isNaN = false := hx
  simp only [equals, compare?, compare?.compareIntFloat, magnitude, Binary.ofFloat?_eq_ofUnpacked?, beq_iff_eq,
    Option.some_inj]
  cases hu : x.toModel.unpack with
  | notANumber => simp [hu, UnpackedFloat.isNaN] at hx'
  | infinity s =>
    simp only [Binary.ofUnpacked?, Magnitude.ofUnpacked]
    split_ifs <;> simp
  | zero s => simp [Binary.ofUnpacked?, Magnitude.ofUnpacked, Binary.compareInt_eq_iff, Binary.value]
  | finite s m e h => simp [Binary.ofUnpacked?, Magnitude.ofUnpacked, Binary.compareInt_eq_iff]

/-- Numbers that are alike are those that amount to the same. -/
theorem alike_iff (hm : m.IsProper) (hn : n.IsProper) : m.alike n = true ↔ m.magnitude = n.magnitude := by
  cases m with
  | whole a =>
    cases n with
    | whole b => simp [alike, Value.equals_whole, magnitude]
    | float y => exact equals_whole_float a hn
    | nan o => simp [alike, equals, compare?, magnitude]
  | float x =>
    cases n with
    | whole b =>
      rw [eq_comm (a := (Number.float x).magnitude), ← equals_whole_float b hm, Value.equals_comm_whole]
      rfl
    | float y => exact equals_float_iff hm hn
    | nan o =>
      simp only [alike, equals, compare?, magnitude]
      cases x.toModel.unpack <;> simp [Magnitude.ofUnpacked]
  | nan o =>
    cases n with
    | whole b => simp [alike, equals, compare?, magnitude]
    | float y =>
      simp only [alike, equals, compare?, magnitude]
      cases y.toModel.unpack <;> simp [Magnitude.ofUnpacked]
    | nan o' => simp [alike, magnitude]

end Number

end PageTemplate
