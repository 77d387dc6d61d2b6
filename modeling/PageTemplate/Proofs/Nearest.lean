import PageTemplate.Number.Binary
import Mathlib.Data.Nat.Log
import Mathlib.Algebra.Order.Group.Int
import Mathlib.Tactic.Ring
import Mathlib.Tactic.Linarith
set_option autoImplicit false
/-!
The whole numbers among the floats. A float has fifty-three binary digits, so a whole number of more digits is
rounded to a multiple of the spacing that floats have around it, a tie to the even multiple. How far floats reach
plays no part here.
-/
namespace PageTemplate

@[simp] theorem twoPow_eq (n : Nat) : twoPow n = 2 ^ n := Nat.one_shiftLeft n

/-- How far apart floats are around a whole number, or one where they are closer. -/
def spacing (n : Nat) : Nat := 2 ^ (n.log2 - 52)

/-- Is the whole number a multiple of the spacing around it, and so, within the range of floats, the value of one? -/
def Fits (n : Nat) : Prop := spacing n ∣ n

instance (n : Nat) : Decidable (Fits n) := inferInstanceAs (Decidable (spacing n ∣ n))

/-- The whole number that fits and is nearest. -/
def nearestNat (n : Nat) : Nat := roundHalfEven n (spacing n) * spacing n

def nearestInt (n : Int) : Int := n.sign * nearestNat n.natAbs

theorem spacing_pos (n : Nat) : 0 < spacing n := Nat.two_pow_pos _

section Rounding

variable {n d q r : Nat}

theorem roundHalfEven_mul_add (hr : r < d) :
    roundHalfEven (q * d + r) d = if 2 * r < d ∨ 2 * r = d ∧ q % 2 = 0 then q else q + 1 := by
  have hdiv : (q * d + r) / d = q := by
    rw [Nat.mul_comm, Nat.mul_add_div (by omega), Nat.div_eq_of_lt hr, Nat.add_zero]
  have hmod : (q * d + r) % d = r := by
    rw [Nat.mul_add_mod', Nat.mod_eq_of_lt hr]
  simp [roundHalfEven, hdiv, hmod]

theorem roundHalfEven_mul_self (hd : 0 < d) : roundHalfEven (q * d) d = q := by
  simpa [hd] using roundHalfEven_mul_add (q := q) hd

theorem roundHalfEven_mul_right {c : Nat} (hc : 0 < c) : roundHalfEven (n * c) (d * c) = roundHalfEven n d := by
  have hlt : 2 * (n % d * c) < d * c ↔ 2 * (n % d) < d := by
    rw [← Nat.mul_assoc]
    exact Nat.mul_lt_mul_right hc
  have heq : 2 * (n % d * c) = d * c ↔ 2 * (n % d) = d := by
    rw [← Nat.mul_assoc]
    exact Nat.mul_left_inj hc.ne'
  simp [roundHalfEven, Nat.mul_div_mul_right _ _ hc, Nat.mul_mod_mul_right, hlt, heq]

/-- Equal fractions are rounded alike. -/
theorem roundHalfEven_congr {m c : Nat} (hd : 0 < d) (hc : 0 < c) (h : n * c = m * d) :
    roundHalfEven n d = roundHalfEven m c := by
  rw [← roundHalfEven_mul_right hc, h, Nat.mul_comm d, roundHalfEven_mul_right hd]

theorem roundHalfEven_bounds : n / d ≤ roundHalfEven n d ∧ roundHalfEven n d ≤ n / d + 1 := by
  simp only [roundHalfEven]
  split <;> omega

theorem roundHalfEven_nearest (hd : 0 < d) (n q : Nat) :
    ((n : Int) - (roundHalfEven n d * d : Nat)).natAbs ≤ ((n : Int) - (q * d : Nat)).natAbs := by
  have hr := Nat.mod_lt n hd
  rw [← Nat.div_add_mod' n d, roundHalfEven_mul_add hr]
  generalize n / d = p
  generalize n % d = r at *
  -- The multiples on either side are `r` and `d - r` away, and all others farther.
  have hnext : (p + 1) * d = p * d + d := Nat.succ_mul p d
  obtain hlt | hle := Nat.lt_or_ge p q
  · have hbeyond : (p + 1) * d ≤ q * d := Nat.mul_le_mul_right d hlt
    split_ifs <;> omega
  · have hbelow : q * d ≤ p * d := Nat.mul_le_mul_right d hle
    split_ifs <;> omega

end Rounding

theorem fits_iff {n : Nat} : Fits n ↔ nearestNat n = n := by
  refine ⟨fun h => ?_, fun h => Dvd.intro_left _ h⟩
  obtain ⟨q, hq⟩ := h
  have hround : roundHalfEven (q * spacing n) (spacing n) = q := roundHalfEven_mul_self (spacing_pos n)
  rw [Nat.mul_comm, ← hq] at hround
  rw [nearestNat, hround, Nat.mul_comm, ← hq]

section Digits

variable {m n r k : Nat}

theorem log2_le_log2 (hm : m ≠ 0) (h : m ≤ n) : m.log2 ≤ n.log2 :=
  (Nat.le_log2 (by omega)).2 ((Nat.log2_self_le hm).trans h)

theorem log2_mul_add (hm : m ≠ 0) (hr : r < 2 ^ k) : (m * 2 ^ k + r).log2 = m.log2 + k := by
  rw [Nat.log2_eq_iff (by positivity), pow_add, Nat.add_right_comm, pow_add 2 (m.log2 + 1)]
  refine ⟨(Nat.mul_le_mul_right _ (Nat.log2_self_le hm)).trans (Nat.le_add_right _ _), ?_⟩
  calc m * 2 ^ k + r < (m + 1) * 2 ^ k := by rw [Nat.add_mul]; omega
    _ ≤ 2 ^ (m.log2 + 1) * 2 ^ k := Nat.mul_le_mul_right _ Nat.lt_log2_self

theorem log2_mul_two_pow (hm : m ≠ 0) (k : Nat) : (m * 2 ^ k).log2 = m.log2 + k :=
  log2_mul_add hm (Nat.two_pow_pos k)

theorem spacing_mul_add (hlow : 2 ^ 52 ≤ m) (hhigh : m < 2 ^ 53) (hr : r < 2 ^ k) :
    spacing (m * 2 ^ k + r) = 2 ^ k := by
  have hlog : m.log2 = 52 := (Nat.log2_eq_iff (by omega)).2 ⟨hlow, hhigh⟩
  rw [spacing, log2_mul_add (by omega) hr, hlog, Nat.add_sub_cancel_left]

theorem nearestNat_mul_add (hlow : 2 ^ 52 ≤ m) (hhigh : m < 2 ^ 53) (hr : r < 2 ^ k) :
    nearestNat (m * 2 ^ k + r) = (if 2 * r < 2 ^ k ∨ 2 * r = 2 ^ k ∧ m % 2 = 0 then m else m + 1) * 2 ^ k := by
  rw [nearestNat, spacing_mul_add hlow hhigh hr, roundHalfEven_mul_add hr]

theorem nearestNat_pred (hlow : 2 ^ 52 ≤ m) (hhigh : m < 2 ^ 53) :
    nearestNat ((m + 1) * 2 ^ (k + 1) - 1) = if k = 0 ∧ m % 2 = 0 then 2 * m else (m + 1) * 2 ^ (k + 1) := by
  have hpow : 2 ≤ 2 ^ (k + 1) := Nat.le_self_pow (by omega) 2
  have htie : 2 ^ (k + 1) = 2 ↔ k = 0 := by
    rw [Nat.pow_eq_self_iff (by norm_num)]
    omega
  have hdown : (2 * (2 ^ (k + 1) - 1) < 2 ^ (k + 1) ∨ 2 * (2 ^ (k + 1) - 1) = 2 ^ (k + 1) ∧ m % 2 = 0) ↔
      k = 0 ∧ m % 2 = 0 := by
    rw [← htie]
    omega
  rw [show (m + 1) * 2 ^ (k + 1) - 1 = m * 2 ^ (k + 1) + (2 ^ (k + 1) - 1) by rw [Nat.add_mul]; omega,
    nearestNat_mul_add hlow hhigh (by omega)]
  simp only [hdown]
  split_ifs with h
  · rw [h.1]
    ring
  · rfl

theorem two_pow_le_mul (hlow : 2 ^ 52 ≤ m) (k : Nat) : 2 ^ 53 ≤ m * 2 ^ (k + 1) := by
  have hpow : 2 ≤ 2 ^ (k + 1) := Nat.le_self_pow (by omega) 2
  exact Nat.mul_le_mul hlow hpow

end Digits

theorem fits_mul_two_pow {m : Nat} (h : m ≤ 2 ^ 53) (k : Nat) : Fits (m * 2 ^ k) := by
  obtain rfl | hm := Nat.eq_zero_or_pos m
  · simp [Fits]
  · obtain rfl | hlt := h.eq_or_lt
    · have hspacing : spacing (2 ^ 53 * 2 ^ k) = 2 ^ (k + 1) := by
        rw [spacing, log2_mul_two_pow (by norm_num), Nat.log2_two_pow]
        congr 1
        omega
      rw [Fits, hspacing, pow_succ 2 52, Nat.mul_assoc, ← pow_succ']
      exact Nat.dvd_mul_left _ _
    · have hlog := (Nat.log2_lt hm.ne').2 hlt
      rw [Fits, spacing, log2_mul_two_pow hm.ne']
      exact (Nat.pow_dvd_pow 2 (by omega)).mul_left m

theorem fits_of_le {n : Nat} (h : n ≤ 2 ^ 53) : Fits n := by
  simpa using fits_mul_two_pow h 0

theorem nearestNat_of_le {n : Nat} (h : n ≤ 2 ^ 53) : nearestNat n = n := fits_iff.1 (fits_of_le h)

/-- The digits that are kept of a number of at least fifty-three. -/
theorem significand_bounds {n : Nat} (h : 2 ^ 52 ≤ n) :
    2 ^ 52 ≤ roundHalfEven n (spacing n) ∧ roundHalfEven n (spacing n) ≤ 2 ^ 53 := by
  have hn : n ≠ 0 := by omega
  have hlog : 52 ≤ n.log2 := (Nat.le_log2 hn).2 h
  have hlow : 2 ^ 52 ≤ n / spacing n := by
    rw [Nat.le_div_iff_mul_le (spacing_pos n), spacing, ← pow_add, Nat.add_sub_cancel' hlog]
    exact Nat.log2_self_le hn
  have hhigh : n / spacing n < 2 ^ 53 := by
    rw [Nat.div_lt_iff_lt_mul (spacing_pos n), spacing, ← pow_add, show 53 + (n.log2 - 52) = n.log2 + 1 by omega]
    exact Nat.lt_log2_self
  have hround := roundHalfEven_bounds (n := n) (d := spacing n)
  omega

theorem Fits.exists_eq {n : Nat} (h : Fits n) (hn : 2 ^ 52 ≤ n) :
    ∃ m k, 2 ^ 52 ≤ m ∧ m < 2 ^ 53 ∧ n = m * 2 ^ k := by
  obtain ⟨hlow, hhigh⟩ := significand_bounds hn
  have hvalue : roundHalfEven n (spacing n) * 2 ^ (n.log2 - 52) = n := fits_iff.1 h
  obtain hcarry | hlt := hhigh.eq_or_lt
  · rw [hcarry] at hvalue
    exact ⟨2 ^ 52, n.log2 - 52 + 1, le_rfl, by norm_num, hvalue.symm.trans (by ring)⟩
  · exact ⟨_, _, hlow, hlt, hvalue.symm⟩

theorem fits_nearestNat (n : Nat) : Fits (nearestNat n) := by
  obtain hn | hn := Nat.lt_or_ge n (2 ^ 52)
  · rw [nearestNat_of_le (by omega)]
    exact fits_of_le (by omega)
  · exact fits_mul_two_pow (significand_bounds hn).2 _

/-- No whole number that fits is nearer. -/
theorem nearestNat_nearest (n : Nat) {v : Nat} (hv : Fits v) :
    ((n : Int) - nearestNat n).natAbs ≤ ((n : Int) - v).natAbs := by
  by_cases hdvd : spacing n ∣ v
  · obtain ⟨q, rfl⟩ := hdvd
    rw [Nat.mul_comm]
    exact roundHalfEven_nearest (spacing_pos n) n q
  · -- The number is finer than the spacing, so the power of two at or below `n` stands between the two.
    have hfiner : v.log2 < n.log2 ∧ 52 < n.log2 := by
      by_contra h
      exact hdvd ((Nat.pow_dvd_pow 2 (by omega)).trans hv)
    have hn : n ≠ 0 := by
      rintro rfl
      exact absurd hfiner.2 (by decide)
    have hv0 : v ≠ 0 := by
      rintro rfl
      exact hdvd (dvd_zero _)
    have hbetween : v < 2 ^ n.log2 := (Nat.log2_lt hv0).1 hfiner.1
    have hpow : 2 ^ 52 * spacing n = 2 ^ n.log2 := by rw [spacing, ← pow_add, Nat.add_sub_cancel' hfiner.2.le]
    have hnear := roundHalfEven_nearest (spacing_pos n) n (2 ^ 52)
    have hself := Nat.log2_self_le hn
    rw [hpow] at hnear
    change ((n : Int) - nearestNat n).natAbs ≤ _ at hnear
    omega

theorem nearestNat_mul_two_pow (n k : Nat) : nearestNat (n * 2 ^ k) = nearestNat n * 2 ^ k := by
  obtain hn | hn := Nat.lt_or_ge n (2 ^ 52)
  · rw [fits_iff.1 (fits_mul_two_pow (by omega) k), nearestNat_of_le (by omega)]
  · have hspacing : spacing (n * 2 ^ k) = spacing n * 2 ^ k := by
      have hlog : 52 ≤ n.log2 := (Nat.le_log2 (by omega)).2 hn
      rw [spacing, log2_mul_two_pow (by omega), Nat.sub_add_comm hlog, pow_add, spacing]
    rw [nearestNat, hspacing, roundHalfEven_mul_right (by positivity), nearestNat, Nat.mul_assoc]

/-- A remainder needs no more digits than the operands have. -/
theorem Fits.mod {a b : Nat} (ha : Fits a) (hb : Fits b) : Fits (a % b) := by
  obtain hlt | hle := Nat.lt_or_ge a b
  · rwa [Nat.mod_eq_of_lt hlt]
  · obtain hzero | hr := Nat.eq_zero_or_pos (a % b)
    · simp [hzero, Fits]
    · obtain rfl | hpos := Nat.eq_zero_or_pos b
      · rwa [Nat.mod_zero]
      · have hrb : (a % b).log2 ≤ b.log2 := log2_le_log2 hr.ne' (Nat.mod_lt a hpos).le
        have hba : b.log2 ≤ a.log2 := log2_le_log2 hpos.ne' hle
        have hdvd : spacing b ∣ a % b := (Nat.dvd_mod_iff hb).2 ((Nat.pow_dvd_pow 2 (by omega)).trans ha)
        exact (Nat.pow_dvd_pow 2 (by omega)).trans hdvd

/-- The number nearest to twice a number that fits and one. -/
theorem nearestNat_two_mul_add_one {n : Nat} (h : Fits n) (hn : 2 ^ 52 ≤ n) :
    nearestNat (2 * n + 1) = if n < 2 ^ 53 ∧ n % 2 = 1 then 2 * n + 2 else 2 * n := by
  obtain ⟨m, k, hlow, hhigh, rfl⟩ := h.exists_eq hn
  rw [show 2 * (m * 2 ^ k) + 1 = m * 2 ^ (k + 1) + 1 by ring,
    nearestNat_mul_add hlow hhigh (Nat.one_lt_two_pow (by omega))]
  cases k with
  | zero =>
    rw [pow_zero, Nat.mul_one, zero_add, pow_one]
    split_ifs <;> omega
  | succ k =>
    have hpow : 2 ≤ 2 ^ (k + 1) := Nat.le_self_pow (by omega) 2
    have hlarge := two_pow_le_mul hlow k
    rw [if_pos (.inl (by rw [pow_succ]; omega)), if_neg (by omega)]
    ring

/-- The number nearest to twice a number that fits less one. -/
theorem nearestNat_two_mul_sub_one {n : Nat} (h : Fits n) (hn : 2 ^ 52 < n) :
    nearestNat (2 * n - 1) = if n < 2 ^ 53 ∧ n % 2 = 1 then 2 * n - 2 else 2 * n := by
  obtain ⟨m, k, hlow, hhigh, rfl⟩ := h.exists_eq hn.le
  obtain rfl | hlt := hlow.eq_or_lt
  · -- Below a power of two the spacing is half as large.
    obtain ⟨k, rfl⟩ : ∃ j, k = j + 1 := Nat.exists_eq_succ_of_ne_zero (by rintro rfl; omega)
    have hlarge := two_pow_le_mul hlow k
    rw [show 2 * (2 ^ 52 * 2 ^ (k + 1)) = (2 ^ 53 - 1 + 1) * 2 ^ (k + 1) by omega,
      nearestNat_pred (by norm_num) (by norm_num), if_neg (by omega), if_neg (by omega)]
  · obtain ⟨m, rfl⟩ : ∃ j, m = j + 1 := Nat.exists_eq_succ_of_ne_zero (by omega)
    rw [show 2 * ((m + 1) * 2 ^ k) = (m + 1) * 2 ^ (k + 1) by ring, nearestNat_pred (by omega) (by omega)]
    cases k with
    | zero =>
      rw [pow_zero, Nat.mul_one]
      split_ifs <;> omega
    | succ k =>
      have hlarge := two_pow_le_mul hlow k
      rw [if_neg (by omega), if_neg (by omega)]

theorem nearestNat_pos {n : Nat} (h : 0 < n) : 0 < nearestNat n := by
  obtain hn | hn := Nat.lt_or_ge n (2 ^ 52)
  · rwa [nearestNat_of_le (by omega)]
  · have hlow := (significand_bounds hn).1
    exact Nat.mul_pos (by omega) (spacing_pos n)

@[simp] theorem natAbs_nearestInt (n : Int) : (nearestInt n).natAbs = nearestNat n.natAbs := by
  obtain rfl | hn := eq_or_ne n 0
  · rfl
  · rw [nearestInt, Int.natAbs_mul, Int.natAbs_sign_of_ne_zero hn, Nat.one_mul, Int.natAbs_natCast]

theorem fits_nearestInt (n : Int) : Fits (nearestInt n).natAbs := by
  rw [natAbs_nearestInt]
  exact fits_nearestNat _

@[simp] theorem nearestInt_natCast (n : Nat) : nearestInt n = nearestNat n := by
  obtain rfl | hn := Nat.eq_zero_or_pos n
  · rfl
  · rw [nearestInt, Int.sign_eq_one_of_pos (by omega), Int.natAbs_natCast, Int.one_mul]

@[simp] theorem nearestInt_neg (n : Int) : nearestInt (-n) = -nearestInt n := by
  rw [nearestInt, nearestInt, Int.sign_neg, Int.natAbs_neg, Int.neg_mul]

theorem nearestInt_eq (n : Int) :
    nearestInt n = if n < 0 then -(nearestNat n.natAbs : Int) else nearestNat n.natAbs := by
  obtain ⟨m, rfl | rfl⟩ := n.eq_nat_or_neg
  · rw [if_neg (by omega), nearestInt_natCast, Int.natAbs_natCast]
  · rw [nearestInt_neg, nearestInt_natCast, Int.natAbs_neg, Int.natAbs_natCast]
    split_ifs with h
    · rfl
    · obtain rfl : m = 0 := by omega
      rfl

theorem nearestInt_eq_self_iff {n : Int} : nearestInt n = n ↔ Fits n.natAbs := by
  rw [fits_iff]
  refine ⟨fun h => by rw [← natAbs_nearestInt, h], fun h => ?_⟩
  rw [nearestInt, h, Int.sign_mul_natAbs]

theorem nearestInt_lt_zero_iff {n : Int} : nearestInt n < 0 ↔ n < 0 := by
  rw [nearestInt_eq]
  split_ifs with h
  · have := nearestNat_pos (Int.natAbs_pos.2 h.ne)
    omega
  · omega

theorem nearestInt_tmod (a b : Int) : (nearestInt a).tmod (nearestInt b) =
    if a < 0 then -((nearestNat a.natAbs % nearestNat b.natAbs : Nat) : Int)
      else (nearestNat a.natAbs % nearestNat b.natAbs : Nat) := by
  rw [nearestInt_eq a, nearestInt_eq b]
  split_ifs <;> simp only [Int.neg_tmod, Int.tmod_neg, Int.ofNat_tmod]

/-- A number that fits and one half, rounded and then cut down: an odd number of fifty-three digits goes up by one. -/
theorem nearestInt_two_mul_add_one {n : Int} (h : Fits n.natAbs) :
    nearestInt (2 * n + 1) / 2 = if 2 ^ 52 < n.natAbs ∧ n.natAbs < 2 ^ 53 ∧ n % 2 = 1 then n + 1 else n := by
  obtain hsmall | hlarge := Nat.lt_or_ge (2 * n + 1).natAbs (2 ^ 53)
  · rw [nearestInt_eq_self_iff.2 (fits_of_le hsmall.le)]
    split_ifs <;> omega
  · obtain ⟨m, rfl | rfl⟩ := n.eq_nat_or_neg
    · rw [Int.natAbs_natCast] at h ⊢
      rw [show (2 * m + 1 : Int) = (2 * m + 1 : Nat) by norm_num, nearestInt_natCast,
        nearestNat_two_mul_add_one h (by omega)]
      split_ifs <;> omega
    · rw [Int.natAbs_neg, Int.natAbs_natCast] at h ⊢
      rw [show (2 * -m + 1 : Int) = -(2 * m - 1 : Nat) by omega, nearestInt_neg, nearestInt_natCast,
        nearestNat_two_mul_sub_one h (by omega)]
      split_ifs <;> omega

theorem nearestNat_two_mul_add_one_lt {n : Int} (h : Fits n.natAbs) {k : Nat} (hk : 54 ≤ k) (hn : n.natAbs < 2 ^ k) :
    nearestNat (2 * n + 1).natAbs < 2 ^ (k + 1) := by
  have hhalf := nearestInt_two_mul_add_one h
  have hpow : 2 ^ 54 ≤ 2 ^ k := Nat.pow_le_pow_right (by norm_num) hk
  rw [← natAbs_nearestInt, pow_succ]
  split_ifs at hhalf <;> omega

theorem two_dvd_spacing {n : Nat} (h : 2 ^ 53 ≤ n) : 2 ∣ spacing n := by
  have hlog : 53 ≤ n.log2 := (Nat.le_log2 (by omega)).2 h
  exact dvd_pow_self 2 (by omega)

theorem two_pow_le_nearestNat {n : Nat} (h : 2 ^ 53 ≤ n) : 2 ^ 53 ≤ nearestNat n := by
  have hspacing := Nat.le_of_dvd (spacing_pos n) (two_dvd_spacing h)
  calc 2 ^ 53 = 2 ^ 52 * 2 := by norm_num
    _ ≤ nearestNat n := Nat.mul_le_mul (significand_bounds (by omega)).1 hspacing

theorem nearestInt_half_eq_self_iff {n : Int} :
    nearestInt (2 * nearestInt n + 1) / 2 = n ↔ Fits n.natAbs ∧ (n.natAbs ≤ 2 ^ 52 ∨ n % 2 = 0) := by
  rw [nearestInt_two_mul_add_one (fits_nearestInt n)]
  by_cases h : Fits n.natAbs
  · have hodd : 2 ^ 53 ≤ n.natAbs → n % 2 = 0 := fun hle => by
      have := (two_dvd_spacing hle).trans h
      omega
    rw [nearestInt_eq_self_iff.2 h]
    split_ifs with hup
    · exact iff_of_false (by omega) (by omega)
    · exact iff_of_true rfl ⟨h, by omega⟩
  · have hlarge : ¬n.natAbs ≤ 2 ^ 53 := fun hle => h (fits_of_le hle)
    have hnearest := two_pow_le_nearestNat (n := n.natAbs) (by omega)
    rw [natAbs_nearestInt, if_neg (by omega)]
    exact iff_of_false (fun heq => h (nearestInt_eq_self_iff.1 heq)) (fun hc => h hc.1)

end PageTemplate
