import Mathlib.Algebra.Group.Nat.Defs
import PageTemplate.Value.Display
import PageTemplate.Value.Path
set_option autoImplicit false
/-!
Whole numbers in decimal, as they are written and read back. Where one is read or written, nothing fails but for
too many digits.
-/
namespace PageTemplate

theorem digitValue?_decimalDigit : ∀ d < 10, digitValue? (decimalDigit d) = some d := by decide

theorem mem_natText {n : Nat} {c : Char} (h : c ∈ natText n) : ∃ d < 10, c = decimalDigit d := by
  fun_induction natText n with
  | case1 n hn => exact ⟨n, hn, List.mem_singleton.mp h⟩
  | case2 n hn ih =>
    rw [List.mem_append, List.mem_singleton] at h
    obtain h | h := h
    · exact ih h
    · exact ⟨n % 10, Nat.mod_lt n (by decide), h⟩

theorem isDigitChar_of_mem_natText {n : Nat} {c : Char} (h : c ∈ natText n) : isDigitChar c = true := by
  obtain ⟨d, hd, rfl⟩ := mem_natText h
  rw [isDigitChar, digitValue?_decimalDigit d hd]
  rfl

theorem isBlank_of_mem_natText {n : Nat} {c : Char} (h : c ∈ natText n) : isBlank c = false := by
  have hdigits : ∀ d < 10, isBlank (decimalDigit d) = false := by decide
  obtain ⟨d, hd, rfl⟩ := mem_natText h
  exact hdigits d hd

theorem digitsToNat_concat (digits : Text) (c : Char) :
    digitsToNat (digits ++ [c]) = 10 * digitsToNat digits + (digitValue? c).getD 0 := by
  simp [digitsToNat]

theorem digitsToNat_natText (n : Nat) : digitsToNat (natText n) = n := by
  fun_induction natText n with
  | case1 n h => simp [digitsToNat, digitValue?_decimalDigit n h]
  | case2 n h ih =>
    rw [digitsToNat_concat, ih, digitValue?_decimalDigit _ (Nat.mod_lt n (by decide)), Option.getD_some]
    exact Nat.div_add_mod n 10

theorem natText_ne_nil (n : Nat) : natText n ≠ [] := by
  unfold natText
  split <;> simp

theorem lt_pow_length_natText (n : Nat) : n < 10 ^ (natText n).length := by
  fun_induction natText n with
  | case1 n h => simpa using h
  | case2 n h ih =>
    rw [List.length_append, List.length_singleton, Nat.pow_succ]
    omega

theorem digitLimit_lt_length_natText {n : Nat} (h : 10 ^ digitLimit ≤ n) : digitLimit < (natText n).length :=
  (Nat.pow_lt_pow_iff_right (by decide)).mp (Nat.lt_of_le_of_lt h (lt_pow_length_natText n))

theorem Except.map_eq_error_iff {ε α β : Type} {f : α → β} {o : Except ε α} {e : ε} :
    o.map f = .error e ↔ o = .error e := by
  cases o <;> simp [Except.map]

theorem Except.map_eq_ok_iff {ε α β : Type} {f : α → β} {o : Except ε α} {b : β} :
    o.map f = .ok b ↔ ∃ a, o = .ok a ∧ f a = b := by
  cases o <;> simp [Except.map]

theorem Except.bind_eq_ok_iff {ε α β : Type} {o : Except ε α} {f : α → Except ε β} {b : β} :
    (o >>= f) = .ok b ↔ ∃ a, o = .ok a ∧ f a = .ok b := by
  cases o with
  | error e => exact ⟨(nomatch ·), fun ⟨_, h, _⟩ => nomatch h⟩
  | ok a => exact ⟨fun h => ⟨a, rfl, h⟩, fun ⟨_, ha, h⟩ => Except.ok.inj ha ▸ h⟩

theorem wholeText_eq_error {n : Int} {f : Fault} (h : wholeText n = .error f) : f = .tooManyDigits := by
  rw [wholeText] at h
  split at h <;> cases h
  rfl

theorem readDigits_eq_error {digits : Text} {f : Fault} (h : readDigits digits = .error f) : f = .tooManyDigits := by
  rw [readDigits] at h
  split at h <;> cases h
  rfl

namespace Value

theorem display?_eq_error {v : Value} {f : Fault} (h : v.display? = .error f) (hv : v.isContainer = false) :
    f = .tooManyDigits := by
  cases v with
  | number n =>
    cases n with
    | whole n => exact wholeText_eq_error h
    | float x =>
      rw [display?, displayNumber] at h
      split at h
      · exact wholeText_eq_error h
      · cases h
    | nan o => cases h
  | list xs | tuple xs | map es => cases hv
  | _ => cases h

/-- A number with too many digits. -/
def overlong : Value := .nat (10 ^ digitLimit)

theorem display?_overlong : overlong.display? = .error .tooManyDigits :=
  wholeText_of_lt (digitLimit_lt_length_natText (Nat.le_refl _))

theorem showable_overlong : overlong.showable = false := by
  rw [showable, display?_overlong]
  rfl

theorem index?_eq_error {name : Text} {f : Fault} (h : index? name = .error f) : f = .tooManyDigits := by
  rw [index?] at h
  split at h
  · exact readDigits_eq_error (Except.map_eq_error_iff.mp h)
  · cases h

theorem itemOf?_eq_error {α : Type} {wrap : α → Value} {items : List α} {name : Text} {f : Fault}
    (h : itemOf? wrap items name = .error f) : f = .tooManyDigits := by
  rw [itemOf?] at h
  split at h
  · cases h
  · exact index?_eq_error (Except.map_eq_error_iff.mp h)

theorem member?_eq_error {v : Value} {name : Text} {f : Fault} (h : v.member? name = .error f) :
    f = .tooManyDigits := by
  cases v with
  | list xs | tuple xs | str t => exact itemOf?_eq_error h
  | _ => cases h

theorem follow?_eq_error {segments : List Text} {v : Value} {f : Fault} (h : follow? segments v = .error f) :
    f = .tooManyDigits := by
  fun_induction follow? segments v with
  | case1 => cases h
  | case2 => cases h
  | case3 => cases h
  | case4 s ss v hnull hsafe ih =>
    cases hmember : v.member? s with
    | error f' => rw [hmember] at h; cases h; exact member?_eq_error hmember
    | ok o =>
      rw [hmember] at h
      cases o with
      | none => cases h
      | some w => exact ih w h

end Value

end PageTemplate
