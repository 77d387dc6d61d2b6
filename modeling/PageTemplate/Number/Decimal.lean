import PageTemplate.Number.Fault
import PageTemplate.Text.Digit
set_option autoImplicit false
/-!
Whole numbers in decimal. Writing gives no leading zeros and a minus sign on negative numbers.

Whole numbers of a program may be of any size, but those with too many digits are neither read nor written.
The limit counts digits, leading zeros among them, and no sign.
-/
namespace PageTemplate

def decimalDigit (n : Nat) : Char := Char.ofNat (48 + n)

def natText (n : Nat) : Text :=
  if n < 10 then [decimalDigit n] else natText (n / 10) ++ [decimalDigit (n % 10)]
termination_by n

def intText : Int → Text
  | .ofNat n => natText n
  | .negSucc n => '-' :: natText (n + 1)

/-- How many digits a whole number may have where it is read or written. -/
def digitLimit : Nat := 4300

/-- The number that digits denote, if they are not too many. -/
def readDigits (digits : Text) : Except Fault Nat :=
  if digits.length ≤ digitLimit then .ok (digitsToNat digits) else .error .tooManyDigits

theorem readDigits_of_le {digits : Text} (h : digits.length ≤ digitLimit) : readDigits digits = .ok (digitsToNat digits) :=
  if_pos h

theorem readDigits_of_lt {digits : Text} (h : digitLimit < digits.length) : readDigits digits = .error .tooManyDigits :=
  if_neg (Nat.not_le.mpr h)

/-- The text of a whole number, if it has not too many digits. -/
def wholeText (n : Int) : Except Fault Text :=
  if (natText n.natAbs).length ≤ digitLimit then .ok (intText n) else .error .tooManyDigits

theorem wholeText_of_le {n : Int} (h : (natText n.natAbs).length ≤ digitLimit) : wholeText n = .ok (intText n) :=
  if_pos h

theorem wholeText_of_lt {n : Int} (h : digitLimit < (natText n.natAbs).length) : wholeText n = .error .tooManyDigits :=
  if_neg (Nat.not_le.mpr h)

/-- A power of ten. -/
def tenPow (n : Nat) : Nat := Nat.pow 10 n

end PageTemplate
