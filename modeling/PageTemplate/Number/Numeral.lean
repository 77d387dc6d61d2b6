import PageTemplate.Number.Binary
import PageTemplate.Number.Decimal
import PageTemplate.Text.Blank
import PageTemplate.Text.Digit
set_option autoImplicit false
/-!
Reading numbers from text. A whole numeral is digits of any script after an optional sign. A decimal
numeral may have a point, an exponent, and low lines between digits, or name an infinity or NaN.
-/
namespace PageTemplate

/-- An optional sign; is it a minus? -/
def readSign : Text → Bool × Text
  | '-' :: r => (true, r)
  | '+' :: r => (false, r)
  | r => (false, r)

def applySign (negative : Bool) (n : Nat) : Int := if negative then -(n : Int) else n

/-- A sign and digits, with nothing around them. -/
def readWhole? (t : Text) : Option (Except Fault Int) :=
  let (negative, digits) := readSign t
  if !digits.isEmpty && digits.all isDigitChar then some ((readDigits digits).map (applySign negative))
  else none

/-- Digits in which single low lines may stand between two digits; gives the digits alone. -/
def dropLowLines? : Text → Option Text
  | [] => some []
  | '_' :: _ => none
  | c :: '_' :: d :: r => if isDigitChar c && isDigitChar d then (dropLowLines? (d :: r)).map (c :: ·) else none
  | c :: r => if isDigitChar c then (dropLowLines? r).map (c :: ·) else none

/-- Blanks that may stand around a numeral: all but the four information separators. -/
def isNumeralBlank (c : Char) : Bool := isBlank c && !(0x1C ≤ c.toNat && c.toNat ≤ 0x1F)

def trimNumeral (t : Text) : Text := dropEndWhile isNumeralBlank (t.dropWhile isNumeralBlank)

/-- A whole numeral that may have low lines between digits and blanks around it. Other texts are out of
domain. -/
def readLooseWhole (t : Text) : Except Fault Int :=
  let (negative, body) := readSign (trimNumeral t)
  match dropLowLines? body with
  | some (d :: ds) => (readDigits (d :: ds)).map (applySign negative)
  | _ => .error .outOfDomain

/-- The float nearest to `± digits · 10 ^ scale`. Beyond the range of floats it is an infinity or a
zero, which is settled before any large power is formed. -/
def floatOfDecimal (negative : Bool) (digits : Nat) (length : Nat) (scale : Int) : Float :=
  if digits = 0 || (length : Int) + scale < -400 then (nearest? negative 0 1).getD 0.0
  else if 400 + (length : Int) < (length : Int) + scale then infinity negative
  else
    let num := if 0 ≤ scale then digits * tenPow scale.toNat else digits
    let den := if 0 ≤ scale then 1 else tenPow (-scale).toNat
    (nearest? negative num den).getD (infinity negative)

/-- The exponent part of a numeral: nothing, or `e` and a whole numeral. -/
def readExponent? : Text → Option Int
  | [] => some 0
  | c :: r =>
    if c = 'e' || c = 'E' then do
      let (negative, body) := readSign r
      let digits ← dropLowLines? body
      if digits.isEmpty then none else some (applySign negative (digitsToNat digits))
    else none

/-- A decimal numeral without its sign. -/
def readMagnitude? (negative : Bool) (t : Text) : Option Float := do
  let digitOrLine (c : Char) := isDigitChar c || c == '_'
  let whole ← dropLowLines? (t.takeWhile digitOrLine)
  let afterWhole := t.dropWhile digitOrLine
  let (places, tail) ← match afterWhole with
    | '.' :: r => (dropLowLines? (r.takeWhile digitOrLine)).map (·, r.dropWhile digitOrLine)
    | r => some ([], r)
  if whole.isEmpty && places.isEmpty then none else
  let exponent ← readExponent? tail
  let digits := whole ++ places
  some (floatOfDecimal negative (digitsToNat digits) digits.length (exponent - places.length))

def notANumber : Float := 0.0 / 0.0

/-- A decimal numeral with blanks around it allowed. -/
def readFloat? (t : Text) : Option Float :=
  let (negative, body) := readSign (trimNumeral t)
  let name := body.map Char.toLower
  if name = text "inf" || name = text "infinity" then some (infinity negative)
  else if name = text "nan" then some notANumber
  else readMagnitude? negative body

end PageTemplate
