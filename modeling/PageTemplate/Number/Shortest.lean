import PageTemplate.Number.Binary
import PageTemplate.Number.Decimal
import PageTemplate.Text.Blank
set_option autoImplicit false
/-!
The shortest decimal text of a float: the fewest digits that read back as the same float, and of those
the digits nearest to its value, an exact tie going to the even last digit.
-/
namespace PageTemplate

/-- The exact value of a positive finite float and the ends of the interval that rounds to it, as
numerators over one denominator. The ends belong to the interval when the mantissa is even. -/
structure RoundingInterval where
  low : Nat
  value : Nat
  high : Nat
  den : Nat
  closed : Bool

/-- At a power of two the float below is half as far away as the one above. -/
def RoundingInterval.ofBinary (b : Binary) : RoundingInterval :=
  let m := 4 * b.mantissa
  let low := if b.mantissa = twoPow 52 && -1074 < b.exponent then m - 1 else m - 2
  let scale := if 0 ≤ b.exponent then twoPow b.exponent.toNat else 1
  let den := if 0 ≤ b.exponent then 4 else 4 * twoPow (-b.exponent).toNat
  ⟨low * scale, m * scale, (m + 2) * scale, den, b.mantissa % 2 == 0⟩

/-- Does `c · 10 ^ p` round to the float? -/
def RoundingInterval.holds (i : RoundingInterval) (c : Nat) (p : Int) : Bool :=
  let point := if 0 ≤ p then c * tenPow p.toNat * i.den else c * i.den
  let scale := if 0 ≤ p then 1 else tenPow (-p).toNat
  if i.closed then i.low * scale ≤ point && point ≤ i.high * scale
  else i.low * scale < point && point < i.high * scale

/-- The point of the grid of step `10 ^ p` that stands for the value, if a neighbour does. -/
def RoundingInterval.onGrid? (i : RoundingInterval) (p : Int) : Option Nat :=
  let num := if 0 ≤ p then i.value else i.value * tenPow (-p).toNat
  let den := if 0 ≤ p then i.den * tenPow p.toNat else i.den
  let below := num / den
  let nearer := roundHalfEven num den
  if i.holds nearer p then some nearer
  else if i.holds below p then some below
  else if i.holds (below + 1) p then some (below + 1)
  else none

/-- The least `k` with `value < 10 ^ k`. -/
def RoundingInterval.magnitude (i : RoundingInterval) : Int :=
  if i.den ≤ i.value then (natText (i.value / i.den)).length
  else 1 - ((natText (i.den / i.value)).length : Int)

/-- Tries grids from coarse to fine, `fuel` of them; the last resort is the finest. -/
def RoundingInterval.search (i : RoundingInterval) (k : Int) : Nat → Int → Nat × Int
  | 0, n => (roundHalfEven (i.value * tenPow (n - k).toNat) i.den, k - n)
  | fuel + 1, n =>
    match i.onGrid? (k - n) with
    | some c => (c, k - n)
    | none => i.search k fuel (n + 1)

/-- Digits `d` without trailing zeros and the place `k` of the point: the value is `0.d · 10 ^ k`. -/
def shortestDigits (b : Binary) : Text × Int :=
  let i := RoundingInterval.ofBinary b
  let (c, p) := i.search i.magnitude 17 1
  let all := natText c
  (dropEndWhile (· == '0') all, all.length + p)

/-- Numbers from 10^-4 up to 10^16 are written positionally, all others with an exponent. -/
def writtenPositionally (k : Int) : Bool := -4 < k && k ≤ 16

def exponentText (e : Int) : Text :=
  let digits := natText e.natAbs
  (if e < 0 then '-' else '+') :: (if digits.length < 2 then '0' :: digits else digits)

/-- Lays out digits with the point after `k` of them. At least one digit stands on either side of a
positional point; an exponent has a sign and at least two digits. -/
def layout (digits : Text) (k : Int) : Text :=
  if writtenPositionally k then
    if k ≤ 0 then '0' :: '.' :: List.replicate (-k).toNat '0' ++ digits
    else if digits.length ≤ k.toNat then
      digits ++ List.replicate (k.toNat - digits.length) '0' ++ ['.', '0']
    else digits.take k.toNat ++ '.' :: digits.drop k.toNat
  else
    digits.take 1 ++ (if digits.length ≤ 1 then [] else '.' :: digits.drop 1)
      ++ 'e' :: exponentText (k - 1)

/-- The text of a float. -/
def floatText (x : Float) : Text :=
  match Binary.ofFloat? x with
  | some b =>
    let body := if b.mantissa = 0 then text "0.0" else
      let (digits, k) := shortestDigits b
      layout digits k
    if b.negative then '-' :: body else body
  | none => if x.isNaN then text "nan" else if x < 0.0 then text "-inf" else text "inf"

/-- A float to a fixed number of decimal places, rounded to the nearest and a tie to even. -/
def fixedText (places : Nat) (x : Float) : Text :=
  match Binary.ofFloat? x with
  | some b =>
    let (num, den) := b.fraction
    let digits := natText (roundHalfEven (num * tenPow places) den)
    let padded := List.replicate (places + 1 - digits.length) '0' ++ digits
    let body := padded.take (padded.length - places) ++ '.' :: padded.drop (padded.length - places)
    if b.negative then '-' :: body else body
  | none => floatText x

end PageTemplate
