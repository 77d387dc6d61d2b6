import PageTemplate.Text.Basic
set_option autoImplicit false
/-!
Binary floating point numbers as exact fractions. A finite float is `± mantissa · 2 ^ exponent`;
`nearest?` goes the other way and rounds any fraction to the nearest float, a tie to the even mantissa.
-/
namespace PageTemplate

/-- A power of two. -/
def twoPow (n : Nat) : Nat := 1 <<< n

structure Binary where
  negative : Bool
  mantissa : Nat
  exponent : Int
  deriving DecidableEq, Repr

/-- The parts of a float, or nothing for an infinity or a NaN. -/
def Binary.ofFloat? (x : Float) : Option Binary :=
  let bits : Nat := x.toBits.toNat
  let field : Nat := bits / twoPow 52 % 2048
  let fraction : Nat := bits % twoPow 52
  if field = 2047 then none
  else if field = 0 then some ⟨twoPow 63 ≤ bits, fraction, -1074⟩
  else some ⟨twoPow 63 ≤ bits, twoPow 52 + fraction, (field : Int) - 1075⟩

/-- Numerator and denominator of the magnitude. -/
def Binary.fraction (b : Binary) : Nat × Nat :=
  if 0 ≤ b.exponent then (b.mantissa * twoPow b.exponent.toNat, 1)
  else (b.mantissa, twoPow (-b.exponent).toNat)

/-- The whole quotient nearest to `num / den`, a tie going to the even one. -/
def roundHalfEven (num den : Nat) : Nat :=
  let q := num / den
  let r := num % den
  if 2 * r < den || (2 * r == den && q % 2 == 0) then q else q + 1

/-- The greatest `k` with `2 ^ k ≤ num / den`, for a positive fraction. -/
def log2Ratio (num den : Nat) : Int :=
  let k : Int := (Nat.log2 num : Int) - Nat.log2 den
  let reached := if 0 ≤ k then den * twoPow k.toNat ≤ num else den ≤ num * twoPow (-k).toNat
  if reached then k else k - 1

def signBit (negative : Bool) : Nat := if negative then twoPow 63 else 0

/-- The float nearest to `± num / den`, or nothing if it lies beyond the largest float. -/
def nearest? (negative : Bool) (num den : Nat) : Option Float :=
  if num = 0 then some (Float.ofBits (UInt64.ofNat (signBit negative)))
  else
    let e := max (log2Ratio num den - 52) (-1074)
    let m := if 0 ≤ e then roundHalfEven num (den * twoPow e.toNat)
      else roundHalfEven (num * twoPow (-e).toNat) den
    -- A mantissa below 2 ^ 52 belongs to exponent field 0, and a carry moves to the next field by itself.
    let word := (e + 1074).toNat * twoPow 52 + m
    if word < 2047 * twoPow 52 then some (Float.ofBits (UInt64.ofNat (signBit negative + word))) else none

def infinity (negative : Bool) : Float :=
  Float.ofBits (UInt64.ofNat (signBit negative + 2047 * twoPow 52))

/-- The float nearest to a whole number, if there is one in range. -/
def floatOfInt? (n : Int) : Option Float := nearest? (n < 0) n.natAbs 1

/-- Does a finite float have no fractional part? Its value is then given. -/
def Binary.whole? (b : Binary) : Option Int :=
  let (num, den) := b.fraction
  if num % den = 0 then some (if b.negative then -(num / den : Nat) else (num / den : Nat)) else none

/-- The greatest whole number not above the value. -/
def Binary.floor (b : Binary) : Int :=
  let (num, den) := b.fraction
  if b.negative then -(((num + den - 1) / den : Nat) : Int) else (num / den : Nat)

def Binary.ceil (b : Binary) : Int :=
  let (num, den) := b.fraction
  if b.negative then -((num / den : Nat) : Int) else ((num + den - 1) / den : Nat)

/-- The value without its fractional part. -/
def Binary.trunc (b : Binary) : Int :=
  let (num, den) := b.fraction
  if b.negative then -((num / den : Nat) : Int) else (num / den : Nat)

/-- How a whole number compares with the value. -/
def Binary.compareInt (n : Int) (b : Binary) : Ordering :=
  let (num, den) := b.fraction
  compare (n * den) (if b.negative then -(num : Int) else num)

/-- The remainder of a quotient truncated towards zero; it has the sign of the dividend. -/
def Binary.remainder (a b : Binary) : Option Float :=
  let e := min a.exponent b.exponent
  let num := a.mantissa * twoPow (a.exponent - e).toNat
  let den := b.mantissa * twoPow (b.exponent - e).toNat
  let r := num % den
  if 0 ≤ e then nearest? a.negative (r * twoPow e.toNat) 1 else nearest? a.negative r (twoPow (-e).toNat)

end PageTemplate
