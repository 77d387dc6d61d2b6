import PageTemplate.Text.Basic
set_option autoImplicit false
/-!
UTF-8, read strictly: no overlong form, no surrogate, nothing beyond the last code point, and no
character cut short. A byte order mark is a character like any other.
-/
namespace PageTemplate.Utf8

abbrev Bytes := List UInt8

/-- The low six bits of a byte that continues a character. -/
def tail? (b : UInt8) : Option Nat :=
  if 0x80 ≤ b.toNat && b.toNat < 0xC0 then some (b.toNat - 0x80) else none

/-- The first character and the bytes behind it. -/
def readChar? : Bytes → Option (Char × Bytes)
  | [] => none
  | a :: r =>
    let n := a.toNat
    if n < 0x80 then some (Char.ofNat n, r)
    else if n < 0xC2 then none
    else if n < 0xE0 then
      match r with
      | b :: r => do some (Char.ofNat ((n - 0xC0) * 0x40 + (← tail? b)), r)
      | [] => none
    else if n < 0xF0 then
      match r with
      | b :: c :: r => do
        let code := ((n - 0xE0) * 0x40 + (← tail? b)) * 0x40 + (← tail? c)
        if code < 0x800 || (0xD800 ≤ code && code < 0xE000) then none else some (Char.ofNat code, r)
      | _ => none
    else
      match r with
      | b :: c :: d :: r => do
        let code := (((n - 0xF0) * 0x40 + (← tail? b)) * 0x40 + (← tail? c)) * 0x40 + (← tail? d)
        if code < 0x10000 || 0x110000 ≤ code then none else some (Char.ofNat code, r)
      | _ => none

/-- Reads characters while there are any. Each takes a byte, so that fuel for every byte is enough. -/
def readAll? : Nat → Bytes → Option Text
  | _, [] => some []
  | 0, _ :: _ => none
  | fuel + 1, bytes => do
    let (c, rest) ← readChar? bytes
    return c :: (← readAll? fuel rest)

/-- The text that bytes stand for. -/
def decode? (bytes : Bytes) : Option Text := readAll? bytes.length bytes

/-- The byte of `n`, continuing a character. -/
def tailByte (n : Nat) : UInt8 := UInt8.ofNat (0x80 + n % 0x40)

def encodeChar (c : Char) : Bytes :=
  let n := c.toNat
  if n < 0x80 then [UInt8.ofNat n]
  else if n < 0x800 then [UInt8.ofNat (0xC0 + n / 0x40), tailByte n]
  else if n < 0x10000 then [UInt8.ofNat (0xE0 + n / 0x1000), tailByte (n / 0x40), tailByte n]
  else
    [UInt8.ofNat (0xF0 + n / 0x40000), tailByte (n / 0x1000), tailByte (n / 0x40), tailByte n]

def encode (t : Text) : Bytes := t.flatMap encodeChar

end PageTemplate.Utf8

namespace PageTemplate

/-- A text with every line end written as a line feed. -/
def unifyLineEnds : Text → Text
  | '\r' :: '\n' :: r => '\n' :: unifyLineEnds r
  | '\r' :: r => '\n' :: unifyLineEnds r
  | c :: r => c :: unifyLineEnds r
  | [] => []

end PageTemplate
