import PageTemplate.Value.Basic
set_option autoImplicit false
/-!
Reading JSON. Besides the standard the names of a NaN and of the infinities are numbers, and of two
entries with one key the later value stands at the place of the earlier.

Readers consume the front of a text and stop at the first fault. Every step below takes at least one
character, so fuel beyond the length of the text is never used up.
-/
namespace PageTemplate.Json

def isSpace (c : Char) : Bool := c = ' ' || c = '\t' || c = '\n' || c = '\r'

def skipSpace (t : Text) : Text := t.dropWhile isSpace

def hexValue? (c : Char) : Option Nat :=
  if '0' ≤ c && c ≤ '9' then some (c.toNat - 48)
  else if 'a' ≤ c && c ≤ 'f' then some (c.toNat - 87)
  else if 'A' ≤ c && c ≤ 'F' then some (c.toNat - 55)
  else none

/-- Four hexadecimal digits. -/
def readUnit? : Text → Option (Nat × Text)
  | a :: b :: c :: d :: r => do
    let n := ((← hexValue? a) * 16 + (← hexValue? b)) * 16
    some ((n + (← hexValue? c)) * 16 + (← hexValue? d), r)
  | _ => none

/-- A character written as one code unit, or as a pair of surrogates. A surrogate alone stands for the
replacement character. -/
def readCodePoint? (t : Text) : Option (Char × Text) := do
  let (n, r) ← readUnit? t
  let alone := (if 0xD800 ≤ n && n < 0xE000 then Char.ofNat 0xFFFD else Char.ofNat n, r)
  if 0xD800 ≤ n && n < 0xDC00 then
    match r with
    | '\\' :: 'u' :: r' =>
      match readUnit? r' with
      | some (m, r'') =>
        if 0xDC00 ≤ m && m < 0xE000 then
          some (Char.ofNat (0x10000 + (n - 0xD800) * 0x400 + (m - 0xDC00)), r'')
        else some alone
      | none => none
    | _ => some alone
  else some alone

def simpleEscape? (c : Char) : Option Char :=
  if c = '"' || c = '\\' || c = '/' then some c
  else if c = 'n' then some '\n'
  else if c = 'r' then some '\r'
  else if c = 't' then some '\t'
  else if c = 'b' then some '\x08'
  else if c = 'f' then some '\x0c'
  else none

/-- The rest of a string after its opening quote. -/
def readTail : Nat → Text → Option (Text × Text)
  | 0, _ => none
  | _ + 1, [] => none
  | fuel + 1, c :: r =>
    if c = '"' then some ([], r)
    else if c = '\\' then
      match r with
      | 'u' :: r' => do
        let (d, r'') ← readCodePoint? r'
        (readTail fuel r'').map fun (t, rest) => (d :: t, rest)
      | e :: r' => do
        let d ← simpleEscape? e
        (readTail fuel r').map fun (t, rest) => (d :: t, rest)
      | [] => none
    else if c.toNat < 0x20 then none
    else (readTail fuel r).map fun (t, rest) => (c :: t, rest)

/-- A fractional part: a point that digits follow. -/
def readFraction : Text → Option Text × Text
  | '.' :: r =>
    match r.takeWhile isAsciiDigit with
    | [] => (none, '.' :: r)
    | ds => (some ds, r.dropWhile isAsciiDigit)
  | r => (none, r)

/-- An exponent: its mark, a sign if there is one, and digits. -/
def readPower (t : Text) : Option Int × Text :=
  match t with
  | c :: r =>
    if c = 'e' || c = 'E' then
      let (negative, body) := readSign r
      match body.takeWhile isAsciiDigit with
      | [] => (none, t)
      | ds => (some (applySign negative (digitsToNat ds)), body.dropWhile isAsciiDigit)
    else (none, t)
  | [] => (none, t)

/-- A number whose sign has been read. A leading zero stands alone. -/
def readNumber (negative : Bool) (t : Text) : Except Fault (Value × Text) :=
  let whole? : Option (Text × Text) :=
    match t with
    | '0' :: r => some (['0'], r)
    | c :: _ =>
      if isAsciiDigit c then some (t.takeWhile isAsciiDigit, t.dropWhile isAsciiDigit) else none
    | [] => none
  match whole? with
  | none => .error .badJson
  | some (whole, r) =>
    let (places?, r) := readFraction r
    let (power?, r) := readPower r
    match places?, power? with
    | none, none => (readDigits whole).map fun n => (.int (applySign negative n), r)
    | _, _ =>
      let digits := whole ++ places?.getD []
      let scale := power?.getD 0 - (places?.getD []).length
      .ok (.number (.float (floatOfDecimal negative (digitsToNat digits) digits.length scale)), r)

/-- The values that have names. -/
def named : List (Text × Value) := [
  (text "null", .null), (text "true", .bool true), (text "false", .bool false),
  (text "NaN", .number (.nan .json)), (text "Infinity", .number (.float (infinity false))),
  (text "-Infinity", .number (.float (infinity true)))]

def readNamed? (t : Text) : Option (Value × Text) :=
  named.findSome? fun (name, v) => (after? name t).map (v, ·)

def ofLexeme {α : Type} (o : Option α) : Except Fault α := o.elim (.error .badJson) .ok

mutual

def readValue : Nat → Text → Except Fault (Value × Text)
  | 0, _ => .error .badJson
  | fuel + 1, t =>
    match t with
    | '"' :: r => do
      let (s, rest) ← ofLexeme (readTail (r.length + 1) r)
      return (.str s, rest)
    | '[' :: r =>
      match skipSpace r with
      | ']' :: rest => .ok (.list [], rest)
      | r' => do
        let (xs, rest) ← readItems fuel r'
        return (.list xs, rest)
    | '\x7b' :: r =>
      match skipSpace r with
      | '\x7d' :: rest => .ok (.map [], rest)
      | r' => do
        let (es, rest) ← readEntries fuel r'
        return (.map (Entries.ofPairs es), rest)
    | '-' :: r => (readNamed? t).elim (readNumber true r) .ok
    | _ => (readNamed? t).elim (readNumber false t) .ok

/-- The items of a list up to its closing bracket; there is at least one. -/
def readItems : Nat → Text → Except Fault (List Value × Text)
  | 0, _ => .error .badJson
  | fuel + 1, t => do
    let (v, r) ← readValue fuel t
    match skipSpace r with
    | ',' :: r' =>
      let (vs, rest) ← readItems fuel (skipSpace r')
      return (v :: vs, rest)
    | ']' :: rest => return ([v], rest)
    | _ => throw .badJson

/-- The entries of a mapping up to its closing brace; there is at least one. -/
def readEntries : Nat → Text → Except Fault (List (Value × Value) × Text)
  | 0, _ => .error .badJson
  | fuel + 1, t => do
    let '"' :: r := t | throw .badJson
    let (key, r) ← ofLexeme (readTail (r.length + 1) r)
    let ':' :: r := skipSpace r | throw .badJson
    let (v, r) ← readValue fuel (skipSpace r)
    match skipSpace r with
    | ',' :: r' =>
      let (es, rest) ← readEntries fuel (skipSpace r')
      return ((.str key, v) :: es, rest)
    | '\x7d' :: rest => return ([(.str key, v)], rest)
    | _ => throw .badJson

end

/-- The value of a whole JSON text. -/
def read (t : Text) : Except Fault Value := do
  let (v, rest) ← readValue (t.length + 1) (skipSpace t)
  if (skipSpace rest).isEmpty then return v else throw .badJson

end PageTemplate.Json
