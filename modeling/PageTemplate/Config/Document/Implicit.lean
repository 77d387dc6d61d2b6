import PageTemplate.Config.Document.Glyph
import PageTemplate.Text.Search
import PageTemplate.Value.Basic
set_option autoImplicit false
/-!
What plain texts stand for: null, truth values, whole numbers in several bases, floats and dates. Low lines
in numbers are left out, and parts between colons count in sixties. All other texts stand for themselves.
-/
namespace PageTemplate.Config.Document

/-- Is a text one of some words, in small letters, in capitals, or with a capital first? -/
def isWord (words : List String) (t : Text) : Bool :=
  let capitalise : Text → Text
    | [] => []
    | c :: r => c.toUpper :: r
  words.any fun w => t = text w || t = capitalise (text w) || t = (text w).map Char.toUpper

def isNull (t : Text) : Bool := t.isEmpty || t = ['~'] || isWord ["null"] t

def isTrue (t : Text) : Bool := isWord ["yes", "true", "on"] t

def isFalse (t : Text) : Bool := isWord ["no", "false", "off"] t

def isDigitOrLine (c : Char) : Bool := isAsciiDigit c || c = '_'

def dropLines (t : Text) : Text := t.filter (· != '_')

/-! Numbers -/

/-- Digits that start with a digit. -/
def isDigits (t : Text) : Bool := t.head?.any isAsciiDigit && t.all isDigitOrLine

/-- A part that counts up to sixty. -/
def isSixtieth (t : Text) : Bool :=
  match t with
  | [c] => isAsciiDigit c
  | [c, d] => '0' ≤ c && c ≤ '5' && isAsciiDigit d
  | _ => false

/-- The number of digits in a base that is a power of two. There must be a digit, and there is no limit to
their number. -/
def inBase (base : Nat) (digits : Text) : Except Failure Nat :=
  if digits.isEmpty then .error (.fault .outOfDomain)
  else .ok (digits.foldl (fun n c => base * n + digitOf c) 0)
where
  digitOf (c : Char) : Nat :=
    if isAsciiDigit c then c.toNat - '0'.toNat
    else if 'a' ≤ c then c.toNat - 'a'.toNat + 10
    else c.toNat - 'A'.toNat + 10

def isHexOrLine (c : Char) : Bool :=
  isDigitOrLine c || ('a' ≤ c && c ≤ 'f') || ('A' ≤ c && c ≤ 'F')

/-- The whole number that a text without sign stands for. -/
def magnitude? (t : Text) : Option (Except Failure Nat) :=
  match t with
  | '0' :: 'b' :: ds =>
    if !ds.isEmpty && ds.all fun c => c = '0' || c = '1' || c = '_' then
      some (inBase 2 (dropLines ds)) else none
  | '0' :: 'x' :: ds =>
    if !ds.isEmpty && ds.all isHexOrLine then some (inBase 16 (dropLines ds)) else none
  | '0' :: ds =>
    if ds.all fun c => ('0' ≤ c && c ≤ '7') || c = '_' then some (inBase 8 ('0' :: dropLines ds)) else none
  | c :: ds =>
    if '1' ≤ c && c ≤ '9' then
      match splitAt [':'] (c :: ds) with
      | whole :: parts =>
        if whole.all isDigitOrLine && parts.all isSixtieth then
          some (((readDigits (dropLines whole)).map fun first =>
            parts.foldl (fun n p => 60 * n + digitsToNat p) first).mapError .fault)
        else none
      | [] => none
    else none
  | [] => none

/-- The whole number that a text stands for. -/
def whole? (t : Text) : Option (Except Failure Int) :=
  let (negative, body) := readSign t
  (magnitude? body).map (·.map (applySign negative))

/-- Is it an exponent with a sign, or nothing? -/
def isExponent (t : Text) : Bool :=
  match t with
  | [] => true
  | e :: s :: ds =>
    (e = 'e' || e = 'E') && (s = '+' || s = '-') && !ds.isEmpty && ds.all isAsciiDigit
  | _ => false

/-- Is it a float with a point, with digits in front of the point or behind it? Only the former may have a
sign. -/
def isPointed (signed : Bool) (t : Text) : Bool :=
  let (before, r) := t.span isDigitOrLine
  match r with
  | '.' :: r =>
    let (behind, r) := r.span isDigitOrLine
    (if before.isEmpty then !signed && isDigits behind else isDigits before) && isExponent r
  | _ => false

/-- The parts of a float in sixties, the last of which has a point. -/
def sixties? (t : Text) : Option (List Text) :=
  match splitAt [':'] t with
  | whole :: part :: parts =>
    let all := part :: parts
    match splitAt ['.'] (all.getLast?.getD []) with
    | [last, places] =>
      if isDigits whole && (all.dropLast ++ [last]).all isSixtieth && places.all isDigitOrLine then
        some ((whole :: all).map dropLines) else none
    | _ => none
  | _ => none

def negated (negative : Bool) (x : Float) : Float := if negative then -x else x

/-- The float that a text stands for. -/
def float? (t : Text) : Option Float :=
  let (negative, body) := readSign t
  let signed := body.length != t.length
  if isWord [".inf"] body || body = text ".Inf" then some (infinity negative)
  else if !signed && (isWord [".nan"] body || body = text ".NaN") then some notANumber
  else if isPointed signed body then
    (readFloat? (dropLines body)).map (negated negative)
  else do
    let parts ← sixties? body
    let (sum, _) ← parts.reverse.foldlM (fun ((sum, base) : Float × Float) p =>
      (readFloat? p).map fun x => (sum + x * base, base * 60.0)) (0.0, 1.0)
    some (negated negative sum)

/-! Dates -/

/-- A number of digits, as many as allowed. -/
def spanDigits? (least most : Nat) (t : Text) : Option (Nat × Text) :=
  let ds := (t.takeWhile isAsciiDigit).take most
  if ds.length < least then none else some (digitsToNat ds, t.drop ds.length)

def daysIn (year month : Nat) : Nat :=
  if month = 2 then
    if year % 4 = 0 && (year % 100 != 0 || year % 400 = 0) then 29 else 28
  else if [4, 6, 9, 11].contains month then 30
  else 31

def isDate (year month day : Nat) : Bool :=
  1 ≤ year && 1 ≤ month && month ≤ 12 && 1 ≤ day && day ≤ daysIn year month

/-- What may stand behind a time: a distance from the world time below a day, or the sign of no
distance. -/
def zone? (t : Text) : Option Bool :=
  match t.dropWhile fun c => c = ' ' || c = '\t' with
  | [] => if t.isEmpty then some true else none
  | ['Z'] => some true
  | c :: r =>
    if c = '+' || c = '-' then do
      let (hours, r) ← spanDigits? 1 2 r
      match r with
      | [] => some (hours < 24)
      | ':' :: r =>
        let (minutes, r) ← spanDigits? 2 2 r
        if r.isEmpty then some (60 * hours + minutes < 60 * 24) else none
      | _ => none
    else none

/-- Does the rest of a date stand for a time, and does that time exist? -/
def time? (t : Text) : Option Bool := do
  let r ← match t with
    | 'T' :: r | 't' :: r => some r
    | c :: r => if c = ' ' || c = '\t' then some (r.dropWhile fun c => c = ' ' || c = '\t') else none
    | [] => none
  let (hour, r) ← spanDigits? 1 2 r
  let (minute, r) ← spanDigits? 2 2 (← after? [':'] r)
  let (second, r) ← spanDigits? 2 2 (← after? [':'] r)
  let r := match r with
    | '.' :: r => r.dropWhile isAsciiDigit
    | r => r
  let inDay ← zone? r
  some (inDay && hour < 24 && minute < 60 && second < 60)

/-- Does a text stand for a date, perhaps with a time, and does that date exist? -/
def date? (t : Text) : Option Bool := do
  let (year, r) ← spanDigits? 4 4 t
  let (month, r) ← spanDigits? 1 2 (← after? ['-'] r)
  let (day, r) ← spanDigits? 1 2 (← after? ['-'] r)
  if r.isEmpty then
    if t.length = 10 then some (isDate year month day) else none
  else
    let exists? ← time? r
    some (isDate year month day && exists?)

/-! Plain texts -/

/-- A date is a value of which nothing but its text is known. -/
def dateValue (t : Text) (isReal : Bool) : Except Failure Value :=
  if isReal then .ok (.host 0 t) else .error (.fault .outOfDomain)

/-- The value of a plain text. The signs of merging and of default values have none by themselves. -/
def plainValue (t : Text) : Except Failure Value :=
  if isNull t then .ok .null
  else if isTrue t then .ok (.bool true)
  else if isFalse t then .ok (.bool false)
  else if t = text "<<" || t = ['='] then .error .malformed
  else
    match float? t, whole? t, date? t with
    | some x, _, _ => .ok (.number (Number.ofFloat .unreadable x))
    | none, some n, _ => n.map .int
    | none, none, some isReal => dateValue t isReal
    | none, none, none => .ok (.str t)

end PageTemplate.Config.Document
