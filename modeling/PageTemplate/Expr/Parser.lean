import PageTemplate.Expr.Basic
import PageTemplate.Expr.Error
import PageTemplate.Number.Numeral
set_option autoImplicit false
/-!
Reading expression trees from tokens. From weak to strong: the conditional, six levels of binary
operators that group to the left, prefix operators, then members, indices and calls, and the primaries.

Brackets, prefix operators and conditionals are read by recursion, and its depth is limited: a reader is
given the number of levels it may still open.
-/
namespace PageTemplate.Parser

abbrev Reader (α : Type) := List Token → Except ParseError (α × List Token)

def expectOp (symbol : Text) : List Token → Except ParseError (List Token)
  | t :: ts => if t.isOp symbol then .ok ts else .error (.expected symbol t.position)
  | [] => .error .unexpectedEnd

/-- After a first operand, the operators of one level and their right operands. -/
def chainRest (level : List Operator) (operand : Reader Expr) : Nat → Expr → Reader Expr
  | 0, left, ts => .ok (left, ts)
  | _ + 1, left, [] => .ok (left, [])
  | fuel + 1, left, t :: ts =>
    match level.find? fun o => t.isOp o.symbol with
    | some o => do
      let (right, rest) ← operand ts
      chainRest level operand fuel (o.apply left right) rest
    | none => .ok (left, t :: ts)

def chain (level : List Operator) (operand : Reader Expr) : Reader Expr := fun ts => do
  let (left, rest) ← operand ts
  chainRest level operand rest.length left rest

/-- Operands joined by operators, the weakest level first. -/
def binary (operand : Reader Expr) : List (List Operator) → Reader Expr
  | [] => operand
  | level :: tighter => chain level (binary operand tighter)

def items (inner : Reader Expr) (closer : Text) : Nat → Reader (List Expr)
  | 0, _ => .error .unexpectedEnd
  | fuel + 1, ts => do
    let (e, rest) ← inner ts
    match rest with
    | t :: ts' =>
      if t.isOp [','] then do
        let (es, rest') ← items inner closer fuel ts'
        return (e :: es, rest')
      else return ([e], ← expectOp closer rest)
    | [] => .error .unexpectedEnd

/-- Expressions between commas up to a closing bracket; there may be none, but no comma may trail. -/
def listUpTo (inner : Reader Expr) (closer : Text) : Reader (List Expr)
  | t :: ts => if t.isOp closer then .ok ([], ts) else items inner closer (ts.length + 1) (t :: ts)
  | [] => .error .unexpectedEnd

def unescapeChar (c : Char) : Char :=
  if c = 'n' then '\n' else if c = 't' then '\t' else if c = 'r' then '\r'
  else if c = 'b' then '\x08' else if c = 'f' then '\x0c' else if c = 'v' then '\x0b'
  else if c = '0' then '\x00' else c

def unescape : Text → Text
  | '\\' :: c :: r => unescapeChar c :: unescape r
  | c :: r => c :: unescape r
  | [] => []

/-- The text of a string token without its quotes. -/
def stringBody (t : Text) : Text := unescape (t.drop 1).dropLast

def numeral (digits : Text) : Except ParseError Literal :=
  ((readDigits digits).map .whole).mapError .numeral

def numberLiteral (t : Text) : Except ParseError Literal :=
  if t.all isDigitChar then numeral t else .ok (.decimal ((readFloat? t).getD 0.0))

def nameLiteral? (t : Text) : Option Literal :=
  if t = text "true" then some (.bool true)
  else if t = text "false" then some (.bool false)
  else if t = text "null" || t = text "undefined" then some .null
  else none

/-- The key after a point: a name, or an index in digits. -/
def property : Reader Literal
  | t :: ts =>
    if t.kind = .name then .ok (.str t.lexeme, ts)
    else if t.kind = .number && t.lexeme.all isDigitChar then (numeral t.lexeme).map (·, ts)
    else .error (.expectedProperty t.position)
  | [] => .error .unexpectedEnd

/-- Members, indices and calls that follow an expression. -/
def postfixRest (inner : Reader Expr) : Nat → Expr → Reader Expr
  | 0, e, ts => .ok (e, ts)
  | _ + 1, e, [] => .ok (e, [])
  | fuel + 1, e, t :: ts =>
    if t.isOp ['.'] then do
      let (key, rest) ← property ts
      postfixRest inner fuel (.member e (.literal key)) rest
    else if t.isOp ['['] then do
      let (key, rest) ← inner ts
      postfixRest inner fuel (.member e key) (← expectOp [']'] rest)
    else if t.isOp ['('] then do
      let (args, rest) ← listUpTo inner [')'] ts
      postfixRest inner fuel (.call e args) rest
    else .ok (e, t :: ts)

def primary (inner : Reader Expr) : Reader Expr
  | t :: ts =>
    match t.kind with
    | .number => (numberLiteral t.lexeme).map fun l => (.literal l, ts)
    | .str => .ok (.literal (.str (stringBody t.lexeme)), ts)
    | .name => .ok ((nameLiteral? t.lexeme).elim (.name t.lexeme) .literal, ts)
    | .stop => .error .unexpectedEnd
    | .op =>
      if t.lexeme = ['('] then do
        let (e, rest) ← inner ts
        return (e, ← expectOp [')'] rest)
      else if t.lexeme = ['['] then do
        let (es, rest) ← listUpTo inner [']'] ts
        return (.array es, rest)
      else .error (.unexpected t.lexeme t.position)
  | [] => .error .unexpectedEnd

def unaryOp? (t : Token) : Option UnaryOp :=
  [UnaryOp.not, .neg, .pos].find? fun o => t.isOp o.symbol

mutual

/-- A whole expression, with `levels` left to open. -/
def conditional : Nat → Reader Expr
  | 0, _ => .error .tooDeep
  | levels + 1, ts => do
    let (test, rest) ← binary (operand levels) Operator.levels ts
    match rest with
    | t :: rest' =>
      if t.isOp ['?'] then do
        let (yes, afterYes) ← conditional levels rest'
        let (no, afterNo) ← conditional levels (← expectOp [':'] afterYes)
        return (.conditional test yes no, afterNo)
      else .ok (test, rest)
    | [] => .ok (test, [])

/-- An operand of the strongest binary operators. -/
def operand : Nat → Reader Expr
  | 0, _ => .error .tooDeep
  | levels + 1, ts =>
    match ts with
    | [] => .error .unexpectedEnd
    | t :: rest =>
      match unaryOp? t with
      | some op => do
        let (e, rest') ← operand levels rest
        return (.unary op e, rest')
      | none => do
        let (e, rest') ← primary (conditional levels) ts
        postfixRest (conditional levels) rest'.length e rest'

end

/-- Reads all tokens as one expression. -/
def readAll (levels : Nat) (ts : List Token) : Except ParseError Expr := do
  let (e, rest) ← conditional levels ts
  match rest with
  | t :: _ => if t.kind = .stop then .ok e else .error (.unexpected t.lexeme t.position)
  | [] => .ok e

end PageTemplate.Parser

namespace PageTemplate

/-- The expression a source denotes, with at most `levels` levels of brackets, prefix operators and
conditionals; an opening bracket counts twice. -/
def Expr.ofTextWithin (levels : Nat) (source : Text) : Except ParseError Expr :=
  match Token.ofText source with
  | .error s => .error (.stray s)
  | .ok ts => Parser.readAll levels ts

/-- The expression a source denotes. Each level takes a token, so that twice their number is enough. -/
def Expr.ofText (source : Text) : Except ParseError Expr :=
  Expr.ofTextWithin (2 * source.length + 2) source

end PageTemplate
