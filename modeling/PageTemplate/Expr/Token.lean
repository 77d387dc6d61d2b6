import PageTemplate.Text.Blank
import PageTemplate.Text.Word
import PageTemplate.Text.Digit
set_option autoImplicit false
/-!
Tokens of the expression language. The text is split from the left; at each place the first kind that
matches wins, in the order blanks, number, string, name, operator, and takes as much as it can.
-/
namespace PageTemplate

inductive TokenKind where
  | number | str | name | op | stop
  deriving DecidableEq, Repr

def TokenKind.label : TokenKind → Text
  | .number => text "number" | .str => text "string" | .name => text "name" | .op => text "op"
  | .stop => text "end"

structure Token where
  kind : TokenKind
  lexeme : Text
  position : Nat
  deriving DecidableEq, Repr

namespace Token

def isOp (symbol : Text) (t : Token) : Bool := t.kind == .op && t.lexeme == symbol

def digitRun (t : Text) : Nat := (t.takeWhile isDigitChar).length

/-- Length of an exponent at the front, zero if there is none. -/
def exponentLength : Text → Nat
  | c :: r =>
    if c = 'e' || c = 'E' then
      match r with
      | s :: r' =>
        if s = '+' || s = '-' then
          if digitRun r' = 0 then 0 else 2 + digitRun r'
        else if digitRun r = 0 then 0 else 1 + digitRun r
      | [] => 0
    else 0
  | [] => 0

/-- Length of the digits and the point of a number, zero if there is no number. -/
def mantissaLength (t : Text) : Nat :=
  match digitRun t, t.drop (digitRun t) with
  | 0, '.' :: r => if digitRun r = 0 then 0 else 1 + digitRun r
  | 0, _ => 0
  | n + 1, '.' :: r => n + 2 + digitRun r
  | n + 1, _ => n + 1

def numberLength (t : Text) : Nat :=
  match mantissaLength t with
  | 0 => 0
  | n + 1 => n + 1 + exponentLength (t.drop (n + 1))

/-- Length up to and with the closing quote, which a backslash hides. -/
def quotedLength? (quote : Char) : Text → Option Nat
  | [] => none
  | '\\' :: [] => none
  | '\\' :: _ :: r => (quotedLength? quote r).map (· + 2)
  | c :: r => if c = quote then some 1 else (quotedLength? quote r).map (· + 1)

def startsName (c : Char) : Bool := c.isAlpha || c == '_' || c == '$'

def continuesName (c : Char) : Bool := isWordChar c || c == '$'

def longOperators : List Text :=
  [['=', '=', '='], ['!', '=', '='], ['=', '='], ['!', '='], ['<', '='], ['>', '='], ['&', '&'],
    ['|', '|']]

def shortOperators : Text := text "-+*/%<>!?:.,()[]"

def operatorLength? (t : Text) : Option Nat :=
  match longOperators.find? fun op => op.isPrefixOf t with
  | some op => some op.length
  | none =>
    match t with
    | c :: _ => if shortOperators.contains c then some 1 else none
    | [] => none

/-- The kind and the length of what stands at the front of a text that is not blank there. -/
def lexeme? (c : Char) (rest : Text) : Option (TokenKind × Nat) :=
  match numberLength (c :: rest) with
  | n + 1 => some (.number, n + 1)
  | 0 =>
    match if c = '"' || c = '\'' then quotedLength? c rest else none with
    | some n => some (.str, n + 1)
    | none =>
      if startsName c then some (.name, 1 + (rest.takeWhile continuesName).length)
      else (operatorLength? (c :: rest)).map (.op, ·)

/-- A character at which nothing can start. -/
structure Stray where
  char : Char
  position : Nat
  deriving DecidableEq, Repr

/-- The tokens of a text that starts at a position of the source, with the end marker last. -/
def scan (position : Nat) : Text → Except Stray (List Token)
  | [] => .ok [⟨.stop, [], position⟩]
  | c :: cs =>
    if isBlank c then scan (position + 1) cs
    else
      match lexeme? c cs with
      | none => .error ⟨c, position⟩
      | some (kind, n) =>
        (scan (position + n) (cs.drop (n - 1))).map
          (⟨kind, (c :: cs).take n, position⟩ :: ·)
termination_by t => t.length
decreasing_by all_goals simp only [List.length_cons, List.length_drop]; omega

/-- All tokens of a source. -/
def ofText (source : Text) : Except Stray (List Token) := scan 0 source

end Token

end PageTemplate
