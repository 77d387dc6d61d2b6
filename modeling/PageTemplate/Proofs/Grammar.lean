import PageTemplate.Expr.Parser
set_option autoImplicit false
/-!
The grammar of expressions, as derivations of trees by lists of tokens. From weak to strong: the conditional,
the levels of binary operators, which group to the left, prefix operators, what follows a primary, and the
primaries. A whole number with too many digits is no literal. Nothing here says how to find a derivation.
-/
namespace PageTemplate.Grammar

/-- The keys that may stand after a point. -/
inductive Key : Token → Literal → Prop
  | name {t : Token} : t.kind = .name → Key t (.str t.lexeme)
  | index {t : Token} {l : Literal} : t.kind = .number → t.lexeme.all isDigitChar = true →
    Parser.numeral t.lexeme = .ok l → Key t l

mutual

/-- `test`, or `test ? yes : no`, which groups to the right. -/
inductive Conditional : List Token → Expr → Prop
  | test {us : List Token} {e : Expr} : Chain Operator.levels us e → Conditional us e
  | choice {us vs ws : List Token} {question colon : Token} {test yes no : Expr} :
    Chain Operator.levels us test → question.isOp ['?'] = true → Conditional vs yes →
    colon.isOp [':'] = true → Conditional ws no →
    Conditional (us ++ question :: (vs ++ colon :: ws)) (.conditional test yes no)

/-- Operands joined by the operators of some levels, the weakest first. What stands on the right of an
operator is of the tighter levels. -/
inductive Chain : List (List Operator) → List Token → Expr → Prop
  | operand {us : List Token} {e : Expr} : Prefixed us e → Chain [] us e
  | tighter {level : List Operator} {levels : List (List Operator)} {us : List Token} {e : Expr} :
    Chain levels us e → Chain (level :: levels) us e
  | join {level : List Operator} {levels : List (List Operator)} {us vs : List Token} {t : Token} {o : Operator}
    {l r : Expr} :
    Chain (level :: levels) us l → o ∈ level → t.isOp o.symbol = true → Chain levels vs r →
    Chain (level :: levels) (us ++ t :: vs) (o.apply l r)

/-- Any number of prefix operators. -/
inductive Prefixed : List Token → Expr → Prop
  | unary {us : List Token} {t : Token} {op : UnaryOp} {e : Expr} :
    t.isOp op.symbol = true → Prefixed us e → Prefixed (t :: us) (.unary op e)
  | plain {us : List Token} {e : Expr} : Postfixed us e → Prefixed us e

/-- A primary, and members, indices and calls behind it. -/
inductive Postfixed : List Token → Expr → Prop
  | primary {us : List Token} {e : Expr} : Primary us e → Postfixed us e
  | member {us : List Token} {point t : Token} {e : Expr} {key : Literal} :
    Postfixed us e → point.isOp ['.'] = true → Key t key → Postfixed (us ++ [point, t]) (.member e (.literal key))
  | index {us vs : List Token} {opener closer : Token} {e key : Expr} :
    Postfixed us e → opener.isOp ['['] = true → Conditional vs key → closer.isOp [']'] = true →
    Postfixed (us ++ opener :: (vs ++ [closer])) (.member e key)
  | call {us vs : List Token} {opener closer : Token} {e : Expr} {args : List Expr} :
    Postfixed us e → opener.isOp ['('] = true → Items vs args → closer.isOp [')'] = true →
    Postfixed (us ++ opener :: (vs ++ [closer])) (.call e args)

/-- Literals, names, and what stands in brackets of its own. -/
inductive Primary : List Token → Expr → Prop
  | number {t : Token} {l : Literal} : t.kind = .number → Parser.numberLiteral t.lexeme = .ok l →
    Primary [t] (.literal l)
  | str {t : Token} : t.kind = .str → Primary [t] (.literal (.str (Parser.stringBody t.lexeme)))
  | literal {t : Token} {l : Literal} : t.kind = .name → Parser.nameLiteral? t.lexeme = some l →
    Primary [t] (.literal l)
  | name {t : Token} : t.kind = .name → Parser.nameLiteral? t.lexeme = none → Primary [t] (.name t.lexeme)
  | group {us : List Token} {opener closer : Token} {e : Expr} :
    opener.isOp ['('] = true → Conditional us e → closer.isOp [')'] = true → Primary (opener :: (us ++ [closer])) e
  | array {us : List Token} {opener closer : Token} {es : List Expr} :
    opener.isOp ['['] = true → Items us es → closer.isOp [']'] = true →
    Primary (opener :: (us ++ [closer])) (.array es)

/-- Expressions between commas, or nothing. -/
inductive Items : List Token → List Expr → Prop
  | none : Items [] []
  | some {us : List Token} {es : List Expr} : Sequence us es → Items us es

/-- At least one expression; no comma stands at either end. -/
inductive Sequence : List Token → List Expr → Prop
  | last {us : List Token} {e : Expr} : Conditional us e → Sequence us [e]
  | more {us vs : List Token} {comma : Token} {e : Expr} {es : List Expr} :
    Conditional us e → comma.isOp [','] = true → Sequence vs es → Sequence (us ++ comma :: vs) (e :: es)

end

/-- All tokens of a source make up one expression, and the end marker follows. -/
def Sentence (ts : List Token) (e : Expr) : Prop :=
  ∃ us stop, ts = us ++ [stop] ∧ stop.kind = .stop ∧ Conditional us e

/-- The tokens with which an expression can begin after its prefix operators. -/
def Begins (t : Token) : Prop :=
  t.kind = .number ∨ t.kind = .str ∨ t.kind = .name ∨ t.isOp ['('] = true ∨ t.isOp ['['] = true

theorem Primary.begins {us : List Token} {e : Expr} (h : Primary us e) : ∃ t vs, us = t :: vs ∧ Begins t := by
  cases h with
  | number ht _ => exact ⟨_, _, rfl, .inl ht⟩
  | str ht => exact ⟨_, _, rfl, .inr (.inl ht)⟩
  | literal ht _ | name ht _ => exact ⟨_, _, rfl, .inr (.inr (.inl ht))⟩
  | group ht _ _ => exact ⟨_, _, rfl, .inr (.inr (.inr (.inl ht)))⟩
  | array ht _ _ => exact ⟨_, _, rfl, .inr (.inr (.inr (.inr ht)))⟩

theorem Postfixed.begins {us : List Token} {e : Expr} (h : Postfixed us e) : ∃ t vs, us = t :: vs ∧ Begins t := by
  match h with
  | .primary h => exact h.begins
  | .member h _ _ =>
    obtain ⟨t, vs, rfl, ht⟩ := Postfixed.begins h
    exact ⟨t, _, rfl, ht⟩
  | .index h _ _ _ =>
    obtain ⟨t, vs, rfl, ht⟩ := Postfixed.begins h
    exact ⟨t, _, rfl, ht⟩
  | .call h _ _ _ =>
    obtain ⟨t, vs, rfl, ht⟩ := Postfixed.begins h
    exact ⟨t, _, rfl, ht⟩

end PageTemplate.Grammar
