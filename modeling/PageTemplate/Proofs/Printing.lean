import PageTemplate.Proofs.Parsing
set_option autoImplicit false
/-!
Writing an expression down and reading it back. A part stands in parentheses only if it binds less tightly than
its place asks for: operators group to the left, so the right operand has to bind more tightly than its operator.
-/
namespace PageTemplate

/-- How tightly an operator binds its operands. -/
def Operator.strength : Operator → Nat
  | .logical .or => 1
  | .logical .and => 2
  | .binary .same | .binary .notSame | .binary .equal | .binary .notEqual => 3
  | .binary .lt | .binary .gt | .binary .le | .binary .ge => 4
  | .binary .add | .binary .sub => 5
  | .binary .mul | .binary .div | .binary .rem => 6

namespace Expr

/-- How tightly the outermost operation of a tree binds. -/
def strength : Expr → Nat
  | .conditional _ _ _ => 0
  | .logical op _ _ => (Operator.logical op).strength
  | .binary op _ _ => (Operator.binary op).strength
  | .unary _ _ => 7
  | .member _ _ | .call _ _ => 8
  | .literal _ | .name _ | .array _ => 9

/-- A fraction is written as nothing here. -/
def literalLexeme : Literal → TokenKind × Text
  | .null => (.name, text "null")
  | .bool true => (.name, text "true")
  | .bool false => (.name, text "false")
  | .whole n => (.number, natText n)
  | .str t => (.str, quotedText t)
  | .decimal _ => (.number, [])

def op (symbol : Text) : TokenKind × Text := (.op, symbol)

/-- Lexemes in parentheses, if there have to be any. -/
def grouped (needed : Bool) (ls : List (TokenKind × Text)) : List (TokenKind × Text) :=
  if needed then op ['('] :: (ls ++ [op [')']]) else ls

mutual

/-- The lexemes of a tree. -/
def lexemes : Expr → List (TokenKind × Text)
  | .literal l => [literalLexeme l]
  | .name n => [(.name, n)]
  | .array es => op ['['] :: (lexemesAll es ++ [op [']']])
  | .unary o e => op o.symbol :: grouped (e.strength < 7) (lexemes e)
  | .binary o l r =>
    grouped (l.strength < (Operator.binary o).strength) (lexemes l) ++
      op o.symbol :: grouped (r.strength < (Operator.binary o).strength + 1) (lexemes r)
  | .logical o l r =>
    grouped (l.strength < (Operator.logical o).strength) (lexemes l) ++
      op o.symbol :: grouped (r.strength < (Operator.logical o).strength + 1) (lexemes r)
  | .conditional t a b =>
    grouped (t.strength < 1) (lexemes t) ++ op ['?'] :: (lexemes a ++ op [':'] :: lexemes b)
  | .member o k => grouped (o.strength < 8) (lexemes o) ++ op ['['] :: (lexemes k ++ [op [']']])
  | .call f es => grouped (f.strength < 8) (lexemes f) ++ op ['('] :: (lexemesAll es ++ [op [')']])

def lexemesAll : List Expr → List (TokenKind × Text)
  | [] => []
  | [e] => lexemes e
  | e :: f :: es => lexemes e ++ op [','] :: lexemesAll (f :: es)

end

/-- A tree written down, with single spaces between the lexemes. -/
def print (e : Expr) : Text := Token.spaced e.lexemes

def isIdentifier : Text → Bool
  | [] => false
  | c :: cs => Token.startsName c && cs.all Token.continuesName

mutual

/-- There are no fractions and no whole numbers with too many digits, and each name is an identifier that no
literal has. -/
def printable : Expr → Bool
  | .literal (.decimal _) => false
  | .literal (.whole n) => (natText n).length ≤ digitLimit
  | .literal _ => true
  | .name n => isIdentifier n && (Parser.nameLiteral? n).isNone
  | .array es => printableAll es
  | .unary _ e => printable e
  | .binary _ l r | .logical _ l r | .member l r => printable l && printable r
  | .conditional t a b => printable t && (printable a && printable b)
  | .call f es => printable f && printableAll es

def printableAll : List Expr → Bool
  | [] => true
  | e :: es => printable e && printableAll es

end

end Expr

namespace Grammar

/-- A derivation of a tree where its place asks for some strength. -/
def DerivesAt (k : Nat) (ts : List Token) (e : Expr) : Prop :=
  if k = 0 then Conditional ts e
  else if k ≤ 7 then Chain (Operator.levels.drop (k - 1)) ts e
  else if k = 8 then Postfixed ts e
  else Primary ts e

theorem derivesAt_chain {k : Nat} (hpos : 0 < k) (h : k ≤ 7) (ts : List Token) (e : Expr) :
    DerivesAt k ts e ↔ Chain (Operator.levels.drop (k - 1)) ts e := by
  rw [DerivesAt, if_neg (by omega), if_pos h]

theorem derivesAt_seven {ts : List Token} {e : Expr} : DerivesAt 7 ts e ↔ Prefixed ts e := by
  rw [derivesAt_chain (by decide) (by decide)]
  constructor
  · intro h
    cases h with
    | operand h => exact h
  · exact .operand

theorem DerivesAt.weaken {k : Nat} {ts : List Token} {e : Expr} (h : DerivesAt (k + 1) ts e) (hk : k < 9) :
    DerivesAt k ts e := by
  obtain rfl | hpos := Nat.eq_zero_or_pos k
  · exact .test ((derivesAt_chain (by decide) (by decide) ts e).mp h)
  obtain hchain | rfl | rfl : k ≤ 6 ∨ k = 7 ∨ k = 8 := by omega
  · rw [derivesAt_chain (by omega) (by omega)] at h ⊢
    have hlength : k - 1 < Operator.levels.length := Nat.lt_of_lt_of_le (by omega : k - 1 < 6) (by decide)
    rw [List.drop_eq_getElem_cons hlength, Nat.sub_add_cancel hpos]
    exact .tighter h
  · exact derivesAt_seven.mpr (.plain h)
  · exact .primary h

theorem DerivesAt.mono {k m : Nat} {ts : List Token} {e : Expr} (h : DerivesAt m ts e) (hkm : k ≤ m) (hm : m ≤ 9) :
    DerivesAt k ts e := by
  obtain ⟨d, rfl⟩ := Nat.exists_eq_add_of_le hkm
  induction d with
  | zero => exact h
  | succ d ih =>
    have hless : k + d < 9 := hm
    exact ih (DerivesAt.weaken h hless) (Nat.le_add_right k d) (Nat.le_of_lt hless)

/-- The level of an operator is where its strength says. -/
theorem level_of_strength (o : Operator) :
    ∃ level, o ∈ level ∧ Operator.levels.drop (o.strength - 1) = level :: Operator.levels.drop o.strength := by
  rcases o with op | op <;> cases op <;> exact ⟨_, by decide, rfl⟩

theorem strength_bounds (o : Operator) : 0 < o.strength ∧ o.strength ≤ 6 := by
  rcases o with op | op <;> cases op <;> decide

theorem strength_le (e : Expr) : e.strength ≤ 9 := by
  cases e with
  | binary op _ _ => exact Nat.le_trans (strength_bounds (.binary op)).2 (by decide)
  | logical op _ _ => exact Nat.le_trans (strength_bounds (.logical op)).2 (by decide)
  | _ => simp only [Expr.strength]; decide

/-- Operands of the strengths an operator asks for make up its application. -/
theorem DerivesAt.join {o : Operator} {us vs : List Token} {t : Token} {l r : Expr} (hl : DerivesAt o.strength us l)
    (ht : t.isOp o.symbol = true) (hr : DerivesAt (o.strength + 1) vs r) :
    DerivesAt o.strength (us ++ t :: vs) (o.apply l r) := by
  obtain ⟨hpos, hle⟩ := strength_bounds o
  obtain ⟨level, ho, hlevel⟩ := level_of_strength o
  rw [derivesAt_chain hpos (by omega), hlevel] at hl ⊢
  rw [derivesAt_chain (by omega) (by omega)] at hr
  exact .join hl ho ht hr

end Grammar

namespace Expr

theorem isOp_of_lexed {t : Token} {symbol : Text} (h : t.lexed = op symbol) : t.isOp symbol = true :=
  Token.isOp_iff.mpr ⟨congrArg Prod.fst h, congrArg Prod.snd h⟩

theorem lexed_infix {ts : List Token} {ls ms : List (TokenKind × Text)} {symbol : Text}
    (h : ts.map Token.lexed = ls ++ op symbol :: ms) :
    ∃ us t vs, ts = us ++ t :: vs ∧ us.map Token.lexed = ls ∧ t.isOp symbol = true ∧ vs.map Token.lexed = ms := by
  obtain ⟨us, rest, rfl, hus, hrest⟩ := List.map_eq_append_iff.mp h
  obtain ⟨t, vs, rfl, ht, hvs⟩ := List.map_eq_cons_iff.mp hrest
  exact ⟨us, t, vs, rfl, hus, isOp_of_lexed ht, hvs⟩

theorem lexed_concat {ts : List Token} {ls : List (TokenKind × Text)} {symbol : Text}
    (h : ts.map Token.lexed = ls ++ [op symbol]) :
    ∃ us t, ts = us ++ [t] ∧ us.map Token.lexed = ls ∧ t.isOp symbol = true := by
  obtain ⟨us, t, vs, rfl, hus, ht, hvs⟩ := lexed_infix h
  obtain rfl := List.map_eq_nil_iff.mp hvs
  exact ⟨us, t, rfl, hus, ht⟩

theorem lexed_brackets {ts : List Token} {ls : List (TokenKind × Text)} {opener closer : Text}
    (h : ts.map Token.lexed = op opener :: (ls ++ [op closer])) :
    ∃ t us c, ts = t :: (us ++ [c]) ∧ t.isOp opener = true ∧ us.map Token.lexed = ls ∧ c.isOp closer = true := by
  obtain ⟨t, rest, rfl, ht, hrest⟩ := List.map_eq_cons_iff.mp h
  obtain ⟨us, c, rfl, hus, hc⟩ := lexed_concat hrest
  exact ⟨t, us, c, rfl, isOp_of_lexed ht, hus, hc⟩

/-- In its place a tree is derived as it stands, or in parentheses. -/
theorem grouped_derives {e : Expr} {k : Nat} (hk : k ≤ 9)
    (he : ∀ ts, ts.map Token.lexed = e.lexemes → Grammar.DerivesAt e.strength ts e) {ts : List Token}
    (hts : ts.map Token.lexed = grouped (e.strength < k) e.lexemes) : Grammar.DerivesAt k ts e := by
  by_cases hneeded : e.strength < k
  · rw [grouped, if_pos (by simpa using hneeded)] at hts
    obtain ⟨t, us, c, rfl, ht, hus, hc⟩ := lexed_brackets hts
    have hinner : Grammar.DerivesAt 0 us e := (he us hus).mono (Nat.zero_le _) (Grammar.strength_le e)
    have hprimary : Grammar.DerivesAt 9 (t :: (us ++ [c])) e := .group ht hinner hc
    exact hprimary.mono hk (Nat.le_refl 9)
  · rw [grouped, if_neg (by simpa using hneeded)] at hts
    exact (he ts hts).mono (Nat.not_lt.mp hneeded) (Grammar.strength_le e)

theorem literal_derives {l : Literal} (hl : (Expr.literal l).printable = true) {ts : List Token}
    (hts : ts.map Token.lexed = [literalLexeme l]) : Grammar.Primary ts (.literal l) := by
  obtain ⟨t, rfl, ht⟩ := List.map_eq_singleton_iff.mp hts
  have hkind := congrArg Prod.fst ht
  have hlexeme : t.lexeme = (literalLexeme l).2 := congrArg Prod.snd ht
  cases l with
  | null => exact .literal hkind (by rw [hlexeme]; rfl)
  | bool b => cases b <;> exact .literal hkind (by rw [hlexeme]; rfl)
  | whole n =>
    have hbrief : (natText n).length ≤ digitLimit := of_decide_eq_true hl
    refine .number hkind ?_
    rw [show t.lexeme = natText n from hlexeme, numberLiteral_natText, numeral_of_le hbrief, digitsToNat_natText]
  | str s =>
    rw [← stringBody_quotedText s, ← show t.lexeme = quotedText s from hlexeme]
    exact .str hkind
  | decimal x => cases hl

theorem items_derive {es : List Expr} {ts : List Token} (hts : ts.map Token.lexed = lexemesAll es)
    (h : es ≠ [] → Grammar.Sequence ts es) : Grammar.Items ts es := by
  cases es with
  | nil =>
    obtain rfl := List.map_eq_nil_iff.mp hts
    exact .none
  | cons e es => exact .some (h (List.cons_ne_nil e es))

mutual

theorem derives (e : Expr) (he : e.printable = true) (ts : List Token) (hts : ts.map Token.lexed = e.lexemes) :
    Grammar.DerivesAt e.strength ts e := by
  cases e with
  | literal l => exact literal_derives he hts
  | name n =>
    obtain ⟨t, rfl, ht⟩ := List.map_eq_singleton_iff.mp hts
    have hlexeme : t.lexeme = n := congrArg Prod.snd ht
    rw [printable, Bool.and_eq_true, Option.isNone_iff_eq_none] at he
    subst hlexeme
    exact .name (congrArg Prod.fst ht) he.2
  | array es =>
    obtain ⟨t, us, c, rfl, ht, hus, hc⟩ := lexed_brackets hts
    exact .array ht (items_derive hus (derivesAll es he us hus)) hc
  | unary o e =>
    obtain ⟨t, us, rfl, ht, hus⟩ := List.map_eq_cons_iff.mp hts
    have hoperand := grouped_derives (by decide) (fun ts => derives e he ts) hus
    exact Grammar.derivesAt_seven.mpr (.unary (isOp_of_lexed ht) (Grammar.derivesAt_seven.mp hoperand))
  | binary o l r =>
    rw [printable, Bool.and_eq_true] at he
    obtain ⟨us, t, vs, rfl, hus, ht, hvs⟩ := lexed_infix hts
    have hbounds := Grammar.strength_bounds (.binary o)
    have hleft := grouped_derives (by omega) (fun ts => derives l he.1 ts) hus
    have hright := grouped_derives (by omega) (fun ts => derives r he.2 ts) hvs
    exact hleft.join ht hright
  | logical o l r =>
    rw [printable, Bool.and_eq_true] at he
    obtain ⟨us, t, vs, rfl, hus, ht, hvs⟩ := lexed_infix hts
    have hbounds := Grammar.strength_bounds (.logical o)
    have hleft := grouped_derives (by omega) (fun ts => derives l he.1 ts) hus
    have hright := grouped_derives (by omega) (fun ts => derives r he.2 ts) hvs
    exact hleft.join ht hright
  | conditional t a b =>
    rw [printable, Bool.and_eq_true, Bool.and_eq_true] at he
    obtain ⟨us, q, rest, rfl, hus, hq, hrest⟩ := lexed_infix hts
    obtain ⟨vs, c, ws, rfl, hvs, hc, hws⟩ := lexed_infix hrest
    have htest := grouped_derives (by decide) (fun ts => derives t he.1 ts) hus
    have hyes := (derives a he.2.1 vs hvs).mono (Nat.zero_le _) (Grammar.strength_le a)
    have hno := (derives b he.2.2 ws hws).mono (Nat.zero_le _) (Grammar.strength_le b)
    exact .choice ((Grammar.derivesAt_chain (by decide) (by decide) us t).mp htest) hq hyes hc hno
  | member o k =>
    rw [printable, Bool.and_eq_true] at he
    obtain ⟨us, t, rest, rfl, hus, ht, hrest⟩ := lexed_infix hts
    obtain ⟨vs, c, rfl, hvs, hc⟩ := lexed_concat hrest
    have hobject := grouped_derives (by decide) (fun ts => derives o he.1 ts) hus
    have hkey := (derives k he.2 vs hvs).mono (Nat.zero_le _) (Grammar.strength_le k)
    exact .index hobject ht hkey hc
  | call f es =>
    rw [printable, Bool.and_eq_true] at he
    obtain ⟨us, t, rest, rfl, hus, ht, hrest⟩ := lexed_infix hts
    obtain ⟨vs, c, rfl, hvs, hc⟩ := lexed_concat hrest
    have hcallee := grouped_derives (by decide) (fun ts => derives f he.1 ts) hus
    exact .call hcallee ht (items_derive hvs (derivesAll es he.2 vs hvs)) hc

theorem derivesAll (es : List Expr) (hes : printableAll es = true) (ts : List Token)
    (hts : ts.map Token.lexed = lexemesAll es) (hne : es ≠ []) : Grammar.Sequence ts es := by
  match es with
  | [] => exact absurd rfl hne
  | [e] =>
    rw [printableAll, Bool.and_eq_true] at hes
    exact .last ((derives e hes.1 ts hts).mono (Nat.zero_le _) (Grammar.strength_le e))
  | e :: f :: es =>
    rw [printableAll, Bool.and_eq_true] at hes
    obtain ⟨us, t, vs, rfl, hus, ht, hvs⟩ := lexed_infix hts
    have hfirst := (derives e hes.1 us hus).mono (Nat.zero_le _) (Grammar.strength_le e)
    exact .more hfirst ht (derivesAll (f :: es) hes.2 vs hvs (List.cons_ne_nil f es))

end

/-- Every lexeme is one token where spaces stand around it. -/
def Separable (ls : List (TokenKind × Text)) : Prop := ∀ l ∈ ls, Token.IsLexeme l.1 l.2

theorem Separable.append {ls ms : List (TokenKind × Text)} (hl : Separable ls) (hm : Separable ms) :
    Separable (ls ++ ms) :=
  List.forall_mem_append.mpr ⟨hl, hm⟩

theorem Separable.cons {symbol : Text} {ls : List (TokenKind × Text)} (hsymbol : symbol ∈ Token.symbols)
    (hl : Separable ls) : Separable (op symbol :: ls) :=
  List.forall_mem_cons.mpr ⟨Token.isLexeme_symbol hsymbol, hl⟩

theorem separable_op {symbol : Text} (hsymbol : symbol ∈ Token.symbols) : Separable [op symbol] :=
  Separable.cons hsymbol (List.forall_mem_nil _)

theorem Separable.grouped {needed : Bool} {ls : List (TokenKind × Text)} (h : Separable ls) :
    Separable (grouped needed ls) := by
  cases needed with
  | false => exact h
  | true => exact .cons (by decide) (h.append (separable_op (by decide)))

theorem literalLexeme_separable {l : Literal} (hl : (Expr.literal l).printable = true) :
    Separable [literalLexeme l] := by
  have hname : ∀ c cs, Token.startsName c = true → cs.all Token.continuesName = true →
      Separable [(.name, c :: cs)] := fun c cs hc hcs =>
    List.forall_mem_singleton.mpr (Token.isLexeme_name hc (List.all_eq_true.mp hcs))
  cases l with
  | null => exact hname 'n' _ (by decide) (by decide)
  | bool b => cases b <;> exact hname _ _ (by decide) (by decide)
  | whole n => exact List.forall_mem_singleton.mpr (Token.isLexeme_natText n)
  | str t => exact List.forall_mem_singleton.mpr (Token.isLexeme_quotedText t)
  | decimal x => cases hl

theorem name_separable {n : Text} (hn : isIdentifier n = true) : Separable [(.name, n)] := by
  cases n with
  | nil => cases hn
  | cons c cs =>
    rw [isIdentifier, Bool.and_eq_true] at hn
    exact List.forall_mem_singleton.mpr (Token.isLexeme_name hn.1 (List.all_eq_true.mp hn.2))

theorem symbol_mem (o : Operator) : o.symbol ∈ Token.symbols := by
  rcases o with op | op <;> cases op <;> decide

mutual

theorem lexemes_separable (e : Expr) (he : e.printable = true) : Separable e.lexemes := by
  cases e with
  | literal l => exact literalLexeme_separable he
  | name n =>
    rw [printable, Bool.and_eq_true] at he
    exact name_separable he.1
  | array es => exact .cons (by decide) ((lexemesAll_separable es he).append (separable_op (by decide)))
  | unary o e => exact .cons (by cases o <;> decide) (lexemes_separable e he).grouped
  | binary o l r =>
    rw [printable, Bool.and_eq_true] at he
    exact (lexemes_separable l he.1).grouped.append (.cons (symbol_mem (.binary o)) (lexemes_separable r he.2).grouped)
  | logical o l r =>
    rw [printable, Bool.and_eq_true] at he
    exact (lexemes_separable l he.1).grouped.append (.cons (symbol_mem (.logical o)) (lexemes_separable r he.2).grouped)
  | conditional t a b =>
    rw [printable, Bool.and_eq_true, Bool.and_eq_true] at he
    have hbranches : Separable (lexemes a ++ op [':'] :: lexemes b) :=
      (lexemes_separable a he.2.1).append (.cons (by decide) (lexemes_separable b he.2.2))
    exact (lexemes_separable t he.1).grouped.append (.cons (by decide) hbranches)
  | member o k =>
    rw [printable, Bool.and_eq_true] at he
    have hkey : Separable (lexemes k ++ [op [']']]) := (lexemes_separable k he.2).append (separable_op (by decide))
    exact (lexemes_separable o he.1).grouped.append (.cons (by decide) hkey)
  | call f es =>
    rw [printable, Bool.and_eq_true] at he
    have hargs : Separable (lexemesAll es ++ [op [')']]) :=
      (lexemesAll_separable es he.2).append (separable_op (by decide))
    exact (lexemes_separable f he.1).grouped.append (.cons (by decide) hargs)

theorem lexemesAll_separable (es : List Expr) (hes : printableAll es = true) : Separable (lexemesAll es) := by
  match es with
  | [] => exact List.forall_mem_nil _
  | [e] =>
    rw [printableAll, Bool.and_eq_true] at hes
    exact lexemes_separable e hes.1
  | e :: f :: es =>
    rw [printableAll, Bool.and_eq_true] at hes
    exact (lexemes_separable e hes.1).append (.cons (by decide) (lexemesAll_separable (f :: es) hes.2))

end

theorem ofText_print (e : Expr) (he : e.printable = true) : Expr.ofText e.print = .ok e := by
  obtain ⟨ts, stop, hscan, hstop, hts⟩ := Token.scan_spaced (lexemes_separable e he) 0
  have hderives := (derives e he ts hts).mono (Nat.zero_le _) (Grammar.strength_le e)
  exact Expr.ofText_of_sentence hscan ⟨ts, stop, rfl, hstop, hderives⟩

/-- The tree of `a - (b - -1)["x"]` -/
def grouping : Expr :=
  .binary .sub (.name (text "a"))
    (.member (.binary .sub (.name (text "b")) (.unary .neg (.literal (.whole 1)))) (.literal (.str (text "\"x\""))))

theorem ofText_print_grouping :
    grouping.print = text "a - ( b - - 1 ) [ \"\\\"x\\\"\" ]" ∧ Expr.ofText grouping.print = .ok grouping :=
  ⟨by decide +kernel, ofText_print grouping (by decide +kernel)⟩

/-- A whole number with too many digits is written down and refused. -/
theorem ofText_print_limit : Expr.ofText (Expr.literal (.whole (10 ^ digitLimit))).print ≠
    .ok (.literal (.whole (10 ^ digitLimit))) := by
  have hprint : (Expr.literal (.whole (10 ^ digitLimit))).print = natText (10 ^ digitLimit) := rfl
  rw [hprint, ofText_natText_of_lt (digitLimit_lt_length_natText (Nat.le_refl _))]
  nofun

end Expr

end PageTemplate
