import PageTemplate.Proofs.Printing
set_option autoImplicit false
/-!
Dotted paths as sources. A path is read as the member of a member, as far down as it goes, and reading it
opens no level, so that its length is limited by the depth of the tree only. Brackets around it change
nothing.
-/
namespace PageTemplate

open Token

namespace Token

theorem continuesName_of_startsName {c : Char} (h : startsName c = true) : continuesName c = true := by
  have hall : ∀ n < 128, startsName (Char.ofNat n) = true → continuesName (Char.ofNat n) = true := by
    decide +kernel
  have hc := hall c.toNat (startsName_lt h)
  rw [Char.ofNat_toNat] at hc
  exact hc h

theorem continuesName_of_mem {n : Text} (h : Expr.isIdentifier n = true) {c : Char} (hc : c ∈ n) :
    continuesName c = true := by
  cases n with
  | nil => cases h
  | cons d ds =>
    rw [Expr.isIdentifier, Bool.and_eq_true, List.all_eq_true] at h
    rcases List.mem_cons.mp hc with rfl | hc
    · exact continuesName_of_startsName h.1
    · exact h.2 c hc

theorem notMem_of_isIdentifier {n : Text} (h : Expr.isIdentifier n = true) {c : Char} (hc : continuesName c = false) :
    c ∉ n :=
  fun hmem => by rw [continuesName_of_mem h hmem] at hc; cases hc

/-- Nothing at the front of the text continues a name. -/
def EndsName (rest : Text) : Prop := rest.takeWhile continuesName = []

theorem scan_name {n : Text} (h : Expr.isIdentifier n = true) (p : Nat) {rest : Text} (hrest : EndsName rest) :
    scan p (n ++ rest) = (scan (p + n.length) rest).map (⟨.name, n, p⟩ :: ·) := by
  cases n with
  | nil => cases h
  | cons c cs =>
    rw [Expr.isIdentifier, Bool.and_eq_true, List.all_eq_true] at h
    rw [List.cons_append, scan, lexeme?_name h.1 h.2 hrest]
    simp [(startsName_head h.1).1]

theorem scan_op {c : Char} {rest : Text} (hblank : isBlank c = false) (h : lexeme? c rest = some (.op, 1)) (p : Nat) :
    scan p (c :: rest) = (scan (p + 1) rest).map (⟨.op, [c], p⟩ :: ·) := by
  rw [scan, h]
  simp [hblank]

/-- A point in front of anything but a digit is no part of a number. -/
theorem lexeme?_of_digitRun {rest : Text} (h : digitRun rest = 0) : lexeme? '.' rest = some (.op, 1) := by
  have hzero : digitRun ('.' :: rest) = 0 := by simp [digitRun, show isDigitChar '.' = false by decide]
  have hmantissa : mantissaLength ('.' :: rest) = 0 := by
    rw [mantissaLength_of_point (r := rest) (by rw [hzero]; rfl), if_pos ⟨hzero, h⟩]
  have hnumber : numberLength ('.' :: rest) = 0 := by simp only [numberLength, hmantissa]
  rw [lexeme?, hnumber]
  rfl

/-- The point of a path is no part of a number. -/
theorem lexeme?_point {n : Text} (h : Expr.isIdentifier n = true) (rest : Text) :
    lexeme? '.' (n ++ rest) = some (.op, 1) := by
  cases n with
  | nil => cases h
  | cons c cs =>
    rw [Expr.isIdentifier, Bool.and_eq_true] at h
    exact lexeme?_of_digitRun (by simp [digitRun, (startsName_head h.1).2.1])

end Token

/-- A path of names, of which the first is no literal. -/
structure Dotted where
  first : Text
  later : List Text
  named : ∀ s ∈ first :: later, Expr.isIdentifier s = true
  unliteral : Parser.nameLiteral? first = none

namespace Dotted

/-- Names, each with a point in front. -/
def pointed (later : List Text) : Text := later.flatMap ('.' :: ·)

def source (p : Dotted) : Text := p.first ++ pointed p.later

def pointedLexemes (later : List Text) : List (TokenKind × Text) :=
  later.flatMap fun s => [(.op, ['.']), (.name, s)]

theorem length_pointedLexemes (later : List Text) : (pointedLexemes later).length = 2 * later.length := by
  induction later with
  | nil => rfl
  | cons s later ih =>
    rw [pointedLexemes, List.flatMap_cons, List.length_append, ← pointedLexemes, ih]
    simp only [List.length_cons, List.length_nil]
    omega

theorem endsName_pointed {later : List Text} {rest : Text} (h : EndsName rest) : EndsName (pointed later ++ rest) := by
  cases later with
  | nil => exact h
  | cons s later => exact List.takeWhile_cons_of_neg (by decide)

theorem scan_pointed {later : List Text} (h : ∀ s ∈ later, Expr.isIdentifier s = true) (p : Nat) {rest : Text}
    (hrest : EndsName rest) : ∃ ts q, ts.map lexed = pointedLexemes later ∧
      scan p (pointed later ++ rest) = (scan q rest).map (ts ++ ·) := by
  induction later generalizing p with
  | nil => exact ⟨[], p, rfl, by cases hscan : scan p rest <;> simp [pointed, hscan, Except.map]⟩
  | cons s later ih =>
    obtain ⟨hs, hlater⟩ := List.forall_mem_cons.mp h
    obtain ⟨ts, q, hts, hscan⟩ := ih hlater (p + 1 + s.length)
    refine ⟨⟨.op, ['.'], p⟩ :: ⟨.name, s, p + 1⟩ :: ts, q, by rw [List.map_cons, List.map_cons, hts]; rfl, ?_⟩
    have htext : pointed (s :: later) ++ rest = '.' :: (s ++ (pointed later ++ rest)) := by simp [pointed]
    rw [htext, scan_op (by decide) (lexeme?_point hs _), scan_name hs _ (endsName_pointed hrest), hscan]
    cases scan q rest <;> rfl

def lexemes (p : Dotted) : List (TokenKind × Text) := (.name, p.first) :: pointedLexemes p.later

theorem scan_source (p : Dotted) (position : Nat) (rest : Text) (hrest : EndsName rest) :
    ∃ ts q, ts.map lexed = p.lexemes ∧ scan position (p.source ++ rest) = (scan q rest).map (ts ++ ·) := by
  obtain ⟨hfirst, hlater⟩ := List.forall_mem_cons.mp p.named
  obtain ⟨ts, q, hts, hscan⟩ := scan_pointed hlater (position + p.first.length) hrest
  refine ⟨⟨.name, p.first, position⟩ :: ts, q, by rw [List.map_cons, hts]; rfl, ?_⟩
  rw [source, List.append_assoc, scan_name hfirst position (endsName_pointed hrest), hscan]
  cases scan q rest <;> rfl

/-! Trees -/

/-- The member of a member. -/
def members (e : Expr) (later : List Text) : Expr := later.foldl (fun e s => .member e (.literal (.str s))) e

def tree (p : Dotted) : Expr := members (.name p.first) p.later

theorem depth_members (e : Expr) (he : 1 ≤ e.depth) (later : List Text) :
    (members e later).depth = e.depth + later.length := by
  induction later generalizing e with
  | nil => rfl
  | cons s later ih =>
    have hdepth : (Expr.member e (.literal (.str s))).depth = e.depth + 1 := by
      simp only [Expr.depth]
      omega
    rw [members, List.foldl_cons, ← members, ih _ (by omega), hdepth, List.length_cons]
    omega

theorem depth_tree (p : Dotted) : p.tree.depth = p.later.length + 1 := by
  rw [tree, depth_members (.name p.first) (Nat.le_refl 1), Expr.depth, Nat.add_comm]

open PageTemplate.Parser Grammar

theorem postfixRest_pointed {inner : Reader Expr} {later : List Text} {ts rest : List Token} (e : Expr)
    (hts : ts.map lexed = pointedLexemes later) (hrest : Stops postfixSymbols rest) {fuel : Nat}
    (hfuel : later.length ≤ fuel) : postfixRest inner fuel e (ts ++ rest) = .ok (members e later, rest) := by
  induction later generalizing ts e fuel with
  | nil =>
    obtain rfl := List.map_eq_nil_iff.mp hts
    exact postfixRest_of_stops hrest
  | cons s later ih =>
    obtain ⟨fuel, rfl⟩ : ∃ k, fuel = k + 1 := ⟨fuel - 1, by simp only [List.length_cons] at hfuel; omega⟩
    obtain ⟨t, us, rfl, ht, hus⟩ := List.map_eq_cons_iff.mp hts
    obtain ⟨u, vs, rfl, hu, hvs⟩ := List.map_eq_cons_iff.mp hus
    have hpoint : t.isOp ['.'] = true := Expr.isOp_of_lexed ht
    have hkey : Key u (.str s) := by
      obtain ⟨hkind, rfl⟩ := Prod.mk.inj hu
      exact .name hkind
    simp only [List.cons_append, postfixRest, hpoint, if_true, hkey.property, ok_bind]
    exact ih _ hvs (by simpa using hfuel)

theorem operand_of_lexemes (p : Dotted) {ts rest : List Token} (hts : ts.map lexed = p.lexemes)
    (hrest : Stops postfixSymbols rest) (levels : Nat) :
    operand (levels + 1) (ts ++ rest) = .ok (p.tree, rest) := by
  obtain ⟨t, us, rfl, ht, hus⟩ := List.map_eq_cons_iff.mp hts
  obtain ⟨hkind, hlexeme⟩ := Prod.mk.inj ht
  have hunary : unaryOp? t = none := Begins.unaryOp?_eq_none (.inr (.inr (.inl hkind)))
  have hprimary : primary (conditional levels) (t :: (us ++ rest)) = .ok (.name p.first, us ++ rest) := by
    simp only [primary, hkind, hlexeme, p.unliteral, Option.elim_none]
  have hlength : p.later.length ≤ (us ++ rest).length := by
    have hus' := congrArg List.length hus
    rw [List.length_map, length_pointedLexemes] at hus'
    rw [List.length_append]
    omega
  simp only [List.cons_append, operand, hunary, hprimary, ok_bind]
  exact postfixRest_pointed _ hus hrest hlength

/-- An operand that nothing continues is a whole expression. -/
theorem binary_of_operand {inner : Reader Expr} {levels : List (List Operator)} {ts rest : List Token} {e : Expr}
    (h : inner ts = .ok (e, rest)) (hrest : Stops (chainSymbols levels) rest) :
    binary inner levels ts = .ok (e, rest) := by
  induction levels with
  | nil => exact h
  | cons level levels ih =>
    have hlevel : Stops (level.map Operator.symbol) rest :=
      hrest.mono fun s hs => by
        simp only [chainSymbols, List.flatten_cons, List.map_append, List.mem_append]
        exact .inr (.inl hs)
    simp only [binary, chain, ih (hrest.mono (chainSymbols_tail_subset (level :: levels))), ok_bind]
    exact chainRest_of_stops hlevel

theorem conditional_of_operand {levels : Nat} {ts rest : List Token} {e : Expr}
    (h : operand levels ts = .ok (e, rest)) (hrest : Stops conditionalSymbols rest) :
    conditional (levels + 1) ts = .ok (e, rest) := by
  have hbinary : binary (operand levels) Operator.levels ts = .ok (e, rest) :=
    binary_of_operand h (hrest.mono (List.subset_cons_self _ _))
  cases rest with
  | nil => exact hrest.elim
  | cons t rest =>
    have ht : t.isOp ['?'] = false := hrest _ (by decide)
    simp only [conditional, hbinary, ok_bind, ht, Bool.false_eq_true, if_false]

theorem conditional_of_lexemes (p : Dotted) {ts rest : List Token} (hts : ts.map lexed = p.lexemes)
    (hrest : Stops conditionalSymbols rest) (levels : Nat) :
    conditional (levels + 2) (ts ++ rest) = .ok (p.tree, rest) :=
  conditional_of_operand (p.operand_of_lexemes hts (hrest.mono (by decide)) levels) hrest

theorem readAll_of_conditional {levels : Nat} {ts : List Token} {stop : Token} {e : Expr} (hstop : stop.kind = .stop)
    (h : conditional levels ts = .ok (e, [stop])) : readAll levels ts = .ok e := by
  simp only [readAll, h, ok_bind, hstop, if_true]

/-- A path alone. -/
theorem ofTextWithin_source (p : Dotted) (levels : Nat) :
    Expr.ofTextWithin (levels + 2) p.source = .ok p.tree := by
  obtain ⟨ts, q, hts, hscan⟩ := p.scan_source 0 [] rfl
  rw [List.append_nil, scan] at hscan
  rw [Expr.ofTextWithin, Token.ofText, hscan]
  exact readAll_of_conditional rfl (p.conditional_of_lexemes hts (stops_of_stop rfl) levels)

/-- A path in brackets. -/
theorem ofTextWithin_grouped (p : Dotted) (levels : Nat) :
    Expr.ofTextWithin (levels + 4) ('(' :: (p.source ++ [')'])) = .ok p.tree := by
  obtain ⟨ts, q, hts, hscan⟩ := p.scan_source 1 [')'] rfl
  have hclose : scan q [')'] = .ok [⟨.op, [')'], q⟩, ⟨.stop, [], q + 1⟩] := by
    rw [scan_op (by decide) rfl, scan]
    rfl
  have hopen : scan 0 ('(' :: (p.source ++ [')'])) =
      .ok (⟨.op, ['('], 0⟩ :: (ts ++ [⟨.op, [')'], q⟩, ⟨.stop, [], q + 1⟩])) := by
    rw [scan_op (by decide) rfl, hscan, hclose]
    rfl
  have hstops : Stops conditionalSymbols [⟨.op, [')'], q⟩, ⟨.stop, [], q + 1⟩] :=
    stops_cons (show Token.isOp [')'] ⟨.op, [')'], q⟩ = true from rfl) (by decide)
  have hinner := p.conditional_of_lexemes hts hstops levels
  have hgroup : operand (levels + 3) (⟨.op, ['('], 0⟩ :: (ts ++ [⟨.op, [')'], q⟩, ⟨.stop, [], q + 1⟩])) =
      .ok (p.tree, [⟨.stop, [], q + 1⟩]) := by
    have hunary : unaryOp? ⟨.op, ['('], 0⟩ = none := by decide
    have hclosing : expectOp [')'] [⟨.op, [')'], q⟩, ⟨.stop, [], q + 1⟩] = .ok [⟨.stop, [], q + 1⟩] := rfl
    simp only [operand, hunary, primary, if_true, hinner, ok_bind, hclosing]
    exact postfixRest_of_stops (stops_of_stop rfl)
  rw [Expr.ofTextWithin, Token.ofText, hopen]
  exact readAll_of_conditional rfl (conditional_of_operand hgroup (stops_of_stop rfl))

end Dotted

end PageTemplate
