import PageTemplate.Proofs.Grammar
set_option autoImplicit false
/-!
What is read is derived. On tokens that the end marker closes, every reader either takes a part that derives
its result and leaves the rest closed, or refuses them: for an error of syntax, or for a whole number with too
many digits. Either way it does not look behind the end marker: whatever is put there, it answers the same.
-/
namespace PageTemplate

/-- Errors that the order of the tokens makes. -/
def ParseError.isSyntax : ParseError → Bool
  | .expected _ _ | .expectedProperty _ | .unexpected _ _ | .unexpectedEnd => true
  | .stray _ | .numeral _ | .tooDeep => false

/-- A whole number with too many digits. -/
def Token.isOverlong (t : Token) : Bool :=
  t.kind == .number && t.lexeme.all isDigitChar && digitLimit < t.lexeme.length

theorem Token.isOp_iff {t : Token} {symbol : Text} : t.isOp symbol = true ↔ t.kind = .op ∧ t.lexeme = symbol := by
  simp [isOp]

theorem Token.kind_ne_stop_of_isOp {t : Token} {symbol : Text} (h : t.isOp symbol = true) : t.kind ≠ .stop := by
  rw [(isOp_iff.mp h).1]
  decide

namespace Parser

/-- Digits that are no literal are too many. -/
theorem numeral_eq_error {digits : Text} {err : ParseError} (h : numeral digits = .error err) :
    err = .numeral .tooManyDigits ∧ digitLimit < digits.length := by
  rw [numeral, readDigits] at h
  split at h
  · cases h
  · next hlong =>
    cases h
    exact ⟨rfl, Nat.lt_of_not_le hlong⟩

theorem numberLiteral_eq_error {t : Text} {err : ParseError} (h : numberLiteral t = .error err) :
    t.all isDigitChar = true ∧ numeral t = .error err := by
  rw [numberLiteral] at h
  split at h
  · next hdigits => exact ⟨hdigits, h⟩
  · cases h

end Parser

namespace Grammar

/-- The end marker stands at the end and nowhere else. -/
def Closed : List Token → Prop
  | [] => False
  | t :: ts => if t.kind = .stop then ts = [] else Closed ts

theorem Closed.tail {t : Token} {ts : List Token} (h : Closed (t :: ts)) (ht : t.kind ≠ .stop) : Closed ts := by
  simpa [Closed, ht] using h

theorem Closed.after {t : Token} {ts : List Token} {symbol : Text} (h : Closed (t :: ts))
    (ht : t.isOp symbol = true) : Closed ts :=
  h.tail (Token.kind_ne_stop_of_isOp ht)

theorem Closed.exists_cons {ts : List Token} (h : Closed ts) : ∃ t us, ts = t :: us := by
  cases ts with
  | nil => exact h.elim
  | cons t us => exact ⟨t, us, rfl⟩

theorem Closed.length_pos {ts : List Token} (h : Closed ts) : 0 < ts.length := by
  obtain ⟨t, us, rfl⟩ := h.exists_cons
  exact Nat.succ_pos _

/-- The tokens may be refused for this reason. -/
def Refused (ts : List Token) (err : ParseError) : Prop :=
  err.isSyntax = true ∨ err = .numeral .tooManyDigits ∧ ∃ t ∈ ts, t.isOverlong = true

theorem Refused.mono {ts us : List Token} {err : ParseError} (h : Refused ts err) (hsub : ts ⊆ us) : Refused us err :=
  h.imp_right fun ⟨herr, t, ht, hlong⟩ => ⟨herr, t, hsub ht, hlong⟩

/-- What a reader with enough fuel makes of closed tokens: a part that derives its result, or a reason to refuse
them, whatever follows the end marker. -/
inductive Reads {α : Type} (R : List Token → α → Prop) (p : Nat → Parser.Reader α) (ts : List Token) : Prop
  | done {us rest : List Token} {a : α} : ts = us ++ rest → Closed rest → R us a →
    (∀ more fuel, (ts ++ more).length ≤ fuel → p fuel (ts ++ more) = .ok (a, rest ++ more)) → Reads R p ts
  | stuck {err : ParseError} : Refused ts err →
    (∀ more fuel, (ts ++ more).length ≤ fuel → p fuel (ts ++ more) = .error err) → Reads R p ts

/-- The same of a reader without fuel, for tokens up to a number. -/
def ReadsUpTo {α : Type} (n : Nat) (R : List Token → α → Prop) (p : Parser.Reader α) : Prop :=
  ∀ ts, Closed ts → ts.length ≤ n → Reads R (fun _ => p) ts

namespace Reads

variable {α β : Type} {R : List Token → α → Prop} {S : List Token → β → Prop} {p : Nat → Parser.Reader α}
  {q : Nat → Parser.Reader β} {t : Token} {ts : List Token}

theorem mono {R' : List Token → α → Prop} (h : Reads R p ts) (hR : ∀ us a, R us a → R' us a) : Reads R' p ts := by
  cases h with
  | done hsplit hclosed hderives hrun => exact .done hsplit hclosed (hR _ _ hderives) hrun
  | stuck herr hrun => exact .stuck herr hrun

theorem pure {a : α} (hclosed : Closed ts) (ha : R [] a) : Reads R (fun _ ts => .ok (a, ts)) ts :=
  .done rfl hclosed ha fun _ _ _ => rfl

/-- As much fuel as there are tokens is enough. -/
theorem atLength (h : Reads R p ts) : Reads R (fun _ ts => p ts.length ts) ts := by
  cases h with
  | done hsplit hclosed hderives hrun => exact .done hsplit hclosed hderives fun more _ _ => hrun more _ (Nat.le_refl _)
  | stuck herr hrun => exact .stuck herr fun more _ _ => hrun more _ (Nat.le_refl _)

theorem exists_succ {fuel : Nat} {more : List Token} (hclosed : Closed ts) (h : (ts ++ more).length ≤ fuel) :
    ∃ k, fuel = k + 1 := by
  have hpos := hclosed.length_pos
  rw [List.length_append] at h
  exact ⟨fuel - 1, by omega⟩

/-- One reader after the other. -/
theorem bind {q : α → Nat → Parser.Reader β} {whole : Nat → Parser.Reader β} (hclosed : Closed ts)
    (heq : ∀ fuel ts, whole (fuel + 1) ts = p (fuel + 1) ts >>= fun x => q x.1 (fuel + 1) x.2) (hp : Reads R p ts)
    (hq : ∀ us rest a, ts = us ++ rest → Closed rest → R us a → Reads (fun vs b => S (us ++ vs) b) (q a) rest) :
    Reads S whole ts := by
  cases hp with
  | stuck herr hrun =>
    refine .stuck herr fun more fuel h => ?_
    obtain ⟨k, rfl⟩ := exists_succ hclosed h
    rw [heq, hrun more _ h]
    rfl
  | @done us rest a hsplit hrest ha hrun =>
    subst hsplit
    have hle : ∀ {more : List Token} {fuel : Nat},
        (us ++ rest ++ more).length ≤ fuel → (rest ++ more).length ≤ fuel := by
      intro more fuel h
      simp only [List.length_append] at h ⊢
      omega
    cases hq us rest a rfl hrest ha with
    | stuck herr hrun' =>
      refine .stuck (herr.mono (List.subset_append_right us rest)) fun more fuel h => ?_
      obtain ⟨k, rfl⟩ := exists_succ hclosed h
      rw [heq, hrun more _ h]
      exact hrun' more _ (hle h)
    | @done vs rest' b hsplit' hrest' hb hrun' =>
      have hwhole : us ++ rest = us ++ vs ++ rest' := by rw [hsplit', List.append_assoc]
      refine .done hwhole hrest' hb fun more fuel h => ?_
      obtain ⟨k, rfl⟩ := exists_succ hclosed h
      rw [heq, hrun more _ h]
      exact hrun' more _ (hle h)

/-- The first token is taken, and a unit of fuel with it. -/
theorem step {q : Nat → Parser.Reader α} (heq : ∀ fuel rest, p (fuel + 1) (t :: rest) = q fuel rest)
    (hq : Reads (fun vs a => R (t :: vs) a) q ts) : Reads R p (t :: ts) := by
  have hfuel : ∀ {more : List Token} {fuel : Nat}, (t :: ts ++ more).length ≤ fuel →
      ∃ k, fuel = k + 1 ∧ (ts ++ more).length ≤ k := by
    intro more fuel h
    simp only [List.cons_append, List.length_cons] at h
    exact ⟨fuel - 1, by omega, by omega⟩
  cases hq with
  | stuck herr hrun =>
    refine .stuck (herr.mono (List.subset_cons_self t ts)) fun more fuel h => ?_
    obtain ⟨k, rfl, hk⟩ := hfuel h
    exact (heq k _).trans (hrun more k hk)
  | @done us rest a hsplit hrest ha hrun =>
    have hwhole : t :: ts = t :: us ++ rest := by rw [hsplit, List.cons_append]
    refine .done hwhole hrest ha fun more fuel h => ?_
    obtain ⟨k, rfl, hk⟩ := hfuel h
    exact (heq k _).trans (hrun more k hk)

/-- The first token is left. -/
theorem keep {a : α} (heq : ∀ fuel rest, p (fuel + 1) (t :: rest) = .ok (a, t :: rest)) (hclosed : Closed (t :: ts))
    (ha : R [] a) : Reads R p (t :: ts) := by
  refine .done rfl hclosed ha fun more fuel h => ?_
  obtain ⟨k, rfl⟩ := exists_succ hclosed h
  exact heq k _

/-- The first token is not in order. -/
theorem refuse {e : ParseError} (heq : ∀ fuel rest, p (fuel + 1) (t :: rest) = .error e)
    (hclosed : Closed (t :: ts)) (he : Refused (t :: ts) e) : Reads R p (t :: ts) := by
  refine .stuck he fun more fuel h => ?_
  obtain ⟨k, rfl⟩ := exists_succ hclosed h
  exact heq k _

/-- A reader that does what another does from this token on. -/
theorem same {q : Nat → Parser.Reader α} (hclosed : Closed (t :: ts))
    (heq : ∀ fuel rest, p (fuel + 1) (t :: rest) = q (fuel + 1) (t :: rest)) (hq : Reads R q (t :: ts)) :
    Reads R p (t :: ts) := by
  cases hq with
  | stuck herr hrun =>
    refine .stuck herr fun more fuel h => ?_
    obtain ⟨k, rfl⟩ := exists_succ hclosed h
    exact (heq k _).trans (hrun more _ h)
  | done hsplit hrest ha hrun =>
    refine .done hsplit hrest ha fun more fuel h => ?_
    obtain ⟨k, rfl⟩ := exists_succ hclosed h
    exact (heq k _).trans (hrun more _ h)

theorem moreFuel (h : Reads R p ts) : Reads R (fun fuel => p (fuel + 1)) ts := by
  cases h with
  | stuck herr hrun => exact .stuck herr fun more fuel h => hrun more _ (Nat.le_succ_of_le h)
  | done hsplit hrest ha hrun => exact .done hsplit hrest ha fun more fuel h => hrun more _ (Nat.le_succ_of_le h)

/-- The first token is taken if it is the one expected. -/
theorem expecting {q : Nat → Parser.Reader α} (symbol : Text) (hclosed : Closed (t :: ts))
    (heq : ∀ fuel rest, p (fuel + 1) (t :: rest) = Parser.expectOp symbol (t :: rest) >>= q fuel)
    (hq : t.isOp symbol = true → Closed ts → Reads (fun vs a => R (t :: vs) a) q ts) : Reads R p (t :: ts) := by
  cases ht : t.isOp symbol with
  | true =>
    refine step (fun fuel rest => ?_) (hq ht (hclosed.after ht))
    simp only [heq, Parser.expectOp, ht]
    rfl
  | false =>
    refine refuse (e := .expected symbol t.position) (fun fuel rest => ?_) hclosed (.inl rfl)
    simp only [heq, Parser.expectOp, ht]
    rfl

end Reads

end Grammar

namespace Parser

/-- What a list is read as, from behind its first element. -/
def itemsBehind (inner : Reader Expr) (closer : Text) (e : Expr) (fuel : Nat) : Reader (List Expr)
  | t :: ts =>
    if t.isOp [','] then do
      let (es, rest) ← items inner closer (fuel - 1) ts
      return (e :: es, rest)
    else return ([e], ← expectOp closer (t :: ts))
  | [] => .error .unexpectedEnd

theorem items_succ (inner : Reader Expr) (closer : Text) (fuel : Nat) (ts : List Token) :
    items inner closer (fuel + 1) ts = inner ts >>= fun x => itemsBehind inner closer x.1 (fuel + 1) x.2 := by
  rw [items]
  refine congrArg _ (funext fun x => ?_)
  obtain ⟨e, _ | ⟨t, rest⟩⟩ := x <;> rfl

/-- What an expression is read as, from behind a test. -/
def branches (inner : Reader Expr) (test : Expr) : Reader Expr
  | t :: ts =>
    if t.isOp ['?'] then do
      let (yes, afterYes) ← inner ts
      let (no, afterNo) ← inner (← expectOp [':'] afterYes)
      return (.conditional test yes no, afterNo)
    else .ok (test, t :: ts)
  | [] => .ok (test, [])

theorem conditional_succ (levels : Nat) (ts : List Token) : conditional (levels + 1) ts =
    binary (operand levels) Operator.levels ts >>= fun x => branches (conditional levels) x.1 x.2 := by
  rw [conditional]
  refine congrArg _ (funext fun x => ?_)
  obtain ⟨test, _ | ⟨t, rest⟩⟩ := x <;> rfl

end Parser

namespace Grammar

section Parts

variable {n : Nat}

/-- The operators of one level and their right operands, behind a first operand. -/
theorem chainRest_reads {level : List Operator} {levels : List (List Operator)} {operand : Parser.Reader Expr}
    (hop : ReadsUpTo n (Chain levels) operand) (ts : List Token) (hclosed : Closed ts) (hn : ts.length ≤ n)
    (us : List Token) (left : Expr) (hleft : Chain (level :: levels) us left) :
    Reads (fun vs e => Chain (level :: levels) (us ++ vs) e)
      (fun fuel => Parser.chainRest level operand fuel left) ts := by
  induction hk : ts.length using Nat.strongRecOn generalizing ts us left with
  | ind k ih =>
    subst hk
    obtain ⟨t, ts, rfl⟩ := hclosed.exists_cons
    cases hfind : level.find? fun o => t.isOp o.symbol with
    | none =>
      refine Reads.keep (fun fuel rest => ?_) hclosed (by rwa [List.append_nil])
      simp only [Parser.chainRest, hfind]
    | some o =>
      have ht : t.isOp o.symbol = true := by simpa using List.find?_some hfind
      have hts := hclosed.after ht
      rw [List.length_cons] at hn
      refine Reads.step (q := fun fuel ts => operand ts >>= fun x =>
        Parser.chainRest level operand fuel (o.apply left x.1) x.2) (fun fuel rest => ?_) ?_
      · simp only [Parser.chainRest, hfind]
      refine Reads.bind (q := fun right fuel => Parser.chainRest level operand fuel (o.apply left right)) hts
        (fun _ _ => rfl) (hop ts hts (by omega)) ?_
      rintro vs rest right rfl hrest hright
      have hjoin := Chain.join hleft (List.mem_of_find?_eq_some hfind) ht hright
      rw [List.length_append] at hn
      have hlt : rest.length < (t :: (vs ++ rest)).length := by
        rw [List.length_cons, List.length_append]
        omega
      refine (ih _ hlt rest hrest (by omega) _ _ hjoin rfl).mono fun ws e h => ?_
      simpa only [List.append_assoc, List.cons_append] using h

theorem binary_reads {operand : Parser.Reader Expr} (hop : ReadsUpTo n Prefixed operand)
    (levels : List (List Operator)) : ReadsUpTo n (Chain levels) (Parser.binary operand levels) := by
  induction levels with
  | nil => exact fun ts hclosed hn => (hop ts hclosed hn).mono fun _ _ h => .operand h
  | cons level levels ih =>
    intro ts hclosed hn
    refine Reads.bind (q := fun left _ rest => Parser.chainRest level (Parser.binary operand levels) rest.length left rest)
      hclosed (fun _ _ => rfl) (ih ts hclosed hn) ?_
    rintro us rest left rfl hrest hleft
    rw [List.length_append] at hn
    exact (chainRest_reads ih rest hrest (by omega) us left (.tighter hleft)).atLength

variable {inner : Parser.Reader Expr} (hinner : ReadsUpTo n Conditional inner)

include hinner

theorem items_reads (closer : Text) (ts : List Token) (hclosed : Closed ts) (hn : ts.length ≤ n) :
    Reads (fun us es => ∃ vs t, us = vs ++ [t] ∧ t.isOp closer = true ∧ Sequence vs es)
      (Parser.items inner closer) ts := by
  induction hk : ts.length using Nat.strongRecOn generalizing ts with
  | ind k ih =>
    subst hk
    refine Reads.bind (q := Parser.itemsBehind inner closer) hclosed
      (fun _ _ => Parser.items_succ inner closer _ _) (hinner ts hclosed hn) ?_
    rintro us rest e rfl hrest he
    obtain ⟨t, rest, rfl⟩ := hrest.exists_cons
    cases ht : t.isOp [','] with
    | true =>
      have hrest' := hrest.after ht
      simp only [List.length_append, List.length_cons] at hn ih
      refine Reads.step (q := fun fuel ts => Parser.items inner closer fuel ts >>= fun x => .ok (e :: x.1, x.2))
        (fun fuel rest => ?_) ?_
      · simp only [Parser.itemsBehind, ht, if_true, Nat.add_sub_cancel]
        rfl
      refine Reads.bind (q := fun es _ rest => .ok (e :: es, rest)) hrest' (fun _ _ => rfl)
        (ih rest.length (by omega) rest hrest' (by omega) rfl) ?_
      rintro _ rest' es rfl hrest'' ⟨vs, c, rfl, hc, hes⟩
      refine Reads.pure hrest'' ⟨us ++ t :: vs, c, ?_, hc, .more he ht hes⟩
      simp
    | false =>
      refine Reads.expecting (q := fun _ ts => .ok ([e], ts)) closer hrest (fun fuel rest => ?_) fun hc hrest' =>
        Reads.pure hrest' ⟨us, t, rfl, hc, .last he⟩
      simp only [Parser.itemsBehind, ht]
      rfl

theorem listUpTo_reads (closer : Text) :
    ReadsUpTo n (fun us es => ∃ vs t, us = vs ++ [t] ∧ t.isOp closer = true ∧ Items vs es)
      (Parser.listUpTo inner closer) := by
  intro ts hclosed hn
  obtain ⟨t, ts, rfl⟩ := hclosed.exists_cons
  cases ht : t.isOp closer with
  | true =>
    refine Reads.step (q := fun _ ts => .ok ([], ts)) (fun fuel rest => ?_)
      (Reads.pure (hclosed.after ht) ⟨[], t, rfl, ht, .none⟩)
    simp only [Parser.listUpTo, ht, if_true]
  | false =>
    refine Reads.same (q := fun _ ts => Parser.items inner closer ts.length ts) hclosed (fun fuel rest => ?_)
      ((items_reads hinner closer (t :: ts) hclosed hn).atLength.mono ?_)
    · simp only [Parser.listUpTo, ht, List.length_cons, Bool.false_eq_true, if_false]
    · rintro us es ⟨vs, c, rfl, hc, hes⟩
      exact ⟨vs, c, rfl, hc, .some hes⟩

omit hinner in
theorem refused_numeral {t : Token} {ts : List Token} {err : ParseError} (hkind : t.kind = .number)
    (hdigits : t.lexeme.all isDigitChar = true) (h : Parser.numeral t.lexeme = .error err) :
    Refused (t :: ts) err := by
  obtain ⟨rfl, hlong⟩ := Parser.numeral_eq_error h
  exact .inr ⟨rfl, t, List.mem_cons_self, by simp [Token.isOverlong, hkind, hdigits, hlong]⟩

omit hinner in
theorem property_reads (ts : List Token) (hclosed : Closed ts) :
    Reads (fun us key => ∃ t, us = [t] ∧ Key t key) (fun _ => Parser.property) ts := by
  obtain ⟨t, ts, rfl⟩ := hclosed.exists_cons
  by_cases hname : t.kind = .name
  · refine Reads.step (q := fun _ ts => .ok (.str t.lexeme, ts)) (fun _ rest => ?_)
      (Reads.pure (hclosed.tail (by rw [hname]; decide)) ⟨t, rfl, .name hname⟩)
    simp only [Parser.property, hname, if_true]
  by_cases hindex : t.kind = .number ∧ t.lexeme.all isDigitChar = true
  · cases hl : Parser.numeral t.lexeme with
    | ok l =>
      refine Reads.step (q := fun _ ts => .ok (l, ts)) (fun _ rest => ?_)
        (Reads.pure (hclosed.tail (by rw [hindex.1]; decide)) ⟨t, rfl, .index hindex.1 hindex.2 hl⟩)
      simp [Parser.property, hindex.1, hindex.2, hl, Except.map]
    | error err =>
      refine Reads.refuse (e := err) (fun _ rest => ?_) hclosed (refused_numeral hindex.1 hindex.2 hl)
      simp [Parser.property, hindex.1, hindex.2, hl, Except.map]
  · refine Reads.refuse (e := .expectedProperty t.position) (fun _ rest => ?_) hclosed (.inl rfl)
    simp only [Parser.property, hname, if_false, Bool.and_eq_true, decide_eq_true_eq, hindex]

theorem postfixRest_reads (ts : List Token) (hclosed : Closed ts) (hn : ts.length ≤ n + 1) (us : List Token)
    (e : Expr) (he : Postfixed us e) :
    Reads (fun vs e' => Postfixed (us ++ vs) e') (fun fuel => Parser.postfixRest inner fuel e) ts := by
  induction hk : ts.length using Nat.strongRecOn generalizing ts us e with
  | ind k ih =>
    subst hk
    obtain ⟨t, ts, rfl⟩ := hclosed.exists_cons
    have hgo : ∀ vs rest e', Closed rest → rest.length ≤ ts.length → Postfixed (us ++ t :: vs) e' →
        Reads (fun ws e => Postfixed (us ++ t :: (vs ++ ws)) e) (fun fuel => Parser.postfixRest inner fuel e') rest := by
      intro vs rest e' hrest hle he'
      rw [List.length_cons] at hn ih
      refine (ih rest.length (by omega) rest hrest (by omega) _ _ he' rfl).mono fun ws e h => ?_
      simpa using h
    rw [List.length_cons] at hn
    cases hpoint : t.isOp ['.'] with
    | true =>
      have hts := hclosed.after hpoint
      refine Reads.step (q := fun fuel ts => Parser.property ts >>= fun x =>
        Parser.postfixRest inner fuel (.member e (.literal x.1)) x.2) (fun fuel rest => ?_) ?_
      · simp only [Parser.postfixRest, hpoint, if_true]
      refine Reads.bind (q := fun key fuel => Parser.postfixRest inner fuel (.member e (.literal key))) hts
        (fun _ _ => rfl) (property_reads ts hts) ?_
      rintro _ rest key rfl hrest ⟨k, rfl, hkey⟩
      exact hgo [k] rest _ hrest (by simp) (.member he hpoint hkey)
    | false =>
    cases hopen : t.isOp ['['] with
    | true =>
      have hts := hclosed.after hopen
      refine Reads.step (q := fun fuel ts => inner ts >>= fun x => Parser.expectOp [']'] x.2 >>= fun rest =>
        Parser.postfixRest inner fuel (.member e x.1) rest) (fun fuel rest => ?_) ?_
      · simp only [Parser.postfixRest, hpoint, hopen, if_true, Bool.false_eq_true, if_false]
      refine Reads.bind (q := fun key fuel rest => Parser.expectOp [']'] rest >>= fun rest =>
        Parser.postfixRest inner fuel (.member e key) rest) hts (fun _ _ => rfl) (hinner ts hts (by omega)) ?_
      rintro vs rest key rfl hrest hkey
      obtain ⟨c, rest, rfl⟩ := hrest.exists_cons
      refine Reads.expecting (q := fun fuel => Parser.postfixRest inner (fuel + 1) (.member e key)) [']'] hrest
        (fun _ _ => rfl) fun hc hrest' => ?_
      have hread := hgo (vs ++ [c]) rest _ hrest' (by simp; omega) (.index he hopen hkey hc)
      simpa using hread.moreFuel
    | false =>
    cases hcall : t.isOp ['('] with
    | true =>
      have hts := hclosed.after hcall
      refine Reads.step (q := fun fuel ts => Parser.listUpTo inner [')'] ts >>= fun x =>
        Parser.postfixRest inner fuel (.call e x.1) x.2) (fun fuel rest => ?_) ?_
      · simp only [Parser.postfixRest, hpoint, hopen, hcall, if_true, Bool.false_eq_true, if_false]
      refine Reads.bind (q := fun args fuel => Parser.postfixRest inner fuel (.call e args)) hts
        (fun _ _ => rfl) (listUpTo_reads hinner [')'] ts hts (by omega)) ?_
      rintro _ rest args rfl hrest ⟨vs, c, rfl, hc, hargs⟩
      exact hgo (vs ++ [c]) rest _ hrest (by simp; omega) (.call he hcall hargs hc)
    | false =>
      refine Reads.keep (fun fuel rest => ?_) hclosed (by rwa [List.append_nil])
      simp only [Parser.postfixRest, hpoint, hopen, hcall, Bool.false_eq_true, if_false]

theorem primary_reads (ts : List Token) (hclosed : Closed ts) (hn : ts.length ≤ n + 1) :
    Reads Primary (fun _ => Parser.primary inner) ts := by
  obtain ⟨t, ts, rfl⟩ := hclosed.exists_cons
  rw [List.length_cons] at hn
  have hnext : t.kind ≠ .stop → Closed ts := hclosed.tail
  cases hkind : t.kind with
  | number =>
    cases hl : Parser.numberLiteral t.lexeme with
    | ok l =>
      refine Reads.step (q := fun _ ts => .ok (.literal l, ts)) (fun _ rest => ?_)
        (Reads.pure (hnext (by rw [hkind]; decide)) (.number hkind hl))
      simp only [Parser.primary, hkind, hl, Except.map]
    | error err =>
      obtain ⟨hdigits, hnumeral⟩ := Parser.numberLiteral_eq_error hl
      refine Reads.refuse (e := err) (fun _ rest => ?_) hclosed (refused_numeral hkind hdigits hnumeral)
      simp only [Parser.primary, hkind, hl, Except.map]
  | str =>
    refine Reads.step (q := fun _ ts => .ok (.literal (.str (Parser.stringBody t.lexeme)), ts)) (fun _ rest => ?_)
      (Reads.pure (hnext (by rw [hkind]; decide)) (.str hkind))
    simp only [Parser.primary, hkind]
  | name =>
    refine Reads.step (q := fun _ ts => .ok ((Parser.nameLiteral? t.lexeme).elim (.name t.lexeme) .literal, ts))
      (fun _ rest => ?_) (Reads.pure (hnext (by rw [hkind]; decide)) ?_)
    · simp only [Parser.primary, hkind]
    · cases hl : Parser.nameLiteral? t.lexeme with
      | none => exact .name hkind hl
      | some l => exact .literal hkind hl
  | stop =>
    refine Reads.refuse (e := .unexpectedEnd) (fun _ rest => ?_) hclosed (.inl rfl)
    simp only [Parser.primary, hkind]
  | op =>
    have hts := hnext (by rw [hkind]; decide)
    by_cases hgroup : t.lexeme = ['(']
    · refine Reads.step (q := fun _ ts => inner ts >>= fun x => Parser.expectOp [')'] x.2 >>= fun rest =>
        .ok (x.1, rest)) (fun _ rest => ?_) ?_
      · simp only [Parser.primary, hkind, hgroup, if_true]
        rfl
      refine Reads.bind (q := fun e _ rest => Parser.expectOp [')'] rest >>= fun rest => .ok (e, rest)) hts
        (fun _ _ => rfl) (hinner ts hts (by omega)) ?_
      rintro us rest e rfl hrest he
      obtain ⟨c, rest, rfl⟩ := hrest.exists_cons
      exact Reads.expecting (q := fun _ rest => .ok (e, rest)) [')'] hrest (fun _ _ => rfl) fun hc hrest' =>
        Reads.pure hrest' (.group (Token.isOp_iff.mpr ⟨hkind, hgroup⟩) he hc)
    by_cases harray : t.lexeme = ['[']
    · refine Reads.step (q := fun _ ts => Parser.listUpTo inner [']'] ts >>= fun x => .ok (.array x.1, x.2))
        (fun _ rest => ?_) ?_
      · simp only [Parser.primary, hkind, harray, if_true]
        rfl
      refine Reads.bind (q := fun es _ rest => .ok (.array es, rest)) hts
        (fun _ _ => rfl) (listUpTo_reads hinner [']'] ts hts (by omega)) ?_
      rintro _ rest es rfl hrest ⟨vs, c, rfl, hc, hes⟩
      exact Reads.pure hrest (by simpa using .array (Token.isOp_iff.mpr ⟨hkind, harray⟩) hes hc)
    · refine Reads.refuse (e := .unexpected t.lexeme t.position) (fun _ rest => ?_) hclosed (.inl rfl)
      simp only [Parser.primary, hkind, hgroup, harray, if_false]

end Parts

/-- What may follow the test of a conditional, given how the branches are read. -/
theorem branches_reads {n : Nat} {inner : Parser.Reader Expr} (hinner : ReadsUpTo n Conditional inner) {us : List Token}
    {test : Expr} (htest : Chain Operator.levels us test) (ts : List Token) (hclosed : Closed ts)
    (hn : ts.length ≤ n + 1) :
    Reads (fun vs e => Conditional (us ++ vs) e) (fun _ => Parser.branches inner test) ts := by
  obtain ⟨t, ts, rfl⟩ := hclosed.exists_cons
  rw [List.length_cons] at hn
  cases ht : t.isOp ['?'] with
  | false =>
    refine Reads.keep (fun _ rest => ?_) hclosed (by simpa using .test htest)
    simp only [Parser.branches, ht, Bool.false_eq_true, if_false]
  | true =>
    have hts := hclosed.after ht
    refine Reads.step (q := fun _ ts => inner ts >>= fun x => Parser.expectOp [':'] x.2 >>= fun rest =>
      inner rest >>= fun y => .ok (.conditional test x.1 y.1, y.2)) (fun _ rest => ?_) ?_
    · simp only [Parser.branches, ht, if_true]
      rfl
    refine Reads.bind (q := fun yes _ rest => Parser.expectOp [':'] rest >>= fun rest =>
      inner rest >>= fun y => .ok (.conditional test yes y.1, y.2)) hts (fun _ _ => rfl) (hinner ts hts (by omega)) ?_
    rintro vs rest yes rfl hrest hyes
    obtain ⟨c, rest, rfl⟩ := hrest.exists_cons
    refine Reads.expecting (q := fun _ rest => inner rest >>= fun y => .ok (.conditional test yes y.1, y.2)) [':']
      hrest (fun _ _ => rfl) fun hc hrest' => ?_
    simp only [List.length_append, List.length_cons] at hn
    refine Reads.bind (q := fun no _ rest => .ok (.conditional test yes no, rest)) hrest' (fun _ _ => rfl)
      (hinner rest hrest' (by omega)) ?_
    rintro ws rest' no rfl hrest'' hno
    exact Reads.pure hrest'' (by simpa using .choice htest ht hyes hc hno)

/-- Each level that a reader may open is worth half a token. -/
theorem conditional_operand_reads (levels : Nat) :
    ReadsUpTo (levels / 2) Conditional (Parser.conditional levels) ∧
      ReadsUpTo ((levels + 1) / 2) Prefixed (Parser.operand levels) := by
  induction levels with
  | zero =>
    refine ⟨fun ts hclosed hn => ?_, fun ts hclosed hn => ?_⟩
    · exact absurd hclosed.length_pos (by omega)
    · exact absurd hclosed.length_pos (by omega)
  | succ levels ih =>
    obtain ⟨hconditional, hoperand⟩ := ih
    refine ⟨fun ts hclosed hn => ?_, fun ts hclosed hn => ?_⟩
    · refine Reads.bind (q := fun test _ => Parser.branches (Parser.conditional levels) test) hclosed
        (fun _ _ => Parser.conditional_succ levels _) (binary_reads hoperand Operator.levels ts hclosed hn) ?_
      rintro us rest test rfl hrest htest
      rw [List.length_append] at hn
      exact branches_reads hconditional htest rest hrest (by omega)
    · obtain ⟨t, ts, rfl⟩ := hclosed.exists_cons
      rw [List.length_cons] at hn
      cases hop : Parser.unaryOp? t with
      | some op =>
        have ht : t.isOp op.symbol = true := by simpa using List.find?_some hop
        have hts := hclosed.after ht
        refine Reads.step (q := fun _ ts => Parser.operand levels ts >>= fun x => .ok (.unary op x.1, x.2))
          (fun _ rest => ?_) ?_
        · simp only [Parser.operand, hop]
          rfl
        refine Reads.bind (q := fun e _ rest => .ok (.unary op e, rest)) hts (fun _ _ => rfl)
          (hoperand ts hts (by omega)) ?_
        rintro us rest e rfl hrest he
        exact Reads.pure hrest (by simpa using .unary ht he)
      | none =>
        refine Reads.same (q := fun _ ts => Parser.primary (Parser.conditional levels) ts >>= fun x =>
          Parser.postfixRest (Parser.conditional levels) x.2.length x.1 x.2) hclosed (fun _ rest => ?_) ?_
        · simp only [Parser.operand, hop]
        refine Reads.bind (q := fun e _ rest => Parser.postfixRest (Parser.conditional levels) rest.length e rest) hclosed
          (fun _ _ => rfl) (primary_reads hconditional (t :: ts) hclosed (by rw [List.length_cons]; omega)) ?_
        intro us rest e hsplit hrest he
        have hle : rest.length ≤ levels / 2 + 1 := by
          have hlength := congrArg List.length hsplit
          rw [List.length_cons, List.length_append] at hlength
          omega
        exact ((postfixRest_reads hconditional rest hrest hle us e (.primary he)).mono fun _ _ => .plain).atLength

/-- With enough levels, closed tokens are read as a sentence or refused. What follows the end marker makes no
difference. -/
theorem readAll_reads (levels : Nat) (ts : List Token) (hclosed : Closed ts) (hlevels : 2 * ts.length ≤ levels) :
    (∃ e, Sentence ts e ∧ ∀ more, Parser.readAll levels (ts ++ more) = .ok e) ∨
      ∃ err, Refused ts err ∧ ∀ more, Parser.readAll levels (ts ++ more) = .error err := by
  cases (conditional_operand_reads levels).1 ts hclosed (by omega) with
  | stuck herr hrun =>
    refine .inr ⟨_, herr, fun more => ?_⟩
    rw [Parser.readAll, hrun more _ (Nat.le_refl _)]
    rfl
  | @done us rest e hsplit hrest he hrun =>
    obtain ⟨t, rest, rfl⟩ := hrest.exists_cons
    have hread : ∀ more, Parser.readAll levels (ts ++ more) =
        if t.kind = .stop then .ok e else .error (.unexpected t.lexeme t.position) := by
      intro more
      rw [Parser.readAll, hrun more _ (Nat.le_refl _)]
      rfl
    by_cases ht : t.kind = .stop
    · have hend : rest = [] := by simpa [Closed, ht] using hrest
      subst hend
      exact .inl ⟨e, ⟨us, t, hsplit, ht, he⟩, fun more => by rw [hread, if_pos ht]⟩
    · exact .inr ⟨.unexpected t.lexeme t.position, .inl rfl, fun more => by rw [hread, if_neg ht]⟩

end Grammar

end PageTemplate
