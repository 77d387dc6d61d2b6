import PageTemplate.Proofs.Deriving
import PageTemplate.Proofs.Lexeme
set_option autoImplicit false
/-!
What is derived is read. A reader that meets a derivation takes just its tokens, if what follows cannot
continue it. Together with what is read being derived, the trees of a source are those its tokens derive, and
there is at most one.
-/
namespace PageTemplate

theorem Operator.symbol_injective {o o' : Operator} (h : o.symbol = o'.symbol) : o = o' := by
  have hinj : ∀ o ∈ Operator.levels.flatten, ∀ o' ∈ Operator.levels.flatten, o.symbol = o'.symbol → o = o' := by
    decide
  have hall : ∀ o : Operator, o ∈ Operator.levels.flatten := by
    rintro (op | op) <;> cases op <;> decide
  exact hinj o (hall o) o' (hall o') h

theorem UnaryOp.symbol_injective {o o' : UnaryOp} (h : o.symbol = o'.symbol) : o = o' := by
  cases o <;> cases o' <;> first | rfl | exact absurd h (by decide)

namespace Grammar

/-- What continues an operand. -/
def postfixSymbols : List Text := [['.'], ['['], ['(']]

/-- What continues operands that are joined by the operators of these levels. -/
def chainSymbols (levels : List (List Operator)) : List Text :=
  postfixSymbols ++ levels.flatten.map Operator.symbol

/-- What continues a whole expression. -/
def conditionalSymbols : List Text := ['?'] :: chainSymbols Operator.levels

/-- There is a next token, and it is not one of these symbols. -/
def Stops (symbols : List Text) : List Token → Prop
  | [] => False
  | t :: _ => ∀ s ∈ symbols, t.isOp s = false

theorem Stops.mono {symbols more : List Text} {ts : List Token} (h : Stops more ts) (hsub : symbols ⊆ more) :
    Stops symbols ts := by
  cases ts with
  | nil => exact h.elim
  | cons t ts => exact fun s hs => h s (hsub hs)

theorem Stops.ne_nil {symbols : List Text} {ts : List Token} (h : Stops symbols ts) : ts ≠ [] := by
  rintro rfl
  exact h

theorem isOp_unique {t : Token} {s s' : Text} (h : t.isOp s = true) (hne : s ≠ s') : t.isOp s' = false := by
  rw [Bool.eq_false_iff]
  intro h'
  exact hne ((Token.isOp_iff.mp h).2.symm.trans (Token.isOp_iff.mp h').2)

theorem isOp_of_kind {t : Token} {s : Text} (h : t.kind ≠ .op) : t.isOp s = false := by
  simp [Token.isOp, h]

theorem stops_cons {symbols : List Text} {t : Token} {ts : List Token} {symbol : Text} (ht : t.isOp symbol = true)
    (hsymbol : symbol ∉ symbols) : Stops symbols (t :: ts) :=
  fun _ hs => isOp_unique ht fun heq => hsymbol (heq ▸ hs)

theorem stops_of_stop {symbols : List Text} {t : Token} {ts : List Token} (ht : t.kind = .stop) :
    Stops symbols (t :: ts) :=
  fun _ _ => isOp_of_kind (by rw [ht]; decide)

theorem Closed.append {us rest : List Token} (h : Closed (us ++ rest)) (hrest : rest ≠ []) : Closed rest := by
  induction us with
  | nil => exact h
  | cons u us ih =>
    refine ih (h.tail fun hstop => ?_)
    have hnil : us ++ rest = [] := by simpa [Closed, hstop] using h
    exact hrest (List.append_eq_nil_iff.mp hnil).2

theorem Reads.fuel_irrelevant {α : Type} {R : List Token → α → Prop} {p : Nat → Parser.Reader α} {ts : List Token}
    (h : Reads R p ts) {k m : Nat} (hk : ts.length ≤ k) (hm : ts.length ≤ m) : p k ts = p m ts := by
  cases h with
  | done _ _ _ hrun =>
    have hrun' := fun fuel => hrun [] fuel
    simp only [List.append_nil] at hrun'
    rw [hrun' k hk, hrun' m hm]
  | stuck _ hrun =>
    have hrun' := fun fuel => hrun [] fuel
    simp only [List.append_nil] at hrun'
    rw [hrun' k hk, hrun' m hm]

section Heads

/-- An expression begins with what begins an operand or with a prefix operator. -/
def Opens (t : Token) : Prop := Begins t ∨ ∃ op : UnaryOp, t.isOp op.symbol = true

theorem Prefixed.opens {us : List Token} {e : Expr} (h : Prefixed us e) : ∃ t vs, us = t :: vs ∧ Opens t := by
  cases h with
  | unary ht _ => exact ⟨_, _, rfl, .inr ⟨_, ht⟩⟩
  | plain h =>
    obtain ⟨t, vs, rfl, ht⟩ := h.begins
    exact ⟨t, vs, rfl, .inl ht⟩

theorem Chain.opens {levels : List (List Operator)} {us : List Token} {e : Expr} (h : Chain levels us e) :
    ∃ t vs, us = t :: vs ∧ Opens t := by
  match h with
  | .operand h => exact h.opens
  | .tighter h => exact Chain.opens h
  | .join h _ _ _ =>
    obtain ⟨t, vs, rfl, ht⟩ := Chain.opens h
    exact ⟨t, _, rfl, ht⟩

theorem Conditional.opens {us : List Token} {e : Expr} (h : Conditional us e) : ∃ t vs, us = t :: vs ∧ Opens t := by
  cases h with
  | test h => exact h.opens
  | choice h _ _ _ _ =>
    obtain ⟨t, vs, rfl, ht⟩ := h.opens
    exact ⟨t, _, rfl, ht⟩

theorem Sequence.opens {us : List Token} {es : List Expr} (h : Sequence us es) : ∃ t vs, us = t :: vs ∧ Opens t := by
  cases h with
  | last h => exact h.opens
  | more h _ _ =>
    obtain ⟨t, vs, rfl, ht⟩ := h.opens
    exact ⟨t, _, rfl, ht⟩

theorem Begins.unaryOp?_eq_none {t : Token} (h : Begins t) : Parser.unaryOp? t = none := by
  rw [Parser.unaryOp?, List.find?_eq_none]
  intro op _
  have hop : op.symbol ≠ ['('] ∧ op.symbol ≠ ['['] := by cases op <;> decide
  rw [Bool.not_eq_true]
  obtain h | h | h | h | h := h
  · exact isOp_of_kind (by rw [h]; decide)
  · exact isOp_of_kind (by rw [h]; decide)
  · exact isOp_of_kind (by rw [h]; decide)
  · exact isOp_unique h hop.1.symm
  · exact isOp_unique h hop.2.symm

theorem Opens.isOp_closer {t : Token} (h : Opens t) {closer : Text} (hcloser : closer = [')'] ∨ closer = [']']) :
    t.isOp closer = false := by
  have hne : closer ≠ ['('] ∧ closer ≠ ['['] ∧ ∀ op : UnaryOp, closer ≠ op.symbol := by
    obtain rfl | rfl := hcloser
    · exact ⟨by decide, by decide, fun op => by cases op <;> decide⟩
    · exact ⟨by decide, by decide, fun op => by cases op <;> decide⟩
  obtain (h | h | h | h | h) | ⟨op, h⟩ := h
  · exact isOp_of_kind (by rw [h]; decide)
  · exact isOp_of_kind (by rw [h]; decide)
  · exact isOp_of_kind (by rw [h]; decide)
  · exact isOp_unique h hne.1.symm
  · exact isOp_unique h hne.2.1.symm
  · exact isOp_unique h (hne.2.2 op).symm

end Heads

section Continuing

/-- After an expression of some levels, the operators of the weakest of them are left to be read. -/
def chainOn (operand : Parser.Reader Expr) : List (List Operator) → Expr → Parser.Reader Expr
  | [], e, rest => .ok (e, rest)
  | level :: levels, e, rest => Parser.chainRest level (Parser.binary operand levels) rest.length e rest

theorem chainSymbols_tail_subset (levels : List (List Operator)) : chainSymbols levels.tail ⊆ chainSymbols levels := by
  cases levels with
  | nil => exact List.Subset.refl _
  | cons level levels =>
    intro s hs
    simp only [List.tail_cons, chainSymbols, List.mem_append, List.flatten_cons, List.map_append] at hs ⊢
    exact hs.imp_right .inr

theorem find?_symbol {α : Type} {symbol : α → Text} (hsymbol : ∀ {a b : α}, symbol a = symbol b → a = b)
    {as : List α} {a : α} {t : Token} (ha : a ∈ as) (ht : t.isOp (symbol a) = true) :
    as.find? (fun a => t.isOp (symbol a)) = some a := by
  have hsome : (as.find? fun a => t.isOp (symbol a)).isSome := List.find?_isSome.mpr ⟨a, ha, ht⟩
  obtain ⟨b, hb⟩ := Option.isSome_iff_exists.mp hsome
  have ht' : t.isOp (symbol b) = true := by simpa using List.find?_some hb
  rw [hb, hsymbol ((Token.isOp_iff.mp ht').2.symm.trans (Token.isOp_iff.mp ht).2)]

theorem unaryOp?_eq_some {op : UnaryOp} {t : Token} (ht : t.isOp op.symbol = true) : Parser.unaryOp? t = some op :=
  find?_symbol UnaryOp.symbol_injective (by cases op <;> decide) ht

theorem chainRest_of_stops {level : List Operator} {operand : Parser.Reader Expr} {fuel : Nat} {e : Expr}
    {rest : List Token} (h : Stops (level.map Operator.symbol) rest) :
    Parser.chainRest level operand fuel e rest = .ok (e, rest) := by
  cases fuel with
  | zero => rfl
  | succ fuel =>
    cases rest with
    | nil => exact h.elim
    | cons t ts =>
      have hnone : level.find? (fun o => t.isOp o.symbol) = none := by
        rw [List.find?_eq_none]
        intro o ho
        rw [h _ (List.mem_map_of_mem ho)]
        decide
      simp only [Parser.chainRest, hnone]

theorem chainOn_of_stops {operand : Parser.Reader Expr} {levels : List (List Operator)} {e : Expr} {rest : List Token}
    (h : Stops (chainSymbols levels) rest) : chainOn operand levels e rest = .ok (e, rest) := by
  cases levels with
  | nil => rfl
  | cons level levels =>
    refine chainRest_of_stops (h.mono fun s hs => ?_)
    simp only [chainSymbols, List.flatten_cons, List.map_append, List.mem_append]
    exact .inr (.inl hs)

theorem postfixRest_of_stops {inner : Parser.Reader Expr} {fuel : Nat} {e : Expr} {rest : List Token}
    (h : Stops postfixSymbols rest) : Parser.postfixRest inner fuel e rest = .ok (e, rest) := by
  cases fuel with
  | zero => rfl
  | succ fuel =>
    cases rest with
    | nil => exact h.elim
    | cons t ts =>
      have hpoint : t.isOp ['.'] = false := h _ (by decide)
      have hopen : t.isOp ['['] = false := h _ (by decide)
      have hcall : t.isOp ['('] = false := h _ (by decide)
      simp only [Parser.postfixRest, hpoint, hopen, hcall, Bool.false_eq_true, if_false]

theorem Key.property {t : Token} {key : Literal} (h : Key t key) (rest : List Token) :
    Parser.property (t :: rest) = .ok (key, rest) := by
  cases h with
  | name ht => simp only [Parser.property, ht, if_true]
  | index ht hdigits hl => simp [Parser.property, ht, hdigits, hl, Except.map]

theorem symbol_notMem_chainSymbols {level : List Operator} {levels : List (List Operator)}
    (hlevels : level :: levels <:+ Operator.levels) {o : Operator} (ho : o ∈ level) :
    o.symbol ∉ chainSymbols levels := by
  obtain ⟨weaker, hweaker⟩ := hlevels
  have hnodup : (postfixSymbols ++ Operator.levels.flatten.map Operator.symbol).Nodup := by decide
  rw [← hweaker, List.flatten_append, List.flatten_cons, List.map_append, List.map_append] at hnodup
  have hlevel : o.symbol ∈ level.map Operator.symbol := List.mem_map_of_mem ho
  rw [chainSymbols, List.mem_append, not_or]
  simp only [List.nodup_append, List.mem_append] at hnodup
  exact ⟨fun h => hnodup.2.2 _ h _ (.inr (.inl hlevel)) rfl, fun h => hnodup.2.1.2.1.2.2 _ hlevel _ h rfl⟩

end Continuing

section Complete

theorem Closed.behind {us rest : List Token} {t : Token} {symbol : Text} (h : Closed (us ++ t :: rest))
    (ht : t.isOp symbol = true) : Closed rest :=
  (h.append (List.cons_ne_nil t rest)).after ht

theorem ok_bind {α β : Type} (a : α) (f : α → Except ParseError β) : (Except.ok a >>= f) = f a := rfl

theorem expectOp_of_isOp {t : Token} {symbol : Text} (ht : t.isOp symbol = true) (rest : List Token) :
    Parser.expectOp symbol (t :: rest) = .ok rest := by
  simp only [Parser.expectOp, ht, if_true]

/-- Fuel beyond the number of tokens makes no difference to operators of a level. -/
theorem chainRest_atLength {n : Nat} {level : List Operator} {levels : List (List Operator)} {us rest : List Token}
    {e : Expr} (he : Chain (level :: levels) us e) (hclosed : Closed rest) (hn : 2 * rest.length ≤ n + 1) {fuel : Nat}
    (hfuel : rest.length ≤ fuel) :
    Parser.chainRest level (Parser.binary (Parser.operand n) levels) fuel e rest =
      chainOn (Parser.operand n) (level :: levels) e rest :=
  have hreads := binary_reads (conditional_operand_reads n).2 levels
  (chainRest_reads hreads rest hclosed (by omega) us e he).fuel_irrelevant hfuel (Nat.le_refl _)

theorem postfixRest_atLength {n : Nat} {us rest : List Token} {e : Expr} (he : Postfixed us e) (hclosed : Closed rest)
    (hn : 2 * rest.length ≤ n + 2) {fuel : Nat} (hfuel : rest.length ≤ fuel) :
    Parser.postfixRest (Parser.conditional n) fuel e rest =
      Parser.postfixRest (Parser.conditional n) rest.length e rest :=
  (postfixRest_reads (conditional_operand_reads n).1 rest hclosed (by omega) us e he).fuel_irrelevant
    hfuel (Nat.le_refl _)

mutual

theorem Conditional.complete {us : List Token} {e : Expr} (h : Conditional us e) {n : Nat} {rest : List Token}
    (hn : 2 * (us ++ rest).length ≤ n) (hclosed : Closed (us ++ rest)) (hrest : Stops conditionalSymbols rest) :
    Parser.conditional n (us ++ rest) = .ok (e, rest) := by
  have hpos := hclosed.length_pos
  obtain ⟨n, rfl⟩ : ∃ k, n = k + 1 := ⟨n - 1, by omega⟩
  match h with
  | .test h =>
    have hchain : Stops (chainSymbols Operator.levels) rest := hrest.mono (List.subset_cons_self _ _)
    have hread := h.complete (n := n) (by omega) hclosed (List.suffix_refl _) (hchain.mono (by decide))
    rw [chainOn_of_stops hchain] at hread
    cases rest with
    | nil => exact hrest.elim
    | cons t rest =>
      have ht : t.isOp ['?'] = false := hrest _ (by decide)
      simp only [Parser.conditional, hread, ok_bind, ht, Bool.false_eq_true, if_false]
  | @Conditional.choice us vs ws q c _ _ _ htest hq hyes hc hno =>
    simp only [List.append_assoc, List.cons_append, List.length_append, List.length_cons] at hn hclosed ⊢
    have hbehind := hclosed.behind hq
    have hstop : Stops (chainSymbols Operator.levels) (q :: (vs ++ c :: (ws ++ rest))) := stops_cons hq (by decide)
    have hread := htest.complete (n := n) (by simp; omega) hclosed (List.suffix_refl _) (hstop.mono (by decide))
    rw [chainOn_of_stops hstop] at hread
    have hreadYes := hyes.complete (n := n) (by simp; omega) hbehind (stops_cons hc (by decide))
    have hreadNo := hno.complete (n := n) (by simp; omega) (hbehind.behind hc) hrest
    simp only [Parser.conditional, hread, ok_bind, hq, if_true, hreadYes, expectOp_of_isOp hc, hreadNo]
    rfl

theorem Chain.complete {levels : List (List Operator)} {us : List Token} {e : Expr} (h : Chain levels us e) {n : Nat}
    {rest : List Token} (hn : 2 * (us ++ rest).length ≤ n + 1) (hclosed : Closed (us ++ rest))
    (hlevels : levels <:+ Operator.levels) (hrest : Stops (chainSymbols levels.tail) rest) :
    Parser.binary (Parser.operand n) levels (us ++ rest) = chainOn (Parser.operand n) levels e rest := by
  match h with
  | .operand h => exact h.complete hn hclosed hrest
  | @Chain.tighter level levels us e h =>
    have hsuffix : levels <:+ Operator.levels := (List.suffix_cons level levels).trans hlevels
    have hstop : Stops (chainSymbols levels) rest := hrest
    have hread := h.complete hn hclosed hsuffix (hstop.mono (chainSymbols_tail_subset levels))
    rw [chainOn_of_stops hstop] at hread
    simp only [Parser.binary, Parser.chain, hread, ok_bind, chainOn]
  | @Chain.join level levels us vs t o l r hl ho ht hr =>
    simp only [List.append_assoc, List.cons_append] at hn hclosed ⊢
    have hsuffix : levels <:+ Operator.levels := (List.suffix_cons level levels).trans hlevels
    have hbehind := hclosed.behind ht
    have hrestClosed := hbehind.append hrest.ne_nil
    have hreadLeft := hl.complete hn hclosed hlevels (stops_cons ht (symbol_notMem_chainSymbols hlevels ho))
    simp only [List.length_append, List.length_cons] at hn
    have hstop : Stops (chainSymbols levels) rest := hrest
    have hreadRight := hr.complete (n := n) (by simp; omega) hbehind hsuffix (hstop.mono (chainSymbols_tail_subset levels))
    rw [chainOn_of_stops hstop] at hreadRight
    have hfuel : rest.length ≤ (vs ++ rest).length := by simp
    rw [hreadLeft, chainOn, List.length_cons]
    simp only [Parser.chainRest, find?_symbol Operator.symbol_injective ho ht, hreadRight, ok_bind]
    exact chainRest_atLength (.join hl ho ht hr) hrestClosed (by omega) hfuel

theorem Prefixed.complete {us : List Token} {e : Expr} (h : Prefixed us e) {n : Nat} {rest : List Token}
    (hn : 2 * (us ++ rest).length ≤ n + 1) (hclosed : Closed (us ++ rest)) (hrest : Stops postfixSymbols rest) :
    Parser.operand n (us ++ rest) = .ok (e, rest) := by
  have hpos := hclosed.length_pos
  obtain ⟨n, rfl⟩ : ∃ k, n = k + 1 := ⟨n - 1, by omega⟩
  match h with
  | .unary ht h =>
    simp only [List.cons_append, List.length_cons] at hn hclosed
    have hread := h.complete (n := n) (by omega) (hclosed.after ht) hrest
    simp only [List.cons_append, Parser.operand, unaryOp?_eq_some ht, hread, ok_bind]
    rfl
  | .plain h =>
    have hread := h.complete (n := n) (by omega) hclosed hrest.ne_nil
    rw [postfixRest_of_stops hrest] at hread
    obtain ⟨t, vs, rfl, ht⟩ := h.begins
    simp only [List.cons_append, Parser.operand, ht.unaryOp?_eq_none]
    exact hread

theorem Postfixed.complete {us : List Token} {e : Expr} (h : Postfixed us e) {n : Nat} {rest : List Token}
    (hn : 2 * (us ++ rest).length ≤ n + 2) (hclosed : Closed (us ++ rest)) (hrest : rest ≠ []) :
    (Parser.primary (Parser.conditional n) (us ++ rest) >>= fun x =>
      Parser.postfixRest (Parser.conditional n) x.2.length x.1 x.2) =
      Parser.postfixRest (Parser.conditional n) rest.length e rest := by
  match h with
  | .primary h => rw [h.complete hn hclosed, ok_bind]
  | @Postfixed.member us point t e key h hpoint hkey =>
    simp only [List.append_assoc, List.cons_append, List.nil_append] at hn hclosed ⊢
    have hrestClosed : Closed rest := Closed.append (show Closed ([t] ++ rest) from hclosed.behind hpoint) hrest
    have hread := h.complete hn hclosed (List.cons_ne_nil _ _)
    simp only [List.length_append, List.length_cons] at hn
    rw [hread, List.length_cons]
    simp only [Parser.postfixRest, hpoint, if_true, hkey.property, ok_bind]
    exact postfixRest_atLength (.member h hpoint hkey) hrestClosed (by omega) (by simp)
  | @Postfixed.index us vs opener closer e key h ho hkey hc =>
    simp only [List.append_assoc, List.cons_append, List.nil_append] at hn hclosed ⊢
    have hbehind := hclosed.behind ho
    have hrestClosed := hbehind.behind hc
    have hread := h.complete hn hclosed (List.cons_ne_nil _ _)
    simp only [List.length_append, List.length_cons] at hn
    have hreadKey := hkey.complete (n := n) (by simp; omega) hbehind (stops_cons hc (by decide))
    have hpoint : opener.isOp ['.'] = false := isOp_unique ho (by decide)
    rw [hread, List.length_cons]
    simp only [Parser.postfixRest, hpoint, ho, if_true, Bool.false_eq_true, if_false, hreadKey, ok_bind,
      expectOp_of_isOp hc]
    exact postfixRest_atLength (.index h ho hkey hc) hrestClosed (by omega) (by simp; omega)
  | @Postfixed.call us vs opener closer e args h ho hargs hc =>
    simp only [List.append_assoc, List.cons_append, List.nil_append] at hn hclosed ⊢
    have hbehind := hclosed.behind ho
    have hrestClosed := hbehind.behind hc
    have hread := h.complete hn hclosed (List.cons_ne_nil _ _)
    simp only [List.length_append, List.length_cons] at hn
    have hreadArgs := hargs.complete (n := n) (by simp; omega) hbehind (.inl rfl) hc
    have hpoint : opener.isOp ['.'] = false := isOp_unique ho (by decide)
    have hindex : opener.isOp ['['] = false := isOp_unique ho (by decide)
    rw [hread, List.length_cons]
    simp only [Parser.postfixRest, hpoint, hindex, ho, if_true, Bool.false_eq_true, if_false, hreadArgs, ok_bind]
    exact postfixRest_atLength (.call h ho hargs hc) hrestClosed (by omega) (by simp; omega)

theorem Primary.complete {us : List Token} {e : Expr} (h : Primary us e) {n : Nat} {rest : List Token}
    (hn : 2 * (us ++ rest).length ≤ n + 2) (hclosed : Closed (us ++ rest)) :
    Parser.primary (Parser.conditional n) (us ++ rest) = .ok (e, rest) := by
  match h with
  | .number ht hl => simp [Parser.primary, ht, hl, Except.map]
  | .str ht => simp [Parser.primary, ht]
  | .literal ht hl => simp [Parser.primary, ht, hl]
  | .name ht hl => simp [Parser.primary, ht, hl]
  | @Primary.group us opener closer e ho h hc =>
    obtain ⟨hkind, hlexeme⟩ := Token.isOp_iff.mp ho
    simp only [List.append_assoc, List.cons_append, List.nil_append, List.length_cons] at hn hclosed ⊢
    have hread := h.complete (n := n) (by omega) (hclosed.after ho) (stops_cons hc (by decide))
    simp only [Parser.primary, hkind, hlexeme, if_true, hread, ok_bind, expectOp_of_isOp hc]
    rfl
  | @Primary.array us opener closer es ho h hc =>
    obtain ⟨hkind, hlexeme⟩ := Token.isOp_iff.mp ho
    have hne : (['['] : Text) ≠ ['('] := by decide
    simp only [List.append_assoc, List.cons_append, List.nil_append, List.length_cons] at hn hclosed ⊢
    have hread := h.complete (n := n) (by omega) (hclosed.after ho) (.inr rfl) hc
    simp only [Parser.primary, hkind, hlexeme, hne, if_true, if_false, hread, ok_bind]
    rfl

theorem Items.complete {us : List Token} {es : List Expr} (h : Items us es) {n : Nat} {c : Token} {closer : Text}
    {rest : List Token} (hn : 2 * (us ++ c :: rest).length ≤ n) (hclosed : Closed (us ++ c :: rest))
    (hcloser : closer = [')'] ∨ closer = [']']) (hc : c.isOp closer = true) :
    Parser.listUpTo (Parser.conditional n) closer (us ++ c :: rest) = .ok (es, rest) := by
  match h with
  | .none => simp [Parser.listUpTo, hc]
  | .some h =>
    have hread := h.complete hn hclosed hcloser hc (Nat.le_refl _)
    obtain ⟨t, vs, rfl, ht⟩ := h.opens
    simp only [List.cons_append, List.length_cons] at hread ⊢
    simp only [Parser.listUpTo, ht.isOp_closer hcloser, Bool.false_eq_true, if_false, hread]

theorem Sequence.complete {us : List Token} {es : List Expr} (h : Sequence us es) {n : Nat} {c : Token} {closer : Text}
    {rest : List Token} (hn : 2 * (us ++ c :: rest).length ≤ n) (hclosed : Closed (us ++ c :: rest))
    (hcloser : closer = [')'] ∨ closer = [']']) (hc : c.isOp closer = true) {fuel : Nat}
    (hfuel : (us ++ c :: rest).length ≤ fuel) :
    Parser.items (Parser.conditional n) closer fuel (us ++ c :: rest) = .ok (es, rest) := by
  have hpos := hclosed.length_pos
  obtain ⟨fuel, rfl⟩ : ∃ k, fuel = k + 1 := ⟨fuel - 1, by omega⟩
  have hends : closer ∉ conditionalSymbols ∧ closer ≠ [','] := by
    obtain rfl | rfl := hcloser <;> decide
  match h with
  | .last h =>
    have hread := h.complete hn hclosed (stops_cons hc hends.1)
    simp only [Parser.items, hread, ok_bind, isOp_unique hc hends.2, Bool.false_eq_true, if_false, expectOp_of_isOp hc]
    rfl
  | @Sequence.more us vs comma e es h hcomma hs =>
    simp only [List.append_assoc, List.cons_append] at hn hclosed hfuel ⊢
    have hread := h.complete hn hclosed (stops_cons hcomma (by decide))
    have hbehind := hclosed.behind hcomma
    rw [List.length_append, List.length_cons] at hn hfuel
    have hless : (vs ++ c :: rest).length ≤ fuel := by omega
    have hreadMore := hs.complete (n := n) (by omega) hbehind hcloser hc hless
    simp only [Parser.items, hread, ok_bind, hcomma, if_true, hreadMore]
    rfl

end

end Complete

theorem Sentence.readAll {ts : List Token} {e : Expr} (h : Sentence ts e) (hclosed : Closed ts) {levels : Nat}
    (hlevels : 2 * ts.length ≤ levels) : Parser.readAll levels ts = .ok e := by
  obtain ⟨us, stop, rfl, hstop, he⟩ := h
  simp only [Parser.readAll, he.complete hlevels hclosed (stops_of_stop hstop), ok_bind, hstop, if_true]

end Grammar

namespace Token

theorem lexeme?_kind {c : Char} {rest : Text} {kind : TokenKind} {n : Nat} (h : lexeme? c rest = some (kind, n)) :
    kind ≠ .stop := by
  unfold lexeme? at h
  split at h
  · cases h
    decide
  · split at h
    · cases h
      decide
    · split at h
      · cases h
        decide
      · obtain ⟨m, _, hm⟩ := Option.map_eq_some_iff.mp h
        cases hm
        decide

/-- The tokens of a text are closed, and there are no more of them than characters, the end marker aside. -/
theorem scan_closed (position : Nat) (t : Text) {ts : List Token} (h : scan position t = .ok ts) :
    Grammar.Closed ts ∧ ts.length ≤ t.length + 1 := by
  fun_induction scan position t generalizing ts with
  | case1 position =>
    cases h
    simp [Grammar.Closed]
  | case2 position c cs hblank ih =>
    obtain ⟨hclosed, hlength⟩ := ih h
    exact ⟨hclosed, by rw [List.length_cons]; omega⟩
  | case3 position c cs hblank hnone => cases h
  | case4 position c cs hblank kind n hlexeme ih =>
    cases hscan : scan (position + n) (cs.drop (n - 1)) with
    | error s =>
      rw [hscan] at h
      cases h
    | ok us =>
      rw [hscan] at h
      cases h
      obtain ⟨hclosed, hlength⟩ := ih hscan
      rw [List.length_drop] at hlength
      have hkind := lexeme?_kind hlexeme
      exact ⟨by simpa [Grammar.Closed, hkind] using hclosed, by simp only [List.length_cons]; omega⟩

end Token

theorem Expr.ofText_of_sentence {source : Text} {ts : List Token} {e : Expr} (h : Token.ofText source = .ok ts)
    (he : Grammar.Sentence ts e) : Expr.ofText source = .ok e := by
  obtain ⟨hclosed, hlength⟩ := Token.scan_closed 0 source h
  simp only [Expr.ofText, Expr.ofTextWithin, h]
  exact he.readAll hclosed (by omega)

/-- A source that starts with too many digits is refused there. -/
theorem Parser.readAll_of_overlong {t : Token} (hkind : t.kind = .number) (hdigits : t.lexeme.all isDigitChar = true)
    (hlong : digitLimit < t.lexeme.length) (levels : Nat) (ts : List Token) :
    readAll (levels + 2) (t :: ts) = .error (.numeral .tooManyDigits) := by
  have hliteral : numberLiteral t.lexeme = .error (.numeral .tooManyDigits) := (if_pos hdigits).trans (numeral_of_lt hlong)
  have hprimary (inner : Reader Expr) : primary inner (t :: ts) = .error (.numeral .tooManyDigits) := by
    simp only [primary, hkind, hliteral, Except.map]
  have hoperand : operand (levels + 1) (t :: ts) = .error (.numeral .tooManyDigits) := by
    rw [operand, Grammar.Begins.unaryOp?_eq_none (.inl hkind), hprimary]
    rfl
  have hbinary (ls : List (List Operator)) :
      binary (operand (levels + 1)) ls (t :: ts) = .error (.numeral .tooManyDigits) := by
    induction ls with
    | nil => exact hoperand
    | cons level ls ih =>
      rw [binary, chain, ih]
      rfl
  rw [readAll, conditional, hbinary]
  rfl

theorem Token.ofText_natText (n : Nat) :
    ofText (natText n) = .ok [⟨.number, natText n, 0⟩, ⟨.stop, [], (natText n).length⟩] := by
  have hscan := scan_lexeme (isLexeme_natText n) 0 [] trivial
  rw [List.append_nil, scan, Nat.zero_add] at hscan
  exact hscan

theorem Expr.ofText_natText_of_lt {n : Nat} (h : digitLimit < (natText n).length) :
    ofText (natText n) = .error (.numeral .tooManyDigits) := by
  rw [ofText, ofTextWithin, Token.ofText_natText]
  exact Parser.readAll_of_overlong rfl (List.all_eq_true.mpr fun _ => isDigitChar_of_mem_natText) h _ _

theorem Expr.sentence_of_ofText {source : Text} {ts : List Token} {e : Expr} (htokens : Token.ofText source = .ok ts)
    (h : Expr.ofText source = .ok e) : Grammar.Sentence ts e := by
  obtain ⟨hclosed, hlength⟩ := Token.scan_closed 0 source htokens
  have hread : Parser.readAll (2 * source.length + 2) (ts ++ []) = .ok e := by
    rw [List.append_nil]
    simpa only [Expr.ofText, Expr.ofTextWithin, htokens] using h
  obtain ⟨e', he', hrun⟩ | ⟨err, -, hrun⟩ := Grammar.readAll_reads (2 * source.length + 2) ts hclosed (by omega)
  · rw [hrun []] at hread
    exact Except.ok.inj hread ▸ he'
  · rw [hrun []] at hread
    cases hread

/-- A source whose tokens can be told apart is read as the tree that the tokens derive, of which there is at most
one; if they derive none, the error is one of syntax, or a whole number among the tokens has too many digits. What
stands behind the end marker is never looked at. -/
theorem Expr.ofText_iff_sentence {source : Text} {ts : List Token} (h : Token.ofText source = .ok ts) :
    (∀ e, Expr.ofText source = .ok e ↔ Grammar.Sentence ts e) ∧
    (∀ e e', Grammar.Sentence ts e → Grammar.Sentence ts e' → e = e') ∧
    ((¬ ∃ e, Grammar.Sentence ts e) → ∃ err, Expr.ofText source = .error err ∧ Grammar.Refused ts err) ∧
    ∀ more, Parser.readAll (2 * source.length + 2) (ts ++ more) = Expr.ofText source := by
  obtain ⟨hclosed, hlength⟩ := Token.scan_closed 0 source h
  have hsource : Expr.ofText source = Parser.readAll (2 * source.length + 2) ts := by
    simp only [Expr.ofText, Expr.ofTextWithin, h]
  have hcomplete : ∀ e, Grammar.Sentence ts e → Expr.ofText source = .ok e := fun _ => Expr.ofText_of_sentence h
  have hunique : ∀ e e', Grammar.Sentence ts e → Grammar.Sentence ts e' → e = e' := fun e e' he he' =>
    Except.ok.inj ((hcomplete e he).symm.trans (hcomplete e' he'))
  obtain ⟨e, he, hrun⟩ | ⟨err, herr, hrun⟩ := Grammar.readAll_reads (2 * source.length + 2) ts hclosed (by omega)
  · refine ⟨fun e' => ⟨sentence_of_ofText h, hcomplete e'⟩, hunique, fun hnone => absurd ⟨e, he⟩ hnone, fun more => ?_⟩
    rw [hrun more, hcomplete e he]
  · have hfail : Expr.ofText source = .error err := by
      have hrun' := hrun []
      rwa [List.append_nil, ← hsource] at hrun'
    refine ⟨fun e' => ⟨sentence_of_ofText h, hcomplete e'⟩, hunique, fun _ => ⟨err, hfail, herr⟩, fun more => ?_⟩
    rw [hrun more, hfail]

/-- The tokens of `f(1,)`. -/
def trailingComma : List Token :=
  [⟨.name, text "f", 0⟩, ⟨.op, ['('], 1⟩, ⟨.number, text "1", 2⟩, ⟨.op, [','], 3⟩, ⟨.op, [')'], 4⟩, ⟨.stop, [], 5⟩]

theorem Expr.ofText_iff_sentence_trailingComma :
    Token.ofText (text "f(1,)") = .ok trailingComma ∧
    (¬ ∃ e, Grammar.Sentence trailingComma e) ∧
      ∃ err, Expr.ofText (text "f(1,)") = .error err ∧ err.isSyntax = true := by
  have htokens : Token.ofText (text "f(1,)") = .ok trailingComma := by
    have hread : (Token.ofText (text "f(1,)")).toOption = some trailingComma := by decide +kernel
    cases h : Token.ofText (text "f(1,)") with
    | error s => rw [h] at hread; cases hread
    | ok ts => rw [h] at hread; rw [Option.some.inj hread]
  have hfails : (Expr.ofText (text "f(1,)")).toOption.isNone = true := by decide +kernel
  obtain ⟨hread, _, herror, _⟩ := Expr.ofText_iff_sentence htokens
  have hnone : ¬ ∃ e, Grammar.Sentence trailingComma e := by
    rintro ⟨e, he⟩
    rw [(hread e).mpr he] at hfails
    cases hfails
  have hbrief : ∀ t ∈ trailingComma, t.isOverlong = false := by decide
  obtain ⟨err, hfail, herr | ⟨-, t, ht, hlong⟩⟩ := herror hnone
  · exact ⟨htokens, hnone, err, hfail, herr⟩
  · rw [hbrief t ht] at hlong
    cases hlong

/-- Digits in any number are tokens, but too many of them are neither a tree nor an error of syntax. -/
theorem Expr.ofText_iff_sentence_limit :
    (∃ ts, Token.ofText (natText (10 ^ digitLimit)) = .ok ts) ∧
    Expr.ofText (natText (10 ^ digitLimit)) = .error (.numeral .tooManyDigits) ∧
    (ParseError.numeral .tooManyDigits).isSyntax = false := by
  refine ⟨⟨_, Token.ofText_natText _⟩, ?_, rfl⟩
  exact Expr.ofText_natText_of_lt (digitLimit_lt_length_natText (Nat.le_refl _))

end PageTemplate
