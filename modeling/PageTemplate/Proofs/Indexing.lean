import PageTemplate.Proofs.Dotted
set_option autoImplicit false
/-!
Indices in digits. Between brackets behind a name, a member, an index or a call, digits are read as an index. Right
behind a point they are taken for the decimals of a number and the source is refused; a blank between the point and
the digits is enough to keep them apart.
-/
namespace PageTemplate

open Token

namespace Token

/-- Letters and closing brackets. No token that ends with one of them goes on with a point or an opening bracket. -/
def isFinal (c : Char) : Bool := c.isAlpha || c == ')' || c == ']'

def EndsFinal (t : Text) : Prop := ∀ c ∈ t.getLast?, isFinal c = true

instance (t : Text) : Decidable (EndsFinal t) := decidable_of_iff (t.getLast?.all isFinal = true) (Option.all_eq_true ..)

/-- A text that begins with a point or an opening bracket, if it begins at all. -/
def Continues (t : Text) : Prop := ∀ c ∈ t.head?, c = '.' ∨ c = '['

theorem EndsFinal.of_suffix {t u : Text} (h : EndsFinal t) (hu : u <:+ t) : EndsFinal u := by
  obtain ⟨v, rfl⟩ := hu
  cases u with
  | nil => exact fun c hc => nomatch hc
  | cons d u => exact fun c hc => h c (by rw [List.getLast?_append, hc]; rfl)

theorem isFinal_head {c : Char} (h : isFinal c = true) :
    isDigitChar c = false ∧ c ≠ '.' := by
  simp only [isFinal, Bool.or_eq_true, beq_iff_eq] at h
  obtain (h | rfl) | rfl := h
  · have hname : startsName c = true := by simp [startsName, h]
    exact ⟨(startsName_head hname).2.1, (startsName_head hname).2.2.1⟩
  · decide
  · decide

theorem digitRun_le (t : Text) : digitRun t ≤ t.length := (List.takeWhile_prefix _).length_le

theorem mantissaLength_le (t : Text) : mantissaLength t ≤ t.length := by
  by_cases h : ∃ r, t.drop (digitRun t) = '.' :: r
  · obtain ⟨r, hr⟩ := h
    have hrun := digitRun_le r
    have hlength := congrArg List.length hr
    rw [List.length_drop, List.length_cons] at hlength
    rw [mantissaLength_of_point hr]
    split <;> omega
  · rw [mantissaLength_of_ne fun r hr => h ⟨r, hr⟩]
    exact digitRun_le t

theorem exponentLength_le (t : Text) : exponentLength t ≤ t.length := by
  match t with
  | [] => exact Nat.le_refl 0
  | [c] => simp [exponentLength]
  | c :: s :: r =>
    have hr := digitRun_le r
    have hsr := digitRun_le (s :: r)
    simp only [exponentLength, List.length_cons] at hsr ⊢
    split
    · split
      · split <;> omega
      · split <;> omega
    · omega

theorem numberLength_le (t : Text) : numberLength t ≤ t.length := by
  have hmantissa := mantissaLength_le t
  rw [numberLength]
  split
  · exact Nat.zero_le _
  · next n hn =>
    have hexponent := exponentLength_le (t.drop (n + 1))
    rw [List.length_drop] at hexponent
    omega

theorem takeWhile_append {p : Char → Bool} {rest : Text} (h : ∀ c ∈ rest.head?, p c = false) (t : Text) :
    (t ++ rest).takeWhile p = t.takeWhile p := by
  have hrest : rest.takeWhile p = [] := by
    cases rest with
    | nil => rfl
    | cons c rest => exact List.takeWhile_cons_of_neg (by rw [h c rfl]; decide)
  induction t with
  | nil => exact hrest
  | cons c t ih => simp only [List.cons_append, List.takeWhile_cons, ih]

section Stable

variable {rest : Text} (hrest : Continues rest)

include hrest

theorem Continues.apply {p : Char → Bool} (hpoint : p '.' = false) (hbracket : p '[' = false) :
    ∀ c ∈ rest.head?, p c = false := by
  intro c hc
  obtain rfl | rfl := hrest c hc
  · exact hpoint
  · exact hbracket

theorem Continues.digitRun_append (t : Text) : digitRun (t ++ rest) = digitRun t := by
  rw [digitRun, takeWhile_append (hrest.apply (by decide) (by decide)), digitRun]

theorem Continues.exponentLength_append (t : Text) : exponentLength (t ++ rest) = exponentLength t := by
  have hbehind : exponentLength rest = 0 ∧ ∀ c, exponentLength (c :: rest) = 0 := by
    cases rest with
    | nil => exact ⟨rfl, fun c => by simp [exponentLength]⟩
    | cons d r =>
      have hd := hrest d rfl
      have hrun : digitRun (d :: r) = 0 := hrest.digitRun_append []
      refine ⟨?_, fun c => ?_⟩
      · obtain rfl | rfl := hd <;> simp [exponentLength]
      · obtain rfl | rfl := hd <;> simp [exponentLength, hrun]
  match t with
  | [] => exact hbehind.1
  | [c] => rw [List.singleton_append, hbehind.2]; simp [exponentLength]
  | c :: s :: r =>
    have hr := hrest.digitRun_append r
    have hsr := hrest.digitRun_append (s :: r)
    rw [List.cons_append] at hsr
    simp only [List.cons_append, exponentLength, hr, hsr]

theorem Continues.mantissaLength_append {t : Text} (ht : t ≠ []) (hends : EndsFinal t) :
    mantissaLength (t ++ rest) = mantissaLength t := by
  have hdrop : (t ++ rest).drop (digitRun (t ++ rest)) = t.drop (digitRun t) ++ rest := by
    rw [hrest.digitRun_append, List.drop_append_of_le_length (digitRun_le t)]
  cases hbehind : t.drop (digitRun t) with
  | nil =>
    -- Digits all the way would end with a digit.
    have hlength : (t.takeWhile isDigitChar).length = t.length :=
      Nat.le_antisymm (digitRun_le t) (List.drop_eq_nil_iff.1 hbehind)
    have hrun : t.takeWhile isDigitChar = t := (List.takeWhile_prefix _).eq_of_length hlength
    have hall : t.all isDigitChar = true := hrun ▸ List.all_takeWhile
    have hfinal := isFinal_head (hends _ (List.getLast?_eq_some_getLast ht))
    rw [List.all_eq_true.1 hall _ (List.getLast_mem ht)] at hfinal
    cases hfinal.1
  | cons x r =>
    rw [hbehind, List.cons_append] at hdrop
    by_cases hx : x = '.'
    · subst hx
      rw [mantissaLength_of_point hdrop, mantissaLength_of_point hbehind, hrest.digitRun_append, hrest.digitRun_append]
    · have hne : ∀ x' r' : Text, x :: x' ≠ '.' :: r' := fun x' r' he => hx (List.cons.inj he).1
      rw [mantissaLength_of_ne fun r' he => hne _ r' (hdrop.symm.trans he),
        mantissaLength_of_ne fun r' he => hne _ r' (hbehind.symm.trans he), hrest.digitRun_append]

theorem Continues.numberLength_append {t : Text} (ht : t ≠ []) (hends : EndsFinal t) :
    numberLength (t ++ rest) = numberLength t := by
  simp only [numberLength, hrest.mantissaLength_append ht hends]
  cases hm : mantissaLength t with
  | zero => rfl
  | succ n =>
    simp only [List.drop_append_of_le_length (hm ▸ mantissaLength_le t), hrest.exponentLength_append]

theorem Continues.isPrefixOf_append {op : Text} (hop : '.' ∉ op ∧ '[' ∉ op) (t : Text) :
    op.isPrefixOf (t ++ rest) = op.isPrefixOf t := by
  induction op generalizing t with
  | nil => simp
  | cons o op ih =>
    obtain ⟨hpoint, hbracket⟩ : ('.' ≠ o ∧ '.' ∉ op) ∧ '[' ≠ o ∧ '[' ∉ op := by simpa using hop
    cases t with
    | nil =>
      cases rest with
      | nil => rfl
      | cons d r =>
        have hne : o ≠ d := by
          obtain rfl | rfl := hrest d rfl
          · exact hpoint.1.symm
          · exact hbracket.1.symm
        rw [List.nil_append, List.isPrefixOf_cons_cons, beq_false_of_ne hne]
        rfl
    | cons d t => simp only [List.cons_append, List.isPrefixOf_cons_cons, ih ⟨hpoint.2, hbracket.2⟩ t]

theorem Continues.find?_isPrefixOf {ops : List Text} (hops : ∀ op ∈ ops, '.' ∉ op ∧ '[' ∉ op) (t : Text) :
    (ops.find? fun op => op.isPrefixOf (t ++ rest)) = ops.find? fun op => op.isPrefixOf t := by
  induction ops with
  | nil => rfl
  | cons op ops ih =>
    obtain ⟨hop, hops⟩ := List.forall_mem_cons.1 hops
    simp only [List.find?_cons, hrest.isPrefixOf_append hop, ih hops]

theorem Continues.operatorLength?_append {t : Text} (ht : t ≠ []) :
    operatorLength? (t ++ rest) = operatorLength? t := by
  have hplain : ∀ op ∈ longOperators, '.' ∉ op ∧ '[' ∉ op := by decide
  have hlong := hrest.find?_isPrefixOf hplain t
  obtain ⟨c, cs, rfl⟩ := List.exists_cons_of_ne_nil ht
  simp only [operatorLength?, hlong]
  rfl

end Stable

theorem quotedLength?_of_ne {quote c : Char} (hc : c ≠ '\\') (t : Text) :
    quotedLength? quote (c :: t) = if c = quote then some 1 else (quotedLength? quote t).map (· + 1) := by
  cases t <;> simp [quotedLength?, hc]

/-- What is closed stays so, whatever follows. -/
theorem quotedLength?_append {quote : Char} {t : Text} {n : Nat} (h : quotedLength? quote t = some n) (rest : Text) :
    quotedLength? quote (t ++ rest) = some n ∧ 1 ≤ n ∧ n ≤ t.length := by
  induction hlength : t.length using Nat.strongRecOn generalizing t n with
  | ind k ih =>
    subst hlength
    cases t with
    | nil => cases h
    | cons c t =>
      by_cases hc : c = '\\'
      · subst hc
        cases t with
        | nil => cases h
        | cons d t =>
          obtain ⟨m, hm, rfl⟩ := Option.map_eq_some_iff.1 h
          obtain ⟨hread, -, hle⟩ := ih t.length (by simp only [List.length_cons]; omega) hm rfl
          exact ⟨by rw [List.cons_append, List.cons_append, quotedLength?, hread, Option.map_some], by omega,
            by simp only [List.length_cons]; omega⟩
      · rw [quotedLength?_of_ne hc] at h
        rw [List.cons_append, quotedLength?_of_ne hc]
        split at h
        · next hquote =>
          obtain rfl := Option.some.inj h
          exact ⟨if_pos hquote, Nat.le_refl 1, by simp⟩
        · next hquote =>
          obtain ⟨m, hm, rfl⟩ := Option.map_eq_some_iff.1 h
          obtain ⟨hread, -, hle⟩ := ih t.length (Nat.lt_succ_self _) hm rfl
          exact ⟨by rw [if_neg hquote, hread, Option.map_some], by omega, by simp; omega⟩

theorem operatorLength?_le {t : Text} {n : Nat} (h : operatorLength? t = some n) : 1 ≤ n ∧ n ≤ t.length := by
  have hlong : ∀ op ∈ longOperators, 1 ≤ op.length := by decide
  unfold operatorLength? at h
  split at h
  · next op hop =>
    obtain rfl := Option.some.inj h
    have hfront : op.isPrefixOf t = true := List.find?_some (p := fun op : Text => op.isPrefixOf t) hop
    exact ⟨hlong op (List.mem_of_find?_eq_some hop), (List.isPrefixOf_iff_prefix.1 hfront).length_le⟩
  · cases t with
    | nil => cases h
    | cons c cs =>
      dsimp only at h
      split at h
      · obtain rfl := Option.some.inj h
        simp
      · cases h

theorem lexeme?_le {c : Char} {cs : Text} {kind : TokenKind} {n : Nat} (h : lexeme? c cs = some (kind, n)) :
    1 ≤ n ∧ n ≤ cs.length + 1 := by
  have hnumber := numberLength_le (c :: cs)
  unfold lexeme? at h
  split at h
  · next m hm =>
    obtain ⟨-, rfl⟩ := Prod.mk.inj (Option.some.inj h)
    rw [hm, List.length_cons] at hnumber
    exact ⟨by omega, hnumber⟩
  · split at h
    · next m hm =>
      obtain ⟨-, rfl⟩ := Prod.mk.inj (Option.some.inj h)
      split at hm
      · have hle := (quotedLength?_append hm []).2.2
        omega
      · cases hm
    · split at h
      · obtain ⟨-, rfl⟩ := Prod.mk.inj (Option.some.inj h)
        have hle := (List.takeWhile_prefix (l := cs) continuesName).length_le
        omega
      · obtain ⟨m, hm, he⟩ := Option.map_eq_some_iff.1 h
        obtain ⟨-, rfl⟩ := Prod.mk.inj he
        exact operatorLength?_le hm

/-- The token at the front of a text is the same in front of a point or an opening bracket. -/
theorem lexeme?_append {c : Char} {cs rest : Text} {kind : TokenKind} {n : Nat} (h : lexeme? c cs = some (kind, n))
    (hends : EndsFinal (c :: cs)) (hrest : Continues rest) : lexeme? c (cs ++ rest) = some (kind, n) := by
  have hnumber : numberLength (c :: (cs ++ rest)) = numberLength (c :: cs) :=
    hrest.numberLength_append (List.cons_ne_nil c cs) hends
  have hoperator : operatorLength? (c :: (cs ++ rest)) = operatorLength? (c :: cs) :=
    hrest.operatorLength?_append (List.cons_ne_nil c cs)
  have hname := takeWhile_append (hrest.apply (p := continuesName) (by decide) (by decide)) cs
  rw [lexeme?] at h ⊢
  rw [hnumber]
  cases hn : numberLength (c :: cs) with
  | succ n =>
    rw [hn] at h
    exact h
  | zero =>
    rw [hn] at h
    dsimp only at h ⊢
    by_cases hquote : (c = '"' || c = '\'') = true
    · rw [if_pos hquote] at h ⊢
      cases hlength : quotedLength? c cs with
      | some m =>
        rw [hlength] at h
        rw [(quotedLength?_append hlength rest).1]
        exact h
      | none =>
        -- Nothing starts with a quote but a quoted text.
        rw [hlength] at h
        have hnone : startsName c = false ∧ operatorLength? (c :: cs) = none := by
          simp only [Bool.or_eq_true, decide_eq_true_eq] at hquote
          obtain rfl | rfl := hquote
          · exact ⟨by decide, rfl⟩
          · exact ⟨by decide, rfl⟩
        simp [hnone] at h
    · rw [if_neg hquote] at h ⊢
      rw [hname, hoperator]
      exact h

/-- The tokens of a text are the first ones where a point or an opening bracket follows the text. -/
theorem scan_append {p : Nat} {t rest : Text} {ts : List Token} (h : scan p t = .ok ts) (hends : EndsFinal t)
    (hrest : Continues rest) : ∃ us, ts = us ++ [⟨.stop, [], p + t.length⟩] ∧
      scan p (t ++ rest) = (scan (p + t.length) rest).map (us ++ ·) := by
  fun_induction scan p t generalizing ts with
  | case1 p =>
    obtain rfl := Except.ok.inj h
    exact ⟨[], rfl, by cases hscan : scan p rest <;> simp [hscan, Except.map]⟩
  | case2 p c cs hblank ih =>
    obtain ⟨us, hus, hscan⟩ := ih h (hends.of_suffix (List.suffix_cons c cs))
    rw [Nat.add_right_comm, Nat.add_assoc] at hus hscan
    exact ⟨us, hus, by rw [List.cons_append, scan, if_pos hblank, hscan]; rfl⟩
  | case3 p c cs hblank hnone => cases h
  | case4 p c cs hblank kind n hlexeme ih =>
    obtain ⟨hpos, hle⟩ := lexeme?_le hlexeme
    cases htail : scan (p + n) (cs.drop (n - 1)) with
    | error s => rw [htail] at h; cases h
    | ok vs =>
      rw [htail] at h
      obtain rfl := Except.ok.inj h
      have hlength : p + n + (cs.drop (n - 1)).length = p + (c :: cs).length := by
        rw [List.length_drop, List.length_cons]
        omega
      obtain ⟨us, rfl, hscan⟩ := ih htail
        (hends.of_suffix ((List.drop_suffix _ cs).trans (List.suffix_cons c cs)))
      rw [hlength] at hscan ⊢
      refine ⟨_ :: us, rfl, ?_⟩
      have hdrop : (cs ++ rest).drop (n - 1) = cs.drop (n - 1) ++ rest :=
        List.drop_append_of_le_length (by omega)
      have htake : (c :: (cs ++ rest)).take n = (c :: cs).take n := by
        rw [← List.cons_append, List.take_append_of_le_length hle]
      rw [List.cons_append, scan, if_neg hblank, lexeme?_append hlexeme hends hrest]
      simp only [hdrop, htake, hscan]
      cases scan (p + (c :: cs).length) rest <;> rfl

/-! Digits -/

theorem isDigitChar_of_isBlank {c : Char} (h : isBlank c) : isDigitChar c = false := by
  have hapart : ∀ r ∈ blankRanges, ∀ s ∈ digitRanges, r.2 < s.1 ∨ s.2 < r.1 := by decide +kernel
  simp only [isBlank, inRanges, List.any_eq_true, Bool.and_eq_true, decide_eq_true_eq] at h
  obtain ⟨r, hr, hlo, hhi⟩ := h
  simp only [isDigitChar, digitValue?, Option.isSome_map, Option.isSome_eq_false_iff, Option.isNone_iff_eq_none,
    List.find?_eq_none, Bool.and_eq_true, decide_eq_true_eq]
  intro s hs
  have := hapart r hr s hs
  omega

theorem isBlank_of_isDigitChar {c : Char} (h : isDigitChar c) : isBlank c = false :=
  Bool.eq_false_iff.2 fun hblank => by rw [isDigitChar_of_isBlank hblank] at h; cases h

theorem scan_digits {d rest : Text} (hne : d ≠ []) (hd : ∀ c ∈ d, isDigitChar c = true) (hrest : digitRun rest = 0)
    (hpoint : rest.head? ≠ some '.') (hexponent : exponentLength rest = 0) (p : Nat) :
    scan p (d ++ rest) = (scan (p + d.length) rest).map (⟨.number, d, p⟩ :: ·) := by
  have hlength := numberLength_digits hne hd hrest hpoint hexponent
  obtain ⟨c, cs, rfl⟩ := List.exists_cons_of_ne_nil hne
  have hblank := isBlank_of_isDigitChar (hd c List.mem_cons_self)
  have hread : lexeme? c (cs ++ rest) = some (.number, (c :: cs).length) := by
    rw [List.cons_append, List.length_cons] at hlength
    rw [lexeme?, hlength, List.length_cons]
  rw [List.cons_append, scan, hread]
  simp [hblank]

theorem scan_blanks {x : Text} (hx : x.all isBlank) (t : Text) (p : Nat) : scan p (x ++ t) = scan (p + x.length) t := by
  induction x generalizing p with
  | nil => rfl
  | cons c x ih =>
    rw [List.all_cons, Bool.and_eq_true] at hx
    rw [List.cons_append, scan, if_pos hx.1, ih hx.2, List.length_cons, Nat.add_right_comm, Nat.add_assoc]

/-- A point in front of a digit starts a number. -/
theorem scan_decimals {d : Text} (hne : d ≠ []) (hd : ∀ c ∈ d, isDigitChar c = true) (p : Nat) :
    scan p ('.' :: d) = .ok [⟨.number, '.' :: d, p⟩, ⟨.stop, [], p + 1 + d.length⟩] := by
  have hrun : digitRun d = d.length := by
    have happ : digitRun (d ++ []) = d.length := digitRun_append hd
    rwa [List.append_nil] at happ
  have hlength : numberLength ('.' :: d) = d.length + 1 := by
    have hmantissa : mantissaLength ('.' :: d) = d.length + 1 := by
      have hpos := List.length_pos_iff.2 hne
      have hzero : digitRun ('.' :: d) = 0 := by simp [digitRun, show isDigitChar '.' = false by decide]
      rw [mantissaLength_of_point (r := d) (by rw [hzero]; rfl), hzero, hrun, if_neg (by omega)]
      omega
    simp [numberLength, hmantissa, exponentLength]
  rw [scan, lexeme?, hlength]
  simp [scan, show isBlank '.' = false by decide, Except.map]
  omega

/-- Digits between brackets. -/
theorem scan_bracketed {d : Text} (hne : d ≠ []) (hd : ∀ c ∈ d, isDigitChar c = true) (p : Nat) :
    scan p ('[' :: (d ++ [']'])) = .ok [⟨.op, ['['], p⟩, ⟨.number, d, p + 1⟩, ⟨.op, [']'], p + 1 + d.length⟩,
      ⟨.stop, [], p + 1 + d.length + 1⟩] := by
  have hclose : scan (p + 1 + d.length) [']'] =
      .ok [⟨.op, [']'], p + 1 + d.length⟩, ⟨.stop, [], p + 1 + d.length + 1⟩] := by
    rw [scan_op (by decide) rfl, scan]
    rfl
  rw [scan_op (by decide) rfl, scan_digits hne hd (by decide) (by decide) (by decide), hclose]
  rfl

/-- Digits behind a point and a blank. -/
theorem scan_apart {d x : Text} (hne : d ≠ []) (hd : ∀ c ∈ d, isDigitChar c = true) (hx : x.all isBlank) (hxne : x ≠ [])
    (p : Nat) : scan p ('.' :: (x ++ d)) = .ok [⟨.op, ['.'], p⟩, ⟨.number, d, p + 1 + x.length⟩,
      ⟨.stop, [], p + 1 + x.length + d.length⟩] := by
  have hrun : digitRun (x ++ d) = 0 := by
    obtain ⟨c, x, rfl⟩ := List.exists_cons_of_ne_nil hxne
    rw [List.all_cons, Bool.and_eq_true] at hx
    simp [digitRun, isDigitChar_of_isBlank hx.1]
  have hdigits : scan (p + 1 + x.length) d =
      .ok [⟨.number, d, p + 1 + x.length⟩, ⟨.stop, [], p + 1 + x.length + d.length⟩] := by
    calc scan (p + 1 + x.length) d
        = scan (p + 1 + x.length) (d ++ []) := by rw [List.append_nil]
      _ = (scan (p + 1 + x.length + d.length) []).map (⟨.number, d, p + 1 + x.length⟩ :: ·) :=
          scan_digits hne hd rfl (by decide) rfl _
      _ = _ := by rw [scan]; rfl
  rw [scan_op (by decide) (lexeme?_of_digitRun hrun), scan_blanks hx, hdigits]
  rfl

end Token

/-! Trees -/

/-- Names, members, indices and calls. -/
def Expr.isPlace : Expr → Bool
  | .name _ | .member _ _ | .call _ _ => true
  | _ => false

namespace Grammar

theorem Conditional.of_postfixed {us : List Token} {e : Expr} (h : Postfixed us e) : Conditional us e :=
  DerivesAt.mono (k := 0) (m := 8) h (by decide) (by decide)

/-- No operator stands outside the brackets of a place. -/
theorem Chain.postfixed {levels : List (List Operator)} {us : List Token} {e : Expr} (h : Chain levels us e)
    (he : e.isPlace = true) : Postfixed us e := by
  match h with
  | .operand (.plain h) => exact h
  | .operand (.unary _ _) => cases he
  | .tighter h => exact h.postfixed he
  | .join (o := .binary _) _ _ _ _ => cases he
  | .join (o := .logical _) _ _ _ _ => cases he

theorem Conditional.postfixed {us : List Token} {e : Expr} (h : Conditional us e) (he : e.isPlace = true) :
    Postfixed us e := by
  cases h with
  | test h => exact h.postfixed he
  | choice _ _ _ _ _ => cases he

end Grammar

namespace Expr

open Grammar PageTemplate.Parser

/-- The tokens of a place, with what is scanned behind them if the source goes on with a point or a bracket. -/
theorem exists_postfixed {source : Text} {e : Expr} (h : Expr.ofText source = .ok e) (he : e.isPlace = true)
    (hends : EndsFinal source) : ∃ us, Postfixed us e ∧ ∀ rest, Continues rest →
      Token.ofText (source ++ rest) = (scan source.length rest).map (us ++ ·) := by
  cases htokens : Token.ofText source with
  | error s => simp only [Expr.ofText, Expr.ofTextWithin, htokens] at h; cases h
  | ok ts =>
    obtain ⟨us, stop, rfl, -, hus⟩ := Expr.sentence_of_ofText htokens h
    refine ⟨us, hus.postfixed he, fun rest hrest => ?_⟩
    obtain ⟨vs, hvs, hscan⟩ := scan_append htokens hends hrest
    obtain rfl := List.append_inj_left' hvs rfl
    rwa [Nat.zero_add] at hscan

theorem readAll_of_number {us : List Token} {e : Expr} {t stop : Token} (he : Conditional us e) (ht : t.kind = .number)
    {levels : Nat} (hlevels : 2 * (us ++ [t, stop]).length ≤ levels) (hclosed : Closed (us ++ [t, stop])) :
    readAll levels (us ++ [t, stop]) = .error (.unexpected t.lexeme t.position) := by
  have hstops : Stops conditionalSymbols [t, stop] := fun _ _ => isOp_of_kind (by rw [ht]; decide)
  simp only [readAll, he.complete hlevels hclosed hstops, ok_bind, ht]
  rfl

end Expr

open Grammar PageTemplate.Parser

/-- Digits between brackets behind a place are an index, if they are not too many. Right behind a point they are
refused, where the number starts with the point; behind a point and blanks they are that index. -/
theorem ofText_point_digits {source d : Text} {e : Expr} (h : Expr.ofText source = .ok e) (he : e.isPlace = true)
    (hends : EndsFinal source) (hne : d ≠ []) (hd : ∀ c ∈ d, isDigitChar c = true) :
    (d.length ≤ digitLimit →
      Expr.ofText (source ++ '[' :: (d ++ [']'])) = .ok (.member e (.literal (.whole (digitsToNat d))))) ∧
    Expr.ofText (source ++ '.' :: d) = .error (.unexpected ('.' :: d) source.length) ∧
    ∀ x : Text, x.all isBlank → x ≠ [] → d.length ≤ digitLimit →
      Expr.ofText (source ++ '.' :: (x ++ d)) = .ok (.member e (.literal (.whole (digitsToNat d)))) := by
  obtain ⟨us, hus, hscan⟩ := Expr.exists_postfixed h he hends
  have hall : d.all isDigitChar = true := List.all_eq_true.2 hd
  refine ⟨fun hlimit => ?_, ?_, fun x hx hxne hlimit => ?_⟩
  · have htokens := hscan ('[' :: (d ++ [']'])) fun c hc => .inr (Option.some.inj hc).symm
    rw [scan_bracketed hne hd] at htokens
    have hnumber : numberLiteral d = .ok (.whole (digitsToNat d)) := by
      rw [numberLiteral, if_pos hall, numeral_of_le hlimit]
    have hkey : Conditional [⟨.number, d, source.length + 1⟩] (.literal (.whole (digitsToNat d))) :=
      .of_postfixed (.primary (.number rfl hnumber))
    exact Expr.ofText_of_sentence htokens ⟨_, _, (List.append_assoc us [_, _, _] [_]).symm, rfl,
      .of_postfixed (.index hus rfl hkey rfl)⟩
  · have htokens := hscan ('.' :: d) fun c hc => .inl (Option.some.inj hc).symm
    rw [scan_decimals hne hd, Except.map] at htokens
    obtain ⟨hclosed, hlength⟩ := Token.scan_closed 0 _ htokens
    simp only [Expr.ofText, Expr.ofTextWithin, htokens]
    exact Expr.readAll_of_number (.of_postfixed hus) rfl (by omega) hclosed
  · have htokens := hscan ('.' :: (x ++ d)) fun c hc => .inl (Option.some.inj hc).symm
    rw [scan_apart hne hd hx hxne] at htokens
    exact Expr.ofText_of_sentence htokens ⟨_, _, (List.append_assoc us [_, _] [_]).symm, rfl,
      .of_postfixed (.member hus rfl (.index rfl hall (numeral_of_le hlimit)))⟩

theorem ofText_point_digits_rows :
    Expr.ofText (text "rows.first[12]") =
      .ok (.member (.member (.name (text "rows")) (.literal (.str (text "first")))) (.literal (.whole 12))) ∧
    Expr.ofText (text "rows.first.12") = .error (.unexpected (text ".12") 10) ∧
    Expr.ofText (text "rows.first. 12") =
      .ok (.member (.member (.name (text "rows")) (.literal (.str (text "first")))) (.literal (.whole 12))) := by
  have hread : Expr.ofText (text "rows.first") = .ok (.member (.name (text "rows")) (.literal (.str (text "first")))) :=
    Dotted.ofTextWithin_source ⟨text "rows", [text "first"], by decide, rfl⟩ 20
  obtain ⟨hindex, hpoint, hblank⟩ :=
    ofText_point_digits (d := text "12") hread rfl (by decide) (by decide) (List.all_eq_true.1 rfl)
  exact ⟨hindex (by decide), hpoint, hblank [' '] (by decide) (by decide) (by decide)⟩

/-- The error with which a source is refused. -/
def Expr.refusal? (source : Text) : Option ParseError :=
  match Expr.ofText source with
  | .ok _ => none
  | .error e => some e

/-- A name, its index between brackets and the same index behind a point. -/
theorem ofText_items : Expr.refusal? (text "items") = none ∧ Expr.refusal? (text "items[0]") = none ∧
    Expr.refusal? (text "items.0") = some (.unexpected (text ".0") 5) := by
  decide +kernel

end PageTemplate
