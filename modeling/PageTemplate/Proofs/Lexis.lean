import Mathlib.Data.Bool.AllAny
import PageTemplate.Proofs.Indexing
import PageTemplate.Proofs.Spelling
set_option autoImplicit false
/-!
The lexemes of the expression language as a grammar, and what the scanner takes of them at the front of a text: of the
kinds that match there the first one, in the order numbers, strings, names, operators, and of that kind the longest
lexeme. What is taken in front of other text is taken as well where a blank comes behind it.
-/
namespace PageTemplate

namespace Token

/-! The grammar -/

/-- One digit or more. -/
structure Digits (t : Text) : Prop where
  ne_nil : t ≠ []
  digits : ∀ c ∈ t, isDigitChar c = true

/-- Digits with or without a point behind or among them, or digits behind a point. -/
inductive Mantissa : Text → Prop
  | whole {d : Text} (hd : Digits d) : Mantissa d
  | decimal {d p : Text} (hd : Digits d) (hp : ∀ c ∈ p, isDigitChar c = true) : Mantissa (d ++ '.' :: p)
  | point {p : Text} (hp : Digits p) : Mantissa ('.' :: p)

/-- Nothing, or a mark, a sign if there is one, and digits. -/
inductive Exponent : Text → Prop
  | none : Exponent []
  | some {mark : Char} {sign d : Text} (hmark : mark = 'e' ∨ mark = 'E') (hsign : sign ∈ [[], ['+'], ['-']])
    (hd : Digits d) : Exponent (mark :: (sign ++ d))

/-- Text in which every quote and every backslash stands behind a backslash. -/
inductive Body (quote : Char) : Text → Prop
  | nil : Body quote []
  | plain {c : Char} {t : Text} (hquote : c ≠ quote) (hback : c ≠ '\\') (ht : Body quote t) : Body quote (c :: t)
  | escaped (c : Char) {t : Text} (ht : Body quote t) : Body quote ('\\' :: c :: t)

/-- The lexemes of a kind. -/
inductive Lexeme : TokenKind → Text → Prop
  | number {m e : Text} (hm : Mantissa m) (he : Exponent e) : Lexeme .number (m ++ e)
  | str {quote : Char} {t : Text} (hquote : quote = '"' ∨ quote = '\'') (ht : Body quote t) :
    Lexeme .str (quote :: (t ++ [quote]))
  | name {c : Char} {t : Text} (hc : startsName c = true) (ht : ∀ d ∈ t, continuesName d = true) : Lexeme .name (c :: t)
  | long {t : Text} (ht : t ∈ longOperators) : Lexeme .op t
  | short {c : Char} (hc : c ∈ shortOperators) : Lexeme .op [c]

/-- The place of a kind in the order in which the kinds are tried. -/
def rank : TokenKind → Nat
  | .number => 0 | .str => 1 | .name => 2 | .op => 3 | .stop => 4

/-- A text begins with no lexeme of a kind. -/
def Lacks (kind : TokenKind) (t : Text) : Prop := ∀ u, Lexeme kind u → ¬ u <+: t

/-- What stands at the front of a text: the longest lexeme of a kind, and no lexeme of a kind that is tried before. -/
structure Front (t : Text) (kind : TokenKind) (u : Text) : Prop where
  lexeme : Lexeme kind u
  front : u <+: t
  longest : ∀ v, Lexeme kind v → v <+: t → v.length ≤ u.length
  first : ∀ k, rank k < rank kind → Lacks k t

/-! Numbers -/

theorem exists_digits (t : Text) : ∃ d r, t = d ++ r ∧ (∀ c ∈ d, isDigitChar c = true) ∧ digitRun t = d.length := by
  refine ⟨t.takeWhile isDigitChar, t.dropWhile isDigitChar, List.takeWhile_append_dropWhile.symm, fun c hc => ?_, rfl⟩
  exact List.all_eq_true.mp List.all_takeWhile c hc

theorem exists_mantissa {t : Text} (h : mantissaLength t ≠ 0) :
    ∃ m r, t = m ++ r ∧ Mantissa m ∧ mantissaLength t = m.length := by
  obtain ⟨d, r, rfl, hd, hrun⟩ := exists_digits t
  have hdrop : (d ++ r).drop (digitRun (d ++ r)) = r := by rw [hrun, List.drop_left]
  by_cases hpoint : ∃ r', r = '.' :: r'
  · obtain ⟨r', rfl⟩ := hpoint
    obtain ⟨p, r', rfl, hp, hrun'⟩ := exists_digits r'
    rw [mantissaLength_of_point hdrop, hrun, hrun'] at h ⊢
    by_cases hempty : d = []
    · subst hempty
      have hne : p ≠ [] := by
        rintro rfl
        exact h rfl
      exact ⟨'.' :: p, r', rfl, .point ⟨hne, hp⟩, by simp [hne, Nat.add_comm]⟩
    · exact ⟨d ++ '.' :: p, r', by simp, .decimal ⟨hempty, hd⟩ hp, by simp [hempty]; omega⟩
  · rw [mantissaLength_of_ne (by rw [hdrop]; exact fun r' hr => hpoint ⟨r', hr⟩), hrun] at h ⊢
    exact ⟨d, r, rfl, .whole ⟨by rintro rfl; exact h rfl, hd⟩, rfl⟩

theorem exists_exponent (t : Text) : ∃ e r, t = e ++ r ∧ Exponent e ∧ exponentLength t = e.length := by
  by_cases h : exponentLength t = 0
  · exact ⟨[], t, rfl, .none, h⟩
  match t with
  | [] => exact absurd rfl h
  | [c] => exact absurd (by simp [exponentLength]) h
  | c :: s :: r =>
    have hmark : c = 'e' ∨ c = 'E' := by
      by_contra hc
      exact h (by simp [exponentLength, hc])
    by_cases hsign : s = '+' ∨ s = '-'
    · obtain ⟨d, r, rfl, hd, hrun⟩ := exists_digits r
      have hlength : exponentLength (c :: s :: (d ++ r)) = if d.length = 0 then 0 else 2 + d.length := by
        simp [exponentLength, hmark, hsign, hrun]
      have hne : d ≠ [] := by
        rintro rfl
        exact h hlength
      refine ⟨c :: ([s] ++ d), r, rfl, .some hmark (by rcases hsign with rfl | rfl <;> simp) ⟨hne, hd⟩, ?_⟩
      rw [hlength]
      simp [hne]
      omega
    · obtain ⟨d, r', hsplit, hd, hrun⟩ := exists_digits (s :: r)
      have hlength : exponentLength (c :: s :: r) = if d.length = 0 then 0 else 1 + d.length := by
        simp [exponentLength, hmark, hsign, hrun]
      have hne : d ≠ [] := by
        rintro rfl
        exact h hlength
      refine ⟨c :: ([] ++ d), r', by rw [hsplit]; rfl, .some hmark (by simp) ⟨hne, hd⟩, ?_⟩
      rw [hlength]
      simp [hne]
      omega

theorem le_digitRun {d : Text} (hd : ∀ c ∈ d, isDigitChar c = true) (r : Text) : d.length ≤ digitRun (d ++ r) := by
  rw [digitRun_append hd]
  exact Nat.le_add_right ..

theorem le_mantissaLength {m : Text} (hm : Mantissa m) (r : Text) : m.length ≤ mantissaLength (m ++ r) := by
  cases hm with
  | whole hd =>
    have hrun := le_digitRun hd.digits r
    have hpos := List.length_pos_iff.mpr hd.ne_nil
    by_cases hpoint : ∃ r', (m ++ r).drop (digitRun (m ++ r)) = '.' :: r'
    · obtain ⟨r', hr'⟩ := hpoint
      rw [mantissaLength_of_point hr', if_neg (by omega)]
      omega
    · rwa [mantissaLength_of_ne fun r' hr' => hpoint ⟨r', hr'⟩]
  | @decimal d p hd hp =>
    have hrun : digitRun (d ++ '.' :: (p ++ r)) = d.length := digitRun_append hd.digits
    have hpos := List.length_pos_iff.mpr hd.ne_nil
    have hrest := le_digitRun hp r
    rw [List.append_assoc, List.cons_append,
      mantissaLength_of_point (r := p ++ r) (by rw [hrun, List.drop_left]), hrun, if_neg (by omega),
      List.length_append, List.length_cons]
    omega
  | @point p hp =>
    have hpos := List.length_pos_iff.mpr hp.ne_nil
    have hrest := le_digitRun hp.digits r
    rw [List.cons_append, mantissaLength_of_point (r := p ++ r) rfl, if_neg (by omega), List.length_cons]
    omega

theorem le_exponentLength {e : Text} (he : Exponent e) (r : Text) : e.length ≤ exponentLength (e ++ r) := by
  cases he with
  | none => exact Nat.zero_le _
  | @some mark sign d hmark hsign hd =>
    have hpos := List.length_pos_iff.mpr hd.ne_nil
    have hrun := le_digitRun hd.digits r
    have hsigned {s : Char} (hs : s = '+' ∨ s = '-') : 2 + d.length ≤ exponentLength (mark :: s :: (d ++ r)) := by
      have hne : digitRun (d ++ r) ≠ 0 := by omega
      have hlength : exponentLength (mark :: s :: (d ++ r)) = 2 + digitRun (d ++ r) := by
        simp [exponentLength, hmark, hs, hne]
      omega
    have hplain : 1 + d.length ≤ exponentLength (mark :: (d ++ r)) := by
      obtain ⟨c, cs, rfl⟩ := List.exists_cons_of_ne_nil hd.ne_nil
      have hc : c ≠ '+' ∧ c ≠ '-' := by
        have hdigit := hd.digits c List.mem_cons_self
        constructor <;> (rintro rfl; exact absurd hdigit (by decide))
      have hne : digitRun (c :: (cs ++ r)) ≠ 0 := by
        rw [List.cons_append] at hrun
        omega
      have hlength : exponentLength (mark :: c :: (cs ++ r)) = 1 + digitRun (c :: (cs ++ r)) := by
        simp [exponentLength, hmark, hc, hne]
      rw [List.cons_append] at hrun ⊢
      omega
    simp only [List.mem_cons, List.not_mem_nil, or_false] at hsign
    obtain rfl | rfl | rfl := hsign
    · exact Nat.le_trans (by rw [List.nil_append, List.length_cons]; omega) hplain
    · exact Nat.le_trans (by simp only [List.cons_append, List.nil_append, List.length_cons]; omega) (hsigned (.inl rfl))
    · exact Nat.le_trans (by simp only [List.cons_append, List.nil_append, List.length_cons]; omega) (hsigned (.inr rfl))

/-- What lacks the character in between lies in front of it. -/
theorem prefix_of_notMem {b : Char} {u s z : Text} (h : u <+: s ++ b :: z) (hb : b ∉ u) : u <+: s := by
  obtain ⟨r, hr⟩ := h
  obtain ⟨a, rfl, -⟩ | ⟨a, rfl, ha⟩ := List.append_eq_append_iff.mp hr
  · exact List.prefix_append u a
  · cases a with
    | nil => simp
    | cons c a =>
      obtain rfl := (List.cons.inj ha).1
      exact absurd (by simp) hb

theorem Mantissa.chars {m : Text} (hm : Mantissa m) : ∀ c ∈ m, isDigitChar c = true ∨ c = '.' := by
  intro c hc
  cases hm with
  | whole hd => exact .inl (hd.digits c hc)
  | decimal hd hp =>
    obtain h | rfl | h := by simpa using hc
    · exact .inl (hd.digits c h)
    · exact .inr rfl
    · exact .inl (hp c h)
  | point hp =>
    obtain rfl | h := List.mem_cons.mp hc
    · exact .inr rfl
    · exact .inl (hp.digits c h)

theorem Mantissa.ne_nil {m : Text} (hm : Mantissa m) : m ≠ [] := by
  cases hm with
  | whole hd => exact hd.ne_nil
  | decimal => simp
  | point => simp

theorem mantissaLength_mark {m : Text} (hm : Mantissa m) {mark : Char} (hmark : mark = 'e' ∨ mark = 'E') (r : Text) :
    mantissaLength (m ++ mark :: r) = m.length := by
  have hle := le_mantissaLength hm (mark :: r)
  have hpos := List.length_pos_iff.mpr hm.ne_nil
  obtain ⟨m', r', hsplit, hm', hlength⟩ := exists_mantissa (t := m ++ mark :: r) (by omega)
  have hnot : mark ∉ m' := fun h => by
    have hchar := hm'.chars mark h
    obtain rfl | rfl := hmark <;> exact absurd hchar (by decide)
  have hshort := (prefix_of_notMem ⟨r', hsplit.symm⟩ hnot).length_le
  omega

theorem numberLength_eq {t : Text} (h : mantissaLength t ≠ 0) :
    numberLength t = mantissaLength t + exponentLength (t.drop (mantissaLength t)) := by
  obtain ⟨n, hn⟩ := Nat.exists_eq_add_one_of_ne_zero h
  simp only [numberLength, hn]

theorem le_numberLength {u : Text} (hu : Lexeme .number u) (r : Text) : u.length ≤ numberLength (u ++ r) := by
  obtain @⟨m, e, hm, he⟩ := hu
  have hpos := List.length_pos_iff.mpr hm.ne_nil
  have hmantissa := le_mantissaLength hm (e ++ r)
  rw [List.append_assoc, numberLength_eq (by omega), List.length_append]
  cases he with
  | none =>
    rw [List.length_nil]
    omega
  | some hmark hsign hd =>
    have hexponent := le_exponentLength (.some hmark hsign hd) r
    rw [List.cons_append] at hexponent ⊢
    rw [mantissaLength_mark hm hmark, List.drop_left]
    omega

theorem exists_number {t : Text} (h : numberLength t ≠ 0) :
    ∃ u r, t = u ++ r ∧ Lexeme .number u ∧ numberLength t = u.length := by
  have hmantissa : mantissaLength t ≠ 0 := fun hzero => h (by simp only [numberLength, hzero])
  obtain ⟨m, r, rfl, hm, hlength⟩ := exists_mantissa hmantissa
  obtain ⟨e, r, rfl, he, hlength'⟩ := exists_exponent r
  refine ⟨m ++ e, r, (List.append_assoc ..).symm, .number hm he, ?_⟩
  rw [numberLength_eq hmantissa, hlength, List.drop_left, hlength', List.length_append]

/-! Strings -/

theorem exists_body {quote : Char} {t : Text} {n : Nat} (h : quotedLength? quote t = some n) :
    ∃ u r, t = u ++ quote :: r ∧ Body quote u ∧ n = u.length + 1 := by
  induction hlength : t.length using Nat.strongRecOn generalizing t n with
  | ind k ih =>
    subst hlength
    cases t with
    | nil => cases h
    | cons c t =>
      by_cases hc : c = '\\'
      · subst hc
        cases t with
        | nil => cases h
        | cons d t =>
          obtain ⟨m, hm, rfl⟩ := Option.map_eq_some_iff.mp h
          obtain ⟨u, r, rfl, hu, rfl⟩ := ih t.length (by simp only [List.length_cons]; omega) hm rfl
          exact ⟨'\\' :: d :: u, r, rfl, .escaped d hu, rfl⟩
      · rw [quotedLength?_of_ne hc] at h
        split at h
        · next hquote =>
          subst hquote
          obtain rfl := Option.some.inj h
          exact ⟨[], t, rfl, .nil, rfl⟩
        · next hquote =>
          obtain ⟨m, hm, rfl⟩ := Option.map_eq_some_iff.mp h
          obtain ⟨u, r, rfl, hu, rfl⟩ := ih t.length (Nat.lt_succ_self _) hm rfl
          exact ⟨c :: u, r, rfl, .plain hquote hc hu, rfl⟩

theorem Body.quotedLength? {quote : Char} {u : Text} (hu : Body quote u) (hback : quote ≠ '\\') (r : Text) :
    quotedLength? quote (u ++ quote :: r) = some (u.length + 1) := by
  induction hu with
  | nil => rw [List.nil_append, quotedLength?_of_ne hback, if_pos rfl]; rfl
  | plain hquote hc _ ih => rw [List.cons_append, quotedLength?_of_ne hc, if_neg hquote, ih]; rfl
  | escaped c _ ih => rw [List.cons_append, List.cons_append, Token.quotedLength?, ih]; rfl

/-! Operators -/

theorem exists_longer {ops : List Text} (horder : ops.Pairwise fun a b => b.length ≤ a.length) {p : Text → Bool} {u : Text}
    (hu : u ∈ ops) (hp : p u = true) : ∃ v, ops.find? p = some v ∧ u.length ≤ v.length := by
  induction ops with
  | nil => cases hu
  | cons v ops ih =>
    obtain ⟨hfirst, hrest⟩ := List.pairwise_cons.mp horder
    by_cases hv : p v = true
    · refine ⟨v, by rw [List.find?_cons_of_pos hv], ?_⟩
      obtain rfl | hu := List.mem_cons.mp hu
      · exact Nat.le_refl _
      · exact hfirst u hu
    · obtain rfl | hu := List.mem_cons.mp hu
      · exact absurd hp hv
      · rw [List.find?_cons_of_neg hv]
        exact ih hrest hu

theorem exists_operator {t : Text} {n : Nat} (h : operatorLength? t = some n) :
    ∃ u, Lexeme .op u ∧ u <+: t ∧ n = u.length := by
  unfold operatorLength? at h
  split at h
  · next op hop =>
    have hfront : op.isPrefixOf t = true := List.find?_some (p := fun op : Text => op.isPrefixOf t) hop
    exact ⟨op, .long (List.mem_of_find?_eq_some hop), List.isPrefixOf_iff_prefix.mp hfront, (Option.some.inj h).symm⟩
  · cases t with
    | nil => cases h
    | cons c cs =>
      dsimp only at h
      split at h
      · next hc => exact ⟨[c], .short (List.contains_iff_mem.mp hc), ⟨cs, rfl⟩, (Option.some.inj h).symm⟩
      · cases h

theorem le_operatorLength? {u t : Text} (hu : Lexeme .op u) (h : u <+: t) :
    ∃ n, operatorLength? t = some n ∧ u.length ≤ n := by
  have horder : longOperators.Pairwise fun a b => b.length ≤ a.length := by decide
  cases hu with
  | long hu =>
    obtain ⟨v, hv, hle⟩ := exists_longer (p := fun op => op.isPrefixOf t) horder hu (List.isPrefixOf_iff_prefix.mpr h)
    exact ⟨v.length, by simp only [operatorLength?, hv], hle⟩
  | @short c hc =>
    obtain ⟨r, rfl⟩ := h
    cases hlength : operatorLength? ([c] ++ r) with
    | some n => exact ⟨n, rfl, (operatorLength?_le hlength).1⟩
    | none =>
      unfold operatorLength? at hlength
      split at hlength
      · cases hlength
      · simp [hc] at hlength

/-! The front of a text -/

theorem Lexeme.ne_nil {k : TokenKind} {u : Text} (h : Lexeme k u) : u ≠ [] := by
  have hlong : ∀ op ∈ longOperators, op ≠ [] := by decide
  cases h with
  | number hm _ => simp [hm.ne_nil]
  | long hu => exact hlong u hu
  | _ => exact List.cons_ne_nil _ _

theorem numberLength_of_front {u t : Text} (hu : Lexeme .number u) (h : u <+: t) : u.length ≤ numberLength t := by
  obtain ⟨r, rfl⟩ := h
  exact le_numberLength hu r

theorem quotedLength?_of_front {c : Char} {u cs : Text} (hu : Lexeme .str u) (h : u <+: c :: cs) :
    (c = '"' ∨ c = '\'') ∧ ∃ n, quotedLength? c cs = some n ∧ u.length = n + 1 := by
  obtain ⟨r, hr⟩ := h
  cases hu with
  | @str quote body hquote hbody =>
    rw [List.cons_append, List.append_assoc] at hr
    obtain ⟨rfl, rfl⟩ := List.cons.inj hr
    have hback : quote ≠ '\\' := by
      rintro rfl
      exact absurd hquote (by decide)
    exact ⟨hquote, _, hbody.quotedLength? hback r, by simp⟩

theorem nameLength_of_front {c : Char} {u cs : Text} (hu : Lexeme .name u) (h : u <+: c :: cs) :
    startsName c = true ∧ u.length ≤ (c :: cs.takeWhile continuesName).length := by
  obtain ⟨r, hr⟩ := h
  cases hu with
  | @name c' t hc ht =>
    obtain ⟨rfl, rfl⟩ := List.cons.inj hr
    refine ⟨hc, ?_⟩
    rw [List.append_eq, List.takeWhile_append_of_pos ht, List.length_cons, List.length_cons, List.length_append]
    omega

theorem lacks_number {t : Text} (h : numberLength t = 0) : Lacks .number t := fun u hu hfront => by
  have hpos := List.length_pos_iff.mpr hu.ne_nil
  have hle := numberLength_of_front hu hfront
  omega

theorem lacks_str {c : Char} {cs : Text}
    (h : (if c = '"' || c = '\'' then quotedLength? c cs else none) = none) : Lacks .str (c :: cs) := fun u hu hfront => by
  obtain ⟨hquote, n, hn, -⟩ := quotedLength?_of_front hu hfront
  rw [if_pos (by simpa using hquote), hn] at h
  cases h

theorem front_number {t : Text} {n : Nat} (h : numberLength t = n + 1) : ∃ u, Front t .number u ∧ u.length = n + 1 := by
  obtain ⟨u, r, hsplit, hu, hlength⟩ := exists_number (t := t) (by omega)
  refine ⟨u, ⟨hu, ⟨r, hsplit.symm⟩, fun v hv hfront => ?_, fun k hk => absurd hk (Nat.not_lt_zero _)⟩, by omega⟩
  exact hlength ▸ numberLength_of_front hv hfront

theorem front_str {c : Char} {cs : Text} {n : Nat} (hnumber : Lacks .number (c :: cs)) (hquote : c = '"' ∨ c = '\'')
    (h : quotedLength? c cs = some n) : ∃ u, Front (c :: cs) .str u ∧ u.length = n + 1 := by
  obtain ⟨u, r, rfl, hu, rfl⟩ := exists_body h
  refine ⟨c :: (u ++ [c]), ⟨.str hquote hu, ⟨r, by simp⟩, fun v hv hfront => ?_, fun k hk => ?_⟩, by simp⟩
  · obtain ⟨-, m, hm, hlength⟩ := quotedLength?_of_front hv hfront
    rw [h] at hm
    obtain rfl := Option.some.inj hm
    simp [hlength]
  · obtain rfl : k = .number := by cases k <;> first | rfl | exact absurd hk (by decide)
    exact hnumber

theorem front_name {c : Char} {cs : Text} (hnumber : Lacks .number (c :: cs)) (hstr : Lacks .str (c :: cs))
    (hc : startsName c = true) : Front (c :: cs) .name (c :: cs.takeWhile continuesName) where
  lexeme := .name hc fun _ hd => List.all_eq_true.mp List.all_takeWhile _ hd
  front := (List.prefix_cons_inj c).mpr (List.takeWhile_prefix _)
  longest _ hv hfront := (nameLength_of_front hv hfront).2
  first k hk := by
    cases k with
    | number => exact hnumber
    | str => exact hstr
    | _ => exact absurd hk (by decide)

theorem front_op {t : Text} {n : Nat} (hearlier : ∀ k, k ≠ .op → Lacks k t) (h : operatorLength? t = some n) :
    ∃ u, Front t .op u ∧ u.length = n := by
  obtain ⟨u, hu, hfront, rfl⟩ := exists_operator h
  refine ⟨u, ⟨hu, hfront, fun v hv hfront => ?_, fun k hk => ?_⟩, rfl⟩
  · obtain ⟨m, hm, hle⟩ := le_operatorLength? hv hfront
    rw [h] at hm
    exact Option.some.inj hm ▸ hle
  · exact hearlier k (by rintro rfl; exact Nat.lt_irrefl _ hk)

/-- What is read at the front of a text stands there, and where nothing is read nothing does. -/
theorem lexeme?_front (c : Char) (cs : Text) :
    match lexeme? c cs with
    | some (k, n) => ∃ u, Front (c :: cs) k u ∧ u.length = n
    | none => ∀ k, Lacks k (c :: cs) := by
  unfold lexeme?
  cases hn : numberLength (c :: cs) with
  | succ n => exact front_number hn
  | zero =>
    have hnumber := lacks_number hn
    dsimp only
    cases hstr : if c = '"' || c = '\'' then quotedLength? c cs else none with
    | some n =>
      have hquote : c = '"' ∨ c = '\'' := by
        by_contra hc
        simp [hc] at hstr
      rw [if_pos (by simpa using hquote)] at hstr
      exact front_str hnumber hquote hstr
    | none =>
      have hunquoted := lacks_str hstr
      by_cases hname : startsName c = true
      · rw [if_pos hname]
        exact ⟨_, front_name hnumber hunquoted hname, Nat.add_comm ..⟩
      · rw [if_neg hname]
        have hearlier (k : TokenKind) (hk : k ≠ .op) : Lacks k (c :: cs) := by
          cases k with
          | number => exact hnumber
          | str => exact hunquoted
          | name => exact fun u hu hfront => hname (nameLength_of_front hu hfront).1
          | op => exact absurd rfl hk
          | stop => exact fun u hu => nomatch hu
        cases hop : operatorLength? (c :: cs) with
        | some n => exact front_op hearlier hop
        | none =>
          intro k u hu hfront
          by_cases hk : k = .op
          · subst hk
            obtain ⟨m, hm, -⟩ := le_operatorLength? hu hfront
            rw [hop] at hm
            cases hm
          · exact hearlier k hk u hu hfront

theorem Front.unique {t u u' : Text} {k k' : TokenKind} (h : Front t k u) (h' : Front t k' u') : k = k' ∧ u = u' := by
  have hkind : k = k' := by
    obtain hlt | heq | hlt := Nat.lt_trichotomy (rank k) (rank k')
    · exact absurd h.front (h'.first k hlt u h.lexeme)
    · cases k <;> cases k' <;> first | rfl | cases heq
    · exact absurd h'.front (h.first k' hlt u' h'.lexeme)
  subst hkind
  have hlength := Nat.le_antisymm (h'.longest u h.lexeme h.front) (h.longest u' h'.lexeme h'.front)
  exact ⟨rfl, (List.prefix_of_prefix_length_le h.front h'.front hlength.le).eq_of_length hlength⟩

theorem lexeme?_of_front {c : Char} {cs u : Text} {k : TokenKind} (h : Front (c :: cs) k u) :
    lexeme? c cs = some (k, u.length) := by
  have hfront := lexeme?_front c cs
  cases hread : lexeme? c cs with
  | none =>
    rw [hread] at hfront
    exact absurd h.front (hfront k u h.lexeme)
  | some l =>
    rw [hread] at hfront
    obtain ⟨u', hu', hlength⟩ := hfront
    obtain ⟨hkind, rfl⟩ := hu'.unique h
    rw [hlength, ← hkind]

/-! Blanks behind a lexeme -/

theorem Mantissa.isBlank {m : Text} (hm : Mantissa m) {c : Char} (hc : c ∈ m) : isBlank c = false := by
  obtain h | rfl := hm.chars c hc
  · exact isBlank_of_isDigitChar h
  · decide

theorem Exponent.isBlank {e : Text} (he : Exponent e) {c : Char} (hc : c ∈ e) : isBlank c = false := by
  cases he with
  | none => cases hc
  | @some mark sign d hmark hsign hd =>
    have hsigns : ∀ c ∈ [[], ['+'], ['-']].flatten, PageTemplate.isBlank c = false :=
      List.all_iff_forall_prop.mp (by decide)
    rw [List.mem_cons, List.mem_append] at hc
    obtain rfl | hc | hc := hc
    · obtain rfl | rfl := hmark <;> decide
    · exact hsigns c (List.mem_flatten.mpr ⟨sign, hsign, hc⟩)
    · exact isBlank_of_isDigitChar (hd.digits c hc)

/-- Only strings hold blanks. -/
theorem Lexeme.isBlank {k : TokenKind} {u : Text} (h : Lexeme k u) (hk : k ≠ .str) {c : Char} (hc : c ∈ u) :
    isBlank c = false := by
  cases h with
  | number hm he => exact (List.mem_append.mp hc).elim hm.isBlank he.isBlank
  | str => exact absurd rfl hk
  | name hfirst ht =>
    obtain rfl | hc := List.mem_cons.mp hc
    · exact (startsName_head hfirst).1
    · have hcontinues := ht c hc
      rw [continuesName, Bool.or_eq_true, beq_iff_eq] at hcontinues
      obtain h | rfl := hcontinues
      · exact isBlank_of_isWordChar h
      · decide
  | long hu =>
    have hall : ∀ c ∈ longOperators.flatten, PageTemplate.isBlank c = false :=
      List.all_iff_forall_prop.mp (by decide)
    exact hall c (List.mem_flatten.mpr ⟨u, hu, hc⟩)
  | short hu =>
    have hall : ∀ c ∈ shortOperators, PageTemplate.isBlank c = false := List.all_iff_forall_prop.mp (by decide)
    exact hall c (List.mem_singleton.mp hc ▸ hu)

theorem Lexeme.prefix_of_blank {k : TokenKind} {u s z : Text} {b : Char} (hu : Lexeme k u) (hk : k ≠ .str)
    (hb : PageTemplate.isBlank b = true) (h : u <+: s ++ b :: z) : u <+: s :=
  prefix_of_notMem h fun hmem => by
    rw [hu.isBlank hk hmem] at hb
    cases hb

theorem Lexeme.unquoted {k : TokenKind} {u : Text} (h : Lexeme k u) (hstr : k ≠ .str) (hnumber : k ≠ .number) :
    u.head? ≠ some '"' ∧ u.head? ≠ some '\'' := by
  cases h with
  | number => exact absurd rfl hnumber
  | str => exact absurd rfl hstr
  | name hc =>
    obtain ⟨-, -, -, hdouble, hsingle⟩ := startsName_head hc
    exact ⟨fun h => hdouble (Option.some.inj h), fun h => hsingle (Option.some.inj h)⟩
  | long hu =>
    have hall : ∀ op ∈ longOperators, op.head? ≠ some '"' ∧ op.head? ≠ some '\'' := by decide
    exact hall u hu
  | short hc =>
    have hall : ∀ c ∈ shortOperators, [c].head? ≠ some '"' ∧ [c].head? ≠ some '\'' :=
      List.all_iff_forall_prop.mp (by decide)
    exact hall _ hc

/-- What stands in front of other text stands there as well if a blank comes somewhere behind it. -/
theorem Front.before_blank {k : TokenKind} {u x y z : Text} {b : Char} (h : Front (u ++ (x ++ y)) k u)
    (hb : PageTemplate.isBlank b = true) : Front (u ++ (x ++ b :: z)) k u := by
  have hback {k' : TokenKind} {v : Text} (hv : Lexeme k' v) (hk' : k' ≠ .str) (hfront : v <+: u ++ (x ++ b :: z)) :
      v <+: u ++ (x ++ y) := by
    rw [← List.append_assoc] at hfront ⊢
    exact (hv.prefix_of_blank hk' hb hfront).trans (List.prefix_append ..)
  obtain ⟨c, cs, rfl⟩ := List.exists_cons_of_ne_nil h.lexeme.ne_nil
  refine ⟨h.lexeme, List.prefix_append .., fun v hv hfront => ?_, fun k' hk' v hv hfront => ?_⟩
  · by_cases hk : k = .str
    · subst hk
      obtain ⟨-, n, hn, hu⟩ := quotedLength?_of_front h.lexeme (List.prefix_append (c :: cs) (x ++ b :: z))
      obtain ⟨-, m, hm, hv⟩ := quotedLength?_of_front hv hfront
      obtain rfl := Option.some.inj (hn.symm.trans hm)
      omega
    · exact h.longest v hv (hback hv hk hfront)
  · by_cases hstr : k' = .str
    · subst hstr
      have hunquoted := h.lexeme.unquoted (by rintro rfl; exact Nat.lt_irrefl _ hk')
        (by rintro rfl; exact absurd hk' (by decide))
      obtain rfl | rfl := (quotedLength?_of_front hv hfront).1
      · exact hunquoted.1 rfl
      · exact hunquoted.2 rfl
    · exact h.first k' hk' v hv (hback hv hstr hfront)

end Token

end PageTemplate
