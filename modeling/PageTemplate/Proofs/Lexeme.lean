import PageTemplate.Expr.Parser
import PageTemplate.Expr.Token
import PageTemplate.Proofs.Digits
import PageTemplate.Text.Search
set_option autoImplicit false
/-!
Lexemes that are told apart by single spaces: their tokens are the lexemes again. Whole numbers, quoted texts,
names and the symbols of the language are such lexemes, and the first two are read back as what was written.
-/
namespace PageTemplate

theorem numeral_of_le {digits : Text} (h : digits.length ≤ digitLimit) :
    Parser.numeral digits = .ok (.whole (digitsToNat digits)) := by
  rw [Parser.numeral, readDigits_of_le h]
  rfl

theorem numeral_of_lt {digits : Text} (h : digitLimit < digits.length) :
    Parser.numeral digits = .error (.numeral .tooManyDigits) := by
  rw [Parser.numeral, readDigits_of_lt h]
  rfl

theorem numberLiteral_natText (n : Nat) : Parser.numberLiteral (natText n) = Parser.numeral (natText n) :=
  if_pos (List.all_eq_true.mpr fun _ => isDigitChar_of_mem_natText)

section Quotes

def escapeChar (c : Char) : Text := if c = '\\' ∨ c = '"' then ['\\', c] else [c]

/-- A text in double quotes, with a backslash before each backslash and each double quote. -/
def quotedText (t : Text) : Text := '"' :: (t.flatMap escapeChar ++ ['"'])

theorem unescape_cons {c : Char} (h : c ≠ '\\') (t : Text) : Parser.unescape (c :: t) = c :: Parser.unescape t := by
  cases t with
  | nil => simp [Parser.unescape]
  | cons d t => simp [Parser.unescape, h]

theorem unescape_flatMap (t : Text) : Parser.unescape (t.flatMap escapeChar) = t := by
  induction t with
  | nil => rfl
  | cons c t ih =>
    rw [List.flatMap_cons, escapeChar]
    by_cases hc : c = '\\' ∨ c = '"'
    · rw [if_pos hc]
      obtain rfl | rfl := hc
      · exact congrArg _ ih
      · exact congrArg _ ih
    · rw [if_neg hc, List.singleton_append, unescape_cons fun h => hc (.inl h), ih]

theorem stringBody_quotedText (t : Text) : Parser.stringBody (quotedText t) = t := by
  rw [Parser.stringBody, quotedText, List.drop_succ_cons, List.drop_zero, List.dropLast_concat, unescape_flatMap]

theorem quotedLength?_cons {c : Char} (hback : c ≠ '\\') (hquote : c ≠ '"') (t : Text) :
    Token.quotedLength? '"' (c :: t) = (Token.quotedLength? '"' t).map (· + 1) := by
  cases t <;> simp [Token.quotedLength?, hback, hquote]

theorem quotedLength?_flatMap (t rest : Text) :
    Token.quotedLength? '"' (t.flatMap escapeChar ++ '"' :: rest) = some ((t.flatMap escapeChar).length + 1) := by
  induction t with
  | nil => rfl
  | cons c t ih =>
    rw [List.flatMap_cons, escapeChar]
    by_cases hc : c = '\\' ∨ c = '"'
    · rw [if_pos hc]
      simp only [List.cons_append, List.nil_append, Token.quotedLength?, ih, Option.map_some, List.length_cons]
    · rw [if_neg hc]
      obtain ⟨hback, hquote⟩ := not_or.mp hc
      simp only [List.cons_append, List.nil_append, quotedLength?_cons hback hquote, ih, Option.map_some,
        List.length_cons]

end Quotes

namespace Token

def lexed (t : Token) : TokenKind × Text := (t.kind, t.lexeme)

/-- Nothing follows, or a space. -/
def Apart : Text → Prop
  | [] => True
  | c :: _ => c = ' '

/-- A text that is one token of a kind wherever nothing or a space follows. -/
def IsLexeme (kind : TokenKind) (t : Text) : Prop :=
  ∃ c cs, t = c :: cs ∧ isBlank c = false ∧ ∀ rest, Apart rest → lexeme? c (cs ++ rest) = some (kind, t.length)

theorem scan_lexeme {kind : TokenKind} {t : Text} (h : IsLexeme kind t) (p : Nat) (rest : Text) (hrest : Apart rest) :
    scan p (t ++ rest) = (scan (p + t.length) rest).map (⟨kind, t, p⟩ :: ·) := by
  obtain ⟨c, cs, rfl, hblank, hread⟩ := h
  rw [List.cons_append, scan, hread rest hrest]
  simp [hblank]

/-- Lexemes with single spaces between them. -/
def spaced (ls : List (TokenKind × Text)) : Text := joinWith [' '] (ls.map (·.2))

theorem scan_spaced {ls : List (TokenKind × Text)} (h : ∀ l ∈ ls, IsLexeme l.1 l.2) (p : Nat) :
    ∃ ts stop, scan p (spaced ls) = .ok (ts ++ [stop]) ∧ stop.kind = .stop ∧ ts.map lexed = ls := by
  induction ls generalizing p with
  | nil => exact ⟨[], ⟨.stop, [], p⟩, by rw [spaced, List.map_nil, joinWith, scan, List.nil_append], rfl, rfl⟩
  | cons l ls ih =>
    obtain ⟨kind, t⟩ := l
    have hfirst : IsLexeme kind t := h _ (List.mem_cons_self)
    have hrest : ∀ l ∈ ls, IsLexeme l.1 l.2 := fun l hl => h l (List.mem_cons_of_mem _ hl)
    cases ls with
    | nil =>
      refine ⟨[⟨kind, t, p⟩], ⟨.stop, [], p + t.length⟩, ?_, rfl, rfl⟩
      have hscan := scan_lexeme hfirst p [] trivial
      rw [List.append_nil] at hscan
      rw [spaced, List.map_singleton, joinWith, hscan, scan]
      rfl
    | cons m ls =>
      obtain ⟨ts, stop, hscan, hstop, hts⟩ := ih hrest (p + t.length + 1)
      refine ⟨⟨kind, t, p⟩ :: ts, stop, ?_, hstop, by rw [List.map_cons, hts]; rfl⟩
      have htext : spaced ((kind, t) :: m :: ls) = t ++ ' ' :: spaced (m :: ls) := by
        simp [spaced, joinWith]
      rw [htext, scan_lexeme hfirst p (' ' :: _) rfl, scan, if_pos (by decide), hscan]
      rfl

theorem digitRun_append {digits rest : Text} (h : ∀ c ∈ digits, isDigitChar c = true) :
    digitRun (digits ++ rest) = digits.length + digitRun rest := by
  rw [digitRun, List.takeWhile_append_of_pos h, List.length_append, digitRun]

theorem Apart.digitRun {rest : Text} (h : Apart rest) : digitRun rest = 0 := by
  cases rest with
  | nil => rfl
  | cons c rest =>
    obtain rfl : c = ' ' := h
    rfl

theorem Apart.exponentLength {rest : Text} (h : Apart rest) : exponentLength rest = 0 := by
  cases rest with
  | nil => rfl
  | cons c rest =>
    obtain rfl : c = ' ' := h
    rfl

theorem Apart.head?_ne {rest : Text} (h : Apart rest) : rest.head? ≠ some '.' := by
  cases rest with
  | nil => nofun
  | cons c rest =>
    obtain rfl : c = ' ' := h
    simp

theorem numberLength_of_head {c : Char} (hdigit : isDigitChar c = false) (hpoint : c ≠ '.') (t : Text) :
    numberLength (c :: t) = 0 := by
  have hrun : digitRun (c :: t) = 0 := by simp [digitRun, hdigit]
  have hmantissa : mantissaLength (c :: t) = 0 := by simp [mantissaLength, hrun, hpoint]
  simp only [numberLength, hmantissa]

theorem mantissaLength_of_point {t r : Text} (h : t.drop (digitRun t) = '.' :: r) : mantissaLength t =
    if digitRun t = 0 ∧ digitRun r = 0 then 0 else digitRun t + 1 + digitRun r := by
  rw [mantissaLength, h]
  cases digitRun t with
  | zero => by_cases hr : digitRun r = 0 <;> simp [hr]
  | succ n => simp

theorem mantissaLength_of_ne {t : Text} (h : ∀ r, t.drop (digitRun t) ≠ '.' :: r) : mantissaLength t = digitRun t := by
  rw [mantissaLength]
  split
  · next r _ hr => exact absurd hr (h r)
  · next hn _ => exact hn.symm
  · next r _ hr => exact absurd hr (h r)
  · next hn _ => exact hn.symm

theorem numberLength_digits {digits rest : Text} (hne : digits ≠ []) (h : ∀ c ∈ digits, isDigitChar c = true)
    (hrest : digitRun rest = 0) (hpoint : rest.head? ≠ some '.') (hexponent : exponentLength rest = 0) :
    numberLength (digits ++ rest) = digits.length := by
  have hrun : digitRun (digits ++ rest) = digits.length := by rw [digitRun_append h, hrest, Nat.add_zero]
  have hdrop : (digits ++ rest).drop digits.length = rest := List.drop_left
  have hmantissa : mantissaLength (digits ++ rest) = digits.length := by
    rw [mantissaLength_of_ne, hrun]
    rw [hrun, hdrop]
    rintro r rfl
    exact hpoint rfl
  obtain ⟨m, hm⟩ : ∃ m, digits.length = m + 1 :=
    ⟨digits.length - 1, by have := List.length_pos_iff.mpr hne; omega⟩
  simp only [numberLength, hmantissa, hm]
  rw [← hm, hdrop, hexponent, Nat.add_zero]

theorem isLexeme_natText (n : Nat) : IsLexeme .number (natText n) := by
  obtain ⟨c, cs, hc⟩ := List.exists_cons_of_ne_nil (natText_ne_nil n)
  refine ⟨c, cs, hc, isBlank_of_mem_natText (n := n) (by rw [hc]; exact List.mem_cons_self), fun rest hrest => ?_⟩
  have hlength : numberLength (c :: (cs ++ rest)) = cs.length + 1 := by
    have hdigits := numberLength_digits (natText_ne_nil n) (fun _ => isDigitChar_of_mem_natText) hrest.digitRun
      hrest.head?_ne hrest.exponentLength
    rwa [hc] at hdigits
  rw [lexeme?, hlength, hc, List.length_cons]

theorem isLexeme_quotedText (t : Text) : IsLexeme .str (quotedText t) := by
  refine ⟨'"', t.flatMap escapeChar ++ ['"'], rfl, by decide, fun rest hrest => ?_⟩
  have hlength : quotedLength? '"' (t.flatMap escapeChar ++ ['"'] ++ rest) =
      some ((t.flatMap escapeChar).length + 1) := by
    rw [List.append_assoc]
    exact quotedLength?_flatMap t rest
  have hquoted : (quotedText t).length = (t.flatMap escapeChar).length + 1 + 1 := by simp [quotedText]
  rw [lexeme?, numberLength_of_head (by decide) (by decide), if_pos (by decide), hlength, hquoted]

theorem startsName_lt {c : Char} (h : startsName c = true) : c.toNat < 128 := by
  have hletter : c.isAlpha = (decide (c.val ≥ 'A'.val ∧ c.val ≤ 'Z'.val) ||
      (decide (c.val ≥ 'a'.val) && decide (c.val ≤ 'z'.val))) := rfl
  simp only [startsName, hletter, Bool.or_eq_true, Bool.and_eq_true, decide_eq_true_eq, beq_iff_eq] at h
  obtain ((⟨_, h⟩ | ⟨_, h⟩) | rfl) | rfl := h
  · exact Nat.lt_of_le_of_lt (UInt32.le_iff_toNat_le.mp h) (by decide)
  · exact Nat.lt_of_le_of_lt (UInt32.le_iff_toNat_le.mp h) (by decide)
  · decide
  · decide

theorem startsName_head {c : Char} (h : startsName c = true) :
    isBlank c = false ∧ isDigitChar c = false ∧ c ≠ '.' ∧ c ≠ '"' ∧ c ≠ '\'' := by
  have hall : ∀ n < 128, startsName (Char.ofNat n) = true →
      isBlank (Char.ofNat n) = false ∧ isDigitChar (Char.ofNat n) = false ∧ Char.ofNat n ≠ '.' ∧
        Char.ofNat n ≠ '"' ∧ Char.ofNat n ≠ '\'' := by decide +kernel
  have hc := hall c.toNat (startsName_lt h)
  rw [Char.ofNat_toNat] at hc
  exact hc h

theorem Apart.continuesName {rest : Text} (h : Apart rest) : rest.takeWhile continuesName = [] := by
  cases rest with
  | nil => rfl
  | cons c rest =>
    obtain rfl : c = ' ' := h
    rw [List.takeWhile_cons_of_neg (by decide)]

/-- A name ends where nothing continues it. -/
theorem lexeme?_name {c : Char} {cs rest : Text} (hc : startsName c = true) (hcs : ∀ d ∈ cs, continuesName d = true)
    (hrest : rest.takeWhile continuesName = []) : lexeme? c (cs ++ rest) = some (.name, (c :: cs).length) := by
  obtain ⟨-, hdigit, hpoint, hdouble, hsingle⟩ := startsName_head hc
  have hrun : (cs ++ rest).takeWhile continuesName = cs := by
    rw [List.takeWhile_append_of_pos hcs, hrest, List.append_nil]
  rw [lexeme?, numberLength_of_head hdigit hpoint]
  simp [hdouble, hsingle, hc, hrun, Nat.add_comm]

theorem isLexeme_name {c : Char} {cs : Text} (hc : startsName c = true) (hcs : ∀ d ∈ cs, continuesName d = true) :
    IsLexeme .name (c :: cs) :=
  ⟨c, cs, rfl, (startsName_head hc).1, fun _ hrest => lexeme?_name hc hcs hrest.continuesName⟩

/-- The symbols between the parts of an expression. -/
def symbols : List Text :=
  [['!'], ['-'], ['+'], ['&', '&'], ['|', '|'], ['=', '=', '='], ['!', '=', '='], ['=', '='], ['!', '='], ['<'], ['>'],
    ['<', '='], ['>', '='], ['*'], ['/'], ['%'], ['?'], [':'], [','], ['('], [')'], ['['], [']']]

theorem isLexeme_op {c : Char} {cs : Text} (hblank : isBlank c = false)
    (hend : lexeme? c cs = some (.op, cs.length + 1))
    (hspace : ∀ rest, lexeme? c (cs ++ ' ' :: rest) = some (.op, cs.length + 1)) : IsLexeme .op (c :: cs) := by
  refine ⟨c, cs, rfl, hblank, fun rest hrest => ?_⟩
  cases rest with
  | nil => rwa [List.append_nil]
  | cons d rest =>
    obtain rfl : d = ' ' := hrest
    exact hspace rest

theorem isLexeme_symbol {s : Text} (h : s ∈ symbols) : IsLexeme .op s := by
  simp only [symbols, List.mem_cons, List.not_mem_nil, or_false] at h
  rcases h with rfl | rfl | rfl | rfl | rfl | rfl | rfl | rfl | rfl | rfl | rfl | rfl | rfl | rfl | rfl | rfl | rfl | rfl |
    rfl | rfl | rfl | rfl | rfl <;> exact isLexeme_op (by decide) rfl fun _ => rfl

end Token

end PageTemplate
