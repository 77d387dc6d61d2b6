import Mathlib.Data.Bool.AllAny
import PageTemplate.Dynamic.Argument
import PageTemplate.Proofs.Indexing
import PageTemplate.Proofs.Place
import PageTemplate.Proofs.Scan
import PageTemplate.Proofs.Template
import PageTemplate.Proofs.Trimming
set_option autoImplicit false
/-!
Literals as arguments. A literal that stands between commas is taken for its value whatever the variables are, and
lists of arguments that a comma joins are read one after the other. Only a number with too many digits, zeros in front
among them, is refused.
-/
namespace PageTemplate

/-- Both sides of a separator are split apart from each other. -/
theorem splitAt_append_cons (c : Char) (x y : Text) : splitAt [c] (x ++ c :: y) = splitAt [c] x ++ splitAt [c] y := by
  fun_induction splitAt [c] x with
  | case1 x hcut =>
    have hx : c ∉ x := by rw [← cut?_isSome_iff, hcut]; exact Bool.false_ne_true
    rw [splitAt_of_cut? (by simp) (cut?_append hx y)]
    rfl
  | case2 x before rest hcut _ ih =>
    have hwhole : cut? [c] (x ++ c :: y) = some (before, rest ++ c :: y) := by
      rw [cut?_eq_some hcut]
      simpa using cut?_append (notMem_of_cut? hcut) (rest ++ c :: y)
    rw [splitAt_of_cut? (by simp) hwhole, ih]
    rfl
  | case3 x before rest hcut hlength => exact absurd Nat.zero_lt_one hlength

namespace Argument

theorem meanings_append (vars : Entries) (r s : Text) :
    meanings vars (r ++ ',' :: s) = meanings vars r ++ meanings vars s := by
  simp only [meanings, splitAt_append_cons, List.map_append, List.filter_append]

/-- A literal as it is written: a number may have zeros in front, and the inside of a text stands between two quotes
of one kind as it is. -/
inductive Literal where
  | null
  | bool (b : Bool)
  | whole (negative : Bool) (zeros magnitude : Nat)
  | quoted (quote : { c : Char // isQuote c }) (inner : { t : Text // ',' ∉ t })

namespace Literal

def digits (zeros magnitude : Nat) : Text := List.replicate zeros '0' ++ natText magnitude

def print : Literal → Text
  | .null => text "null"
  | .bool b => if b then text "true" else text "false"
  | .whole negative zeros magnitude => if negative then '-' :: digits zeros magnitude else digits zeros magnitude
  | .quoted quote inner => quote.1 :: (inner.1 ++ [quote.1])

def value : Literal → Value
  | .null => .null
  | .bool b => .bool b
  | .whole negative _ magnitude => .int (applySign negative magnitude)
  | .quoted _ inner => .str inner.1

/-- A number is written with few enough digits. -/
def isShort : Literal → Bool
  | .whole _ zeros magnitude => (digits zeros magnitude).length ≤ digitLimit
  | _ => true

/-- What becomes of the literal. -/
def reading (l : Literal) : Except Fault Value := if l.isShort then .ok l.value else .error .tooManyDigits

end Literal

/-! Digits -/

theorem isDigitChar_of_mem_digits {zeros magnitude : Nat} {c : Char} (h : c ∈ Literal.digits zeros magnitude) :
    isDigitChar c = true := by
  rcases List.mem_append.1 h with h | h
  · rw [List.eq_of_mem_replicate h]
    decide
  · exact isDigitChar_of_mem_natText h

theorem digits_ne_nil (zeros magnitude : Nat) : Literal.digits zeros magnitude ≠ [] := fun h =>
  natText_ne_nil magnitude (List.append_eq_nil_iff.1 h).2

theorem digitsToNat_digits (zeros magnitude : Nat) : digitsToNat (Literal.digits zeros magnitude) = magnitude := by
  induction zeros with
  | zero => exact digitsToNat_natText magnitude
  | succ zeros ih => exact ih

/-- What no digit is, no character of a number is. -/
theorem notMem_digits {c : Char} (hc : isDigitChar c = false) (zeros magnitude : Nat) :
    c ∉ Literal.digits zeros magnitude := fun h => by
  rw [isDigitChar_of_mem_digits h] at hc
  cases hc

theorem numberLength_digits (zeros magnitude : Nat) :
    Token.numberLength (Literal.digits zeros magnitude) = (Literal.digits zeros magnitude).length := by
  have hlength : Token.numberLength (Literal.digits zeros magnitude ++ []) = (Literal.digits zeros magnitude).length :=
    Token.numberLength_digits (digits_ne_nil zeros magnitude) (fun _ => isDigitChar_of_mem_digits) rfl (by simp) rfl
  rwa [List.append_nil] at hlength

theorem readSign_digits (zeros magnitude : Nat) :
    readSign (Literal.digits zeros magnitude) = (false, Literal.digits zeros magnitude) := by
  unfold readSign
  split
  · next r h => exact absurd (h ▸ List.mem_cons_self) (notMem_digits (c := '-') (by decide) zeros magnitude)
  · next r h => exact absurd (h ▸ List.mem_cons_self) (notMem_digits (c := '+') (by decide) zeros magnitude)
  · rfl

theorem readSign_whole (negative : Bool) (zeros magnitude : Nat) :
    readSign (Literal.whole negative zeros magnitude).print = (negative, Literal.digits zeros magnitude) := by
  cases negative with
  | true => rfl
  | false => exact readSign_digits zeros magnitude

theorem isNumeral_whole (negative : Bool) (zeros magnitude : Nat) :
    isNumeral (Literal.whole negative zeros magnitude).print = true := by
  simp [isNumeral, readSign_whole, digits_ne_nil, numberLength_digits]

theorem numeral_whole (negative : Bool) (zeros magnitude : Nat) :
    numeral (Literal.whole negative zeros magnitude).print = (Literal.whole negative zeros magnitude).reading := by
  have hall : (Literal.digits zeros magnitude).all isDigitChar = true :=
    List.all_eq_true.2 fun _ => isDigitChar_of_mem_digits
  have hread : readWhole? (Literal.whole negative zeros magnitude).print =
      some ((readDigits (Literal.digits zeros magnitude)).map (applySign negative)) := by
    simp [readWhole?, readSign_whole, hall, digits_ne_nil]
  simp only [numeral, hread, Literal.reading, Literal.isShort, decide_eq_true_eq]
  split
  · next hshort =>
    rw [readDigits_of_le hshort, digitsToNat_digits]
    rfl
  · next hlong =>
    rw [readDigits_of_lt (Nat.not_le.mp hlong)]
    rfl

/-! Classification -/

theorem isQuote_iff {c : Char} : isQuote c = true ↔ c = '"' ∨ c = '\'' := by simp [isQuote]

theorem quoted?_quoted {q : Char} (hq : isQuote q) (t : Text) : quoted? (q :: (t ++ [q])) = some t := by
  simp [quoted?, hq]

theorem quoted?_of_head {c : Char} (hc : isQuote c = false) (t : Text) : quoted? (c :: t) = none := by
  cases h : t.getLast? <;> simp [quoted?, h, hc]

theorem reference?_eq_none {arg : Text} (h : '\x7b' ∉ arg) : reference? arg = none := by
  have huntagged : Piece.Untagged readReference arg := by
    intro u hu hne
    obtain ⟨c, u, rfl⟩ := List.exists_cons_of_ne_nil hne
    have hc : '\x7b' ≠ c := fun he => h (he ▸ hu.subset List.mem_cons_self)
    simp [readReference, Tag.opening, after?, hc]
  rw [reference?, huntagged.scan_eq]
  simp [Piece.chars]

theorem classify_of_bare (vars : Entries) {arg : Text} (hquote : ∀ c ∈ arg, isQuote c = false) (hbrace : '\x7b' ∉ arg) :
    classify vars arg = bare vars arg := by
  have hquoted : quoted? arg = none := by
    cases arg with
    | nil => rfl
    | cons c arg => exact quoted?_of_head (hquote c List.mem_cons_self) arg
  simp only [classify, hquoted, reference?_eq_none hbrace]

theorem mem_whole {negative : Bool} {zeros magnitude : Nat} {c : Char}
    (h : c ∈ (Literal.whole negative zeros magnitude).print) : c = '-' ∨ isDigitChar c = true := by
  cases negative with
  | false => exact .inr (isDigitChar_of_mem_digits h)
  | true => exact (List.mem_cons.1 h).imp_right isDigitChar_of_mem_digits

/-- A character that a number does not hold. -/
theorem notMem_whole {c : Char} (hc : c ≠ '-' ∧ isDigitChar c = false) (negative : Bool) (zeros magnitude : Nat) :
    c ∉ (Literal.whole negative zeros magnitude).print := fun h => by
  rcases mem_whole h with rfl | hdigit
  · exact hc.1 rfl
  · rw [hc.2] at hdigit
    cases hdigit

theorem bare_whole (vars : Entries) (negative : Bool) (zeros magnitude : Nat) :
    bare vars (Literal.whole negative zeros magnitude).print =
      .ofExcept (Literal.whole negative zeros magnitude).reading := by
  have hword : ∀ word ∈ [text "true", text "false", text "null", text "undefined"],
      (Literal.whole negative zeros magnitude).print ≠ word := by
    intro word hword he
    have hletter : ∀ w ∈ [text "true", text "false", text "null", text "undefined"],
        w.any (fun c => decide (c ≠ '-' ∧ isDigitChar c = false)) = true := by decide
    obtain ⟨c, hmem, hc⟩ := List.any_iff_exists_prop.mp (hletter word hword)
    exact notMem_whole hc negative zeros magnitude (he ▸ hmem)
  simp only [List.forall_mem_cons] at hword
  simp [bare, hword, isNumeral_whole, numeral_whole]

/-- A literal means its value, whatever the variables are. -/
theorem classify_print (vars : Entries) (l : Literal) : classify vars l.print = .ofExcept l.reading := by
  cases l with
  | null =>
    rw [Literal.print, classify_of_bare vars (List.all_iff_forall_prop.mp (by decide)) (by decide)]
    rfl
  | bool b =>
    cases b <;> rw [Literal.print, classify_of_bare vars (List.all_iff_forall_prop.mp (by decide)) (by decide)] <;> rfl
  | quoted quote inner =>
    simp only [classify, Literal.print, quoted?_quoted quote.2]
    rfl
  | whole negative zeros magnitude =>
    have hquote : ∀ c ∈ (Literal.whole negative zeros magnitude).print, isQuote c = false := by
      rintro c hmem
      rw [Bool.eq_false_iff, ne_eq, isQuote_iff]
      rintro (rfl | rfl)
      · exact notMem_whole (by decide) negative zeros magnitude hmem
      · exact notMem_whole (by decide) negative zeros magnitude hmem
    have hbrace : '\x7b' ∉ (Literal.whole negative zeros magnitude).print := notMem_whole (by decide) _ _ _
    rw [classify_of_bare vars hquote hbrace, bare_whole]

/-! Lists -/

theorem print_ne_nil (l : Literal) : l.print ≠ [] := by
  cases l with
  | null => decide
  | bool b => cases b <;> decide
  | whole negative zeros magnitude =>
    cases negative with
    | true => exact List.cons_ne_nil _ _
    | false => exact digits_ne_nil zeros magnitude
  | quoted quote inner => exact List.cons_ne_nil _ _

theorem comma_notMem_print (l : Literal) : ',' ∉ l.print := by
  cases l with
  | null => decide
  | bool b => cases b <;> decide
  | whole negative zeros magnitude => exact notMem_whole (by decide) negative zeros magnitude
  | quoted quote inner =>
    have hquote : ',' ≠ quote.1 := fun he => absurd quote.2 (he ▸ by decide)
    simp [Literal.print, hquote, inner.2]

/-- No literal starts or ends with a blank. -/
theorem trim_print (l : Literal) : trim l.print = l.print := by
  cases l with
  | null => rfl
  | bool b => cases b <;> rfl
  | whole negative zeros magnitude =>
    refine trim_of_notBlank fun c hc => ?_
    rcases mem_whole hc with rfl | hdigit
    · decide
    · exact Token.isBlank_of_isDigitChar hdigit
  | quoted quote inner =>
    have hquote : isBlank quote.1 = false := by
      rcases isQuote_iff.1 quote.2 with he | he
      · rw [he]
        decide
      · rw [he]
        decide
    rw [Literal.print, trim, skipBlanks_cons hquote, ← List.cons_append, dropEndWhile_append_cons hquote]
    rfl

/-- A literal with blanks around it. -/
structure Spaced where
  lead : Template.Blanks
  literal : Literal
  trail : Template.Blanks

def Spaced.print (s : Spaced) : Text := s.lead.1 ++ (s.literal.print ++ s.trail.1)

namespace Spaced

theorem trim_print (s : Spaced) : trim s.print = s.literal.print := by
  rw [print, trim_between s.lead.2 s.trail.2, Argument.trim_print]

theorem comma_notMem_print (s : Spaced) : ',' ∉ s.print := by
  have hlead : ',' ∉ s.lead.1 := notMem_of_blank s.lead.2 (by decide)
  have htrail : ',' ∉ s.trail.1 := notMem_of_blank s.trail.2 (by decide)
  simp [print, hlead, htrail, Argument.comma_notMem_print]

end Spaced

theorem meanings_literals (vars : Entries) (ls : List Spaced) :
    meanings vars (joinWith [','] (ls.map Spaced.print)) = ls.map fun s => .ofExcept s.literal.reading := by
  have htrimmed : ((splitAt [','] (joinWith [','] (ls.map Spaced.print))).map trim).filter (!·.isEmpty) =
      ls.map (·.literal.print) := by
    cases ls with
    | nil =>
      rw [List.map_nil, joinWith, splitAt_of_none rfl]
      rfl
    | cons s ls =>
      rw [splitAt_joinWith (by simp) (List.forall_mem_map.2 fun s _ => s.comma_notMem_print), List.map_map,
        List.filter_eq_self.2 (List.forall_mem_map.2 fun s _ => by simp [Spaced.trim_print, print_ne_nil])]
      simp only [Function.comp_def, Spaced.trim_print]
  rw [meanings, htrimmed, List.map_map]
  exact List.map_congr_left fun s _ => classify_print vars s.literal

theorem valuesOf_append (ms ns : List Meaning) :
    valuesOf (ms ++ ns) = do return (← valuesOf ms) ++ (← valuesOf ns) := by
  induction ms with
  | nil => cases hn : valuesOf ns <;> simp [valuesOf, hn, bind, pure, Except.bind, Except.pure]
  | cons m ms ih =>
    cases m with
    | failed f => rfl
    | value v =>
      rw [List.cons_append, valuesOf, valuesOf, ih]
      cases valuesOf ms <;> cases valuesOf ns <;> rfl
    | nothing => exact ih
    | refused n => exact ih

theorem valuesOf_literals (ls : List Spaced) :
    valuesOf (ls.map fun s => .ofExcept s.literal.reading) =
      if ls.all (·.literal.isShort) then .ok (ls.map (·.literal.value)) else .error .tooManyDigits := by
  induction ls with
  | nil => rfl
  | cons s ls ih =>
    rw [List.map_cons, List.all_cons, Literal.reading]
    cases s.literal.isShort with
    | false => rfl
    | true =>
      rw [if_pos rfl, Meaning.ofExcept, valuesOf, ih, Bool.true_and]
      split <;> rfl

theorem noticesOf_literals (ls : List Spaced) : noticesOf (ls.map fun s => .ofExcept s.literal.reading) = [] := by
  induction ls with
  | nil => rfl
  | cons s ls ih =>
    rw [List.map_cons]
    cases s.literal.reading with
    | ok v => exact ih
    | error f => rfl

/-- Literals between commas, with any blanks around each, are read as their values, one by one, under any variables and
without a notice, unless a number has too many digits; and a comma joins two lists of arguments of any kind. -/
theorem values_literals (vars : Entries) :
    (∀ ls : List Spaced, values vars (joinWith [','] (ls.map Spaced.print)) =
        (if ls.all (·.literal.isShort) then .ok (ls.map (·.literal.value)) else .error .tooManyDigits) ∧
      notices vars (joinWith [','] (ls.map Spaced.print)) = []) ∧
    ∀ r s : Text, values vars (r ++ ',' :: s) = do return (← values vars r) ++ (← values vars s) := by
  refine ⟨fun ls => ?_, fun r s => ?_⟩
  · rw [values, notices, meanings_literals]
    exact ⟨valuesOf_literals ls, noticesOf_literals ls⟩
  · rw [values, meanings_append]
    exact valuesOf_append _ _

theorem values_of_long (vars : Entries) {l : Literal} (h : l.isShort = false) :
    values vars l.print = .error .tooManyDigits := by
  have hmeanings := meanings_literals vars [⟨⟨[], rfl⟩, l, ⟨[], rfl⟩⟩]
  have hvalues := valuesOf_literals [⟨⟨[], rfl⟩, l, ⟨[], rfl⟩⟩]
  rw [← hmeanings, List.all_cons, h, List.map_singleton, joinWith, Spaced.print, List.append_nil] at hvalues
  exact hvalues

theorem isShort_of_lt {zeros magnitude : Nat} (negative : Bool) (h : digitLimit < (natText magnitude).length) :
    (Literal.whole negative zeros magnitude).isShort = false := by
  have hlong : digitLimit < (Literal.digits zeros magnitude).length := by
    rw [Literal.digits, List.length_append]
    exact Nat.lt_add_left _ h
  exact decide_eq_false (Nat.not_le.mpr hlong)

/-- A number with too many digits is a literal and no argument. -/
theorem values_literals_limit :
    (Literal.whole false 0 (10 ^ digitLimit)).value = .overlong ∧
      ∀ vars, values vars (Literal.whole false 0 (10 ^ digitLimit)).print = .error .tooManyDigits := by
  have hvalue (n : Nat) : (Literal.whole false 0 n).value = .nat n := rfl
  have hlong := digitLimit_lt_length_natText (Nat.le_refl (10 ^ digitLimit))
  exact ⟨hvalue _, fun vars => values_of_long vars (isShort_of_lt false hlong)⟩

end Argument

end PageTemplate
