import Mathlib.Data.Bool.AllAny
import Mathlib.Data.List.Forall2
import PageTemplate.Expr.Eval
import PageTemplate.Proofs.Lexeme
import PageTemplate.Proofs.Overriding
set_option autoImplicit false
/-!
JSON written and read back. What is written of plain data is read as that data in front of anything that cannot belong
to it, whether strictly written or not; so the text of a value determines the value. Outside its strings a written
text holds no white space. Data with a whole number of too many digits is not written at all.
-/
namespace PageTemplate

/-- Null, booleans, whole numbers, texts, and lists and mappings of such values. The keys of a mapping are texts, and
no key comes twice. -/
inductive Value.IsJson : Value → Prop
  | null : IsJson .null
  | bool (b : Bool) : IsJson (.bool b)
  | int (n : Int) : IsJson (.int n)
  | str (t : Text) : IsJson (.str t)
  | list {xs : List Value} (items : ∀ x ∈ xs, IsJson x) : IsJson (.list xs)
  | map {es : List (Text × Value)} (items : ∀ e ∈ es, IsJson e.2) (keys : (es.map (·.1)).Nodup) :
    IsJson (.map (es.map fun e => (.str e.1, e.2)))

mutual

/-- No whole number in it has too many digits. -/
def Value.isBrief : Value → Bool
  | .number (.whole n) => (natText n.natAbs).length ≤ digitLimit
  | .list xs => allBrief xs
  | .map es => briefIn es
  | _ => true

def Value.allBrief : List Value → Bool
  | [] => true
  | x :: xs => isBrief x && allBrief xs

def Value.briefIn : List (Value × Value) → Bool
  | [] => true
  | (_, v) :: es => isBrief v && briefIn es

end

namespace Entries

theorem put_of_not_mem {key : Text} {v : Value} {es : Entries} (h : key ∉ es.texts) :
    es.put (.str key) v = es ++ [(.str key, v)] := by
  induction es with
  | nil => rfl
  | cons e es ih =>
    obtain ⟨k, w⟩ := e
    obtain ⟨u, rfl⟩ | hother := k.str_or_ne
    · rw [texts_cons_str, List.mem_cons, not_or] at h
      have hne : ¬ Value.alike (.str u) (.str key) = true := by
        rw [Value.alike_str]
        rintro ⟨rfl⟩
        exact h.1 rfl
      rw [put, if_neg hne, ih h.2, List.cons_append]
    · rw [texts_cons_of_ne hother] at h
      rw [put, if_neg (by rw [Value.alike_str]; exact hother key), ih h, List.cons_append]

/-- Entries under different texts are set one behind the other. -/
theorem ofPairs_texts {es : List (Text × Value)} (h : (es.map (·.1)).Nodup) :
    ofPairs (es.map fun e => (.str e.1, e.2)) = es.map fun e => (.str e.1, e.2) := by
  suffices hfold : ∀ acc : Entries, (∀ e ∈ es, e.1 ∉ acc.texts) →
      es.foldl (fun acc e => acc.put (.str e.1) e.2) acc = acc ++ es.map fun e => (.str e.1, e.2) by
    simpa [ofPairs, List.foldl_map] using hfold [] (by simp)
  induction es with
  | nil => simp
  | cons e es ih =>
    intro acc hacc
    rw [List.map_cons, List.nodup_cons] at h
    have hput : acc.put (.str e.1) e.2 = acc ++ [(.str e.1, e.2)] := put_of_not_mem (hacc e List.mem_cons_self)
    rw [List.foldl_cons, hput, ih h.2, List.append_assoc]
    · rfl
    · intro f hf
      have hold := hacc f (List.mem_cons_of_mem _ hf)
      have hnew : f.1 ≠ e.1 := fun heq => h.1 (heq ▸ List.mem_map_of_mem hf)
      simpa [texts, hnew] using hold

end Entries

namespace Json

theorem ok_bind {α β : Type} (a : α) (f : α → Except Fault β) : (Except.ok a >>= f) = f a := rfl

/-! Strings -/

theorem hexValue?_hexDigit : ∀ d < 16, hexValue? (Quoted.hexDigit d) = some d := by decide

theorem readUnit?_hex {n : Nat} (h : n < 0x10000) (r : Text) : readUnit? (Quoted.hex 4 n ++ r) = some (n, r) := by
  have hdigit (m : Nat) : hexValue? (Quoted.hexDigit (m % 16)) = some (m % 16) :=
    hexValue?_hexDigit _ (Nat.mod_lt m (by decide))
  simp only [Quoted.hex, List.nil_append, List.cons_append, readUnit?, hdigit, Option.bind_eq_bind, Option.bind_some,
    Option.some.injEq, Prod.mk.injEq, and_true]
  omega

theorem readCodePoint?_hex {c : Char} (h : c.toNat < 0x20) (r : Text) :
    readCodePoint? (Quoted.hex 4 c.toNat ++ r) = some (c, r) := by
  have hlow : ¬ 0xD800 ≤ c.toNat := by omega
  simp [readCodePoint?, readUnit?_hex (show c.toNat < 0x10000 by omega), hlow, Char.ofNat_toNat]

/-- A character is written as a short escape that is read back, as its code, or as itself. -/
theorem escapeChar_cases (c : Char) :
    (∃ e, escapeChar c = ['\\', e] ∧ e ≠ 'u' ∧ simpleEscape? e = some c) ∨
      (escapeChar c = '\\' :: 'u' :: Quoted.hex 4 c.toNat ∧ c.toNat < 0x20) ∨
      (escapeChar c = [c] ∧ c ≠ '"' ∧ c ≠ '\\' ∧ ¬ c.toNat < 0x20) := by
  by_cases hshort : c = '"' ∨ c = '\\' ∨ c = '\n' ∨ c = '\r' ∨ c = '\t' ∨ c = '\x0c' ∨ c = '\x08'
  · left
    rcases hshort with rfl | rfl | rfl | rfl | rfl | rfl | rfl <;> exact ⟨_, rfl, by decide, by decide⟩
  · right
    obtain ⟨hquote, hback, hn, hr, ht, hf, hb⟩ := by simpa only [not_or] using hshort
    by_cases hcontrol : c.toNat < 0x20
    · exact .inl ⟨by simp [escapeChar, *], hcontrol⟩
    · exact .inr ⟨by simp [escapeChar, *], hquote, hback, hcontrol⟩

theorem readTail_escapeChar (fuel : Nat) (c : Char) (r : Text) :
    readTail (fuel + 1) (escapeChar c ++ r) = (readTail fuel r).map fun (t, rest) => (c :: t, rest) := by
  obtain ⟨e, he, hu, hread⟩ | ⟨he, hcontrol⟩ | ⟨he, hquote, hback, hcontrol⟩ := escapeChar_cases c
  · rw [he]
    simp [readTail, hread]
  · rw [he]
    simp [readTail, readCodePoint?_hex hcontrol]
  · rw [he]
    simp [readTail, hquote, hback, hcontrol]

theorem readTail_flatMap {t : Text} {fuel : Nat} (h : t.length < fuel) (rest : Text) :
    readTail fuel (t.flatMap escapeChar ++ '"' :: rest) = some (t, rest) := by
  induction t generalizing fuel with
  | nil =>
    obtain ⟨fuel, rfl⟩ : ∃ k, fuel = k + 1 := ⟨fuel - 1, by omega⟩
    simp [readTail]
  | cons c t ih =>
    rw [List.length_cons] at h
    obtain ⟨fuel, rfl⟩ : ∃ k, fuel = k + 1 := ⟨fuel - 1, by omega⟩
    rw [List.flatMap_cons, List.append_assoc, readTail_escapeChar, ih (by omega)]
    rfl

theorem length_le_flatMap_escapeChar (t : Text) : t.length ≤ (t.flatMap escapeChar).length := by
  induction t with
  | nil => exact Nat.le_refl 0
  | cons c t ih =>
    have hone : 1 ≤ (escapeChar c).length := by
      obtain ⟨e, he, _⟩ | ⟨he, _⟩ | ⟨he, _⟩ := escapeChar_cases c <;> simp [he]
    rw [List.flatMap_cons, List.length_append, List.length_cons]
    omega

theorem readTail_written (t rest : Text) :
    readTail ((t.flatMap escapeChar ++ '"' :: rest).length + 1) (t.flatMap escapeChar ++ '"' :: rest) =
      some (t, rest) := by
  have hlength := length_le_flatMap_escapeChar t
  exact readTail_flatMap (by rw [List.length_append]; omega) rest

theorem writeText_append (t rest : Text) : writeText t ++ rest = '"' :: (t.flatMap escapeChar ++ '"' :: rest) := by
  simp [writeText]

/-! What stands outside strings -/

/-- The characters of a JSON text outside its strings, read from within a string or from outside one. In a string a
backslash hides the character behind it. -/
def outside : Bool → Text → Text
  | _, [] => []
  | false, c :: t => c :: outside (c == '"') t
  | true, '\\' :: _ :: t => outside true t
  | true, c :: t => if c = '"' then c :: outside false t else outside true t

theorem outside_hex (width n : Nat) (rest : Text) : outside true (Quoted.hex width n ++ rest) = outside true rest := by
  have hdigit : ∀ d < 16, Quoted.hexDigit d ≠ '"' ∧ Quoted.hexDigit d ≠ '\\' := by decide
  induction width generalizing n rest with
  | zero => rfl
  | succ width ih =>
    obtain ⟨hquote, hback⟩ := hdigit (n % 16) (Nat.mod_lt n (by decide))
    rw [Quoted.hex, List.append_assoc, ih]
    simp [outside, hquote, hback]

theorem outside_flatMap (t rest : Text) :
    outside true (t.flatMap escapeChar ++ '"' :: rest) = '"' :: outside false rest := by
  induction t with
  | nil => simp [outside]
  | cons c t ih =>
    rw [List.flatMap_cons, List.append_assoc]
    obtain ⟨e, he, -, -⟩ | ⟨he, -⟩ | ⟨he, hquote, hback, -⟩ := escapeChar_cases c
    · rw [he]
      exact ih
    · rw [he]
      exact (outside_hex 4 c.toNat _).trans ih
    · rw [he]
      simp [outside, hquote, hback, ih]

/-- A text whose strings are closed and that has no blank outside them. -/
structure Tight (t : Text) : Prop where
  closed : ∀ rest, outside false (t ++ rest) = outside false t ++ outside false rest
  solid : ∀ c ∈ outside false t, isBlank c = false

namespace Tight

theorem append {t u : Text} (ht : Tight t) (hu : Tight u) : Tight (t ++ u) where
  closed rest := by rw [List.append_assoc, ht.closed, hu.closed, ht.closed, List.append_assoc]
  solid c hc := by
    rw [ht.closed, List.mem_append] at hc
    exact hc.elim (ht.solid c) (hu.solid c)

theorem of_forall {t : Text} (h : ∀ c ∈ t, c ≠ '"' ∧ isBlank c = false) : Tight t := by
  induction t with
  | nil => exact ⟨fun _ => rfl, nofun⟩
  | cons c t ih =>
    have hc := h c List.mem_cons_self
    have ht := ih fun d hd => h d (List.mem_cons_of_mem _ hd)
    have hquote : (c == '"') = false := by simpa using hc.1
    refine ⟨fun rest => ?_, fun d hd => ?_⟩
    · rw [List.cons_append, outside, outside, hquote, ht.closed, List.cons_append]
    · rw [outside, hquote] at hd
      obtain rfl | hd := List.mem_cons.mp hd
      · exact hc.2
      · exact ht.solid d hd

theorem writeText (t : Text) : Tight (writeText t) := by
  have hrest (rest : Text) : outside false (Json.writeText t ++ rest) = '"' :: '"' :: outside false rest := by
    rw [writeText_append]
    exact congrArg _ (outside_flatMap t rest)
  have hself := hrest []
  rw [List.append_nil] at hself
  have hquotes : ∀ c ∈ ['"', '"'], isBlank c = false := List.all_iff_forall_prop.mp (by decide)
  refine ⟨fun rest => by rw [hrest, hself]; rfl, fun c hc => ?_⟩
  rw [hself] at hc
  exact hquotes c hc

theorem joinWith {ts : List Text} (h : ∀ t ∈ ts, Tight t) : Tight (joinWith [','] ts) := by
  induction ts with
  | nil => exact of_forall nofun
  | cons t ts ih =>
    cases ts with
    | nil => exact h t List.mem_cons_self
    | cons u us =>
      have hcomma : Tight [','] := of_forall (List.all_iff_forall_prop.mp (by decide))
      exact ((h t List.mem_cons_self).append hcomma).append (ih fun v hv => h v (List.mem_cons_of_mem _ hv))

theorem of_forall₂ {α : Type} {R : α → Text → Prop} {xs : List α} {ts : List Text} (h : List.Forall₂ R xs ts)
    (hR : ∀ x t, R x t → Tight t) : ∀ t ∈ ts, Tight t := by
  induction h with
  | nil => nofun
  | cons hfirst _ ih => exact List.forall_mem_cons.mpr ⟨hR _ _ hfirst, ih⟩

end Tight

/-! Whole numbers -/

theorem isAsciiDigit_decimalDigit : ∀ d < 10, isAsciiDigit (decimalDigit d) = true := by decide

theorem isAsciiDigit_of_mem_natText {n : Nat} {c : Char} (h : c ∈ natText n) : isAsciiDigit c = true := by
  obtain ⟨d, hd, rfl⟩ := mem_natText h
  exact isAsciiDigit_decimalDigit d hd

theorem natText_head (n : Nat) : ∃ c cs, natText n = c :: cs ∧ isAsciiDigit c = true := by
  obtain ⟨c, cs, hc⟩ := List.exists_cons_of_ne_nil (natText_ne_nil n)
  exact ⟨c, cs, hc, isAsciiDigit_of_mem_natText (n := n) (by rw [hc]; exact List.mem_cons_self)⟩

/-- The characters of whole numbers. -/
def numeralChars : Text := '-' :: (List.range 10).map decimalDigit

theorem mem_intText {n : Int} {c : Char} (h : c ∈ intText n) : c ∈ numeralChars := by
  have hnat {m : Nat} (hc : c ∈ natText m) : c ∈ numeralChars := by
    obtain ⟨d, hd, rfl⟩ := mem_natText hc
    exact List.mem_cons_of_mem _ (List.mem_map_of_mem (List.mem_range.mpr hd))
  cases n with
  | ofNat n => exact hnat h
  | negSucc n =>
    obtain rfl | hc := List.mem_cons.mp h
    · exact List.mem_cons_self
    · exact hnat hc

theorem intText_ne_nil (n : Int) : intText n ≠ [] := by
  cases n with
  | ofNat n => exact natText_ne_nil n
  | negSucc n => exact List.cons_ne_nil _ _

theorem eq_zero_of_natText {n : Nat} {cs : Text} (h : natText n = '0' :: cs) : n = 0 := by
  fun_induction natText n generalizing cs with
  | case1 n hn =>
    have hdigit : ∀ d < 10, decimalDigit d = '0' → d = 0 := by decide
    exact hdigit n hn (List.cons.inj h).1
  | case2 n hn ih =>
    obtain ⟨c, ds, hc⟩ := List.exists_cons_of_ne_nil (natText_ne_nil (n / 10))
    rw [hc, List.cons_append] at h
    have hzero := ih (hc.trans (by rw [(List.cons.inj h).1]))
    omega

/-- What may stand behind a value: nothing, or what ends an item, a list or a mapping. -/
def Ends (rest : Text) : Prop := ∀ c ∈ rest.head?, c = ',' ∨ c = ']' ∨ c = '\x7d'

theorem Ends.readFraction {rest : Text} (h : Ends rest) : readFraction rest = (none, rest) := by
  cases rest with
  | nil => rfl
  | cons c rest => obtain rfl | rfl | rfl := h c rfl <;> rfl

theorem Ends.readPower {rest : Text} (h : Ends rest) : readPower rest = (none, rest) := by
  cases rest with
  | nil => rfl
  | cons c rest => obtain rfl | rfl | rfl := h c rfl <;> rfl

theorem Ends.span {digits rest : Text} (h : Ends rest) (hdigits : ∀ c ∈ digits, isAsciiDigit c = true) :
    (digits ++ rest).takeWhile isAsciiDigit = digits ∧ (digits ++ rest).dropWhile isAsciiDigit = rest := by
  rw [List.takeWhile_append_of_pos hdigits, List.dropWhile_append_of_pos hdigits]
  cases rest with
  | nil => exact ⟨List.append_nil _, rfl⟩
  | cons c rest =>
    have hc : isAsciiDigit c = false := by obtain rfl | rfl | rfl := h c rfl <;> rfl
    simp [hc]

theorem readNumber_natText (negative : Bool) {n : Nat} (hn : (natText n).length ≤ digitLimit) {rest : Text}
    (h : Ends rest) : readNumber negative (natText n ++ rest) = .ok (.int (applySign negative n), rest) := by
  obtain ⟨htake, hdrop⟩ := h.span fun _ => isAsciiDigit_of_mem_natText (n := n)
  obtain ⟨c, cs, hc, hdigit⟩ := natText_head n
  by_cases hzero : c = '0'
  · subst hzero
    obtain rfl := eq_zero_of_natText hc
    have hwritten : natText 0 = ['0'] := by rw [natText]; rfl
    simp only [hwritten, List.singleton_append, readNumber, h.readFraction, h.readPower]
    rfl
  · have hvalue : readDigits (natText n) = .ok n := by rw [readDigits_of_le hn, digitsToNat_natText]
    rw [hc] at htake hdrop hvalue ⊢
    rw [List.cons_append] at htake hdrop ⊢
    simp only [readNumber, if_pos hdigit, htake, hdrop, h.readFraction, h.readPower, hvalue]
    rfl

theorem readNamed?_digit {c : Char} (h : isAsciiDigit c = true) (r : Text) :
    readNamed? (c :: r) = none ∧ readNamed? ('-' :: c :: r) = none := by
  have hne : 'n' ≠ c ∧ 't' ≠ c ∧ 'f' ≠ c ∧ 'N' ≠ c ∧ 'I' ≠ c ∧ '-' ≠ c := by
    refine ⟨?_, ?_, ?_, ?_, ?_, ?_⟩ <;> (rintro rfl; exact absurd h (by decide))
  obtain ⟨hn, ht, hf, hN, hI, hminus⟩ := hne
  constructor <;> simp [readNamed?, named, text, after?, *]

theorem readValue_intText {n : Int} (hn : (natText n.natAbs).length ≤ digitLimit) (fuel : Nat) {rest : Text}
    (h : Ends rest) : readValue (fuel + 1) (intText n ++ rest) = .ok (.int n, rest) := by
  cases n with
  | ofNat n =>
    obtain ⟨c, cs, hc, hdigit⟩ := natText_head n
    have hread : readNumber false (natText n ++ rest) = .ok (.int n, rest) := readNumber_natText false hn h
    have hne : c ≠ '"' ∧ c ≠ '[' ∧ c ≠ '\x7b' ∧ c ≠ '-' := by
      refine ⟨?_, ?_, ?_, ?_⟩ <;> (rintro rfl; exact absurd hdigit (by decide))
    obtain ⟨hquote, hbracket, hbrace, hminus⟩ := hne
    rw [hc] at hread
    rw [intText, hc]
    simpa [readValue, hquote, hbracket, hbrace, hminus, (readNamed?_digit hdigit _).1, applySign] using hread
  | negSucc n =>
    obtain ⟨c, cs, hc, hdigit⟩ := natText_head (n + 1)
    have hread : readNumber true (natText (n + 1) ++ rest) = .ok (.int (Int.negSucc n), rest) :=
      readNumber_natText true hn h
    rw [hc] at hread
    rw [intText, hc]
    simpa [readValue, (readNamed?_digit hdigit _).2, applySign, Int.negSucc_eq] using hread

/-! Values -/

/-- A text that is not empty and begins with neither white space nor the end of a list or a mapping. -/
def Starts (t : Text) : Prop := ∃ c cs, t = c :: cs ∧ isSpace c = false ∧ c ≠ ']' ∧ c ≠ '\x7d'

theorem Starts.append {t : Text} (h : Starts t) (u : Text) : Starts (t ++ u) := by
  obtain ⟨c, cs, rfl, hc⟩ := h
  exact ⟨c, cs ++ u, rfl, hc⟩

theorem Starts.joinWith {t : Text} (h : Starts t) (ts : List Text) : Starts (joinWith [','] (t :: ts)) := by
  cases ts with
  | nil => exact h
  | cons u us => exact (h.append _).append _

theorem Starts.skipSpace {t : Text} (h : Starts t) (rest : Text) : skipSpace (t ++ rest) = t ++ rest := by
  obtain ⟨c, cs, rfl, hspace, -⟩ := h
  exact List.dropWhile_cons_of_neg (by simp [hspace])

/-- The text of a value, strictly written or not. With enough fuel it is read as the value in front of all that can
stand behind a value. -/
structure Written (v : Value) (t : Text) : Prop where
  write : ∀ strict, Json.write strict v = .ok t
  read : ∀ (fuel : Nat) (rest : Text), t.length < fuel → Ends rest → readValue fuel (t ++ rest) = .ok (v, rest)
  starts : Starts t
  tight : Tight t

/-- The text of an entry under a text key. -/
def WrittenEntry (e : Text × Value) (u : Text) : Prop := ∃ t, u = writeText e.1 ++ ':' :: t ∧ Written e.2 t

namespace Written

theorem null : Written .null (text "null") where
  write _ := rfl
  read _ _ hfuel _ := by
    obtain ⟨fuel, rfl⟩ := Nat.exists_eq_add_one_of_ne_zero (Nat.ne_zero_of_lt hfuel)
    rfl
  starts := ⟨_, _, rfl, by decide, by decide, by decide⟩
  tight := .of_forall (List.all_iff_forall_prop.mp (by decide))

theorem bool (b : Bool) : Written (.bool b) (writeBool b) where
  write _ := rfl
  read _ _ hfuel _ := by
    obtain ⟨fuel, rfl⟩ := Nat.exists_eq_add_one_of_ne_zero (Nat.ne_zero_of_lt hfuel)
    cases b <;> rfl
  starts := by cases b <;> exact ⟨_, _, rfl, by decide, by decide, by decide⟩
  tight := .of_forall (List.all_iff_forall_prop.mp (by revert b; decide))

theorem str (t : Text) : Written (.str t) (writeText t) where
  write _ := rfl
  read _ rest hfuel _ := by
    obtain ⟨fuel, rfl⟩ := Nat.exists_eq_add_one_of_ne_zero (Nat.ne_zero_of_lt hfuel)
    rw [writeText_append, readValue, readTail_written]
    rfl
  starts := ⟨_, _, rfl, by decide, by decide, by decide⟩
  tight := .writeText t

theorem int {n : Int} (hn : (natText n.natAbs).length ≤ digitLimit) : Written (.int n) (intText n) where
  write _ := wholeText_of_le hn
  read _ _ hfuel hrest := by
    obtain ⟨fuel, rfl⟩ := Nat.exists_eq_add_one_of_ne_zero (Nat.ne_zero_of_lt hfuel)
    exact readValue_intText hn fuel hrest
  starts := by
    have hall : ∀ c ∈ numeralChars, isSpace c = false ∧ c ≠ ']' ∧ c ≠ '\x7d' :=
      List.all_iff_forall_prop.mp (by decide)
    obtain ⟨c, cs, hc⟩ := List.exists_cons_of_ne_nil (intText_ne_nil n)
    exact ⟨c, cs, hc, hall c (mem_intText (n := n) (by rw [hc]; exact List.mem_cons_self))⟩
  tight := by
    have hall : ∀ c ∈ numeralChars, c ≠ '"' ∧ isBlank c = false := List.all_iff_forall_prop.mp (by decide)
    exact .of_forall fun c hc => hall c (mem_intText hc)

end Written

theorem WrittenEntry.starts {e : Text × Value} {u : Text} (h : WrittenEntry e u) : Starts u := by
  obtain ⟨t, rfl, -⟩ := h
  exact (Written.str e.1).starts.append _

theorem WrittenEntry.tight {e : Text × Value} {u : Text} (h : WrittenEntry e u) : Tight u := by
  obtain ⟨t, rfl, ht⟩ := h
  have hcolon : Tight [':'] := .of_forall (List.all_iff_forall_prop.mp (by decide))
  rw [← List.singleton_append, ← List.append_assoc]
  exact ((Tight.writeText e.1).append hcolon).append ht.tight

namespace Written

/-! Lists and mappings -/

theorem writeItems {xs : List Value} {ts : List Text} (h : List.Forall₂ Written xs ts) (strict : Bool) :
    Json.writeItems strict xs = .ok ts := by
  induction h with
  | nil => rfl
  | cons hfirst _ ih =>
    rw [Json.writeItems, hfirst.write, ih]
    rfl

theorem writeEntries {es : List (Text × Value)} {us : List Text} (h : List.Forall₂ WrittenEntry es us)
    (strict : Bool) : Json.writeEntries strict (es.map fun e => (.str e.1, e.2)) = .ok us := by
  induction h with
  | nil => rfl
  | cons hfirst _ ih =>
    obtain ⟨t, rfl, ht⟩ := hfirst
    rw [List.map_cons, Json.writeEntries, writeKey, ht.write, ih]
    rfl

theorem readItems {xs : List Value} {ts : List Text} (h : List.Forall₂ Written xs ts) (hne : xs ≠ []) {fuel : Nat}
    (hfuel : (joinWith [','] ts).length + 1 < fuel) (rest : Text) :
    Json.readItems fuel (joinWith [','] ts ++ ']' :: rest) = .ok (xs, rest) := by
  induction h generalizing fuel with
  | nil => exact absurd rfl hne
  | @cons x t xs ts hfirst htail ih =>
    obtain ⟨fuel, rfl⟩ := Nat.exists_eq_add_one_of_ne_zero (Nat.ne_zero_of_lt hfuel)
    rw [Json.readItems]
    cases htail with
    | nil =>
      rw [joinWith] at hfuel ⊢
      rw [hfirst.read _ _ (by omega) (by simp [Ends])]
      rfl
    | @cons y u ys us hsecond htail =>
      have hjoin : joinWith [','] (t :: u :: us) = t ++ ',' :: joinWith [','] (u :: us) := by simp [joinWith]
      rw [hjoin, List.length_append, List.length_cons] at hfuel
      have hskip := (hsecond.starts.joinWith us).skipSpace (']' :: rest)
      have hread : Json.readItems fuel (joinWith [','] (u :: us) ++ ']' :: rest) = .ok (y :: ys, rest) :=
        ih (List.cons_ne_nil _ _) (by omega)
      rw [hjoin, List.append_assoc, List.cons_append, hfirst.read _ _ (by omega) (by simp [Ends])]
      have hcomma (r : Text) : skipSpace (',' :: r) = ',' :: r := rfl
      simp only [ok_bind, hcomma, hskip, hread]
      rfl

theorem readEntries {es : List (Text × Value)} {us : List Text} (h : List.Forall₂ WrittenEntry es us) (hne : es ≠ [])
    {fuel : Nat} (hfuel : (joinWith [','] us).length + 1 < fuel) (rest : Text) :
    Json.readEntries fuel (joinWith [','] us ++ '\x7d' :: rest) =
      .ok (es.map fun e => (.str e.1, e.2), rest) := by
  induction h generalizing fuel with
  | nil => exact absurd rfl hne
  | @cons e u es us hfirst htail ih =>
    obtain ⟨fuel, rfl⟩ := Nat.exists_eq_add_one_of_ne_zero (Nat.ne_zero_of_lt hfuel)
    obtain ⟨t, rfl, ht⟩ := hfirst
    have hcolon (r : Text) : skipSpace (':' :: r) = ':' :: r := rfl
    cases htail with
    | nil =>
      rw [joinWith, List.length_append, List.length_cons] at hfuel
      rw [joinWith, List.append_assoc, writeText_append, Json.readEntries, List.cons_append]
      simp only [readTail_written, ofLexeme, Option.elim_some, ok_bind, hcolon, ht.starts.skipSpace,
        ht.read fuel ('\x7d' :: rest) (by omega) (by simp [Ends])]
      rfl
    | @cons f w fs ws hsecond htail =>
      have hjoin : joinWith [','] ((writeText e.1 ++ ':' :: t) :: w :: ws) =
          writeText e.1 ++ ':' :: (t ++ ',' :: joinWith [','] (w :: ws)) := by simp [joinWith]
      have hcomma (r : Text) : skipSpace (',' :: r) = ',' :: r := rfl
      rw [hjoin, List.length_append, List.length_cons, List.length_append, List.length_cons] at hfuel
      have hread : Json.readEntries fuel (joinWith [','] (w :: ws) ++ '\x7d' :: rest) = .ok (_, rest) :=
        ih (List.cons_ne_nil _ _) (by omega)
      rw [hjoin, List.append_assoc, List.cons_append, List.append_assoc, List.cons_append, writeText_append,
        Json.readEntries]
      simp only [readTail_written, ofLexeme, Option.elim_some, ok_bind, hcolon, ht.starts.skipSpace,
        ht.read fuel (',' :: (joinWith [','] (w :: ws) ++ '\x7d' :: rest)) (by omega) (by simp [Ends]), hcomma,
        (hsecond.starts.joinWith ws).skipSpace, hread]
      rfl

theorem list {xs : List Value} {ts : List Text} (h : List.Forall₂ Written xs ts) :
    Written (.list xs) ('[' :: joinWith [','] ts ++ [']']) where
  write strict := by
    rw [Json.write, writeItems h]
    rfl
  read fuel rest hfuel _ := by
    obtain ⟨fuel, rfl⟩ := Nat.exists_eq_add_one_of_ne_zero (Nat.ne_zero_of_lt hfuel)
    rw [List.cons_append, List.length_cons, List.length_append, List.length_singleton] at hfuel
    rw [List.cons_append, List.cons_append, List.append_assoc, List.singleton_append, readValue]
    cases h with
    | nil => rfl
    | @cons x t xs ts hfirst htail =>
      obtain ⟨c, cs, hc, -, hbracket, -⟩ := hfirst.starts.joinWith ts
      rw [(hfirst.starts.joinWith ts).skipSpace]
      split
      · next heq =>
        rw [hc] at heq
        exact absurd (List.cons.inj heq).1 hbracket
      · rw [readItems (.cons hfirst htail) (List.cons_ne_nil _ _) (by omega)]
        rfl
  starts := ⟨_, _, rfl, by decide, by decide, by decide⟩
  tight := by
    have hitems := Tight.joinWith (.of_forall₂ h fun _ _ => tight)
    have hleft : Tight ['['] := .of_forall (List.all_iff_forall_prop.mp (by decide))
    have hright : Tight [']'] := .of_forall (List.all_iff_forall_prop.mp (by decide))
    exact (hleft.append hitems).append hright

theorem map {es : List (Text × Value)} {us : List Text} (h : List.Forall₂ WrittenEntry es us)
    (keys : (es.map (·.1)).Nodup) :
    Written (.map (es.map fun e => (.str e.1, e.2))) ('\x7b' :: joinWith [','] us ++ ['\x7d']) where
  write strict := by
    rw [Json.write, writeEntries h]
    rfl
  read fuel rest hfuel _ := by
    obtain ⟨fuel, rfl⟩ := Nat.exists_eq_add_one_of_ne_zero (Nat.ne_zero_of_lt hfuel)
    rw [List.cons_append, List.length_cons, List.length_append, List.length_singleton] at hfuel
    rw [List.cons_append, List.cons_append, List.append_assoc, List.singleton_append, readValue]
    cases h with
    | nil => rfl
    | @cons e u es us hfirst htail =>
      obtain ⟨c, cs, hc, -, -, hbrace⟩ := hfirst.starts.joinWith us
      rw [(hfirst.starts.joinWith us).skipSpace]
      split
      · next heq =>
        rw [hc] at heq
        exact absurd (List.cons.inj heq).1 hbrace
      · rw [readEntries (.cons hfirst htail) (List.cons_ne_nil _ _) (by omega)]
        rw [ok_bind]
        dsimp only
        rw [Entries.ofPairs_texts keys]
        rfl
  starts := ⟨_, _, rfl, by decide, by decide, by decide⟩
  tight := by
    have hentries := Tight.joinWith (.of_forall₂ h fun _ _ => WrittenEntry.tight)
    have hleft : Tight ['\x7b'] := .of_forall (List.all_iff_forall_prop.mp (by decide))
    have hright : Tight ['\x7d'] := .of_forall (List.all_iff_forall_prop.mp (by decide))
    exact (hleft.append hentries).append hright

end Written

theorem exists_forall₂ {α : Type} {R : α → Text → Prop} {xs : List α} (h : ∀ x ∈ xs, ∃ t, R x t) :
    ∃ ts, List.Forall₂ R xs ts := by
  induction xs with
  | nil => exact ⟨[], .nil⟩
  | cons x xs ih =>
    obtain ⟨t, ht⟩ := h x List.mem_cons_self
    obtain ⟨ts, hts⟩ := ih fun y hy => h y (List.mem_cons_of_mem _ hy)
    exact ⟨t :: ts, .cons ht hts⟩

theorem briefIn_map (es : List (Text × Value)) :
    Value.briefIn (es.map fun e => (.str e.1, e.2)) = Value.allBrief (es.map (·.2)) := by
  induction es with
  | nil => rfl
  | cons e es ih => rw [List.map_cons, Value.briefIn, ih]; rfl

theorem isBrief_of_mem {xs : List Value} (h : Value.allBrief xs) {x : Value} (hx : x ∈ xs) : x.isBrief := by
  induction xs with
  | nil => cases hx
  | cons y ys ih =>
    rw [Value.allBrief, Bool.and_eq_true] at h
    obtain rfl | hx := List.mem_cons.mp hx
    · exact h.1
    · exact ih h.2 hx

theorem exists_written {v : Value} (h : v.IsJson) (hb : v.isBrief) : ∃ t, Written v t := by
  induction h with
  | null => exact ⟨_, .null⟩
  | bool b => exact ⟨_, .bool b⟩
  | int n => exact ⟨_, .int (of_decide_eq_true hb)⟩
  | str t => exact ⟨_, .str t⟩
  | list _ ih =>
    obtain ⟨ts, hts⟩ := exists_forall₂ fun x hx => ih x hx (isBrief_of_mem hb hx)
    exact ⟨_, .list hts⟩
  | map _ keys ih =>
    rw [Value.isBrief, briefIn_map] at hb
    obtain ⟨us, hus⟩ := exists_forall₂ (R := WrittenEntry) fun e he =>
      (ih e he (isBrief_of_mem hb (List.mem_map_of_mem he))).elim fun t ht => ⟨_, t, rfl, ht⟩
    exact ⟨_, .map hus keys⟩

/-! Too many digits -/

/-- What is written of an item tells it from the first one that is not brief. -/
theorem writeItems_eq_error {xs : List Value} (h : ∀ x ∈ xs, x.IsJson) (hb : Value.allBrief xs = false) (strict : Bool)
    (hlong : ∀ x ∈ xs, x.isBrief = false → write strict x = .error .tooManyDigits) :
    writeItems strict xs = .error .tooManyDigits := by
  induction xs with
  | nil => cases hb
  | cons x xs ih =>
    obtain ⟨hx, hxs⟩ := List.forall_mem_cons.mp h
    obtain ⟨hxlong, hlong⟩ := List.forall_mem_cons.mp hlong
    rw [writeItems]
    cases hbrief : x.isBrief with
    | false =>
      rw [hxlong hbrief]
      rfl
    | true =>
      rw [Value.allBrief, hbrief, Bool.true_and] at hb
      obtain ⟨t, ht⟩ := exists_written hx hbrief
      rw [ht.write, ok_bind, ih hxs hb hlong]
      rfl

theorem writeEntries_eq_error {es : List (Text × Value)} (strict : Bool)
    (h : writeItems strict (es.map (·.2)) = .error .tooManyDigits) :
    writeEntries strict (es.map fun e => (.str e.1, e.2)) = .error .tooManyDigits := by
  induction es with
  | nil => cases h
  | cons e es ih =>
    rw [List.map_cons, writeItems] at h
    rw [List.map_cons, writeEntries, writeKey, ok_bind]
    cases hwrite : write strict e.2 with
    | error f =>
      rw [hwrite] at h
      exact h
    | ok t =>
      rw [hwrite, ok_bind] at h
      rw [ok_bind, ih]
      · rfl
      · cases hitems : writeItems strict (es.map (·.2)) with
        | error f => rw [hitems] at h; exact h
        | ok ts => rw [hitems] at h; cases h

/-- Data that is not brief is not written. -/
theorem write_eq_error {v : Value} (h : v.IsJson) (hb : v.isBrief = false) (strict : Bool) :
    write strict v = .error .tooManyDigits := by
  induction h with
  | int n => exact wholeText_of_lt (Nat.not_le.mp (of_decide_eq_false hb))
  | list items ih =>
    rw [write, writeItems_eq_error items hb strict ih]
    rfl
  | @map es items keys ih =>
    rw [Value.isBrief, briefIn_map] at hb
    have hvalues : ∀ v ∈ es.map (·.2), v.IsJson := List.forall_mem_map.mpr items
    rw [write, writeEntries_eq_error strict (writeItems_eq_error hvalues hb strict (List.forall_mem_map.mpr ih))]
    rfl
  | _ => cases hb

theorem Written.readAll {v : Value} {t : Text} (h : Written v t) : Json.read t = .ok v := by
  have hskip := h.starts.skipSpace []
  have hread := h.read (t.length + 1) [] (Nat.lt_succ_self _) nofun
  rw [List.append_nil] at hskip hread
  rw [Json.read, hskip, hread]
  rfl

end Json

section Functions

variable {v : Value} {t : Text}

theorem Json.Written.stringify (h : Json.Written v t) (ambient : Ambient) (origin : Origin) (more : List Value) :
    Builtin.stringify.apply ambient origin (v :: more) = .ok (.str t) := by
  rw [Builtin.apply, h.write]
  rfl

theorem Json.Written.parse (h : Json.Written v t) (ambient : Ambient) (origin : Origin) :
    Builtin.parse.apply ambient origin [.str t] = .ok v := by
  rw [Builtin.apply, Value.plain, Json.ok_bind, h.readAll]
  rfl

/-- The call of a function of a library. -/
def Expr.libraryCall (l : Library) (function : Text) (arguments : List Expr) : Expr :=
  .call (.member (.name l.name) (.literal (.str function))) arguments

theorem Expr.eval_libraryCall {l : Library} {function : Text} {b : Builtin}
    (hb : ∀ mark, Value.memberOf mark (.library l) function = .ok (.builtin b)) {s : Surroundings} {mark : Mark}
    {es : List Expr} {vs : List Value} (hes : evalAll s mark 1 es = .ok vs) :
    (libraryCall l function es).eval s mark = b.apply s.ambient (.made mark) vs := by
  have hok {α β : Type} (a : α) (f : α → Outcome β) : (Outcome.ok a >>= f) = f a := rfl
  have hname (m : Mark) : (Expr.name l.name).eval s m = .ok (.library l) := by cases l <;> rfl
  have hkey (m : Mark) : (Expr.literal (.str function)).eval s m = .ok (.str function) := by rw [eval]; rfl
  have hcallee (m : Mark) : (Expr.member (.name l.name) (.literal (.str function))).eval s m = .ok (.builtin b) := by
    rw [eval, hname, hok, hkey, hok]
    exact congrArg Outcome.ofExcept (hb m)
  rw [libraryCall, eval, hcallee, hok, hes]
  rfl

theorem Expr.evalAll_one {s : Surroundings} {mark : Mark} {i : Nat} {e : Expr} (he : e.eval s (mark.child i) = .ok v) :
    evalAll s mark i [e] = .ok [v] := by
  rw [evalAll, he, evalAll]
  rfl

/-- Plain data written as JSON is read back as it was. Lists and mappings show as the text that is written, no blank
stands outside its strings, and no other data has that text. Only data with a whole number of too many digits is
refused. -/
theorem Json.parse_stringify (h : v.IsJson) :
    (v.isBrief → ∃ t, (∀ ambient origin more, Builtin.stringify.apply ambient origin (v :: more) = .ok (.str t)) ∧
      (∀ ambient origin, Builtin.parse.apply ambient origin [.str t] = .ok v) ∧
      (∀ s mark e, Expr.eval s ((mark.child 1).child 1) e = .ok v →
        (Expr.libraryCall .json (text "parse") [.libraryCall .json (text "stringify") [e]]).eval s mark = .ok v) ∧
      ((∃ xs, v = .list xs) ∨ (∃ es, v = .map es) → v.display? = .ok t) ∧
      (∀ c ∈ outside false t, isBlank c = false) ∧
      ∀ w : Value, w.IsJson → ∀ ambient origin, Builtin.stringify.apply ambient origin [w] = .ok (.str t) → w = v) ∧
    (v.isBrief = false →
      (∀ ambient origin more, Builtin.stringify.apply ambient origin (v :: more) = .fault .tooManyDigits) ∧
      ((∃ xs, v = .list xs) ∨ (∃ es, v = .map es) → v.display? = .error .tooManyDigits)) := by
  have hrefused {w : Value} (hw : w.IsJson) (hlong : w.isBrief = false) (ambient : Ambient) (origin : Origin)
      (more : List Value) : Builtin.stringify.apply ambient origin (w :: more) = .fault .tooManyDigits := by
    rw [Builtin.apply, write_eq_error hw hlong]
    rfl
  refine ⟨fun hb => ?_, fun hb => ⟨hrefused h hb, ?_⟩⟩
  · obtain ⟨t, ht⟩ := exists_written h hb
    refine ⟨t, ht.stringify, ht.parse, fun s mark e he => ?_, ?_, ht.tight.solid, fun w hw ambient origin hsame => ?_⟩
    · have hwrite (m : Mark) : Value.memberOf m (.library .json) (text "stringify") = .ok (.builtin .stringify) := rfl
      have hread (m : Mark) : Value.memberOf m (.library .json) (text "parse") = .ok (.builtin .parse) := rfl
      have hwritten := (Expr.eval_libraryCall hwrite (Expr.evalAll_one he)).trans (ht.stringify ..)
      exact (Expr.eval_libraryCall hread (Expr.evalAll_one hwritten)).trans (ht.parse ..)
    · rintro (⟨xs, rfl⟩ | ⟨es, rfl⟩)
      · exact ht.write true
      · exact ht.write true
    · cases hlong : w.isBrief with
      | false =>
        rw [hrefused hw hlong] at hsame
        simp [Outcome.fault, Outcome.fail, Outcome.ok] at hsame
      | true =>
        obtain ⟨u, hu⟩ := exists_written hw hlong
        have hok : (Outcome.ok (.str u) : Outcome Value) = .ok (.str t) :=
          (hu.stringify ambient origin []).symm.trans hsame
        obtain rfl : u = t := by simpa [Outcome.ok] using hok
        exact Except.ok.inj (hu.readAll.symm.trans ht.readAll)
  · rintro (⟨xs, rfl⟩ | ⟨es, rfl⟩)
    · exact write_eq_error h hb true
    · exact write_eq_error h hb true

theorem Json.parse_stringify_nested :
    let v : Value := .map [(.str (text "a\"b"), .list [.int (-10), .null, .str (text "\n")]), (.str [], .map [])]
    ∀ ambient origin, ∃ t, Builtin.stringify.apply ambient origin [v] = .ok (.str t) ∧
      Builtin.parse.apply ambient origin [.str t] = .ok v ∧ v.display? = .ok t := by
  intro v ambient origin
  have hlist : (Value.list [.int (-10), .null, .str (text "\n")]).IsJson := by
    refine .list ?_
    simp only [List.forall_mem_cons, List.not_mem_nil, IsEmpty.forall_iff, implies_true, and_true]
    exact ⟨.int _, .null, .str _⟩
  have hmap : v.IsJson := by
    refine @Value.IsJson.map [(text "a\"b", .list [.int (-10), .null, .str (text "\n")]), ([], .map [])] ?_ (by decide)
    simp only [List.forall_mem_cons, List.not_mem_nil, IsEmpty.forall_iff, implies_true, and_true]
    exact ⟨hlist, @Value.IsJson.map [] nofun .nil⟩
  obtain ⟨t, hwrite, hread, -, hdisplay, -⟩ := (Json.parse_stringify hmap).1 (by decide +kernel)
  exact ⟨t, hwrite ambient origin [], hread ambient origin, hdisplay (.inr ⟨_, rfl⟩)⟩

/-- A whole number with too many digits is plain data, and is not written. -/
theorem Json.parse_stringify_limit :
    Value.overlong.IsJson ∧ ∀ ambient origin,
      Builtin.stringify.apply ambient origin [.overlong] = .fault .tooManyDigits := by
  refine ⟨.int _, fun ambient origin => ?_⟩
  rw [Builtin.apply, show Json.write false .overlong = .error .tooManyDigits from Value.display?_overlong]
  rfl

end Functions

end PageTemplate
