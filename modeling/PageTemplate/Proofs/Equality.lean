import Mathlib.Data.Char
import Mathlib.Data.List.Forall2
import Mathlib.Data.List.Lex
import PageTemplate.Proofs.Digits
import PageTemplate.Proofs.Exactness
import PageTemplate.Proofs.Overriding
set_option autoImplicit false
/-!
Equality and order of values without floats. To be alike is an equivalence on them: of two mappings of one size every
entry of the second has its entry in the first, since no two keys of the first are alike. Both equalities come down to
it, the strict one with the type besides and the loose one except between a text and a number.
-/
namespace PageTemplate

namespace Value

/-- Null, booleans, whole numbers and texts, and lists, tuples and mappings of such values. No two keys of a mapping
are alike. -/
inductive IsExact : Value → Prop
  | null : IsExact .null
  | bool (b : Bool) : IsExact (.bool b)
  | int (n : Int) : IsExact (.int n)
  | str (t : Text) : IsExact (.str t)
  | list {xs : List Value} (items : ∀ x ∈ xs, IsExact x) : IsExact (.list xs)
  | tuple {xs : List Value} (items : ∀ x ∈ xs, IsExact x) : IsExact (.tuple xs)
  | map {es : Entries} (keys : ∀ e ∈ es, IsExact e.1) (values : ∀ e ∈ es, IsExact e.2)
    (apart : es.Pairwise fun e f => e.1.alike f.1 = false) : IsExact (.map es)

variable {a b c : Value}

theorem allAlike_iff {xs ys : List Value} : allAlike xs ys = true ↔ List.Forall₂ (fun x y => x.alike y = true) xs ys := by
  induction xs generalizing ys with
  | nil => cases ys <;> simp [allAlike]
  | cons x xs ih => cases ys <;> simp [allAlike, ih]

theorem allIn_iff {es fs : Entries} :
    allIn es fs = true ↔ ∀ e ∈ es, ∃ f ∈ fs, e.1.alike f.1 = true ∧ e.2.alike f.2 = true := by
  induction es with
  | nil => simp [allIn]
  | cons e es ih => simp [allIn, ih]

theorem null_alike : alike .null b = true ↔ b = .null := by
  cases b with
  | null => exact ⟨fun _ => rfl, fun _ => rfl⟩
  | _ => simp [alike]

theorem str_alike {t : Text} : alike (.str t) b = true ↔ b = .str t := by
  cases b with
  | str u => rw [alike, beq_iff_eq, str.injEq, eq_comm]
  | _ => simp [alike]

theorem list_alike {xs : List Value} :
    alike (.list xs) b = true ↔ ∃ ys, b = .list ys ∧ List.Forall₂ (fun x y => x.alike y = true) xs ys := by
  cases b with
  | list ys => exact ⟨fun h => ⟨ys, rfl, allAlike_iff.mp h⟩, fun ⟨_, rfl, h⟩ => allAlike_iff.mpr h⟩
  | _ => simp [alike]

theorem tuple_alike {xs : List Value} :
    alike (.tuple xs) b = true ↔ ∃ ys, b = .tuple ys ∧ List.Forall₂ (fun x y => x.alike y = true) xs ys := by
  cases b with
  | tuple ys => exact ⟨fun h => ⟨ys, rfl, allAlike_iff.mp h⟩, fun ⟨_, rfl, h⟩ => allAlike_iff.mpr h⟩
  | _ => simp [alike]

theorem map_alike {es : Entries} : alike (.map es) b = true ↔ ∃ fs, b = .map fs ∧ es.length = fs.length ∧
    ∀ e ∈ es, ∃ f ∈ fs, e.1.alike f.1 = true ∧ e.2.alike f.2 = true := by
  cases b with
  | map fs => rw [alike, Bool.and_eq_true, beq_iff_eq, allIn_iff]; simp
  | _ => simp [alike]

theorem equals_whole (m n : Int) : (Number.whole m).equals (.whole n) = decide (m = n) := by
  rw [Number.equals, Number.compare?, Bool.eq_iff_iff, beq_iff_eq, Option.some_inj, compare_eq_iff_eq,
    decide_eq_true_iff]

theorem atMost_whole (m n : Int) : (Number.whole m).atMost (.whole n) = decide (m ≤ n) := by
  rw [Number.atMost, Number.below_whole, equals_whole, Bool.eq_iff_iff, Bool.or_eq_true, decide_eq_true_iff,
    decide_eq_true_iff, decide_eq_true_iff, le_iff_lt_or_eq]

theorem number_alike {n : Int} (ha : a.asNumber? = some (.whole n)) (hb : b.IsExact) :
    a.alike b = true ↔ b.asNumber? = some (.whole n) := by
  have hbool (x y : Bool) : ((if x then 1 else 0 : Int) = if y then 1 else 0) ↔ x = y := by cases x <;> cases y <;> decide
  cases a with
  | bool x =>
    obtain rfl : (if x then 1 else 0 : Int) = n := by simpa [asNumber?] using ha
    cases hb with
    | bool y =>
      simp only [alike, asNumber?, beq_iff_eq, Option.some.injEq, Number.whole.injEq, hbool]
      exact eq_comm
    | int m => simp [alike, asNumber?, int, equals_whole]
    | _ => simp [alike, asNumber?]
  | number m =>
    obtain rfl : m = .whole n := by simpa [asNumber?] using ha
    cases hb with
    | bool y => simp [alike, asNumber?, equals_whole, eq_comm]
    | int m => simp [alike, asNumber?, int, Number.alike, equals_whole, eq_comm]
    | _ => simp [alike, asNumber?]
  | _ => cases ha

/-! An equivalence -/

theorem forall₂_trans {α : Type} {R S T : α → α → Prop} {xs ys zs : List α} (hxy : List.Forall₂ R xs ys)
    (hyz : List.Forall₂ S ys zs) (h : ∀ x ∈ xs, ∀ y ∈ ys, ∀ z ∈ zs, R x y → S y z → T x z) : List.Forall₂ T xs zs := by
  induction hxy generalizing zs with
  | nil =>
    cases hyz
    exact .nil
  | cons hfirst _ ih =>
    cases hyz with
    | cons hsecond hrest =>
      refine .cons (h _ List.mem_cons_self _ List.mem_cons_self _ List.mem_cons_self hfirst hsecond)
        (ih hrest fun x hx y hy z hz => ?_)
      exact h x (List.mem_cons_of_mem _ hx) y (List.mem_cons_of_mem _ hy) z (List.mem_cons_of_mem _ hz)

theorem alike_refl (ha : a.IsExact) : a.alike a = true := by
  induction ha with
  | null => rfl
  | bool b => exact (number_alike rfl (.bool b)).mpr rfl
  | int n => exact (number_alike rfl (.int n)).mpr rfl
  | str t => exact str_alike.mpr rfl
  | list _ ih => exact list_alike.mpr ⟨_, rfl, List.forall₂_same.mpr ih⟩
  | tuple _ ih => exact tuple_alike.mpr ⟨_, rfl, List.forall₂_same.mpr ih⟩
  | map _ _ _ hkeys hvalues => exact map_alike.mpr ⟨_, rfl, rfl, fun e he => ⟨e, he, hkeys e he, hvalues e he⟩⟩

theorem alike_trans (ha : a.IsExact) (hb : b.IsExact) (hc : c.IsExact) (hab : a.alike b = true)
    (hbc : b.alike c = true) : a.alike c = true := by
  induction ha generalizing b c with
  | null =>
    obtain rfl := null_alike.mp hab
    exact hbc
  | bool x => exact (number_alike rfl hc).mpr ((number_alike ((number_alike rfl hb).mp hab) hc).mp hbc)
  | int n => exact (number_alike rfl hc).mpr ((number_alike ((number_alike rfl hb).mp hab) hc).mp hbc)
  | str t =>
    obtain rfl := str_alike.mp hab
    exact hbc
  | list _ ih =>
    obtain ⟨ys, rfl, hxy⟩ := list_alike.mp hab
    obtain ⟨zs, rfl, hyz⟩ := list_alike.mp hbc
    cases hb with | list hys =>
    cases hc with | list hzs =>
    exact list_alike.mpr ⟨zs, rfl, forall₂_trans hxy hyz fun x hx y hy z hz => ih x hx (hys y hy) (hzs z hz)⟩
  | tuple _ ih =>
    obtain ⟨ys, rfl, hxy⟩ := tuple_alike.mp hab
    obtain ⟨zs, rfl, hyz⟩ := tuple_alike.mp hbc
    cases hb with | tuple hys =>
    cases hc with | tuple hzs =>
    exact tuple_alike.mpr ⟨zs, rfl, forall₂_trans hxy hyz fun x hx y hy z hz => ih x hx (hys y hy) (hzs z hz)⟩
  | map _ _ _ hkeys hvalues =>
    obtain ⟨fs, rfl, hlength, hef⟩ := map_alike.mp hab
    obtain ⟨gs, rfl, hlength', hfg⟩ := map_alike.mp hbc
    cases hb with | map hfk hfv =>
    cases hc with | map hgk hgv =>
    refine map_alike.mpr ⟨gs, rfl, hlength.trans hlength', fun e he => ?_⟩
    obtain ⟨f, hf, hkey, hvalue⟩ := hef e he
    obtain ⟨g, hg, hkey', hvalue'⟩ := hfg f hf
    exact ⟨g, hg, hkeys e he (hfk f hf) (hgk g hg) hkey hkey', hvalues e he (hfv f hf) (hgv g hg) hvalue hvalue'⟩

/-- Of two lists of one length, let every member of the first have a partner in the second. If no two members share
one, then every member of the second is a partner. -/
theorem exists_partner {α β : Type} {R : α → β → Prop} {xs : List α} {ys : List β} (hlength : ys.length ≤ xs.length)
    (hall : ∀ x ∈ xs, ∃ y ∈ ys, R x y) (hapart : xs.Pairwise fun x x' => ∀ y ∈ ys, R x y → ¬ R x' y) :
    ∀ y ∈ ys, ∃ x ∈ xs, R x y := by
  induction xs generalizing ys with
  | nil =>
    obtain rfl : ys = [] := List.length_eq_zero_iff.mp (Nat.le_zero.mp hlength)
    nofun
  | cons x xs ih =>
    obtain ⟨y, hy, hxy⟩ := hall x List.mem_cons_self
    obtain ⟨before, behind, rfl⟩ := List.append_of_mem hy
    obtain ⟨hfirst, hrest⟩ := List.pairwise_cons.mp hapart
    have hsub : ∀ z ∈ before ++ behind, z ∈ before ++ y :: behind := fun z hz => by
      simp only [List.mem_append, List.mem_cons] at hz ⊢
      tauto
    -- the partner of `x` is nobody else's, so it can be left out
    have hleft : ∀ x' ∈ xs, ∃ z ∈ before ++ behind, R x' z := fun x' hx' => by
      obtain ⟨z, hz, hx'z⟩ := hall x' (List.mem_cons_of_mem _ hx')
      have hne : z ≠ y := by
        rintro rfl
        exact hfirst x' hx' z hy hxy hx'z
      simp only [List.mem_append, List.mem_cons, hne, false_or] at hz
      exact ⟨z, List.mem_append.mpr hz, hx'z⟩
    have hothers := ih (by simp at hlength ⊢; omega) hleft (hrest.imp fun h z hz => h z (hsub z hz))
    intro z hz
    by_cases hzy : z = y
    · exact ⟨x, List.mem_cons_self, hzy ▸ hxy⟩
    · simp only [List.mem_append, List.mem_cons, hzy, false_or] at hz
      obtain ⟨x', hx', hR⟩ := hothers z (List.mem_append.mpr hz)
      exact ⟨x', List.mem_cons_of_mem _ hx', hR⟩

theorem forall₂_symm {α : Type} {R S : α → α → Prop} {xs ys : List α} (hxy : List.Forall₂ R xs ys)
    (h : ∀ x ∈ xs, ∀ y ∈ ys, R x y → S y x) : List.Forall₂ S ys xs := by
  induction hxy with
  | nil => exact .nil
  | cons hfirst _ ih =>
    exact .cons (h _ List.mem_cons_self _ List.mem_cons_self hfirst)
      (ih fun x hx y hy => h x (List.mem_cons_of_mem _ hx) y (List.mem_cons_of_mem _ hy))

theorem alike_symm (ha : a.IsExact) (hb : b.IsExact) (hab : a.alike b = true) : b.alike a = true := by
  induction ha generalizing b with
  | null =>
    obtain rfl := null_alike.mp hab
    exact hab
  | bool x => exact (number_alike ((number_alike rfl hb).mp hab) (.bool x)).mpr rfl
  | int n => exact (number_alike ((number_alike rfl hb).mp hab) (.int n)).mpr rfl
  | str t =>
    obtain rfl := str_alike.mp hab
    exact hab
  | list _ ih =>
    obtain ⟨ys, rfl, hxy⟩ := list_alike.mp hab
    cases hb with | list hys =>
    exact list_alike.mpr ⟨_, rfl, forall₂_symm hxy fun x hx y hy => ih x hx (hys y hy)⟩
  | tuple _ ih =>
    obtain ⟨ys, rfl, hxy⟩ := tuple_alike.mp hab
    cases hb with | tuple hys =>
    exact tuple_alike.mpr ⟨_, rfl, forall₂_symm hxy fun x hx y hy => ih x hx (hys y hy)⟩
  | @map es hek hev hapart hkeys hvalues =>
    obtain ⟨fs, rfl, hlength, hef⟩ := map_alike.mp hab
    cases hb with | map hfk hfv =>
    refine map_alike.mpr ⟨es, rfl, hlength.symm, fun f hf => ?_⟩
    have hshared : es.Pairwise fun e e' => ∀ f ∈ fs, e.1.alike f.1 = true ∧ e.2.alike f.2 = true →
        ¬ (e'.1.alike f.1 = true ∧ e'.2.alike f.2 = true) := by
      refine hapart.imp_of_mem fun {e e'} he he' hne f hf hef hef' => ?_
      have hkey := alike_trans (hek e he) (hfk f hf) (hek e' he') hef.1 (hkeys e' he' (hfk f hf) hef'.1)
      rw [hkey] at hne
      cases hne
    obtain ⟨e, he, hkey, hvalue⟩ := exists_partner hlength.ge hef hshared f hf
    exact ⟨e, he, hkeys e he (hfk f hf) hkey, hvalues e he (hfv f hf) hvalue⟩

theorem alike_comm (ha : a.IsExact) (hb : b.IsExact) : a.alike b = b.alike a :=
  Bool.eq_iff_iff.mpr ⟨alike_symm ha hb, alike_symm hb ha⟩

/-! The two equalities -/

theorem equals_eq_alike (ha : a.IsExact) (b : Value) : a.equals b = a.alike b := by
  cases ha with
  | int n =>
    cases b with
    | number m => cases m <;> rfl
    | _ => rfl
  | _ => rfl

theorem isBool_eq (v : Value) : v.isBool = (v.typeName == text "bool") := by
  cases v with
  | number n => cases n <;> rfl
  | _ => rfl

/-- The number of a value without floats is whole, and its type tells whether it is a boolean. -/
theorem IsExact.whole_of_number {m : Number} (ha : a.IsExact) (hm : a.asNumber? = some m) :
    ∃ n, m = .whole n ∧ a.typeName = if a.isBool then text "bool" else text "int" := by
  cases ha with
  | bool x => exact ⟨_, (Option.some.inj hm).symm, rfl⟩
  | int n => exact ⟨n, (Option.some.inj hm).symm, rfl⟩
  | _ => cases hm

theorem strictEquals_iff (ha : a.IsExact) (hb : b.IsExact) :
    a.strictEquals b = true ↔ a.typeName = b.typeName ∧ a.alike b = true := by
  unfold strictEquals
  by_cases hbool : a.isBool = b.isBool
  · rw [if_neg (by simp [hbool])]
    split
    · next m n hm hn =>
      obtain ⟨m, rfl, ha'⟩ := ha.whole_of_number hm
      obtain ⟨n, rfl, hb'⟩ := hb.whole_of_number hn
      rw [equals_whole, decide_eq_true_iff, number_alike hm hb, hn, ha', hb', hbool]
      exact ⟨fun h => ⟨rfl, by rw [h]⟩, fun h => by cases h.2; rfl⟩
    · rw [Bool.and_eq_true, sameType, beq_iff_eq, equals_eq_alike ha]
  · rw [if_pos (by simpa using hbool)]
    refine ⟨nofun, fun h => absurd ?_ hbool⟩
    rw [isBool_eq, isBool_eq, h.1]

theorem looseEquals_eq_alike (ha : a.IsExact) (hb : b.IsExact) (hleft : ∀ t, a = .str t → b.asNumber? = none)
    (hright : ∀ t, b = .str t → a.asNumber? = none) : a.looseEquals b = .ok (a.alike b) := by
  unfold looseEquals
  split
  · rfl
  · next hb' => exact congrArg _ (Bool.eq_false_iff.mpr fun h => hb' (null_alike.mp h)).symm
  · next ha' => exact congrArg _ (Bool.eq_false_iff.mpr fun h => ha' (null_alike.mp (alike_symm ha hb h))).symm
  · next t _ => rw [hleft t rfl, equals_eq_alike ha]
  · next t _ _ => rw [hright t rfl, equals_eq_alike ha]
  · exact congrArg _ (equals_eq_alike ha _)

theorem equals_comm_whole (n : Int) (m : Number) : (Number.whole n).equals m = m.equals (.whole n) := by
  cases m with
  | whole m =>
    rw [equals_whole, equals_whole, decide_eq_decide]
    exact eq_comm
  | float x =>
    simp only [Number.equals, Number.compare?]
    cases Number.compare?.compareIntFloat n x <;> rfl
  | nan o => rfl

theorem looseEquals_text_number {t : Text} {n : Number} (h : b.asNumber? = some n) :
    (Value.str t).looseEquals b = (Number.ofText .unreadable t).map (·.equals n) := by
  cases b <;> cases h <;> rfl

theorem looseEquals_number_text {t : Text} {n : Number} (h : a.asNumber? = some n) :
    a.looseEquals (.str t) = (Number.ofText .unreadable t).map n.equals := by
  cases a <;> cases h <;> rfl

theorem looseEquals_text (ha : a.IsExact) {n : Number} (hn : a.asNumber? = some n) (t : Text) :
    a.looseEquals (.str t) = (Value.str t).looseEquals a := by
  obtain ⟨n, rfl, -⟩ := ha.whole_of_number hn
  rw [looseEquals_text_number hn, looseEquals_number_text hn]
  cases Number.ofText .unreadable t with
  | ok m => exact congrArg _ (equals_comm_whole n m)
  | error f => rfl

/-- Two values are a text and a number, a number and a text, or neither. -/
theorem text_number_cases (a b : Value) :
    (∃ t n, a = .str t ∧ b.asNumber? = some n) ∨ (∃ t n, b = .str t ∧ a.asNumber? = some n) ∨
      ((∀ t, a = .str t → b.asNumber? = none) ∧ ∀ t, b = .str t → a.asNumber? = none) := by
  by_cases hleft : ∀ t, a = .str t → b.asNumber? = none
  · by_cases hright : ∀ t, b = .str t → a.asNumber? = none
    · exact .inr (.inr ⟨hleft, hright⟩)
    · obtain ⟨t, hb, hn⟩ : ∃ t, b = .str t ∧ a.asNumber? ≠ none := by simpa using hright
      obtain ⟨n, hn⟩ := Option.ne_none_iff_exists'.mp hn
      exact .inr (.inl ⟨t, n, hb, hn⟩)
  · obtain ⟨t, ha, hn⟩ : ∃ t, a = .str t ∧ b.asNumber? ≠ none := by simpa using hleft
    obtain ⟨n, hn⟩ := Option.ne_none_iff_exists'.mp hn
    exact .inl ⟨t, n, ha, hn⟩

theorem looseEquals_comm (ha : a.IsExact) (hb : b.IsExact) : a.looseEquals b = b.looseEquals a := by
  obtain ⟨t, n, rfl, hn⟩ | ⟨t, n, rfl, hn⟩ | ⟨hleft, hright⟩ := text_number_cases a b
  · exact (looseEquals_text hb hn t).symm
  · exact looseEquals_text ha hn t
  · rw [looseEquals_eq_alike ha hb hleft hright, looseEquals_eq_alike hb ha hright hleft, alike_comm ha hb]

theorem looseEquals_of_strictEquals (ha : a.IsExact) (hb : b.IsExact) (h : a.strictEquals b = true) :
    a.looseEquals b = .ok true := by
  obtain ⟨-, halike⟩ := (strictEquals_iff ha hb).mp h
  rw [looseEquals_eq_alike ha hb, halike]
  · rintro t rfl
    rw [str_alike.mp halike]
    rfl
  · rintro t rfl
    rw [alike_str.mp halike]
    rfl

/-- A text that spells a whole number with too many digits. -/
def TooLong (t : Text) : Prop :=
  let digits := (readSign (trim t)).2
  digits.all isDigitChar = true ∧ digitLimit < digits.length

theorem ofText_eq_error {t : Text} {f : Fault} :
    Number.ofText .unreadable t = .error f ↔ f = .tooManyDigits ∧ TooLong t := by
  rw [Number.ofText, TooLong]
  split
  · next hempty =>
    rw [List.isEmpty_iff.mp hempty]
    refine ⟨fun h => ?_, fun h => absurd h.2.2 (by decide)⟩
    cases h
  · rw [readWhole?]
    obtain ⟨negative, digits⟩ := readSign (trim t)
    by_cases hdigits : (!digits.isEmpty && digits.all isDigitChar) = true
    · simp only [if_pos hdigits, Except.map_eq_error_iff]
      have hall := (Bool.and_eq_true_iff.mp hdigits).2
      rcases Nat.lt_or_ge digitLimit digits.length with hlong | hshort
      · rw [readDigits_of_lt hlong]
        exact ⟨fun h => ⟨(Except.error.inj h).symm, hall, hlong⟩, fun h => h.1 ▸ rfl⟩
      · rw [readDigits_of_le hshort]
        refine ⟨fun h => ?_, fun h => absurd h.2.2 (Nat.not_lt.mpr hshort)⟩
        cases h
    · simp only [if_neg hdigits]
      refine ⟨fun h => ?_, fun h => absurd ?_ hdigits⟩
      · split at h <;> cases h
      · obtain ⟨-, hall, hlong⟩ := h
        cases digits with
        | nil => exact absurd hlong (Nat.not_lt_zero _)
        | cons => exact hall

/-- Only a number beside a text of too many digits is not compared. -/
theorem looseEquals_eq_error (ha : a.IsExact) (hb : b.IsExact) {f : Fault} :
    a.looseEquals b = .error f ↔ f = .tooManyDigits ∧
      ((∃ t, a = .str t ∧ b.asNumber? ≠ none ∧ TooLong t) ∨ ∃ t, b = .str t ∧ a.asNumber? ≠ none ∧ TooLong t) := by
  have hnone (t : Text) : (Value.str t).asNumber? = none := rfl
  obtain ⟨t, n, rfl, hn⟩ | ⟨t, n, rfl, hn⟩ | ⟨hleft, hright⟩ := text_number_cases a b
  · rw [looseEquals_text_number hn, Except.map_eq_error_iff, ofText_eq_error]
    simp [hn, hnone]
  · rw [looseEquals_number_text hn, Except.map_eq_error_iff, ofText_eq_error]
    simp [hn, hnone]
  · rw [looseEquals_eq_alike ha hb hleft hright]
    refine ⟨nofun, ?_⟩
    rintro ⟨-, ⟨t, ht, hn, -⟩ | ⟨t, ht, hn, -⟩⟩
    · exact absurd (hleft t ht) hn
    · exact absurd (hright t ht) hn

/-! The order of entries -/

/-- The entries of mappings in another order, at any depth. -/
inductive Reordered : Value → Value → Prop
  | refl (v : Value) : Reordered v v
  | list {xs ys : List Value} (length : xs.length = ys.length) (items : ∀ p ∈ xs.zip ys, Reordered p.1 p.2) :
    Reordered (.list xs) (.list ys)
  | tuple {xs ys : List Value} (length : xs.length = ys.length) (items : ∀ p ∈ xs.zip ys, Reordered p.1 p.2) :
    Reordered (.tuple xs) (.tuple ys)
  | map {es fs gs : Entries} (length : es.length = fs.length) (keys : ∀ p ∈ es.zip fs, Reordered p.1.1 p.2.1)
    (values : ∀ p ∈ es.zip fs, Reordered p.1.2 p.2.2) (order : fs.Perm gs) : Reordered (.map es) (.map gs)

theorem forall₂_of_zip {xs ys : List Value} (hlength : xs.length = ys.length)
    (h : ∀ p ∈ xs.zip ys, p.1.IsExact → p.2.IsExact → p.1.alike p.2 = true) (hx : ∀ x ∈ xs, x.IsExact)
    (hy : ∀ y ∈ ys, y.IsExact) : List.Forall₂ (fun x y => x.alike y = true) xs ys :=
  List.forall₂_iff_zip.mpr ⟨hlength, fun hp => h _ hp (hx _ (List.of_mem_zip hp).1) (hy _ (List.of_mem_zip hp).2)⟩

theorem Reordered.alike (h : Reordered a b) (ha : a.IsExact) (hb : b.IsExact) : a.alike b = true := by
  induction h with
  | refl v => exact alike_refl ha
  | list hlength _ ih =>
    cases ha with | list hxs =>
    cases hb with | list hys =>
    exact list_alike.mpr ⟨_, rfl, forall₂_of_zip hlength ih hxs hys⟩
  | tuple hlength _ ih =>
    cases ha with | tuple hxs =>
    cases hb with | tuple hys =>
    exact tuple_alike.mpr ⟨_, rfl, forall₂_of_zip hlength ih hxs hys⟩
  | @map es fs gs hlength _ _ horder hkeys hvalues =>
    cases ha with | map hek hev =>
    cases hb with | map hgk hgv =>
    refine map_alike.mpr ⟨gs, rfl, hlength.trans horder.length_eq, fun e he => ?_⟩
    obtain ⟨i, hi, rfl⟩ := List.getElem_of_mem he
    have hpair : (es[i], fs[i]) ∈ es.zip fs := by
      rw [← List.getElem_zip (h := by simp; omega)]
      exact List.getElem_mem _
    have hf : fs[i] ∈ gs := horder.mem_iff.mp (List.getElem_mem _)
    exact ⟨_, hf, hkeys _ hpair (hek _ he) (hgk _ hf), hvalues _ hpair (hev _ he) (hgv _ hf)⟩

/-- What is reordered is a container or stays as it is. -/
theorem Reordered.same (h : Reordered a b) :
    a.typeName = b.typeName ∧ a.asNumber? = b.asNumber? ∧ ∀ t, a = .str t ↔ b = .str t := by
  cases h with
  | refl => exact ⟨rfl, rfl, fun _ => Iff.rfl⟩
  | list => exact ⟨rfl, rfl, fun _ => by simp⟩
  | tuple => exact ⟨rfl, rfl, fun _ => by simp⟩
  | map => exact ⟨rfl, rfl, fun _ => by simp⟩

section Reorderings

variable {a' b' : Value}

theorem alike_congr (ha : a.IsExact) (ha' : a'.IsExact) (hb : b.IsExact) (hb' : b'.IsExact)
    (haa' : a.alike a' = true) (hbb' : b.alike b' = true) : a.alike b = a'.alike b' := by
  refine Bool.eq_iff_iff.mpr ⟨fun h => ?_, fun h => ?_⟩
  · exact alike_trans ha' ha hb' (alike_symm ha ha' haa') (alike_trans ha hb hb' h hbb')
  · exact alike_trans ha ha' hb haa' (alike_trans ha' hb' hb h (alike_symm hb hb' hbb'))

theorem strictEquals_reordered (ha : a.IsExact) (ha' : a'.IsExact) (hb : b.IsExact) (hb' : b'.IsExact)
    (haa' : Reordered a a') (hbb' : Reordered b b') : a.strictEquals b = a'.strictEquals b' := by
  rw [Bool.eq_iff_iff, strictEquals_iff ha hb, strictEquals_iff ha' hb', haa'.same.1, hbb'.same.1,
    alike_congr ha ha' hb hb' (haa'.alike ha ha') (hbb'.alike hb hb')]

theorem looseEquals_reordered (ha : a.IsExact) (ha' : a'.IsExact) (hb : b.IsExact) (hb' : b'.IsExact)
    (haa' : Reordered a a') (hbb' : Reordered b b') : a.looseEquals b = a'.looseEquals b' := by
  obtain ⟨-, hna, hta⟩ := haa'.same
  obtain ⟨-, hnb, htb⟩ := hbb'.same
  obtain ⟨t, n, rfl, hn⟩ | ⟨t, n, rfl, hn⟩ | ⟨hleft, hright⟩ := text_number_cases a b
  · obtain rfl := (hta t).mp rfl
    rw [looseEquals_text_number hn, looseEquals_text_number (hnb ▸ hn)]
  · obtain rfl := (htb t).mp rfl
    rw [looseEquals_number_text hn, looseEquals_number_text (hna ▸ hn)]
  · rw [looseEquals_eq_alike ha hb hleft hright,
      looseEquals_eq_alike ha' hb' (fun t h => hnb ▸ hleft t ((hta t).mpr h))
        (fun t h => hna ▸ hright t ((htb t).mpr h))]
    exact congrArg _ (alike_congr ha ha' hb hb' (haa'.alike ha ha') (hbb'.alike hb hb'))

end Reorderings

/-! Order -/

theorem before_iff {s t : Text} : Text.before s t = true ↔ s < t := by
  induction s generalizing t with
  | nil => cases t <;> simp [Text.before]
  | cons c s ih =>
    cases t with
    | nil => simp [Text.before]
    | cons d t => simp [Text.before, ih, List.cons_lt_cons_iff]

/-- An operator gives a truth value, or a fault, wherever it stands. -/
def Decides (op : BinaryOp) (a b : Value) (r : Except Fault Bool) : Prop :=
  ∀ origin, operate origin op a b = .ofExcept (r.map .bool)

theorem decides_same {r : Bool} : Decides .same a b (.ok r) ↔ a.strictEquals b = r := by
  refine ⟨fun h => ?_, fun h origin => by rw [operate, h]; rfl⟩
  simpa [operate, Outcome.ok, Outcome.ofExcept, Except.map] using h .json

theorem decides_equal {r : Except Fault Bool} (h : a.looseEquals b = r) : Decides .equal a b r :=
  fun origin => by rw [operate, h]

theorem Decides.of_iff {op : BinaryOp} {r : Bool} {p : Prop} {_ : Decidable p} (h : Decides op a b (.ok r))
    (hr : r = true ↔ p) : Decides op a b (.ok (decide p)) := by
  obtain rfl : r = decide p := Bool.eq_iff_iff.mpr (hr.trans decide_eq_true_iff.symm)
  exact h

/-- Of two values the first is before the second, equal to it or behind it, as an ordering says. -/
def OrderedAs (a b : Value) (o : Ordering) : Prop :=
  Decides .lt a b (.ok (o == .lt)) ∧ Decides .equal a b (.ok (o == .eq)) ∧ Decides .gt a b (.ok (o == .gt)) ∧
    Decides .le a b (.ok (o != .gt)) ∧ Decides .ge a b (.ok (o != .lt))

theorem exists_orderedAs {α : Type} [LinearOrder α] (x y : α) (hlt : Decides .lt a b (.ok (decide (x < y))))
    (heq : Decides .equal a b (.ok (decide (x = y)))) (hgt : Decides .gt a b (.ok (decide (y < x))))
    (hle : Decides .le a b (.ok (decide (x ≤ y)))) (hge : Decides .ge a b (.ok (decide (y ≤ x)))) :
    ∃ o, OrderedAs a b o := by
  obtain h | rfl | h := lt_trichotomy x y
  · rw [decide_eq_true h] at hlt
    rw [decide_eq_false h.ne] at heq
    rw [decide_eq_false h.not_gt] at hgt
    rw [decide_eq_true h.le] at hle
    rw [decide_eq_false h.not_ge] at hge
    exact ⟨.lt, hlt, heq, hgt, hle, hge⟩
  · rw [decide_eq_false (lt_irrefl x)] at hlt hgt
    rw [decide_eq_true rfl] at heq
    rw [decide_eq_true le_rfl] at hle hge
    exact ⟨.eq, hlt, heq, hgt, hle, hge⟩
  · rw [decide_eq_false h.not_gt] at hlt
    rw [decide_eq_false h.ne'] at heq
    rw [decide_eq_true h] at hgt
    rw [decide_eq_false h.not_ge] at hle
    rw [decide_eq_true h.le] at hge
    exact ⟨.gt, hlt, heq, hgt, hle, hge⟩

theorem order_numbers {m n : Number} (hm : a.asNumber? = some m) (hn : b.asNumber? = some n) (op : OrderOp) :
    ofOrder op a b = .ok (.bool (op.onNumbers m n)) := by
  simp only [ofOrder, order, hm, hn]

theorem order_texts (s t : Text) (op : OrderOp) : ofOrder op (.str s) (.str t) = .ok (.bool (op.onTexts s t)) := rfl

/-- Two numbers, booleans among them, or two texts. -/
def Comparable (a b : Value) : Prop :=
  (∃ m n, a.asNumber? = some m ∧ b.asNumber? = some n) ∨ ∃ s t, a = .str s ∧ b = .str t

theorem Comparable.ordered (h : Comparable a b) (ha : a.IsExact) (hb : b.IsExact) : ∃ o, OrderedAs a b o := by
  obtain ⟨m, n, hm, hn⟩ | ⟨s, t, rfl, rfl⟩ := h
  · obtain ⟨m, rfl, -⟩ := ha.whole_of_number hm
    obtain ⟨n, rfl, -⟩ := hb.whole_of_number hn
    have hloose : a.looseEquals b = .ok (a.alike b) := by
      refine looseEquals_eq_alike ha hb ?_ ?_
      · rintro t rfl
        cases hm
      · rintro t rfl
        cases hn
    have hequal : a.alike b = true ↔ m = n := by
      rw [number_alike hm hb, hn, Option.some_inj, Number.whole.injEq, eq_comm]
    have hbelow (m n : Int) : (Number.whole m).below (.whole n) = true ↔ m < n := by
      rw [Number.below_whole, decide_eq_true_iff]
    have hatMost (m n : Int) : (Number.whole m).atMost (.whole n) = true ↔ m ≤ n := by
      rw [atMost_whole, decide_eq_true_iff]
    exact exists_orderedAs m n (.of_iff (fun _ => order_numbers hm hn .lt) (hbelow m n)) (.of_iff (decides_equal hloose) hequal)
      (.of_iff (fun _ => order_numbers hm hn .gt) (hbelow n m)) (.of_iff (fun _ => order_numbers hm hn .le) (hatMost m n))
      (.of_iff (fun _ => order_numbers hm hn .ge) (hatMost n m))
  · have hnoLater (s t : Text) : Text.noLaterThan s t = true ↔ s ≤ t := by
      rw [Text.noLaterThan, Bool.not_eq_true', ← Bool.not_eq_true, before_iff, not_lt]
    have hequal : (s == t) = true ↔ s = t := beq_iff_eq
    exact exists_orderedAs s t (.of_iff (fun _ => order_texts s t .lt) before_iff) (.of_iff (fun _ => rfl) hequal)
      (.of_iff (fun _ => order_texts s t .gt) before_iff) (.of_iff (fun _ => order_texts s t .le) (hnoLater s t))
      (.of_iff (fun _ => order_texts s t .ge) (hnoLater t s))

/-- A value without floats. -/
abbrev Exact := {v : Value // v.IsExact}

/-- On values without floats the strict equality is an equivalence, the loose one is reflexive and symmetric and holds
where the strict one does, and the other two deny them. Only a number beside a text of too many digits is not compared,
in either order. The order of entries, at any depth and on both sides, matters to none of the four. Two numbers and two
texts are ordered. -/
theorem equality_laws :
    (∀ a : Exact, Decides .same a a (.ok true) ∧ Decides .equal a a (.ok true)) ∧
    (∀ a b : Exact, ∃ (strict : Bool) (loose : Except Fault Bool),
      Decides .same a b (.ok strict) ∧ Decides .same b a (.ok strict) ∧ Decides .notSame a b (.ok !strict) ∧
      Decides .equal a b loose ∧ Decides .equal b a loose ∧ Decides .notEqual a b (loose.map (!·)) ∧
      (strict = true → loose = .ok true) ∧
      ∀ f, loose = .error f ↔ f = .tooManyDigits ∧
        ((∃ t, a.1 = .str t ∧ b.1.asNumber? ≠ none ∧ TooLong t) ∨
          ∃ t, b.1 = .str t ∧ a.1.asNumber? ≠ none ∧ TooLong t)) ∧
    (∀ a b c : Exact, Decides .same a b (.ok true) → Decides .same b c (.ok true) → Decides .same a c (.ok true)) ∧
    (∀ a a' b b' : Exact, Reordered a a' → Reordered b b' → ∀ op ∈ [.same, .notSame, .equal, .notEqual],
      ∀ origin, operate origin op a b = operate origin op a' b') ∧
    ∀ a b : Exact, Comparable a b → ∃ o, OrderedAs a b o := by
  have hrefl (a : Exact) : strictEquals a a = true := (strictEquals_iff a.2 a.2).mpr ⟨rfl, alike_refl a.2⟩
  have hsymm (a b : Exact) : strictEquals a b = strictEquals b a := by
    rw [Bool.eq_iff_iff, strictEquals_iff a.2 b.2, strictEquals_iff b.2 a.2, alike_comm a.2 b.2, eq_comm]
  refine ⟨fun a => ?_, fun a b => ?_, fun a b c hab hbc => ?_, fun a a' b b' haa' hbb' op hop origin => ?_,
    fun a b h => h.ordered a.2 b.2⟩
  · exact ⟨decides_same.mpr (hrefl a), decides_equal (looseEquals_of_strictEquals a.2 a.2 (hrefl a))⟩
  · have hnot : Decides .notEqual a b ((looseEquals a b).map (!·)) := fun origin => by
      rw [operate]
      cases looseEquals a b <;> rfl
    exact ⟨strictEquals a b, looseEquals a b, fun _ => rfl, decides_same.mpr (hsymm b a), fun _ => rfl, fun _ => rfl,
      decides_equal (looseEquals_comm b.2 a.2), hnot, looseEquals_of_strictEquals a.2 b.2,
      fun _ => looseEquals_eq_error a.2 b.2⟩
  · obtain ⟨htype, halike⟩ := (strictEquals_iff a.2 b.2).mp (decides_same.mp hab)
    obtain ⟨htype', halike'⟩ := (strictEquals_iff b.2 c.2).mp (decides_same.mp hbc)
    exact decides_same.mpr
      ((strictEquals_iff a.2 c.2).mpr ⟨htype.trans htype', alike_trans a.2 b.2 c.2 halike halike'⟩)
  · have hstrict := strictEquals_reordered a.2 a'.2 b.2 b'.2 haa' hbb'
    have hloose := looseEquals_reordered a.2 a'.2 b.2 b'.2 haa' hbb'
    simp only [List.mem_cons, List.not_mem_nil, or_false] at hop
    obtain rfl | rfl | rfl | rfl := hop
    · rw [operate, operate, hstrict]
    · rw [operate, operate, hstrict]
    · rw [operate, operate, hloose]
    · rw [operate, operate, hloose]

theorem equality_laws_swapped :
    let m : Value := .map [(.str ['a'], .int 1), (.tuple [.null], .bool true)]
    let m' : Value := .map [(.tuple [.null], .bool true), (.str ['a'], .int 1)]
    Reordered m m' ∧ Decides .same m m' (.ok true) ∧ Decides .same m' m (.ok true) ∧ Decides .same m m (.ok true) ∧
      ∃ o, OrderedAs (.bool true) (.int 1) o := by
  intro m m'
  have htuple : (Value.tuple [.null]).IsExact := .tuple (List.forall_mem_singleton.mpr .null)
  have hm : m.IsExact := by
    refine .map ?_ ?_ (List.pairwise_pair.mpr rfl)
    · exact List.forall_mem_cons.mpr ⟨.str _, List.forall_mem_singleton.mpr htuple⟩
    · exact List.forall_mem_cons.mpr ⟨.int _, List.forall_mem_singleton.mpr (.bool _)⟩
  have hm' : m'.IsExact := by
    refine .map ?_ ?_ (List.pairwise_pair.mpr rfl)
    · exact List.forall_mem_cons.mpr ⟨htuple, List.forall_mem_singleton.mpr (.str _)⟩
    · exact List.forall_mem_cons.mpr ⟨.bool _, List.forall_mem_singleton.mpr (.int _)⟩
  have hswap : Reordered m m' := by
    refine .map rfl ?_ ?_ (.swap ..) <;>
      exact List.forall_mem_cons.mpr ⟨.refl _, List.forall_mem_singleton.mpr (.refl _)⟩
  obtain ⟨hrefl, -, htrans, horder, hcompare⟩ := equality_laws
  have hsame : Decides .same m m' (.ok true) := fun origin =>
    (horder ⟨m, hm⟩ ⟨m', hm'⟩ ⟨m', hm'⟩ ⟨m', hm'⟩ hswap (.refl _) .same (by simp) origin).trans
      ((hrefl ⟨m', hm'⟩).1 origin)
  have hback : Decides .same m' m (.ok true) := fun origin =>
    (horder ⟨m', hm'⟩ ⟨m', hm'⟩ ⟨m, hm⟩ ⟨m', hm'⟩ (.refl _) hswap .same (by simp) origin).trans
      ((hrefl ⟨m', hm'⟩).1 origin)
  exact ⟨hswap, hsame, hback, htrans ⟨m, hm⟩ ⟨m', hm'⟩ ⟨m, hm⟩ hsame hback,
    hcompare ⟨.bool true, .bool true⟩ ⟨.int 1, .int 1⟩ (.inl ⟨_, _, rfl, rfl⟩)⟩

end Value

end PageTemplate
