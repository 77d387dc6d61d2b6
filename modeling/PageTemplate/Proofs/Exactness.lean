import PageTemplate.Expr.Eval
import PageTemplate.Proofs.Arithmetic
set_option autoImplicit false
/-!
Arithmetic of expressions on whole numbers of any size.
-/
namespace PageTemplate

namespace Outcome

variable {α β : Type} {o : Outcome α}

theorem result_bind {a : α} (h : o.result = .ok a) (f : α → Outcome β) : (o >>= f).result = (f a).result := by
  change (o.andThen f).result = _
  simp only [andThen, h]

end Outcome

namespace Expr

/-- At its place the expression has the whole number as its value. -/
def Gives (s : Surroundings) (mark : Mark) (e : Expr) (n : Int) : Prop := (e.eval s mark).result = .ok (.int n)

/-- A call of a function of the library of mathematics. -/
def mathCall (name : Text) (es : List Expr) : Expr := .call (.member (.name (text "Math")) (.literal (.str name))) es

variable {s : Surroundings} {mark : Mark} {l r : Expr} {es : List Expr} {a b : Int}

theorem gives_literal (n : Nat) : Gives s mark (.literal (.whole n)) n := by
  rw [Gives, eval]
  rfl

theorem Gives.neg (hl : Gives s (mark.child 0) l a) : Gives s mark (.unary .neg l) (-a) := by
  rw [Gives, eval, Outcome.result_bind hl]
  rfl

theorem result_binary (hl : Gives s (mark.child 0) l a) (hr : Gives s (mark.child 1) r b) (op : BinaryOp) :
    ((Expr.binary op l r).eval s mark).result = (Value.operate (.made mark) op (.int a) (.int b)).result := by
  rw [eval, Outcome.result_bind hl, Outcome.result_bind hr]

theorem eval_math (s : Surroundings) (mark : Mark) : Expr.eval s mark (.name (text "Math")) = .ok (.library .math) := by
  rw [eval]
  rfl

theorem result_mathCall {f : Builtin} {name : Text} {vs : List Value}
    (hname : ∀ mark, Value.memberOf mark (.library .math) name = .ok (.builtin f))
    (hes : (evalAll s mark 1 es).result = .ok vs) :
    ((mathCall name es).eval s mark).result = (f.apply s.ambient (.made mark) vs).result := by
  have hcallee : (Expr.eval s (mark.child 0) (.member (.name (text "Math")) (.literal (.str name)))).result =
      .ok (.builtin f) := by
    rw [eval, eval_math, eval]
    change (Outcome.ofExcept (Value.memberOf (mark.child 0) (.library .math) name)).result = _
    rw [hname]
    rfl
  rw [mathCall, eval, Outcome.result_bind hcallee]
  change (evalAll s mark 1 es >>= _).result = _
  rw [Outcome.result_bind hes]
  rfl

theorem evalAll_singleton (hr : Gives s (mark.child 1) r b) : (evalAll s mark 1 [r]).result = .ok [.int b] := by
  rw [evalAll, Outcome.result_bind hr, evalAll]
  rfl

end Expr

namespace Number

theorem below_whole (a b : Int) : below (.whole a) (.whole b) = decide (a < b) := by
  rw [below, compare?, Bool.eq_iff_iff, beq_iff_eq, Option.some_inj, compare_lt_iff_lt, decide_eq_true_iff]

theorem extreme_whole {beats : Number → Number → Bool} {pick : Int → Int → Int}
    (h : ∀ best n, (if beats (.whole n) (.whole best) then whole n else whole best) = whole (pick best n)) (m : Int)
    (ns : List Int) :
    extreme beats (.whole m) (ns.map whole) = .whole (ns.foldl pick m) := by
  induction ns generalizing m with
  | nil => rfl
  | cons n ns ih => rw [List.map_cons, extreme, h, ih, List.foldl_cons]

end Number

theorem mapM_toNumber_int (origin : Origin) (ns : List Int) :
    (ns.map Value.int).mapM (Value.toNumber origin) = .ok (ns.map Number.whole) := by
  induction ns with
  | nil => rfl
  | cons n ns ih =>
    rw [List.map_cons, List.mapM_cons, ih]
    rfl

theorem mathExtreme_whole {beats : Number → Number → Bool} {pick : Int → Int → Int}
    (h : ∀ best n, (if beats (.whole n) (.whole best) then Number.whole n else .whole best) = .whole (pick best n))
    (origin : Origin) (empty : Float) (m : Int) (ns : List Int) :
    mathExtreme origin beats empty ((m :: ns).map Value.int) = .ok (.int (ns.foldl pick m)) := by
  rw [mathExtreme, mapM_toNumber_int]
  exact congrArg (fun n => Except.ok (Value.number n)) (Number.extreme_whole h m ns)

/-- The remainder of a division truncated towards zero: it has the sign of the dividend. -/
def IsRemainder (a b r : Int) : Prop := b ∣ a - r ∧ r.natAbs < b.natAbs ∧ (r = 0 ∨ r.sign = a.sign)

instance (a b r : Int) : Decidable (IsRemainder a b r) := inferInstanceAs (Decidable (_ ∧ _ ∧ _))

theorem isRemainder_tmod {a b : Int} (hb : b ≠ 0) : IsRemainder a b (a.tmod b) := by
  refine ⟨⟨a.tdiv b, ?_⟩, ?_, ?_⟩
  · have := Int.mul_tdiv_add_tmod a b
    omega
  · rw [Int.natAbs_tmod]
    exact Nat.mod_lt _ (Int.natAbs_pos.2 hb)
  · by_cases h : b ∣ a
    · exact .inl (Int.tmod_eq_zero_of_dvd h)
    · exact .inr ((Int.sign_tmod a b).trans (if_neg h))

theorem isRemainder_iff {a b r : Int} (hb : b ≠ 0) : IsRemainder a b r ↔ r = a.tmod b := by
  refine ⟨fun ⟨hdvd, hlt, hsign⟩ => ?_, fun h => h ▸ isRemainder_tmod hb⟩
  obtain ⟨hdvd', hlt', hsign'⟩ := isRemainder_tmod (a := a) hb
  have hside {x : Int} (hx : x = 0 ∨ x.sign = a.sign) : (0 ≤ a → 0 ≤ x) ∧ (a ≤ 0 → x ≤ 0) := by
    obtain rfl | hx := hx
    · exact ⟨fun _ => le_rfl, fun _ => le_rfl⟩
    · rw [← Int.sign_nonneg_iff (x := a), ← Int.sign_nonpos_iff (x := a), ← hx, Int.sign_nonneg_iff,
        Int.sign_nonpos_iff]
      exact ⟨id, id⟩
  have hclose : (r - a.tmod b).natAbs < b.natAbs := by
    have hr := hside hsign
    have hr' := hside hsign'
    omega
  have hsub : b ∣ r - a.tmod b := by
    have := Int.dvd_sub hdvd' hdvd
    rwa [show a - a.tmod b - (a - r) = r - a.tmod b by omega] at this
  have := Int.eq_zero_of_dvd_of_natAbs_lt_natAbs hsub hclose
  omega

namespace Expr

variable {s : Surroundings} {mark : Mark} {l r : Expr} {es : List Expr} {a b : Int}

theorem result_rem (hl : Gives s (mark.child 0) l a) (hr : Gives s (mark.child 1) r b) (hb : b ≠ 0) :
    ((Expr.binary .rem l r).eval s mark).result = if InRange a.natAbs ∧ InRange b.natAbs then
      .ok (.int ((nearestInt a).tmod (nearestInt b))) else .error (.fault .tooLarge) := by
  have hzero : Number.isZero (.whole b) = false := beq_false_of_ne hb
  have hdivide : Value.operate (.made mark) .rem (.int a) (.int b) =
      .ofExcept ((Number.rem (.made mark) (.whole a) (.whole b)).map .number) := by
    change ((if Number.isZero (.whole b) then Outcome.fail .divisionByZero
      else .ofExcept (Number.rem (.made mark) (.whole a) (.whole b))) >>=
        fun q => pure (Value.number q) : Outcome Value) = _
    rw [hzero]
    cases Number.rem (.made mark) (.whole a) (.whole b) <;> rfl
  rw [result_binary hl hr, hdivide, Number.rem_whole]
  split_ifs <;> rfl

theorem result_round (hr : Gives s (mark.child 1) r b) :
    ((mathCall (text "round") [r]).eval s mark).result = if InRange b.natAbs then
      .ok (.int (nearestInt (2 * nearestInt b + 1) / 2)) else .error (.fault .tooLarge) := by
  rw [result_mathCall (f := .round) (fun _ => rfl) (evalAll_singleton hr)]
  change (Outcome.ofExcept ((Number.round (.whole b)).map Value.int)).result = _
  rw [Number.round_whole]
  split_ifs <;> rfl

theorem gives_rem_iff (hl : Gives s (mark.child 0) l a) (hr : Gives s (mark.child 1) r b) (hb : b ≠ 0) :
    (∃ q, Gives s mark (.binary .rem l r) q ∧ IsRemainder a b q) ↔
      InRange a.natAbs ∧ InRange b.natAbs ∧ (nearestInt a).tmod (nearestInt b) = a.tmod b := by
  simp only [Gives, isRemainder_iff hb, result_rem hl hr hb, exists_eq_right]
  split_ifs with hrange
  · simp only [hrange, true_and, Except.ok.injEq]
    exact ⟨fun h => Number.whole.inj (Value.number.inj h), fun h => by rw [h]⟩
  · exact iff_of_false (fun h => nomatch h) (fun h => hrange ⟨h.1, h.2.1⟩)

theorem gives_round_iff (hr : Gives s (mark.child 1) r b) : Gives s mark (mathCall (text "round") [r]) b ↔
    InRange b.natAbs ∧ Fits b.natAbs ∧ (b.natAbs ≤ 2 ^ 52 ∨ b % 2 = 0) := by
  rw [Gives, result_round hr, ← nearestInt_half_eq_self_iff]
  split_ifs with hrange
  · simp only [hrange, true_and, Except.ok.injEq]
    exact ⟨fun h => Number.whole.inj (Value.number.inj h), fun h => by rw [h]⟩
  · exact iff_of_false (fun h => nomatch h) (fun h => hrange h.1)

theorem gives_extreme {f : Builtin} {name : Text} {beats : Number → Number → Bool} {pick : Int → Int → Int}
    {empty : Float} {m : Int} {ns : List Int} (hname : ∀ mark, Value.memberOf mark (.library .math) name = .ok (.builtin f))
    (happly : ∀ ambient origin vs, f.apply ambient origin vs = .ofExcept (mathExtreme origin beats empty vs))
    (hpick : ∀ best n, (if beats (.whole n) (.whole best) then Number.whole n else .whole best) = .whole (pick best n))
    (hes : (evalAll s mark 1 es).result = .ok ((m :: ns).map .int)) :
    Gives s mark (mathCall name es) (ns.foldl pick m) := by
  rw [Gives, result_mathCall hname hes, happly, mathExtreme_whole hpick]
  rfl

theorem gives_max {ns : List Int} {m : Int} (hes : (evalAll s mark 1 es).result = .ok (ns.map .int))
    (hm : ns.max? = some m) :
    Gives s mark (mathCall (text "max") es) m := by
  cases ns with
  | nil => cases hm
  | cons n ns =>
    obtain rfl := Option.some.inj hm
    refine gives_extreme (f := .max) (fun _ => rfl) (fun _ _ _ => rfl) (fun best n => ?_) hes
    rw [Number.below_whole, ← apply_ite Number.whole]
    simp only [decide_eq_true_eq]
    congr 1
    omega

theorem gives_min {ns : List Int} {m : Int} (hes : (evalAll s mark 1 es).result = .ok (ns.map .int))
    (hm : ns.min? = some m) :
    Gives s mark (mathCall (text "min") es) m := by
  cases ns with
  | nil => cases hm
  | cons n ns =>
    obtain rfl := Option.some.inj hm
    refine gives_extreme (f := .min) (fun _ => rfl) (fun _ _ _ => rfl) (fun best n => ?_) hes
    rw [Number.below_whole, ← apply_ite Number.whole]
    simp only [decide_eq_true_eq]
    congr 1
    omega

/-- Arithmetic on whole numbers is exact but for remainders, which are those of the nearest floats, and rounding, which
adds one half to the nearest float. -/
theorem gives_arithmetic (hl : Gives s (mark.child 0) l a) (hr : Gives s (mark.child 1) r b) :
    Gives s mark (.binary .add l r) (a + b) ∧
    Gives s mark (.binary .sub l r) (a - b) ∧
    Gives s mark (.binary .mul l r) (a * b) ∧
    Gives s mark (.unary .neg l) (-a) ∧
    (b ≠ 0 → ((∃ q, Gives s mark (.binary .rem l r) q ∧ IsRemainder a b q) ↔
      InRange a.natAbs ∧ InRange b.natAbs ∧ (nearestInt a).tmod (nearestInt b) = a.tmod b)) ∧
    (∀ name ∈ ["floor", "ceil", "trunc"], Gives s mark (mathCall (text name) [r]) b) ∧
    Gives s mark (mathCall (text "abs") [r]) b.natAbs ∧
    (Gives s mark (mathCall (text "round") [r]) b ↔
      InRange b.natAbs ∧ Fits b.natAbs ∧ (b.natAbs ≤ 2 ^ 52 ∨ b % 2 = 0)) ∧
    (∀ (es : List Expr) (ns : List Int), (evalAll s mark 1 es).result = .ok (ns.map .int) →
      (∀ m, ns.max? = some m → Gives s mark (mathCall (text "max") es) m) ∧
      ∀ m, ns.min? = some m → Gives s mark (mathCall (text "min") es) m) := by
  have hes := evalAll_singleton hr
  refine ⟨result_binary hl hr .add, result_binary hl hr .sub, result_binary hl hr .mul, hl.neg,
    gives_rem_iff hl hr, ?_, result_mathCall (f := .abs) (fun _ => rfl) hes, gives_round_iff hr,
    fun es ns hes => ⟨fun m hm => gives_max hes hm, fun m hm => gives_min hes hm⟩⟩
  simp only [List.mem_cons, List.not_mem_nil, or_false, forall_eq_or_imp, forall_eq]
  exact ⟨result_mathCall (f := .floor) (fun _ => rfl) hes, result_mathCall (f := .ceil) (fun _ => rfl) hes,
    result_mathCall (f := .trunc) (fun _ => rfl) hes⟩

theorem gives_arithmetic_even :
    let s : Surroundings := ⟨[], ⟨0.5, 0, 1.0⟩, 0⟩
    let mark : Mark := ⟨0, []⟩
    let l : Expr := .literal (.whole 9007199254740994)
    let r : Expr := .unary .neg (.literal (.whole 6))
    Gives s mark (.binary .sub l r) 9007199254741000 ∧
      (∃ q, Gives s mark (.binary .rem l r) q ∧ IsRemainder 9007199254740994 (-6) q) ∧
      Gives s mark (mathCall (text "round") [r]) (-6) ∧ Gives s mark (mathCall (text "min") [r]) (-6) := by
  intro s mark l r
  have hl : Gives s (mark.child 0) l 9007199254740994 := gives_literal 9007199254740994
  have hr : Gives s (mark.child 1) r (-6) := (gives_literal 6).neg
  obtain ⟨-, hsub, -, -, hrem, -, -, hround, hextreme⟩ := gives_arithmetic hl hr
  exact ⟨hsub, (hrem (by decide)).2 (by decide +kernel), hround.2 (by decide +kernel),
    (hextreme [r] [-6] (evalAll_singleton hr)).2 (-6) rfl⟩

/-- The whole number that comes out of an evaluation. -/
def whole? (o : Outcome Value) : Option Int :=
  match o.result with
  | .ok (.number (.whole n)) => some n
  | _ => none

/-- A dividend and an argument that are rounded on the way. -/
theorem evaluate_odd_numbers :
    whole? (evaluate ⟨[], ⟨0.5, 0, 1.0⟩, 0⟩ (text "9007199254740993 % 2")) = some 0 ∧
      ¬IsRemainder 9007199254740993 2 0 ∧
      whole? (evaluate ⟨[], ⟨0.5, 0, 1.0⟩, 0⟩ (text "Math.round(4503599627370497)")) = some 4503599627370498 := by
  decide +kernel

end Expr

end PageTemplate
