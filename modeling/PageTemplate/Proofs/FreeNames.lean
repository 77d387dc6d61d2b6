import PageTemplate.Expr.Eval
set_option autoImplicit false
/-!
What an expression takes from its context. There are no binders, so every name of the tree is free; the
context is asked for a name only if it is safe and neither nulled nor the name of a fixed function. Contexts
that answer alike to those names give one outcome: the value or the error, and the reports on the way.
-/
namespace PageTemplate

/-- Names that a context can bind: the others are unsafe or have a fixed meaning. -/
def Scope.isFreeName (name : Text) : Bool :=
  !isUnsafeName name && !nulledNames.contains name && (global? name).isNone

/-- Keys under which an entry can be seen. -/
def Value.isFreeKey : Value → Bool
  | .str k => Scope.isFreeName k
  | _ => false

namespace Entries

/-- Two contexts bind each of these names alike, as far as a context can bind it. -/
def AgreeOn (names : List Text) (c c' : Entries) : Prop :=
  ∀ n ∈ names, Scope.isFreeName n = true → c.get? n = c'.get? n

theorem agreeOn_append {names more : List Text} {c c' : Entries} :
    AgreeOn (names ++ more) c c' ↔ AgreeOn names c c' ∧ AgreeOn more c c' :=
  List.forall_mem_append

/-- The entries that can be seen. -/
def free (es : Entries) : Entries := es.filter fun e => e.1.isFreeKey

theorem get?_free {name : Text} (h : Scope.isFreeName name = true) (es : Entries) :
    es.free.get? name = es.get? name := by
  induction es with
  | nil => rfl
  | cons e es ih =>
    obtain ⟨k, v⟩ := e
    cases k with
    | str k =>
      by_cases hk : k = name
      · subst hk
        simp [free, Value.isFreeKey, h, get?]
      · cases hf : Scope.isFreeName k with
        | true => simpa [free, Value.isFreeKey, hf, get?, hk] using ih
        | false => simpa [free, Value.isFreeKey, hf, get?, hk] using ih
    | _ => simpa [free, Value.isFreeKey, get?] using ih

theorem agreeOn_free (names : List Text) (es : Entries) : AgreeOn names es.free es :=
  fun _ _ h => get?_free h es

end Entries

theorem Scope.lookup?_of_agree {names : List Text} {c c' : Entries} (h : Entries.AgreeOn names c c') {name : Text}
    (hname : name ∈ names) : lookup? c name = lookup? c' name := by
  unfold lookup?
  cases hn : nulledNames.contains name with
  | true => rfl
  | false =>
    cases hg : global? name with
    | some v => rfl
    | none =>
      cases hu : isUnsafeName name with
      | true => rfl
      | false =>
        have hfree : isFreeName name = true := by simp only [isFreeName, hn, hg, hu]; rfl
        simpa using h name hname hfree

namespace Expr

mutual

/-- The names in a tree, from left to right. -/
def names : Expr → List Text
  | .literal _ => []
  | .name n => [n]
  | .array es => namesAll es
  | .unary _ e => names e
  | .binary _ l r | .logical _ l r | .member l r => names l ++ names r
  | .conditional t a b => names t ++ (names a ++ names b)
  | .call f es => names f ++ namesAll es

def namesAll : List Expr → List Text
  | [] => []
  | e :: es => names e ++ namesAll es

end

section Agreement

variable {c c' : Entries} (ambient : Ambient) (level : Nat)

mutual

theorem eval_of_agree (mark : Mark) (e : Expr) (h : Entries.AgreeOn e.names c c') :
    e.eval ⟨c, ambient, level⟩ mark = e.eval ⟨c', ambient, level⟩ mark := by
  cases e with
  | literal l => rfl
  | name n =>
    have hn : Scope.lookup? c n = Scope.lookup? c' n := Scope.lookup?_of_agree h (List.mem_singleton.mpr rfl)
    simp only [eval, hn]
  | array es => simp only [eval, evalAll_of_agree mark 0 es h]
  | unary op e => simp only [eval, eval_of_agree _ e h]
  | binary op l r =>
    obtain ⟨hl, hr⟩ := Entries.agreeOn_append.mp h
    simp only [eval, eval_of_agree _ l hl, eval_of_agree _ r hr]
  | logical op l r =>
    obtain ⟨hl, hr⟩ := Entries.agreeOn_append.mp h
    simp only [eval, eval_of_agree _ l hl, eval_of_agree _ r hr]
  | conditional t a b =>
    obtain ⟨ht, hbranches⟩ := Entries.agreeOn_append.mp h
    obtain ⟨ha, hb⟩ := Entries.agreeOn_append.mp hbranches
    simp only [eval, eval_of_agree _ t ht, eval_of_agree _ a ha, eval_of_agree _ b hb]
  | member o k =>
    obtain ⟨ho, hk⟩ := Entries.agreeOn_append.mp h
    simp only [eval, eval_of_agree _ o ho, eval_of_agree _ k hk]
  | call f es =>
    obtain ⟨hf, hes⟩ := Entries.agreeOn_append.mp h
    simp only [eval, eval_of_agree _ f hf, evalAll_of_agree mark 1 es hes]

theorem evalAll_of_agree (mark : Mark) (i : Nat) (es : List Expr) (h : Entries.AgreeOn (namesAll es) c c') :
    evalAll ⟨c, ambient, level⟩ mark i es = evalAll ⟨c', ambient, level⟩ mark i es := by
  cases es with
  | nil => rfl
  | cons e es =>
    obtain ⟨he, hes⟩ := Entries.agreeOn_append.mp h
    simp only [evalAll, eval_of_agree _ e he, evalAll_of_agree mark (i + 1) es hes]

end

theorem evaluate_of_agreeOn (source : Text)
    (h : ∀ e, ofTextWithin nestingLimit (trim source) = .ok e → Entries.AgreeOn e.names c c') :
    evaluate ⟨c, ambient, level⟩ source = evaluate ⟨c', ambient, level⟩ source := by
  cases hread : ofTextWithin nestingLimit (trim source) with
  | error err => simp only [evaluate, hread]
  | ok e => simp only [evaluate, hread, eval_of_agree ambient level _ e (h e hread)]

end Agreement

/-- The outcome of a source is one in all contexts that bind its free names alike; in particular the entries
under keys that cannot be seen never count. -/
theorem evaluate_of_free_agree (ambient : Ambient) (level : Nat) (source : Text) (c : Entries) :
    (∀ c' : Entries,
      (∀ e, ofTextWithin nestingLimit (trim source) = .ok e →
        ∀ n ∈ e.names, Scope.isFreeName n = true → c.get? n = c'.get? n) →
      evaluate ⟨c, ambient, level⟩ source = evaluate ⟨c', ambient, level⟩ source) ∧
    evaluate ⟨c.free, ambient, level⟩ source = evaluate ⟨c, ambient, level⟩ source :=
  ⟨fun _ h => evaluate_of_agreeOn ambient level source h,
    evaluate_of_agreeOn ambient level source fun e _ => Entries.agreeOn_free e.names c⟩

def shadowing : Entries :=
  [(.str (text "a"), .nat 1), (.str (text "process"), .nat 2), (.str (text "then"), .nat 3),
    (.str (text "Math"), .nat 4), (.nat 5, .nat 5)]

def plainly : Entries := [(.str (text "then"), .nat 6), (.str (text "a"), .nat 1), (.str (text "b"), .nat 7)]

theorem evaluate_of_free_agree_sample :
    ((ofTextWithin nestingLimit (trim (text " a ? Math.max(process, a) : then "))).toOption.map names =
      some [text "a", text "Math", text "process", text "a", text "then"]) ∧
    evaluate ⟨shadowing, ⟨0.5, 0, 1.0⟩, 0⟩ (text " a ? Math.max(process, a) : then ") =
      evaluate ⟨plainly, ⟨0.5, 0, 1.0⟩, 0⟩ (text " a ? Math.max(process, a) : then ") := by
  have hnames : (ofTextWithin nestingLimit (trim (text " a ? Math.max(process, a) : then "))).toOption.map names =
      some [text "a", text "Math", text "process", text "a", text "then"] := by decide +kernel
  have hagree : ∀ n ∈ [text "a", text "Math", text "process", text "a", text "then"],
      Scope.isFreeName n = true → shadowing.get? n = plainly.get? n := by
    intro n hn hfree
    simp only [List.mem_cons, List.not_mem_nil, or_false] at hn
    rcases hn with rfl | rfl | rfl | rfl | rfl
    · rfl
    · exact absurd hfree (by decide)
    · exact absurd hfree (by decide)
    · rfl
    · exact absurd hfree (by decide)
  refine ⟨hnames, (evaluate_of_free_agree ⟨0.5, 0, 1.0⟩ 0 _ shadowing).1 plainly fun e he => ?_⟩
  rw [he] at hnames
  rw [show e.names = _ from Option.some.inj hnames]
  exact hagree

end Expr

end PageTemplate
