import PageTemplate.Proofs.Equality
set_option autoImplicit false
/-!
Splitting a text, joining the pieces and looking for the separator. The pieces are what lies between the places where
the separator is met from the left, so they are joined to the text again, and there is more than one of them exactly if
the separator is found. All three are told of the methods of texts and lists, called in an expression.
-/
namespace PageTemplate

/-- The places at which a text is met in another one that is read from the left, the first character of which has the
place `i`. What is met is read as a whole. -/
inductive Met (needle : Text) : Nat → Text → List Nat → Prop
  | done (i : Nat) : Met needle i [] []
  | pass {i : Nat} {c : Char} {t : Text} {places : List Nat} (missed : ¬ needle <+: c :: t)
    (rest : Met needle (i + 1) t places) : Met needle i (c :: t) places
  | here {i : Nat} {t u : Text} {places : List Nat} (found : u = needle ++ t)
    (rest : Met needle (i + needle.length) t places) : Met needle i u (i :: places)

variable {needle t before rest : Text} {i : Nat} {places others : List Nat}

theorem Met.unique (hne : needle ≠ []) (h : Met needle i t places) (h' : Met needle i t others) : others = places := by
  induction h generalizing others with
  | done i =>
    cases h' with
    | done => rfl
    | here found => simp [hne] at found
  | pass missed _ ih =>
    cases h' with
    | pass _ rest => exact ih rest
    | here found => exact absurd ⟨_, found.symm⟩ missed
  | here found _ ih =>
    cases h' with
    | done => simp [hne] at found
    | pass missed => exact absurd ⟨_, found.symm⟩ missed
    | here found' rest =>
      obtain rfl := List.append_cancel_left (found.symm.trans found')
      rw [ih rest]

theorem met_of_not_infix (h : ¬ needle <:+: t) (i : Nat) : Met needle i t [] := by
  induction t generalizing i with
  | nil => exact .done i
  | cons c t ih =>
    rw [List.infix_cons_iff, not_or] at h
    exact .pass h.1 (ih h.2 (i + 1))

theorem Met.of_cut? (h : cut? needle t = some (before, rest))
    (hrest : Met needle (i + before.length + needle.length) rest places) :
    Met needle i t ((i + before.length) :: places) := by
  induction t generalizing i before with
  | nil =>
    obtain ⟨hnone, hempty, rfl⟩ : needle = [] ∧ [] = before ∧ [] = rest := by simpa [cut?] using h
    subst hempty
    exact .here (by simp [hnone]) hrest
  | cons c t ih =>
    rw [cut?] at h
    cases hhere : after? needle (c :: t) with
    | some r =>
      obtain ⟨hempty, rfl⟩ : [] = before ∧ r = rest := by simpa [hhere] using h
      subst hempty
      exact .here (after?_eq_some_iff.1 hhere) hrest
    | none =>
      simp only [hhere, Option.map_eq_some_iff, Prod.mk.injEq, Prod.exists] at h
      obtain ⟨before, _, hcut, rfl, rfl⟩ := h
      rw [List.length_cons, Nat.add_comm before.length, ← Nat.add_assoc] at hrest ⊢
      exact .pass (after?_eq_none_iff.1 hhere) (ih hcut hrest)

/-- A text is split at the places where the separator is met. -/
theorem exists_met_splitAt (hne : needle ≠ []) (t : Text) (i : Nat) :
    ∃ places, Met needle i t places ∧ (splitAt needle t).length = places.length + 1 := by
  fun_induction splitAt needle t generalizing i with
  | case1 t hcut => exact ⟨[], met_of_not_infix (cut?_eq_none_iff.1 hcut) i, rfl⟩
  | case2 t before rest hcut _ ih =>
    obtain ⟨places, hmet, hlength⟩ := ih (i + before.length + needle.length)
    exact ⟨_, .of_cut? hcut hmet, by simp [hlength]⟩
  | case3 t before rest hcut hlength => simp [hne] at hlength

theorem not_infix_of_mem_splitAt (hne : needle ≠ []) {piece : Text} (h : piece ∈ splitAt needle t) :
    ¬ needle <:+: piece := by
  fun_induction splitAt needle t with
  | case1 t hcut =>
    obtain rfl := List.mem_singleton.1 h
    exact cut?_eq_none_iff.1 hcut
  | case2 t before rest hcut _ ih =>
    obtain rfl | h := List.mem_cons.1 h
    · exact not_infix_of_cut? hne hcut
    · exact ih h
  | case3 t before rest hcut hlength => simp [hne] at hlength

theorem joinWith_cons_of_ne_nil {ts : List Text} (h : ts ≠ []) (separator t : Text) :
    joinWith separator (t :: ts) = t ++ separator ++ joinWith separator ts := by
  cases ts with
  | nil => exact absurd rfl h
  | cons u us => rw [joinWith]

theorem joinWith_splitAt (separator t : Text) : joinWith separator (splitAt separator t) = t := by
  fun_induction splitAt separator t with
  | case1 t hcut => rfl
  | case2 t before rest hcut _ ih =>
    rw [joinWith_cons_of_ne_nil (splitAt_ne_nil separator rest), ih, ← cut?_eq_some hcut]
  | case3 t before rest hcut hlength => rfl

theorem joinWith_chars (t : Text) : joinWith [] (t.map ([·])) = t := by
  induction t with
  | nil => rfl
  | cons c t ih =>
    cases t with
    | nil => rfl
    | cons d t => rw [List.map_cons, joinWith_cons_of_ne_nil (by simp), ih]; rfl

theorem infix_of_cut? (h : cut? needle t = some (before, rest)) : needle <:+: t :=
  ⟨before, rest, (cut?_eq_some h).symm⟩

theorem one_lt_length_splitAt (hne : needle ≠ []) : 1 < (splitAt needle t).length ↔ needle <:+: t := by
  cases hcut : cut? needle t with
  | none => simp [splitAt_of_none hcut, cut?_eq_none_iff.1 hcut]
  | some parts =>
    have hpieces := List.length_pos_iff.2 (splitAt_ne_nil needle parts.2)
    simpa [splitAt_of_cut? hne hcut, infix_of_cut? hcut] using hpieces

theorem occursIn_iff : occursIn needle t = true ↔ needle <:+: t := by
  cases hcut : cut? needle t with
  | none => simp [occursIn, hcut, cut?_eq_none_iff.1 hcut]
  | some parts => simp [occursIn, hcut, infix_of_cut? hcut]

/-- A text occurs at the index that is found, and not before it. -/
theorem indexOf?_least {n : Nat} (h : indexOf? needle t = some n) :
    needle <+: t.drop n ∧ ∀ m < n, ¬ needle <+: t.drop m := by
  induction t generalizing n with
  | nil =>
    obtain ⟨hnone, rfl⟩ : needle = [] ∧ 0 = n := by simpa [indexOf?, cut?] using h
    simp [hnone]
  | cons c t ih =>
    rw [indexOf?, cut?] at h
    cases hhere : after? needle (c :: t) with
    | some r =>
      obtain rfl : 0 = n := by simpa [hhere] using h
      exact ⟨⟨r, (after?_eq_some_iff.1 hhere).symm⟩, fun m hm => absurd hm m.not_lt_zero⟩
    | none =>
      simp only [hhere, Option.map_map, Option.map_eq_some_iff] at h
      obtain ⟨parts, hcut, rfl⟩ := h
      obtain ⟨hfound, hmissed⟩ := ih (show indexOf? needle t = some parts.1.length by rw [indexOf?, hcut]; rfl)
      refine ⟨hfound, fun m hm => ?_⟩
      cases m with
      | zero => exact after?_eq_none_iff.1 hhere
      | succ m => exact hmissed m (Nat.lt_of_succ_lt_succ hm)

/-- The least place at which a text occurs in another one, or minus one if it does not. -/
def LeastPlace (needle t : Text) (index : Int) : Prop :=
  (∃ n : Nat, index = n ∧ needle <+: t.drop n ∧ ∀ m < n, ¬ needle <+: t.drop m) ∨ index = -1 ∧ ¬ needle <:+: t

theorem LeastPlace.nonneg_iff {index : Int} (h : LeastPlace needle t index) : 0 ≤ index ↔ needle <:+: t := by
  obtain ⟨n, rfl, hfound, -⟩ | ⟨rfl, hmissed⟩ := h
  · exact iff_of_true (Int.natCast_nonneg n) (hfound.isInfix.trans (List.drop_suffix n t).isInfix)
  · exact iff_of_false (by decide) hmissed

theorem exists_leastPlace (needle t : Text) :
    ∃ index, LeastPlace needle t index ∧ Value.indexOr (indexOf? needle t) = .int index := by
  cases hindex : indexOf? needle t with
  | some n => exact ⟨n, .inl ⟨n, rfl, indexOf?_least hindex⟩, rfl⟩
  | none =>
    rw [indexOf?, Option.map_eq_none_iff, cut?_eq_none_iff] at hindex
    exact ⟨-1, .inr ⟨rfl, hindex⟩, rfl⟩

theorem Outcome.ok_bind {α β : Type} (a : α) (next : α → Outcome β) : (ok a >>= next) = next a := rfl

theorem shownAll_texts (ts : List Text) : shownAll (ts.map .str) = .ok ts := by
  induction ts with
  | nil => rfl
  | cons t ts ih =>
    change (Outcome.ok t >>= fun t => shownAll (ts.map .str) >>= fun ts => pure (t :: ts)) = _
    rw [Outcome.ok_bind, ih]
    rfl

/-- The pieces of a text by a separator; an empty separator gives its characters. -/
def pieces (separator t : Text) : List Text := if separator = [] then t.map ([·]) else splitAt separator t

theorem joinWith_pieces (separator t : Text) : joinWith separator (pieces separator t) = t := by
  rw [pieces]
  split
  · next hnone => rw [hnone, joinWith_chars]
  · exact joinWith_splitAt separator t

theorem splitBy_eq (separator t : Text) : splitBy t (.str separator) = .ok (pieces separator t) := by
  cases separator <;> rfl

theorem apply_split (separator t : Text) :
    TextMethod.split.apply t [.str separator] = .ok (.list ((pieces separator t).map .str)) := by
  rw [TextMethod.apply, splitBy_eq]
  rfl

theorem apply_join (separator : Text) (ts : List Text) :
    ListMethod.join.apply (ts.map .str) [.str separator] = .ok (.str (joinWith separator ts)) := by
  rw [ListMethod.apply, shownAll_texts]
  rfl

namespace Expr

open Outcome (ok_bind)

/-- Wherever it stands, the expression has the value and nothing is reported on the way. -/
def Yields (s : Surroundings) (e : Expr) (v : Value) : Prop := ∀ mark, e.eval s mark = .ok v

/-- A call of a method, or of another member. -/
def invoke (e : Expr) (member : Text) (arguments : List Expr) : Expr :=
  .call (.member e (.literal (.str member))) arguments

variable {s : Surroundings} {e f : Expr} {v w : Value} {t p : Text} {vs : List Value}

theorem yields_literal (s : Surroundings) (l : Literal) : Yields s (.literal l) l.value := fun mark => by rw [eval]

theorem Yields.member (he : Yields s e v) (hnull : v ≠ .null) (member : Text) (mark : Mark) :
    (Expr.member e (.literal (.str member))).eval s mark = .ofExcept (v.memberOf mark member) := by
  rw [eval, he, ok_bind, yields_literal, ok_bind]
  cases v with
  | null => exact absurd rfl hnull
  | _ => rfl

theorem Yields.binary (he : Yields s e v) (hf : Yields s f w) (op : BinaryOp) (mark : Mark) :
    (Expr.binary op e f).eval s mark = Value.operate (.made mark) op v w := by
  rw [eval, he, ok_bind, hf, ok_bind]

theorem Yields.evalAll (hf : Yields s f w) (mark : Mark) (i : Nat) : Expr.evalAll s mark i [f] = .ok [w] := by
  rw [Expr.evalAll, hf, ok_bind, Expr.evalAll]
  rfl

theorem memberOf_text (m : TextMethod) (t : Text) (mark : Mark) :
    Value.memberOf mark (.str t) m.name = .ok (.textMethod m t mark) := by
  cases m <;> rfl

theorem memberOf_list (m : ListMethod) (items : List Value) (mark : Mark) :
    Value.memberOf mark (.list items) m.name = .ok (.listMethod m items mark) := by
  cases m <;> rfl

/-- A method of a text, called with one argument. -/
theorem Yields.textMethod (he : Yields s e (.str t)) (hf : Yields s f w) (m : TextMethod)
    (hv : m.apply t [w] = .ok v) : Yields s (invoke e m.name [f]) v := fun mark => by
  rw [invoke, eval, he.member nofun, memberOf_text, Outcome.ofExcept, ok_bind, hf.evalAll]
  exact hv

theorem Yields.listMethod {items : List Value} (he : Yields s e (.list items)) (hf : Yields s f w) (m : ListMethod)
    (hv : m.apply items [w] = .ok v) : Yields s (invoke e m.name [f]) v := fun mark => by
  rw [invoke, eval, he.member nofun, memberOf_list, Outcome.ofExcept, ok_bind, hf.evalAll]
  exact hv

theorem Yields.atLeast_literal {n : Int} (he : Yields s e (.int n)) (k : Nat) :
    Yields s (.binary .ge e (.literal (.whole k))) (.bool (decide ((k : Int) ≤ n))) := fun mark => by
  rw [he.binary (yields_literal s (.whole k)), ← Value.atMost_whole]
  rfl

theorem Yields.above_literal {n : Int} (he : Yields s e (.int n)) (k : Nat) :
    Yields s (.binary .gt e (.literal (.whole k))) (.bool (decide ((k : Int) < n))) := fun mark => by
  rw [he.binary (yields_literal s (.whole k)), ← Number.below_whole]
  rfl

/-- The pieces that a text is split into are joined to the text again. None of them holds the separator, and between
them lie the places where it is met from the left. So the separator is found exactly if there is more than one piece,
and the index of it is the least place at which it occurs. -/
theorem yields_split_join (he : Yields s e (.str t)) (hf : Yields s f (.str p)) :
    ∃ (ts : List Text) (found : Bool) (index : Int),
      Yields s (invoke e (text "split") [f]) (.list (ts.map .str)) ∧
      Yields s (invoke (invoke e (text "split") [f]) (text "join") [f]) (.str t) ∧
      (p ≠ [] → (∀ piece ∈ ts, ¬ p <:+: piece) ∧
        ∃ places, Met p 0 t places ∧ (∀ others, Met p 0 t others → others = places) ∧
          ts.length = places.length + 1) ∧
      Yields s (invoke e (text "includes") [f]) (.bool found) ∧
      Yields s (invoke e (text "indexOf") [f]) (.int index) ∧
      Yields s (.binary .ge (invoke e (text "indexOf") [f]) (.literal (.whole 0))) (.bool found) ∧
      (p ≠ [] → Yields s (.binary .gt (.member (invoke e (text "split") [f]) (.literal (.str (text "length"))))
        (.literal (.whole 1))) (.bool found)) ∧
      (found = true ↔ p <:+: t) ∧ LeastPlace p t index := by
  have hsplit : Yields s (invoke e (text "split") [f]) (.list ((pieces p t).map .str)) :=
    he.textMethod hf .split (apply_split p t)
  have hjoin : Yields s (invoke (invoke e (text "split") [f]) (text "join") [f]) (.str t) :=
    hsplit.listMethod hf .join (by rw [apply_join, joinWith_pieces])
  have hlength : Yields s (.member (invoke e (text "split") [f]) (.literal (.str (text "length"))))
      (.int (pieces p t).length) := fun mark => by
    rw [hsplit.member nofun, ← List.length_map (f := Value.str)]
    rfl
  obtain ⟨index, hleast, happly⟩ := exists_leastPlace p t
  have hindex : Yields s (invoke e (text "indexOf") [f]) (.int index) :=
    he.textMethod hf .indexOf (congrArg Outcome.ok happly)
  refine ⟨pieces p t, occursIn p t, index, hsplit, hjoin, fun hne => ?_, he.textMethod hf .includes rfl, hindex, ?_,
    fun hne => ?_, occursIn_iff, hleast⟩
  · rw [pieces, if_neg hne]
    obtain ⟨places, hmet, hcount⟩ := exists_met_splitAt hne t 0
    exact ⟨fun piece => not_infix_of_mem_splitAt hne, places, hmet, fun others => hmet.unique hne, hcount⟩
  · have hagree : decide (((0 : Nat) : Int) ≤ index) = occursIn p t := by
      rw [Bool.eq_iff_iff, decide_eq_true_iff, occursIn_iff]
      exact hleast.nonneg_iff
    exact hagree ▸ hindex.atLeast_literal 0
  · have hagree : decide (((1 : Nat) : Int) < (pieces p t).length) = occursIn p t := by
      rw [Bool.eq_iff_iff, decide_eq_true_iff, occursIn_iff, Int.ofNat_lt, pieces, if_neg hne]
      exact one_lt_length_splitAt hne
    exact hagree ▸ hlength.above_literal 1

/-- A separator that overlaps itself is met twice among five letters, so there are three pieces. -/
theorem yields_split_join_overlapping :
    let s : Surroundings := ⟨[(.str ['s'], .str (text "aaaaa")), (.str ['p'], .str (text "aa"))], ⟨0.5, 0, 1.0⟩, 0⟩
    let split := invoke (.name ['s']) (text "split") [.name ['p']]
    Yields s (.name ['s']) (.str (text "aaaaa")) ∧ Yields s (.name ['p']) (.str (text "aa")) ∧
      (∃ ts : List Text, Yields s split (.list (ts.map .str)) ∧ ts.length = 3) ∧
      Yields s (invoke split (text "join") [.name ['p']]) (.str (text "aaaaa")) ∧
      Yields s (invoke (.name ['s']) (text "includes") [.name ['p']]) (.bool true) := by
  intro s split
  have hs : Yields s (.name ['s']) (.str (text "aaaaa")) := fun mark => by rw [eval]; rfl
  have hp : Yields s (.name ['p']) (.str (text "aa")) := fun mark => by rw [eval]; rfl
  obtain ⟨ts, found, index, hsplit, hjoin, hpieces, hincludes, -, -, -, hfound, -⟩ := yields_split_join hs hp
  obtain ⟨-, places, -, hunique, hcount⟩ := hpieces (by decide)
  have hlast : Met (text "aa") 4 ['a'] [] := met_of_not_infix (by decide) 4
  have hmet : Met (text "aa") 0 (text "aaaaa") [0, 2] := .here (t := text "aaa") rfl (.here (t := ['a']) rfl hlast)
  obtain rfl : [0, 2] = places := hunique _ hmet
  obtain rfl : found = true := hfound.2 (by decide)
  exact ⟨hs, hp, ⟨ts, hsplit, hcount⟩, hjoin, hincludes⟩

end Expr

end PageTemplate
