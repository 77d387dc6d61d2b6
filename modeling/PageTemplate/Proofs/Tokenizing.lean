import PageTemplate.Proofs.Lexis
set_option autoImplicit false
/-!
A source and its tokens. The tokens lie one behind the other, each is what stands at its place, and between them there
are blanks alone; where no token and no blank can start, the source is refused. Blanks put between two tokens change
the places of tokens and nothing else.
-/
namespace PageTemplate.Token

variable {source : Text} {p q : Nat} {us : List Token}

/-- There are blanks alone from one position up to another. -/
def BlankBetween (source : Text) (p q : Nat) : Prop := ∀ i, p ≤ i → i < q → ∀ c ∈ source[i]?, isBlank c = true

/-- Tokens between two positions with blanks around them. Each is what stands at the front of the source there. -/
def Placed (source : Text) (p q : Nat) : List Token → Prop
  | [] => p ≤ q ∧ BlankBetween source p q
  | t :: ts =>
    p ≤ t.position ∧ BlankBetween source p t.position ∧ Front (source.drop t.position) t.kind t.lexeme ∧
      Placed source (t.position + t.lexeme.length) q ts

namespace Placed

theorem of_blank {c : Char} (hc : source[p]? = some c) (hblank : isBlank c = true) (h : Placed source (p + 1) q us) :
    Placed source p q us := by
  have hextend {r : Nat} (hr : BlankBetween source (p + 1) r) : BlankBetween source p r := fun i hi hir d hd => by
    obtain rfl | hlt := Nat.eq_or_lt_of_le hi
    · rw [hc] at hd
      exact Option.some.inj hd ▸ hblank
    · exact hr i hlt hir d hd
  cases us with
  | nil => exact ⟨Nat.le_of_succ_le h.1, hextend h.2⟩
  | cons t ts => exact ⟨Nat.le_of_succ_le h.1, hextend h.2.1, h.2.2⟩

theorem le (h : Placed source p q us) : p ≤ q := by
  induction us generalizing p with
  | nil => exact h.1
  | cons t ts ih =>
    have hrest := ih h.2.2.2
    have hfirst := h.1
    omega

theorem forall_mem (h : Placed source p q us) : ∀ t ∈ us, p ≤ t.position ∧ t.position + t.lexeme.length ≤ q ∧
    Front (source.drop t.position) t.kind t.lexeme := by
  induction us generalizing p with
  | nil => nofun
  | cons t ts ih =>
    obtain ⟨hp, -, hfront, hrest⟩ := h
    refine List.forall_mem_cons.mpr ⟨⟨hp, hrest.le, hfront⟩, fun t' ht' => ?_⟩
    obtain ⟨hle, hothers⟩ := ih hrest t' ht'
    exact ⟨by omega, hothers⟩

theorem pairwise (h : Placed source p q us) : us.Pairwise fun a b => a.position + a.lexeme.length ≤ b.position := by
  induction us generalizing p with
  | nil => exact .nil
  | cons t ts ih => exact .cons (fun t' ht' => (h.2.2.2.forall_mem t' ht').1) (ih h.2.2.2)

theorem outside (h : Placed source p q us) {i : Nat} (hp : p ≤ i) (hq : i < q)
    (hout : ∀ t ∈ us, i < t.position ∨ t.position + t.lexeme.length ≤ i) : ∀ c ∈ source[i]?, isBlank c = true := by
  induction us generalizing p with
  | nil => exact h.2 i hp hq
  | cons t ts ih =>
    obtain ⟨-, hblank, -, hrest⟩ := h
    obtain hlt | hle := hout t List.mem_cons_self
    · exact hblank i hp hlt
    · exact ih hrest hle fun t' ht' => hout t' (List.mem_cons_of_mem _ ht')

end Placed

theorem drop_eq_cons {c : Char} {t : Text} (h : source.drop p = c :: t) :
    source[p]? = some c ∧ p < source.length ∧ source.drop (p + 1) = t := by
  have hc : source[p]? = some c := by rw [← List.head?_drop, h]; rfl
  exact ⟨hc, (List.getElem?_eq_some_iff.mp hc).1, by rw [← List.drop_drop, h]; rfl⟩

theorem BlankBetween.self (source : Text) (p : Nat) : BlankBetween source p p := fun _ hi hi' =>
  absurd hi' (Nat.not_lt.mpr hi)

/-- What a scan from a position on gives: the tokens placed up to the end and the end marker, or the first position at
which neither a blank nor a token starts. -/
theorem scan_placed {t : Text} (ht : source.drop p = t) (hp : p ≤ source.length) :
    match scan p t with
    | .ok ts => ∃ us, ts = us ++ [⟨.stop, [], source.length⟩] ∧ Placed source p source.length us
    | .error s => ∃ us rest, Placed source p s.position us ∧ source.drop s.position = s.char :: rest ∧
        isBlank s.char = false ∧ ∀ k, Lacks k (s.char :: rest) := by
  fun_induction scan p t with
  | case1 p =>
    obtain rfl : p = source.length := Nat.le_antisymm hp (List.drop_eq_nil_iff.mp ht)
    exact ⟨[], rfl, Nat.le_refl _, .self _ _⟩
  | case2 p c cs hblank ih =>
    obtain ⟨hc, hlt, hcs⟩ := drop_eq_cons ht
    have hrest := ih hcs hlt
    cases hscan : scan (p + 1) cs with
    | ok ts =>
      rw [hscan] at hrest
      obtain ⟨us, rfl, hus⟩ := hrest
      exact ⟨us, rfl, hus.of_blank hc hblank⟩
    | error s =>
      rw [hscan] at hrest
      obtain ⟨us, rest, hus, hstray⟩ := hrest
      exact ⟨us, rest, hus.of_blank hc hblank, hstray⟩
  | case3 p c cs hblank hnone =>
    have hlacks := lexeme?_front c cs
    rw [hnone] at hlacks
    exact ⟨[], cs, ⟨Nat.le_refl _, .self _ _⟩, ht, by simpa using hblank, hlacks⟩
  | case4 p c cs hblank kind n hread ih =>
    have hfront := lexeme?_front c cs
    rw [hread] at hfront
    obtain ⟨u, hu, rfl⟩ := hfront
    obtain ⟨hpos, hle⟩ := lexeme?_le hread
    have htake : (c :: cs).take u.length = u := (List.prefix_iff_eq_take.mp hu.front).symm
    have hlength : source.length - p = cs.length + 1 := by rw [← List.length_drop, ht, List.length_cons]
    have hdrop : source.drop (p + u.length) = cs.drop (u.length - 1) := by
      rw [← List.drop_drop, ht, List.drop_cons hpos]
    have hrest := ih hdrop (by omega)
    rw [← ht] at hu
    rw [htake]
    cases hscan : scan (p + u.length) (cs.drop (u.length - 1)) with
    | ok ts =>
      rw [hscan] at hrest
      obtain ⟨us, rfl, hus⟩ := hrest
      exact ⟨⟨kind, u, p⟩ :: us, rfl, Nat.le_refl _, .self _ _, hu, hus⟩
    | error s =>
      rw [hscan] at hrest
      obtain ⟨us, rest, hus, hstray⟩ := hrest
      exact ⟨⟨kind, u, p⟩ :: us, rest, ⟨Nat.le_refl _, .self _ _, hu, hus⟩, hstray⟩

/-! Blanks between two tokens -/

theorem scan_lexed {t : Text} {ts : List Token} (h : scan p t = .ok ts) (q : Nat) :
    ∃ us, scan q t = .ok us ∧ us.map lexed = ts.map lexed := by
  fun_induction scan p t generalizing ts q with
  | case1 p =>
    obtain rfl := Except.ok.inj h
    exact ⟨[⟨.stop, [], q⟩], by rw [scan], rfl⟩
  | case2 p c cs hblank ih =>
    rw [scan, if_pos hblank]
    exact ih h (q + 1)
  | case3 p c cs hblank hnone => cases h
  | case4 p c cs hblank kind n hread ih =>
    cases hscan : scan (p + n) (cs.drop (n - 1)) with
    | error s => rw [hscan] at h; cases h
    | ok vs =>
      rw [hscan] at h
      obtain rfl := Except.ok.inj h
      obtain ⟨us, hus, hlexed⟩ := ih hscan (q + n)
      refine ⟨⟨kind, (c :: cs).take n, q⟩ :: us, ?_, by rw [List.map_cons, List.map_cons, hlexed]; rfl⟩
      rw [scan, if_neg hblank, hread]
      simp only [hus]
      rfl

/-- What stands at the front of a text becomes its first token, and the scan goes on behind it. -/
theorem scan_of_front {k : TokenKind} {c : Char} {cs u r : Text} (hblank : isBlank c ≠ true) (hu : Front (c :: cs) k u)
    (hr : c :: cs = u ++ r) (p : Nat) : scan p (c :: cs) = (scan (p + u.length) r).map (⟨k, u, p⟩ :: ·) := by
  have hpos : 0 < u.length := List.length_pos_iff.mpr hu.lexeme.ne_nil
  have hdrop : cs.drop (u.length - 1) = r := by rw [← List.drop_cons (a := c) hpos, hr, List.drop_left]
  rw [scan, if_neg hblank, lexeme?_of_front hu]
  simp only [hdrop, hr, List.take_left]

/-- The first token of a text that does not start with a blank. -/
theorem exists_front_of_scan {c : Char} {cs : Text} {ts : List Token} (hblank : isBlank c ≠ true)
    (h : scan p (c :: cs) = .ok ts) : ∃ k u r vs, Front (c :: cs) k u ∧ c :: cs = u ++ r ∧
      scan (p + u.length) r = .ok vs ∧ ts = ⟨k, u, p⟩ :: vs := by
  have hfront := lexeme?_front c cs
  cases hread : lexeme? c cs with
  | none =>
    rw [scan, if_neg hblank, hread] at h
    cases h
  | some l =>
    rw [hread] at hfront
    obtain ⟨u, hu, -⟩ := hfront
    obtain ⟨r, hr⟩ := hu.front
    rw [scan_of_front hblank hu hr.symm] at h
    cases hscan : scan (p + u.length) r with
    | error s => rw [hscan] at h; cases h
    | ok vs =>
      rw [hscan] at h
      exact ⟨l.1, u, r, vs, hu, hr.symm, hscan, (Except.ok.inj h).symm⟩

/-- A blank behind a front part of a text that ends inside no token leaves the tokens of that part as they are. -/
theorem scan_before_blank {x y : Text} {ts : List Token} {b : Char} (h : scan p (x ++ y) = .ok ts)
    (hcut : ∀ t ∈ ts, t.position + t.lexeme.length ≤ p + x.length ∨ p + x.length ≤ t.position)
    (hb : isBlank b = true) (z : Text) : ∃ us vs, ts = us ++ vs ∧ scan (p + x.length) y = .ok vs ∧
      scan p (x ++ b :: z) = (scan (p + x.length) (b :: z)).map (us ++ ·) := by
  induction hlength : x.length using Nat.strongRecOn generalizing p x ts with
  | ind k ih =>
    subst hlength
    cases x with
    | nil => exact ⟨[], ts, rfl, h, by cases hscan : scan p (b :: z) <;> simp [hscan, Except.map]⟩
    | cons c x =>
      rw [List.cons_append] at h ⊢
      by_cases hblank : isBlank c = true
      · have hstart : p + (c :: x).length = p + 1 + x.length := by
          rw [List.length_cons]
          omega
        rw [scan, if_pos hblank] at h ⊢
        rw [hstart] at hcut ⊢
        exact ih x.length (Nat.lt_succ_self _) h hcut rfl
      · obtain ⟨kind, u, r, ts, hu, hr, hscan, rfl⟩ := exists_front_of_scan hblank h
        have hpos : 0 < u.length := List.length_pos_iff.mpr hu.lexeme.ne_nil
        have hle : u.length ≤ (c :: x).length := by
          have hfirst := hcut _ List.mem_cons_self
          dsimp only at hfirst
          rw [List.length_cons] at hfirst ⊢
          omega
        -- the first token lies in the front part, so the part splits behind it
        obtain ⟨x', hx⟩ := List.prefix_of_prefix_length_le hu.front (List.prefix_append (c :: x) y) hle
        have hsplit (w : Text) : c :: (x ++ w) = u ++ (x' ++ w) := by rw [← List.cons_append, ← hx, List.append_assoc]
        obtain rfl : x' ++ y = r := List.append_cancel_left ((hsplit y).symm.trans hr)
        have hlength : (c :: x).length = u.length + x'.length := by rw [← hx, List.length_append]
        have hend : p + (c :: x).length = p + u.length + x'.length := by omega
        rw [hend] at hcut ⊢
        obtain ⟨us, vs, rfl, hvs, hbehind⟩ :=
          ih x'.length (by omega) hscan (fun t ht => hcut t (List.mem_cons_of_mem _ ht)) rfl
        refine ⟨⟨kind, u, p⟩ :: us, vs, rfl, hvs, ?_⟩
        have hstill : Front (c :: (x ++ b :: z)) kind u := by
          rw [hsplit] at hu ⊢
          exact hu.before_blank hb
        rw [scan_of_front hblank hstill (hsplit _), hbehind]
        cases scan (p + u.length + x'.length) (b :: z) <;> rfl

/-- Tokens that make up a source as far as a position. Each is what stands at the front of the source at its place,
none reaches into the next one, and all that belongs to none is blank. -/
structure Splits (source : Text) (us : List Token) (q : Nat) : Prop where
  front : ∀ t ∈ us, Front (source.drop t.position) t.kind t.lexeme ∧ t.position + t.lexeme.length ≤ q
  apart : us.Pairwise fun a b => a.position + a.lexeme.length ≤ b.position
  blank : ∀ i < q, (∀ t ∈ us, i < t.position ∨ t.position + t.lexeme.length ≤ i) → ∀ c ∈ source[i]?, isBlank c = true

theorem Placed.splits (h : Placed source 0 q us) : Splits source us q where
  front t ht := ⟨(h.forall_mem t ht).2.2, (h.forall_mem t ht).2.1⟩
  apart := h.pairwise
  blank _ hi hout := h.outside (Nat.zero_le _) hi hout

/-- The tokens and the end marker are at places of their own, one behind the other. -/
theorem Splits.increasing (h : Splits source us source.length) :
    List.Pairwise (fun a b : Token => a.position < b.position) (us ++ [⟨.stop, [], source.length⟩]) := by
  have hpos {t : Token} (ht : t ∈ us) : 0 < t.lexeme.length :=
    List.length_pos_iff.mpr (h.front t ht).1.lexeme.ne_nil
  refine List.pairwise_append.mpr ⟨h.apart.imp_of_mem fun ha _ hab => ?_, List.pairwise_singleton .., fun t ht s hs => ?_⟩
  · have := hpos ha
    omega
  · obtain rfl := List.mem_singleton.mp hs
    have := (h.front t ht).2
    have := hpos ht
    dsimp only
    omega

/-- A source is split into tokens and blanks up to its end, where the end marker is, or up to the first place at which
neither starts; and blanks put in where no token is cut leave the kinds and the texts of the tokens. -/
theorem ofText_splits (source : Text) :
    (match ofText source with
    | .ok ts => ts.Pairwise (fun a b => a.position < b.position) ∧
        ∃ us, ts = us ++ [⟨.stop, [], source.length⟩] ∧ Splits source us source.length
    | .error s => isBlank s.char = false ∧
        ∃ us rest, source.drop s.position = s.char :: rest ∧ (∀ k, Lacks k (s.char :: rest)) ∧
          Splits source us s.position) ∧
    ∀ x y ts, source = x ++ y → ofText source = .ok ts →
      (∀ t ∈ ts, t.position + t.lexeme.length ≤ x.length ∨ x.length ≤ t.position) →
      ∀ w : Text, w.all isBlank = true → ∃ us, ofText (x ++ (w ++ y)) = .ok us ∧ us.map lexed = ts.map lexed := by
  refine ⟨?_, ?_⟩
  · have hscan := scan_placed (show source.drop 0 = source from rfl) (Nat.zero_le _)
    rw [ofText]
    cases hread : scan 0 source with
    | ok ts =>
      rw [hread] at hscan
      obtain ⟨us, rfl, hus⟩ := hscan
      exact ⟨hus.splits.increasing, us, rfl, hus.splits⟩
    | error s =>
      rw [hread] at hscan
      obtain ⟨us, rest, hus, hrest, hblank, hlacks⟩ := hscan
      exact ⟨hblank, us, rest, hrest, hlacks, hus.splits⟩
  · rintro x y ts rfl hts hcut w hw
    cases w with
    | nil => exact ⟨ts, hts, rfl⟩
    | cons b w =>
      have hb : isBlank b = true := (Bool.and_eq_true_iff.mp hw).1
      obtain ⟨us, vs, rfl, hvs, hscan⟩ := scan_before_blank hts (by simpa using hcut) hb (w ++ y)
      obtain ⟨vs', hvs', hlexed⟩ := scan_lexed hvs (0 + x.length + (b :: w).length)
      refine ⟨us ++ vs', ?_, by rw [List.map_append, List.map_append, hlexed]⟩
      rw [← List.cons_append, scan_blanks hw, hvs'] at hscan
      exact hscan

theorem ofText_splits_sum :
    ∃ us, ofText (text "a+ \n1") = .ok us ∧
      us.map lexed = [(.name, ['a']), (.op, ['+']), (.number, ['1']), (.stop, [])] :=
  (ofText_splits (text "a+1")).2 (text "a+") (text "1")
    [⟨.name, ['a'], 0⟩, ⟨.op, ['+'], 1⟩, ⟨.number, ['1'], 2⟩, ⟨.stop, [], 3⟩] rfl (by decide +kernel) (by decide)
    (text " \n") rfl

end PageTemplate.Token
