import PageTemplate.Dynamic.Tag
import PageTemplate.Proofs.Scan
set_option autoImplicit false
/-!
Tags between double braces inside longer texts. A reader of such tags looks at nothing behind the closing
braces, so a text can be read in parts, provided that no tag begins in one part and ends in the next.
-/
namespace PageTemplate.Tag

open Piece

/-- A body between double braces. -/
def wrap (body : Text) : Text := opening ++ body ++ closing

theorem wrap_append (body rest : Text) :
    wrap body ++ rest = '\x7b' :: '\x7b' :: (body ++ '\x7d' :: '\x7d' :: rest) := by
  simp [wrap, opening, closing]

theorem wrap_ne_nil (body : Text) : wrap body ≠ [] := by simp [wrap, opening]

theorem wrap_append_inj {b c r s : Text} (hb : '\x7d' ∉ b) (hc : '\x7d' ∉ c)
    (h : wrap b ++ r = wrap c ++ s) : b = c ∧ r = s := by
  simp only [wrap_append, List.cons.injEq, true_and] at h
  rcases List.append_eq_append_iff.1 h with ⟨z, rfl, hz⟩ | ⟨z, rfl, hz⟩ <;> cases z <;> simp_all

/-- Recognises bodies between double braces that hold no closing brace, whatever follows. -/
structure Bracketed {α : Type} (read : TagReader α) : Prop where
  shape : ∀ {t : Text} {a : α} {rest : Text}, read t = some (a, rest) →
    ∃ body, '\x7d' ∉ body ∧ t = wrap body ++ rest
  frame : ∀ {body : Text} (rest : Text), '\x7d' ∉ body →
    read (wrap body ++ rest) = (read (wrap body)).map fun r => (r.1, rest)

/-- No tag begins in the one text and ends in the other behind it. -/
def Apart (x y : Text) : Prop :=
  ∀ u body z rest, u <:+ x → u ≠ [] → z ≠ [] → '\x7d' ∉ body → wrap body = u ++ z → y ≠ z ++ rest

theorem Apart.of_suffix {x y u : Text} (h : Apart x y) (hu : u <:+ x) : Apart u y :=
  fun v body z rest hv => h v body z rest (hv.trans hu)

section Reading

variable {α : Type} {read : TagReader α}

/-- What a reader of bracketed tags finds at the front of a text does not depend on what follows the text,
unless a tag reaches from one into the other. -/
theorem Bracketed.read_append (hr : Bracketed read) {x y : Text} (hx : x ≠ []) (h : Apart x y) :
    read (x ++ y) = (read x).map fun r => (r.1, r.2 ++ y) := by
  have hin : ∀ body z, '\x7d' ∉ body → read (wrap body ++ z ++ y)
      = (read (wrap body ++ z)).map fun r => (r.1, r.2 ++ y) := by
    intro body z hb
    rw [List.append_assoc, hr.frame _ hb, hr.frame z hb]
    cases read (wrap body) <;> rfl
  cases hread : read x with
  | some r =>
    obtain ⟨body, hb, rfl⟩ := hr.shape hread
    rw [hin body _ hb, hread]
  | none =>
    cases hlong : read (x ++ y) with
    | none => rfl
    | some r =>
      obtain ⟨body, hb, he⟩ := hr.shape hlong
      rcases List.append_eq_append_iff.1 he with ⟨z, hz, hy⟩ | ⟨z, rfl, -⟩
      · by_cases hne : z = []
        · rw [hne, List.append_nil] at hz
          have := hin body [] hb
          rw [List.append_nil, hz, hlong, hread] at this
          simp at this
        · exact absurd hy (h x body z _ List.suffix_rfl hx hne hb hz)
      · rw [hin body z hb, hread] at hlong
        simp at hlong

theorem Bracketed.scan_append (hr : Bracketed read) {x y : Text} (h : Apart x y) :
    scan read (x ++ y) = scan read x ++ scan read y := by
  refine Piece.scan_append (fun hread => ?_) fun u hu hne => hr.read_append hne (h.of_suffix hu)
  obtain ⟨body, -, he⟩ := hr.shape hread
  exact ⟨_, wrap_ne_nil body, he⟩

/-- The source of a tag in a text is the tag as it is read. -/
theorem Bracketed.mem_scan (hr : Bracketed read) {t : Text} {a : α} {s : Text}
    (h : .tag a s ∈ scan read t) :
    ∃ body rest, '\x7d' ∉ body ∧ s = wrap body ∧ read (wrap body) = some (a, rest) := by
  fun_induction scan read t with
  | case1 => simp at h
  | case2 c cs b rest hread n ih =>
    rcases List.mem_cons.1 h with heq | hmem
    · obtain ⟨rfl, rfl⟩ := Piece.tag.inj heq
      obtain ⟨body, hb, ht⟩ := hr.shape hread
      have hlen : n + 1 = (wrap body).length := by
        have := congrArg List.length ht
        have := List.length_pos_iff.2 (wrap_ne_nil body)
        simp only [List.length_cons, List.length_append] at *
        omega
      have hsource : c :: cs.take n = wrap body := by
        rw [← List.take_succ_cons, ht, hlen, List.take_left]
      rw [ht, hr.frame rest hb, Option.map_eq_some_iff] at hread
      obtain ⟨r, hr', hrest⟩ := hread
      exact ⟨body, r.2, hb, hsource, by rw [hr', (Prod.mk.inj hrest).1.symm]⟩
    · exact ih hmem
  | case3 c cs hread ih =>
    rcases List.mem_cons.1 h with heq | hmem
    · cases heq
    · exact ih hmem

end Reading

/-- The start of a tag that the text breaks off. A single closing brace at its end does not close it. -/
def Dangles (w : Text) : Prop :=
  (w = ['\x7b'] ∨ opening <+: w) ∧ ∀ u v, w = u ++ '\x7d' :: v → v = []

/-- A text that does not break off inside a tag. -/
def Sealed (x : Text) : Prop := ∀ w, w <:+ x → ¬ Dangles w

/-- Behind the first of two closing braces stands the second. -/
theorem behind_closing {body u v : Text} (hb : '\x7d' ∉ body)
    (h : wrap body = u ++ '\x7d' :: v) : v = [] ∨ v = ['\x7d'] := by
  have hw : wrap body = ('\x7b' :: '\x7b' :: body) ++ ['\x7d', '\x7d'] := rfl
  rcases List.append_eq_append_iff.1 (hw.symm.trans h) with ⟨z, -, hz⟩ | ⟨z, hz, hv⟩
  · match z, hz with
    | [], hz => exact .inr (by simpa using hz.symm)
    | [_], hz => exact .inl (by simpa using (List.cons.inj hz).2.symm)
    | _ :: _ :: _, hz => simp at hz
  · match z with
    | [] => exact .inr (by simpa using hv)
    | d :: z =>
      simp only [List.cons_append, List.cons.injEq] at hv
      have hd : '\x7d' ∈ '\x7b' :: '\x7b' :: body := by rw [hz, hv.1]; simp
      simp [hb] at hd

/-- Cut short, a tag dangles. -/
theorem dangles_of_wrap_eq {body x z : Text} (hb : '\x7d' ∉ body) (hx : x ≠ []) (hz : z ≠ [])
    (h : wrap body = x ++ z) : Dangles x := by
  refine ⟨?_, fun u v hv => ?_⟩
  · match x, h with
    | [], _ => exact absurd rfl hx
    | [c], h =>
      simp only [wrap, opening, List.cons_append, List.cons.injEq] at h
      exact .inl (by rw [h.1])
    | c :: d :: cs, h =>
      simp only [wrap, opening, List.cons_append, List.cons.injEq] at h
      exact .inr ⟨cs, by rw [← h.1, ← h.2.1]; rfl⟩
  · rw [hv, List.append_assoc, List.cons_append] at h
    rcases behind_closing hb h with hn | hn <;> cases v <;> simp_all

theorem Sealed.apart {x : Text} (h : Sealed x) (y : Text) : Apart x y :=
  fun u _ _ _ hu hne hz hb he _ => h u hu (dangles_of_wrap_eq hb hne hz he)

/-- A tag lies in a text that does not break off inside a tag, or behind it. -/
theorem Sealed.wrap_cases {x y before body behind : Text} (h : Sealed x) (hb : '\x7d' ∉ body)
    (ht : x ++ y = before ++ (wrap body ++ behind)) :
    (∃ a, x = before ++ (wrap body ++ a) ∧ behind = a ++ y) ∨
      ∃ a, before = x ++ a ∧ y = a ++ (wrap body ++ behind) := by
  rcases List.append_eq_append_iff.1 ht with ⟨a, hbefore, hy⟩ | ⟨u, hx, hu⟩
  · exact .inr ⟨a, hbefore, hy⟩
  · rcases List.append_eq_append_iff.1 hu with ⟨a, rfl, hbehind⟩ | ⟨z, hwrap, hy⟩
    · exact .inl ⟨a, hx, hbehind⟩
    · by_cases hu : u = []
      · exact .inr ⟨[], by simp [hx, hu], by simp [hy, hwrap, hu]⟩
      · by_cases hz : z = []
        · exact .inl ⟨[], by simp [hx, hwrap, hz], by simp [hy, hz]⟩
        · exact absurd hy (h.apart y u body z behind ⟨before, hx.symm⟩ hu hz hb hwrap)

theorem Sealed.of_suffix {x y : Text} (h : Sealed x) (hy : y <:+ x) : Sealed y := fun w hw => h w (hw.trans hy)

theorem Sealed.append {x y : Text} (hx : Sealed x) (hy : Sealed y) : Sealed (x ++ y) := by
  rintro w ⟨u, hu⟩ hw
  rcases List.append_eq_append_iff.1 hu with ⟨a, rfl, rfl⟩ | ⟨a, -, rfl⟩
  · refine hx a (List.suffix_append u a) ⟨?_, fun v z hv => ?_⟩
    · match a, hw.1 with
      | [], _ => exact absurd hw (hy y List.suffix_rfl)
      | [c], .inl h => exact .inl (by rw [(List.cons.inj h).1])
      | [c], .inr h => exact .inl (by rw [← (List.cons_prefix_cons.1 h).1])
      | c :: d :: cs, .inl h => cases (List.cons.inj h).2
      | c :: d :: cs, .inr ⟨z, h⟩ =>
        simp only [opening, List.cons_append, List.cons.injEq] at h
        exact .inr ⟨cs, by rw [← h.1, ← h.2.1]; rfl⟩
    · have hnil := hw.2 v (z ++ y) (by rw [hv, List.append_assoc, List.cons_append])
      exact (List.append_eq_nil_iff.1 hnil).1
  · exact hy w (List.suffix_append a w) hw

/-- What dangles does not close a tag that begins in front of it. -/
theorem Dangles.apart {w : Text} (h : Dangles w) (x : Text) : Apart x w := by
  intro u body z rest _ _ hz hb he hw
  have hw' : wrap body = (opening ++ body) ++ ['\x7d', '\x7d'] := rfl
  rcases List.append_eq_append_iff.1 (hw'.symm.trans he) with ⟨v, -, hv⟩ | ⟨v, -, rfl⟩
  · -- then the part in `w` consists of closing braces, but `w` begins with an opening one
    obtain ⟨d, z, rfl⟩ := List.exists_cons_of_ne_nil hz
    have hd : d ∈ ['\x7d', '\x7d'] := by rw [hv]; simp
    have hd : d = '\x7d' := by simpa using hd
    rcases h.1 with h | ⟨_, h⟩ <;> simp [hw, hd, opening] at h
  · have := h.2 v ('\x7d' :: rest) (by simp [hw])
    simp at this

theorem Bracketed.untagged_of_dangles {α : Type} {read : TagReader α} (hr : Bracketed read) {w : Text}
    (hw : Dangles w) : Untagged read w := by
  intro u hu hne
  cases h : read u with
  | none => rfl
  | some r =>
    obtain ⟨body, -, rfl⟩ := hr.shape h
    obtain ⟨v, rfl⟩ := hu
    have := hw.2 (v ++ '\x7b' :: '\x7b' :: body) ('\x7d' :: r.2) (by simp [wrap_append])
    simp at this

end PageTemplate.Tag
