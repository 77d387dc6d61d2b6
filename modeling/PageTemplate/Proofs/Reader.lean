import PageTemplate.Dynamic.Pipeline
import PageTemplate.Proofs.Seam
import PageTemplate.Proofs.Trimming
set_option autoImplicit false
/-!
The readers of tags look at the body between the braces and nothing else. The tag of a variable is such a
reader as long as the name holds no closing brace.
-/
namespace PageTemplate

theorem after?_append (p t : Text) : after? p (p ++ t) = some t := after?_eq_some_iff.2 rfl

/-- A text that lacks a character is found in front of that character or not at all. -/
theorem after?_append_cons {p : Text} {d : Char} (hd : d ∉ p) (x u : Text) :
    after? p (x ++ d :: u) = (after? p x).map (· ++ d :: u) := by
  induction p generalizing x with
  | nil => rfl
  | cons c cs ih =>
    simp only [List.mem_cons, not_or] at hd
    cases x with
    | nil => simp [after?, Ne.symm hd.1]
    | cons e x => by_cases h : c = e <;> simp [after?, h, ih hd.2]

theorem dropWhile_append_cons {p : Char → Bool} {d : Char} (hd : p d = false) (x u : Text) :
    (x ++ d :: u).dropWhile p = x.dropWhile p ++ d :: u := by
  induction x with
  | nil => simp [hd]
  | cons c cs ih => by_cases h : p c <;> simp [h, ih]

theorem takeWhile_append_cons {p : Char → Bool} {d : Char} (hd : p d = false) (x u : Text) :
    (x ++ d :: u).takeWhile p = x.takeWhile p := by
  induction x with
  | nil => simp [hd]
  | cons c cs ih => by_cases h : p c <;> simp [h, ih]

theorem skipBlanks_append_brace (x u : Text) :
    skipBlanks (x ++ '\x7d' :: u) = skipBlanks x ++ '\x7d' :: u :=
  dropWhile_append_cons (by decide) x u

theorem notMem_takeWhile {p : Char → Bool} {d : Char} (hd : p d = false) (t : Text) :
    d ∉ t.takeWhile p := by
  intro h
  have := List.all_takeWhile (p := p) (l := t)
  rw [List.all_eq_true] at this
  simp [this d h] at hd

theorem mem_of_after? {p x y : Text} {c : Char} (h : after? p x = some y) (hc : c ∈ y) : c ∈ x := by
  rw [after?_eq_some_iff.1 h]
  simp [hc]

theorem findSome?_eq_map {α β γ : Type} {g : α → Option γ} {f : α → Option β} {h : β → γ} {l : List α}
    (hg : ∀ a ∈ l, g a = (f a).map h) : l.findSome? g = (l.findSome? f).map h := by
  induction l with
  | nil => rfl
  | cons a l ih =>
    have ha := hg a (by simp)
    have hl := ih fun b hb => hg b (by simp [hb])
    cases hf : f a <;> simp [ha, hf, hl]

namespace Tag

/-- Two closing braces close a tag at once, or behind more of its body not at all. -/
theorem after?_closing {y : Text} (hy : '\x7d' ∉ y) (rest : Text) :
    after? closing (y ++ '\x7d' :: '\x7d' :: rest) = if y = [] then some rest else none := by
  cases y with
  | nil => simp [closing, after?]
  | cons c cs =>
    have hc : ¬ '\x7d' = c := List.ne_of_not_mem_cons hy
    simp [closing, after?, hc]

theorem after?_opening_wrap (body rest : Text) :
    after? opening (wrap body ++ rest) = some (body ++ '\x7d' :: '\x7d' :: rest) := by
  simp [wrap_append, opening, after?]

theorem wrap_of_after? {t r r' rest : Text} (h : after? opening t = some (r' ++ r))
    (hc : after? closing r = some rest) : t = wrap r' ++ rest := by
  rw [after?_eq_some_iff.1 h, after?_eq_some_iff.1 hc]
  simp [wrap]

section Bodies

variable {α : Type} {read : TagReader α} {f : Text → Option α}

theorem Bracketed.of_body
    (shape : ∀ {t : Text} {a : α} {rest : Text}, read t = some (a, rest) →
      ∃ body, '\x7d' ∉ body ∧ t = wrap body ++ rest)
    (reads : ∀ (body rest : Text), '\x7d' ∉ body →
      read (wrap body ++ rest) = (f body).map fun a => (a, rest)) : Bracketed read where
  shape := shape
  frame {body} rest hb := by
    have h := reads body [] hb
    rw [List.append_nil] at h
    rw [reads body rest hb, h]
    cases f body <;> rfl

theorem readBody_shape {t body rest : Text} (h : readBody t = some (body, rest)) :
    '\x7d' ∉ body ∧ t = wrap body ++ rest := by
  simp only [readBody, Option.bind_eq_bind, Option.bind_eq_some_iff, Option.some.injEq,
    Prod.mk.injEq] at h
  obtain ⟨r, hr, rest', hc, rfl, rfl⟩ := h
  refine ⟨notMem_takeWhile (by decide) r, wrap_of_after? ?_ hc⟩
  rw [List.takeWhile_append_dropWhile, hr]

theorem readBody_wrap {body : Text} (rest : Text) (hb : '\x7d' ∉ body) :
    readBody (wrap body ++ rest) = some (body, rest) := by
  have hall : ∀ c ∈ body, (c != '\x7d') = true := fun c hc => by
    rw [bne_iff_ne]
    rintro rfl
    exact hb hc
  have ht : (body ++ '\x7d' :: '\x7d' :: rest).takeWhile (· != '\x7d') = body := by
    rw [List.takeWhile_append_of_pos hall, List.takeWhile_cons_of_neg (by decide), List.append_nil]
  have hd : (body ++ '\x7d' :: '\x7d' :: rest).dropWhile (· != '\x7d') = '\x7d' :: '\x7d' :: rest := by
    rw [List.dropWhile_append_of_pos hall, List.dropWhile_cons_of_neg (by decide)]
  simp [readBody, after?_opening_wrap, ht, hd, closing, after?]

/-- A reader that takes the whole body of a tag and makes something of it. -/
theorem bracketed_of_readBody
    (h : ∀ t, read t = (readBody t).bind fun r => (f r.1).map fun a => (a, r.2)) :
    Bracketed read := by
  refine Bracketed.of_body (f := f) (fun {t a rest} ht => ?_) fun body rest hb => ?_
  · rw [h, Option.bind_eq_some_iff] at ht
    obtain ⟨⟨body, rest'⟩, hread, ht⟩ := ht
    obtain ⟨_, -, he⟩ := Option.map_eq_some_iff.1 ht
    obtain rfl : rest' = rest := (Prod.mk.inj he).2
    exact ⟨body, readBody_shape hread⟩
  · rw [h, readBody_wrap rest hb, Option.bind_some]

end Bodies

theorem readKeyword_shape {word t rest : Text} (h : readKeyword word t = some ((), rest)) :
    ∃ lead trail : Text, lead.all isBlank ∧ trail.all isBlank ∧ t = wrap (lead ++ word ++ trail) ++ rest := by
  simp only [readKeyword, Option.bind_eq_bind, Option.bind_eq_some_iff, Option.some.injEq,
    Prod.mk.injEq, true_and] at h
  obtain ⟨r, hr, r', hr', rest', hc, rfl⟩ := h
  refine ⟨blankRun r, blankRun r', List.all_takeWhile, List.all_takeWhile, wrap_of_after? (r := skipBlanks r') ?_ hc⟩
  rw [List.append_assoc, List.append_assoc, blankRun_append_skipBlanks, ← after?_eq_some_iff.1 hr',
    blankRun_append_skipBlanks, hr]

theorem bracketed_readKeyword {word : Text} (hw : '\x7d' ∉ word) : Bracketed (readKeyword word) := by
  refine Bracketed.of_body
    (f := fun body => (after? word (skipBlanks body)).bind fun r => if skipBlanks r = [] then some () else none)
    (fun {t a rest} h => ?_) fun body rest hb => ?_
  · obtain ⟨lead, trail, hlead, htrail, rfl⟩ := readKeyword_shape h
    refine ⟨_, ?_, rfl⟩
    simp [hw, notMem_of_blank hlead (show isBlank '\x7d' = false by decide),
      notMem_of_blank htrail (show isBlank '\x7d' = false by decide)]
  · have hy : ∀ y, after? word (skipBlanks body) = some y → '\x7d' ∉ skipBlanks y := fun y hy hm =>
      hb (mem_of_mem_skipBlanks (mem_of_after? hy (mem_of_mem_skipBlanks hm)))
    simp only [readKeyword, Option.bind_eq_bind, after?_opening_wrap, Option.bind_some,
      skipBlanks_append_brace, after?_append_cons hw]
    cases h : after? word (skipBlanks body) with
    | none => rfl
    | some y =>
      simp only [Option.map_some, Option.bind_some, skipBlanks_append_brace, after?_closing (hy y h)]
      split <;> rfl

end Tag

theorem LoopTag.read_eq (t : Text) :
    read t = (Tag.readBody t).bind fun r => (ofBody? r.1).map fun a => (a, r.2) := by
  simp only [read, Option.bind_eq_bind]
  cases Tag.readBody t with
  | none => rfl
  | some r => cases h : ofBody? r.1 <;> simp [h]

theorem LoopTag.bracketed_read : Tag.Bracketed read := Tag.bracketed_of_readBody read_eq

theorem LoopTag.read_wrap {body : Text} (rest : Text) (hb : '\x7d' ∉ body) :
    read (Tag.wrap body ++ rest) = (ofBody? body).map fun a => (a, rest) := by
  rw [read_eq, Tag.readBody_wrap rest hb, Option.bind_some]

theorem BranchTag.read_eq (t : Text) :
    read t = (Tag.readBody t).bind fun r => (ofBody? r.1).map fun a => (a, r.2) := by
  simp only [read, Option.bind_eq_bind]
  cases Tag.readBody t with
  | none => rfl
  | some r => cases h : ofBody? r.1 <;> simp [h]

theorem BranchTag.bracketed_read : Tag.Bracketed read := Tag.bracketed_of_readBody read_eq

theorem BranchTag.read_wrap {body : Text} (rest : Text) (hb : '\x7d' ∉ body) :
    read (Tag.wrap body ++ rest) = (ofBody? body).map fun a => (a, rest) := by
  rw [read_eq, Tag.readBody_wrap rest hb, Option.bind_some]

namespace Variable

theorem readExpression_eq (t : Text) :
    readExpression t = (Tag.readBody t).bind fun r =>
      (if r.1.isEmpty then none else some r.1).map fun a => (a, r.2) := by
  simp only [readExpression, Option.bind_eq_bind]
  cases Tag.readBody t with
  | none => rfl
  | some r => by_cases h : r.1 = [] <;> simp [h]

theorem bracketed_readExpression : Tag.Bracketed readExpression :=
  Tag.bracketed_of_readBody (f := fun body => if body.isEmpty then none else some body)
    readExpression_eq

theorem bracketed_readEmpty : Tag.Bracketed readEmpty := Tag.bracketed_readKeyword (by simp)

/-- The characters of dotted paths. -/
def inPath (c : Char) : Bool := isWordChar c || c == '.'

/-- A body that is a dotted path. -/
def path? (body : Text) : Option Text :=
  if 2 ≤ (splitAt ['.'] body).length && (splitAt ['.'] body).all (!·.isEmpty) then some body else none

theorem readPath_eq (t : Text) :
    readPath t = (after? Tag.opening t).bind fun r =>
      (after? Tag.closing (r.dropWhile inPath)).bind fun rest =>
        (path? (r.takeWhile inPath)).map fun p => (p, rest) := by
  simp only [readPath, path?, Option.bind_eq_bind]
  congr 1
  funext r
  congr 1
  funext rest
  rw [apply_ite (Option.map _)]
  rfl

theorem readPath_wrap {body : Text} (rest : Text) (hb : '\x7d' ∉ body) :
    readPath (Tag.wrap body ++ rest) =
      (if body.dropWhile inPath = [] then path? (body.takeWhile inPath) else none).map fun p => (p, rest) := by
  have hd : '\x7d' ∉ body.dropWhile inPath := fun h => hb ((List.dropWhile_suffix _).subset h)
  simp only [readPath_eq, Tag.after?_opening_wrap, Option.bind_some,
    dropWhile_append_cons (show inPath '\x7d' = false by decide),
    takeWhile_append_cons (show inPath '\x7d' = false by decide), Tag.after?_closing hd]
  split <;> rfl

theorem bracketed_readPath : Tag.Bracketed readPath := by
  refine Tag.Bracketed.of_body
    (f := fun body => if body.dropWhile inPath = [] then path? (body.takeWhile inPath) else none)
    (fun {t a rest} h => ?_) fun _ rest hb => readPath_wrap rest hb
  simp only [readPath_eq, Option.bind_eq_some_iff, Option.map_eq_some_iff, Prod.mk.injEq] at h
  obtain ⟨r, hr, rest', hc, p, -, -, rfl⟩ := h
  refine ⟨r.takeWhile inPath, notMem_takeWhile (by decide) r, Tag.wrap_of_after? ?_ hc⟩
  rw [List.takeWhile_append_dropWhile, hr]

/-- Does a body consist of blanks, of which the first `n` are not the key's, the key, and blanks? -/
def keyAt (key body : Text) (n : Nat) : Option Unit :=
  (after? key (body.drop n)).bind fun y => if skipBlanks y = [] then some () else none

theorem take_subset_blankRun {t : Text} {n : Nat} (hn : n ≤ (blankRun t).length) :
    t.take n ⊆ blankRun t := by
  have htake : (blankRun t ++ skipBlanks t).take n = (blankRun t).take n := List.take_append_of_le_length hn
  rw [blankRun_append_skipBlanks] at htake
  rw [htake]
  exact List.take_subset _ _

theorem length_blankRun_le (t : Text) : (blankRun t).length ≤ t.length :=
  (List.takeWhile_prefix (l := t) isBlank).length_le

theorem after?_key {key body : Text} (hk : '\x7d' ∉ key) (hb : '\x7d' ∉ body) (rest : Text) {n : Nat}
    (hn : n ≤ body.length) :
    ((after? key ((body ++ '\x7d' :: '\x7d' :: rest).drop n)).bind fun r =>
      after? Tag.closing (skipBlanks r)) = (keyAt key body n).map fun _ => rest := by
  rw [List.drop_append_of_le_length hn, after?_append_cons hk, keyAt]
  cases h : after? key (body.drop n) with
  | none => rfl
  | some y =>
    have hy : '\x7d' ∉ skipBlanks y := fun hm => hb
      ((List.drop_suffix n body).subset (mem_of_after? h (mem_of_mem_skipBlanks hm)))
    simp only [Option.map_some, Option.bind_some, skipBlanks_append_brace, Tag.after?_closing hy]
    split <;> rfl

/-- The tag of a key is the key between blanks; the blanks in front of it may be the key's own. -/
theorem readKey_shape {key t : Text} {r : Unit × Text} (h : readKey key t = some r) :
    ∃ lead trail : Text, lead.all isBlank ∧ trail.all isBlank ∧ t = Tag.wrap (lead ++ (key ++ trail)) ++ r.2 := by
  simp only [readKey, Option.bind_eq_bind, Option.bind_eq_some_iff, Option.some.injEq] at h
  obtain ⟨u, hu, rest, hsome, rfl⟩ := h
  obtain ⟨n, hn, hfound⟩ := List.exists_of_findSome?_eq_some hsome
  obtain ⟨r', hr', hc⟩ := Option.bind_eq_some_iff.1 hfound
  have hn : n ≤ (blankRun u).length := by
    have := List.mem_range.1 (List.mem_reverse.1 hn)
    omega
  refine ⟨u.take n, blankRun r', ?_, List.all_takeWhile, Tag.wrap_of_after? (r := skipBlanks r') ?_ hc⟩
  · exact List.all_eq_true.2 fun c hc => List.all_eq_true.1 List.all_takeWhile c (take_subset_blankRun hn hc)
  · rw [List.append_assoc, List.append_assoc, blankRun_append_skipBlanks, ← after?_eq_some_iff.1 hr',
      List.take_append_drop, hu]

theorem bracketed_readKey {key : Text} (hk : '\x7d' ∉ key) : Tag.Bracketed (readKey key) := by
  refine Tag.Bracketed.of_body
    (f := fun body => (List.range ((blankRun body).length + 1)).reverse.findSome? (keyAt key body))
    (fun {t a rest} h => ?_) fun body rest hb => ?_
  · obtain ⟨lead, trail, hlead, htrail, ht⟩ := readKey_shape h
    have hblank : isBlank '\x7d' = false := by decide
    exact ⟨_, by simp [hk, notMem_of_blank hlead hblank, notMem_of_blank htrail hblank], ht⟩
  · have hrun : blankRun (body ++ '\x7d' :: '\x7d' :: rest) = blankRun body :=
      takeWhile_append_cons (by decide) _ _
    have hat : ∀ n ∈ (List.range ((blankRun body).length + 1)).reverse,
        ((after? key ((body ++ '\x7d' :: '\x7d' :: rest).drop n)).bind fun r =>
          after? Tag.closing (skipBlanks r)) = (keyAt key body n).map fun _ => rest := by
      intro n hn
      have hlt := List.mem_range.1 (List.mem_reverse.1 hn)
      have hlen := length_blankRun_le body
      exact after?_key hk hb rest (by omega)
    simp only [readKey, Option.bind_eq_bind, Tag.after?_opening_wrap, Option.bind_some, hrun,
      findSome?_eq_map hat]
    cases List.findSome? (keyAt key body) _ <;> rfl

end Variable

end PageTemplate
