import PageTemplate.Proofs.Nesting
set_option autoImplicit false
/-!
Which of the tags that structure a page the variables leave alone. The readers of loops, of conditionals and of calls
take any blanks around and between the words of a tag; what is left alone begins with a word and one space.
-/
namespace PageTemplate

open Piece Tag Template

/-- The whole of a tag is recognised. -/
def Matched {α : Type} (read : TagReader α) (body : Text) : Prop := (read (wrap body)).map (·.2) = some []

instance {α : Type} (read : TagReader α) (body : Text) : Decidable (Matched read body) :=
  inferInstanceAs (Decidable (_ = _))

theorem matched_iff {α : Type} {read : TagReader α} {body : Text} :
    Matched read body ↔ ∃ a, read (wrap body) = some (a, []) := by
  simp [Matched]

/-- A tag of loops, of conditionals or of calls. -/
def Structural (body : Text) : Prop :=
  Matched LoopTag.read body ∨ Matched Loop.readBreak body ∨ Matched Loop.readContinue body ∨
    Matched BranchTag.read body ∨ Matched CallTag.read body

instance (body : Text) : Decidable (Structural body) := inferInstanceAs (Decidable (_ ∨ _))

/-- How such a tag is written: a word, a word or two in front of a condition, a word in front of the names of a loop,
or a call. -/
inductive Spelling where
  | word (w : WordTag) (name : { t : Text // t ∈ structuralWords })
  | choice (lead : Blanks) (gap : Gap) (condition : Text)
  | otherwise (lead : Blanks) (between gap : Gap) (condition : Text)
  | loop (lead : Blanks) (gap : Gap) (head : { t : Text // ¬ t.all isBlank })
  | call (lead : Blanks) (rest : Text)

namespace Spelling

def print : Spelling → Text
  | word w name => w.body name.1
  | choice lead gap condition => lead.1 ++ (text "if" ++ (gap.1 ++ condition))
  | otherwise lead between gap condition =>
    lead.1 ++ (text "else" ++ (between.1 ++ (text "if" ++ (gap.1 ++ condition))))
  | loop lead gap head => lead.1 ++ (text "for" ++ (gap.1 ++ head.1))
  | call lead rest => lead.1 ++ (text "user:" ++ rest)

/-- Where other words follow, a space stands between two words and in front of what follows. -/
def Spaced : Spelling → Prop
  | word .. | call .. => True
  | choice _ gap condition => gap.1.head? = some ' ' ∧ ¬ condition.all isBlank
  | otherwise _ between gap condition => between.1 = [' '] ∧ gap.1.head? = some ' ' ∧ ¬ condition.all isBlank
  | loop _ gap _ => gap.1.head? = some ' '

end Spelling

section Reservation

theorem isReservedBody_iff {t : Text} : isReservedBody t ↔ occursIn (text "user:") t ∨ trim t ∈ structuralWords ∨
    text "if " <+: trim t ∨ text "else if " <+: trim t ∨ text "for " <+: trim t := by
  have hafter : ∀ p : Text, (after? p (trim t)).isSome ↔ p <+: trim t := fun p => by
    rw [Option.isSome_iff_exists]
    exact exists_congr fun rest => after?_eq_some_iff.trans eq_comm
  simp only [isReservedBody, Bool.or_eq_true, List.contains_iff_mem, List.any_cons, List.any_nil, hafter,
    Bool.false_eq_true, or_false, or_assoc]

/-- Trimming a tag takes white space off what stands behind its words. -/
theorem trim_words {x : Text} (hx : solid x) (lead : Blanks) (gap : Gap) {t : Text} (ht : ¬ t.all isBlank) :
    trim (lead.1 ++ (x ++ (gap.1 ++ t))) = x ++ (gap.1 ++ dropEndWhile isBlank t) := by
  rw [trim_append lead.2, trim, skipBlanks_of_solid (solid_append hx _), ← List.append_assoc, dropEndWhile_append ht,
    List.append_assoc]

theorem trim_words_blank {x : Text} (hx : trim x = x) (lead : Blanks) (gap : Gap) {t : Text} (ht : t.all isBlank) :
    trim (lead.1 ++ (x ++ (gap.1 ++ t))) = x := by
  have hblank : (gap.1 ++ t).all isBlank := by simp only [List.all_append, gap.2.2, ht, Bool.and_self]
  rw [trim_between lead.2 hblank, hx]

theorem space_prefix_iff (gap : Gap) (t : Text) : [' '] <+: gap.1 ++ t ↔ gap.1.head? = some ' ' := by
  obtain ⟨g, hne, -⟩ := gap
  obtain ⟨c, g, rfl⟩ := List.exists_cons_of_ne_nil hne
  simp [List.cons_prefix_cons, eq_comm]

/-- In front of a word the one space stands alone. -/
theorem space_prefix_word_iff (between : Gap) {c : Char} (hc : isBlank c = false) (p t : Text) :
    ' ' :: c :: p <+: between.1 ++ c :: t ↔ between.1 = [' '] ∧ p <+: t := by
  obtain ⟨g, hne, hall⟩ := between
  obtain ⟨d, g, rfl⟩ := List.exists_cons_of_ne_nil hne
  cases g with
  | nil => simp [List.cons_prefix_cons, eq_comm]
  | cons e g =>
    have he : c ≠ e := by
      rintro rfl
      simp [hc] at hall
    simp [List.cons_prefix_cons, he]

namespace Spelling

theorem reserved_choice (lead : Blanks) (gap : Gap) (condition : Text) :
    isReservedBody (choice lead gap condition).print ↔
      occursIn (text "user:") (choice lead gap condition).print ∨ (choice lead gap condition).Spaced := by
  refine isReservedBody_iff.trans (or_congr_right ?_)
  rw [print, Spaced]
  by_cases hc : condition.all isBlank
  · rw [trim_words_blank (by decide) lead gap hc]
    simp only [hc, not_true, and_false, iff_false]
    decide
  · rw [trim_words (by decide) lead gap hc, ← space_prefix_iff gap (dropEndWhile isBlank condition)]
    simp [structuralWords, text, hc, List.cons_prefix_cons]

theorem reserved_loop (lead : Blanks) (gap : Gap) (head : { t : Text // ¬ t.all isBlank }) :
    isReservedBody (loop lead gap head).print ↔
      occursIn (text "user:") (loop lead gap head).print ∨ (loop lead gap head).Spaced := by
  refine isReservedBody_iff.trans (or_congr_right ?_)
  rw [print, Spaced, trim_words (by decide) lead gap head.2, ← space_prefix_iff gap (dropEndWhile isBlank head.1)]
  simp [structuralWords, text, List.cons_prefix_cons]

theorem reserved_otherwise (lead : Blanks) (between gap : Gap) (condition : Text) :
    isReservedBody (otherwise lead between gap condition).print ↔
      occursIn (text "user:") (otherwise lead between gap condition).print ∨
        (otherwise lead between gap condition).Spaced := by
  refine isReservedBody_iff.trans (or_congr_right ?_)
  have hsolid : solid (text "else" ++ (between.1 ++ text "if")) := solid_append (by decide) _
  have hprint : (otherwise lead between gap condition).print =
      lead.1 ++ ((text "else" ++ (between.1 ++ text "if")) ++ (gap.1 ++ condition)) := by
    simp only [print, List.append_assoc]
  rw [hprint, Spaced]
  by_cases hc : condition.all isBlank
  -- without a condition, trimming takes the space behind the last word off
  · have htrim : trim (text "else" ++ (between.1 ++ text "if")) = text "else" ++ (between.1 ++ text "if") := by
      rw [trim, skipBlanks_of_solid hsolid, ← List.append_assoc]
      exact dropEndWhile_append_cons (by decide) _ ['f']
    rw [trim_words_blank htrim lead gap hc]
    have hword := space_prefix_word_iff between (show isBlank 'i' = false by decide) (text "f ") (text "f")
    simpa [structuralWords, text, List.cons_prefix_cons, hc] using hword
  · rw [trim_words hsolid lead gap hc, ← space_prefix_iff gap (dropEndWhile isBlank condition)]
    have hword := space_prefix_word_iff between (show isBlank 'i' = false by decide) (text "f ")
      ('f' :: (gap.1 ++ dropEndWhile isBlank condition))
    simpa [structuralWords, text, List.cons_prefix_cons, hc] using hword

theorem solid_trim_of_structural {name : Text} (h : name ∈ structuralWords) : solid name ∧ trim name = name := by
  have hall : ∀ name ∈ structuralWords, solid name ∧ trim name = name := by decide
  exact hall name h

theorem print_ne_nil (s : Spelling) : s.print ≠ [] := by
  cases s with
  | word w name =>
    intro h
    obtain ⟨hs, -⟩ := solid_trim_of_structural name.2
    simp only [print, WordTag.body, List.append_eq_nil_iff] at h
    rw [h.1.2] at hs
    cases hs
  | _ => simp [print, text]

/-- A tag is left alone if it holds the mark of a call, or if it is one word, or if spaces stand where they are
looked for. -/
theorem reserved_iff (s : Spelling) : isReservedBody s.print ↔ occursIn (text "user:") s.print ∨ s.Spaced := by
  cases s with
  | word w name =>
    obtain ⟨hs, he⟩ := solid_trim_of_structural name.2
    refine iff_of_true (isReservedBody_iff.2 (.inr (.inl ?_))) (.inr trivial)
    rw [print, w.trim_body hs he]
    exact name.2
  | choice lead gap condition => exact reserved_choice lead gap condition
  | otherwise lead between gap condition => exact reserved_otherwise lead between gap condition
  | loop lead gap head => exact reserved_loop lead gap head
  | call lead rest =>
    have hcall : occursIn (text "user:") (call lead rest).print :=
      occursIn_of_after? (List.suffix_append lead.1 _) (after?_append (text "user:") rest)
    exact iff_of_true (isReservedBody_iff.2 (.inl hcall)) (.inr trivial)

end Spelling

end Reservation

section Recognition

theorem wrap_inj {body body' : Text} (h : wrap body = wrap body') : body = body' :=
  List.append_cancel_left (List.append_cancel_right h)

/-- A tag that is recognised as a whole is recognised by its body. -/
theorem Matched.notMem {α : Type} {read : TagReader α} (hr : Bracketed read) {body : Text} (h : Matched read body) :
    '\x7d' ∉ body := by
  obtain ⟨a, ha⟩ := matched_iff.1 h
  obtain ⟨body', hb, heq⟩ := hr.shape ha
  rw [List.append_nil] at heq
  rwa [wrap_inj heq]

theorem exists_gap_of_afterWord? {word t r : Text} (h : afterWord? word t = some r) :
    ∃ gap : Gap, t = word ++ (gap.1 ++ r) := by
  simp only [afterWord?, Option.bind_eq_bind, Option.bind_eq_some_iff] at h
  obtain ⟨r', hafter, hr⟩ := h
  split at hr
  · next hblank =>
    obtain rfl := Option.some.inj hr
    refine ⟨⟨blankRun r', ?_, List.all_takeWhile⟩, ?_⟩
    · cases r' with
      | nil => simp [startsBlank] at hblank
      | cons c cs => simp [blankRun, show isBlank c = true from hblank]
    · rw [blankRun_append_skipBlanks]
      exact after?_eq_some_iff.1 hafter
  · cases hr

theorem exists_wordTag (t : Text) : ∃ w : WordTag, t = w.body (trim t) := by
  let trail := ((skipBlanks t).reverse.takeWhile isBlank).reverse
  have hend : dropEndWhile isBlank (skipBlanks t) ++ trail = skipBlanks t := by
    rw [dropEndWhile, ← List.reverse_append, List.takeWhile_append_dropWhile, List.reverse_reverse]
  have hblank : trail.all isBlank := by
    rw [List.all_reverse]
    exact List.all_takeWhile
  refine ⟨⟨⟨blankRun t, List.all_takeWhile⟩, ⟨_, hblank⟩⟩, ?_⟩
  rw [WordTag.body, List.append_assoc, trim, hend, blankRun_append_skipBlanks]

theorem LoopTag.not_blank_of_readNames {t : Text} (h : (readNames t).isSome) : ¬ t.all isBlank := by
  intro hall
  have hspan : (spanWord t).1 = [] := by
    cases t with
    | nil => rfl
    | cons c cs =>
      have hc : isBlank c := List.all_eq_true.1 hall c List.mem_cons_self
      simp [spanWord, isWordChar_of_isBlank hc]
  simp [readNames, hspan] at h

/-- The lead of a tag, and what begins with its first word. -/
theorem exists_lead (t : Text) : ∃ lead : Blanks, t = lead.1 ++ skipBlanks t :=
  ⟨⟨blankRun t, List.all_takeWhile⟩, (blankRun_append_skipBlanks t).symm⟩

theorem exists_spelling_word {t : Text} (h : trim t ∈ structuralWords) : ∃ s : Spelling, s.print = t := by
  obtain ⟨w, hw⟩ := exists_wordTag t
  exact ⟨.word w ⟨trim t, h⟩, hw.symm⟩

theorem LoopTag.exists_spelling {t : Text} {a : LoopTag} (h : ofBody? t = some a) : ∃ s : Spelling, s.print = t := by
  rw [ofBody?] at h
  split at h
  · next hword => exact exists_spelling_word (by rw [hword]; decide)
  · split at h
    · next hword => exact exists_spelling_word (by rw [hword]; decide)
    · simp only [Option.bind_eq_bind, Option.bind_eq_some_iff] at h
      obtain ⟨r, hr, names, hnames, -⟩ := h
      obtain ⟨lead, hlead⟩ := exists_lead t
      obtain ⟨gap, hgap⟩ := exists_gap_of_afterWord? hr
      have hhead : ¬ r.all isBlank := not_blank_of_readNames (by rw [hnames]; rfl)
      exact ⟨.loop lead gap ⟨r, hhead⟩, by rw [Spelling.print, ← hgap, ← hlead]⟩

theorem BranchTag.exists_spelling {t : Text} {a : BranchTag} (h : ofBody? t = some a) :
    ∃ s : Spelling, s.print = t := by
  obtain ⟨lead, hlead⟩ := exists_lead t
  rw [ofBody?] at h
  split at h
  · next hword => exact exists_spelling_word (by rw [hword]; decide)
  · split at h
    · next hword => exact exists_spelling_word (by rw [hword]; decide)
    · split at h
      · next c hc =>
        obtain ⟨r, hr, -⟩ := Option.map_eq_some_iff.1 hc
        obtain ⟨gap, hgap⟩ := exists_gap_of_afterWord? hr
        exact ⟨.choice lead gap r, by rw [Spelling.print, ← hgap, ← hlead]⟩
      · obtain ⟨c, hc, -⟩ := Option.map_eq_some_iff.1 h
        obtain ⟨r, hr, hcondition⟩ := Option.bind_eq_some_iff.1 hc
        obtain ⟨r', hr', -⟩ := Option.map_eq_some_iff.1 hcondition
        obtain ⟨between, hbetween⟩ := exists_gap_of_afterWord? hr
        obtain ⟨gap, hgap⟩ := exists_gap_of_afterWord? hr'
        exact ⟨.otherwise lead between gap r', by rw [Spelling.print, ← hgap, ← hbetween, ← hlead]⟩

theorem CallTag.exists_spelling {t : Text} (h : Matched CallTag.read t) : ∃ s : Spelling, s.print = t := by
  obtain ⟨a, ha⟩ := matched_iff.1 h
  obtain ⟨lead, hlead⟩ := exists_lead t
  cases hafter : after? (text "user:") (skipBlanks t) with
  | none =>
    have hnone := read_wrap_of_after? hafter []
    rw [List.append_nil, ha] at hnone
    cases hnone
  | some rest => exact ⟨.call lead rest, by rw [Spelling.print, ← after?_eq_some_iff.1 hafter, ← hlead]⟩

theorem exists_spelling_keyword {word t : Text} (hs : solid word) (hword : word ∈ structuralWords)
    (h : Matched (readKeyword word) t) : ∃ s : Spelling, s.print = t := by
  obtain ⟨a, ha⟩ := matched_iff.1 h
  obtain ⟨w, hw⟩ := (readKeyword_iff hs).1 ha
  rw [List.append_nil] at hw
  exact ⟨.word w ⟨word, hword⟩, (wrap_inj hw).symm⟩

/-- Every tag that structures a page is written in one of the ways. -/
theorem Structural.exists_spelling {t : Text} (h : Structural t) : ∃ s : Spelling, s.print = t := by
  rcases h with h | h | h | h | h
  · have hc := h.notMem LoopTag.bracketed_read
    obtain ⟨a, ha⟩ := matched_iff.1 h
    rw [← List.append_nil (wrap t), LoopTag.read_wrap [] hc] at ha
    obtain ⟨a', ha', -⟩ := Option.map_eq_some_iff.1 ha
    exact LoopTag.exists_spelling ha'
  · exact exists_spelling_keyword (by decide) (by decide) h
  · exact exists_spelling_keyword (by decide) (by decide) h
  · have hc := h.notMem BranchTag.bracketed_read
    obtain ⟨a, ha⟩ := matched_iff.1 h
    rw [← List.append_nil (wrap t), BranchTag.read_wrap [] hc] at ha
    obtain ⟨a', ha', -⟩ := Option.map_eq_some_iff.1 ha
    exact BranchTag.exists_spelling ha'
  · exact CallTag.exists_spelling h

end Recognition

/-- Every tag that structures a page is written in one of the ways, and the variables leave it alone if and only if it
holds the mark of a call or spaces stand where they are looked for. If not, its body is evaluated. -/
theorem reserved_iff_spaced {t : Text} (h : Structural t) :
    ∃ s : Spelling, s.print = t ∧ (isReservedBody t ↔ occursIn (text "user:") t ∨ s.Spaced) ∧
      ('\x7d' ∉ t → ∀ ctx rest, Variable.evaluateTags ctx (wrap t ++ rest) =
        (if isReservedBody t then pure (wrap t) else Render.valueOf ctx (trim t) >>= Render.display) >>= fun shown =>
          (shown ++ ·) <$> Variable.evaluateTags ctx rest) := by
  obtain ⟨s, rfl⟩ := h.exists_spelling
  refine ⟨s, rfl, s.reserved_iff, fun hc ctx rest => ?_⟩
  rw [Variable.evaluateTags, Variable.scan_expression hc s.print_ne_nil, replaceM]
  cases isReservedBody s.print <;> simp [Variable.evaluateTags]

section Samples

theorem reserved_iff_spaced_narrow : Structural (text "else if x") ∧
    ∃ s : Spelling, s.print = text "else if x" ∧
      (isReservedBody (text "else if x") ↔ occursIn (text "user:") (text "else if x") ∨ s.Spaced) := by
  have h : Structural (text "else if x") := by decide +kernel
  obtain ⟨s, hs, hiff, -⟩ := reserved_iff_spaced h
  exact ⟨h, s, hs, hiff⟩

/-- Tags with a tab, with a line break, with two spaces and without a condition. -/
theorem reserved_iff_spaced_wide :
    (∀ t ∈ ["if\tx", "for\nx in xs", "else  if x", "if "], Structural (text t) ∧ isReservedBody (text t) = false) ∧
    (((Pipeline.standard 10).execute 1 ⟨[], ⟨0.5, 0, 1.0⟩, 20, 0⟩ (text "\x7b\x7bif\tx\x7d\x7d")).runFrom
      (.start none)).1 = .ok [] := by
  decide +kernel

end Samples

end PageTemplate
