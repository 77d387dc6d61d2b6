import PageTemplate.Proofs.Template
import PageTemplate.Proofs.Reader
set_option autoImplicit false
/-!
What the readers of loops and of conditionals make of the tags of a page, whatever blanks stand in them.
-/
namespace PageTemplate

theorem isWordChar_of_isBlank {c : Char} (h : isBlank c) : isWordChar c = false := by
  let blanks := blankRanges.flatMap fun r => (List.range (r.2 + 1 - r.1)).map (r.1 + ·)
  have hall : ∀ n ∈ blanks, isWordChar (Char.ofNat n) = false := by decide +kernel
  have hm : c.toNat ∈ blanks := by
    simp only [isBlank, inRanges, List.any_eq_true, Bool.and_eq_true, decide_eq_true_eq] at h
    obtain ⟨r, hr, hlo, hhi⟩ := h
    simp only [blanks, List.mem_flatMap, List.mem_map, List.mem_range]
    exact ⟨r, hr, c.toNat - r.1, by omega, by omega⟩
  have := hall _ hm
  rwa [Char.ofNat_toNat] at this

theorem isBlank_of_isWordChar {c : Char} (h : isWordChar c) : isBlank c = false := by
  cases hb : isBlank c with
  | false => rfl
  | true => simp [isWordChar_of_isBlank hb] at h

theorem startsBlank_append {x : Text} (hx : x ≠ [] ∧ x.all isBlank) (y : Text) :
    startsBlank (x ++ y) = true := by
  obtain ⟨c, x, rfl⟩ := List.exists_cons_of_ne_nil hx.1
  simp_all [startsBlank]

namespace Template

/-- Does the text begin with something that is no blank? -/
def solid (x : Text) : Bool := x.head?.any (!isBlank ·)

theorem skipBlanks_of_solid {x : Text} (h : solid x) : skipBlanks x = x := by
  cases x with
  | nil => rfl
  | cons c cs => exact skipBlanks_cons (by simpa [solid] using h) cs

theorem solid_append {x : Text} (h : solid x) (y : Text) : solid (x ++ y) := by
  cases x with
  | nil => simp [solid] at h
  | cons c cs => exact h

theorem WordTag.trim_body (w : WordTag) {word : Text} (hs : solid word) (he : trim word = word) :
    trim (w.body word) = word := by
  rw [body, List.append_assoc, trim_append w.lead.2, trim, skipBlanks_of_solid (solid_append hs _),
    dropEndWhile_append_of_all w.trail.2]
  rwa [trim, skipBlanks_of_solid hs] at he

theorem WordTag.skipBlanks_body (w : WordTag) {word : Text} (hs : solid word) :
    skipBlanks (w.body word) = word ++ w.trail.1 := by
  rw [body, List.append_assoc, skipBlanks_append w.lead.2, skipBlanks_of_solid (solid_append hs _)]

/-- What ends in a source keeps everything in front of it when trimmed. -/
theorem trim_append_source {x : Text} (hx : solid x) (lead : Blanks) (s : Source) :
    trim (lead.1 ++ (x ++ s.1)) = x ++ dropEndWhile isBlank s.1 := by
  rw [trim_append lead.2, trim, skipBlanks_of_solid (solid_append hx _), dropEndWhile_append s.2.2]

theorem skipBlanks_append_solid {x : Text} (hx : solid x) (lead : Blanks) (y : Text) :
    skipBlanks (lead.1 ++ (x ++ y)) = x ++ y := by
  rw [skipBlanks_append lead.2, skipBlanks_of_solid (solid_append hx _)]

theorem afterWord?_append (word : Text) (gap : Gap) (y : Text) :
    Tag.afterWord? word (word ++ (gap.1 ++ y)) = some (skipBlanks y) := by
  simp only [Tag.afterWord?, after?_append, Option.bind_eq_bind, Option.bind_some,
    startsBlank_append gap.2, skipBlanks_append gap.2.2, if_pos]

theorem afterWord?_eq_none {word t : Text} (h : after? word t = none) : Tag.afterWord? word t = none := by
  simp [Tag.afterWord?, h]

theorem IfTag.body_eq (i : IfTag) : i.body = i.lead.1 ++ ((text "if" ++ i.gap.1) ++ i.condition.1) := by
  simp only [body, List.append_assoc]

theorem ElseIfTag.body_eq (e : ElseIfTag) : e.body =
    e.lead.1 ++ ((text "else" ++ (e.test.lead.1 ++ (text "if" ++ e.test.gap.1))) ++ e.test.condition.1) := by
  simp only [body, e.test.body_eq, List.append_assoc]

end Template

open Template

theorem LoopTag.ofBody?_word (w : WordTag) {word : Text} (hs : solid word) (he : trim word = word)
    (hf : ∀ y, after? (text "for") (word ++ y) = none) :
    ofBody? (w.body word) =
      if word = text "endfor" then some .closer
      else if word = text "empty" then some .alternative
      else none := by
  rw [ofBody?, w.trim_body hs he, w.skipBlanks_body hs, afterWord?_eq_none (hf _)]
  rfl

theorem LoopTag.ofBody?_if (i : IfTag) : ofBody? i.body = none := by
  have hsolid : solid (text "if" ++ i.gap.1) := solid_append (by decide) _
  rw [i.body_eq, ofBody?, trim_append_source hsolid, skipBlanks_append_solid hsolid,
    afterWord?_eq_none rfl, if_neg nofun, if_neg nofun]
  rfl

theorem LoopTag.ofBody?_elseIf (e : ElseIfTag) : ofBody? e.body = none := by
  have hsolid : solid (text "else" ++ (e.test.lead.1 ++ (text "if" ++ e.test.gap.1))) :=
    solid_append (by decide) _
  rw [e.body_eq, ofBody?, trim_append_source hsolid, skipBlanks_append_solid hsolid,
    afterWord?_eq_none rfl, if_neg nofun, if_neg nofun]
  rfl

theorem BranchTag.ofBody?_else (w : WordTag) : ofBody? (w.body (text "else")) = some .elseTag := by
  rw [ofBody?, w.trim_body (by decide) (by decide), if_pos rfl]

theorem BranchTag.ofBody?_endif (w : WordTag) : ofBody? (w.body (text "endif")) = some .endTag := by
  rw [ofBody?, w.trim_body (by decide) (by decide), if_neg (by decide), if_pos rfl]

theorem BranchTag.condition?_append (gap : Gap) (t : Text) :
    condition? (text "if" ++ (gap.1 ++ t)) = some (trim t) := by
  rw [condition?, afterWord?_append, Option.map_some, trim_skipBlanks]

/-- The tag that opens a conditional, whatever its condition is. -/
theorem BranchTag.ofBody?_ifWord (lead : Blanks) (gap : Gap) (t : Text) :
    ofBody? (lead.1 ++ (text "if" ++ (gap.1 ++ t))) = some (.ifTag (trim t)) := by
  have hsolid : solid (text "if" ++ (gap.1 ++ t)) := solid_append (by decide) _
  have htrim : trim (lead.1 ++ (text "if" ++ (gap.1 ++ t))) =
      'i' :: dropEndWhile isBlank ('f' :: (gap.1 ++ t)) := by
    rw [trim_append lead.2, trim, skipBlanks_of_solid hsolid]
    exact dropEndWhile_append_cons (by decide) [] _
  have hword : ∀ y, 'i' :: y ≠ text "else" ∧ 'i' :: y ≠ text "endif" := fun y => by simp [text]
  rw [ofBody?, htrim, if_neg (hword _).1, if_neg (hword _).2, skipBlanks_append lead.2, skipBlanks_of_solid hsolid,
    condition?_append]

theorem BranchTag.ofBody?_elseIfWords (lead : Blanks) (between gap : Gap) (t : Text) :
    ofBody? (lead.1 ++ (text "else" ++ (between.1 ++ (text "if" ++ (gap.1 ++ t))))) = some (.elseIf (trim t)) := by
  have hsolid : solid (text "else" ++ (between.1 ++ (text "if" ++ (gap.1 ++ t)))) := solid_append (by decide) _
  have htrim : trim (lead.1 ++ (text "else" ++ (between.1 ++ (text "if" ++ (gap.1 ++ t))))) =
      (text "else" ++ between.1) ++ 'i' :: dropEndWhile isBlank ('f' :: (gap.1 ++ t)) := by
    rw [trim_append lead.2, trim, skipBlanks_of_solid hsolid, ← List.append_assoc]
    exact dropEndWhile_append_cons (by decide) _ _
  have hlong : (text "else" ++ between.1) ++ 'i' :: dropEndWhile isBlank ('f' :: (gap.1 ++ t)) ≠ text "else" := by
    intro h
    have := congrArg List.length h
    simp [text] at this
  have hend : (text "else" ++ between.1) ++ 'i' :: dropEndWhile isBlank ('f' :: (gap.1 ++ t)) ≠ text "endif" := by
    simp [text]
  have hno : condition? (text "else" ++ (between.1 ++ (text "if" ++ (gap.1 ++ t)))) = none := by
    rw [condition?, afterWord?_eq_none rfl, Option.map_none]
  rw [ofBody?, htrim, if_neg hlong, if_neg hend, skipBlanks_append lead.2, skipBlanks_of_solid hsolid, hno,
    afterWord?_append, skipBlanks_of_solid (solid_append (by decide) _), Option.bind_some, condition?_append]
  rfl

theorem BranchTag.ofBody?_if (i : IfTag) : ofBody? i.body = some (.ifTag (trim i.condition.1)) := by
  rw [i.body_eq, List.append_assoc]
  exact ofBody?_ifWord i.lead i.gap i.condition.1

theorem BranchTag.ofBody?_elseIf (e : ElseIfTag) :
    ofBody? e.body = some (.elseIf (trim e.test.condition.1)) := by
  rw [e.body_eq]
  simp only [List.append_assoc]
  exact ofBody?_elseIfWords e.lead ⟨e.test.lead.1, e.parted, e.test.lead.2⟩ e.test.gap e.test.condition.1

/-- The tags of one word. -/
theorem Tag.readKeyword_iff {word t rest : Text} (hs : solid word) :
    readKeyword word t = some ((), rest) ↔ ∃ w : WordTag, t = wrap (w.body word) ++ rest := by
  constructor
  · intro h
    obtain ⟨lead, trail, hlead, htrail, rfl⟩ := readKeyword_shape h
    exact ⟨⟨⟨lead, hlead⟩, ⟨trail, htrail⟩⟩, rfl⟩
  · rintro ⟨w, rfl⟩
    have hskip : skipBlanks (w.body word ++ '\x7d' :: '\x7d' :: rest) =
        word ++ (w.trail.1 ++ '\x7d' :: '\x7d' :: rest) := by
      rw [skipBlanks_append_brace, w.skipBlanks_body hs, List.append_assoc]
    have htrail : skipBlanks (w.trail.1 ++ '\x7d' :: '\x7d' :: rest) = '\x7d' :: '\x7d' :: rest := by
      rw [skipBlanks_append w.trail.2, skipBlanks_cons (by decide)]
    simp [readKeyword, after?_opening_wrap, hskip, after?_append, htrail, closing, after?]

section Bodies

theorem isPlain_of_isBlank {c : Char} (h : isBlank c) : isPlain c := by
  have hne : ∀ d, isBlank d = false → c ≠ d := by
    rintro d hd rfl
    simp [h] at hd
  simp [isPlain, hne _ (show isBlank '\x7b' = false by decide), hne _ (show isBlank '\x7d' = false by decide),
    hne _ (show isBlank Variable.grave = false by decide)]

theorem isPlain_of_isWordChar {c : Char} (h : isWordChar c) : isPlain c := by
  have hne : ∀ d, isWordChar d = false → c ≠ d := by
    rintro d hd rfl
    simp [h] at hd
  simp [isPlain, hne _ (show isWordChar '\x7b' = false by decide),
    hne _ (show isWordChar '\x7d' = false by decide), hne _ (show isWordChar Variable.grave = false by decide)]

theorem all_plain_of_blank {x : Text} (h : x.all isBlank) : x.all isPlain :=
  List.all_eq_true.2 fun c hc => isPlain_of_isBlank (List.all_eq_true.1 h c hc)

theorem all_plain_of_word {x : Text} (h : x.all isWordChar) : x.all isPlain :=
  List.all_eq_true.2 fun c hc => isPlain_of_isWordChar (List.all_eq_true.1 h c hc)

theorem notMem_of_plain {x : Text} (h : x.all isPlain) :
    '\x7b' ∉ x ∧ '\x7d' ∉ x ∧ Variable.grave ∉ x := by
  rw [List.all_eq_true] at h
  refine ⟨fun hc => ?_, fun hc => ?_, fun hc => ?_⟩ <;> exact absurd (h _ hc) (by decide)

theorem Template.WordTag.plain_body (w : WordTag) {word : Text} (h : word.all isPlain) :
    (w.body word).all isPlain := by
  simp only [body, List.all_append, all_plain_of_blank w.lead.2, h, all_plain_of_blank w.trail.2,
    Bool.and_self]

theorem Template.IfTag.plain_body (i : IfTag) : i.body.all isPlain := by
  simp only [body, List.all_append, all_plain_of_blank i.lead.2, all_plain_of_blank i.gap.2.2,
    i.condition.2.1, Bool.and_true, Bool.true_and]
  decide

theorem Template.ElseIfTag.plain_body (e : ElseIfTag) : e.body.all isPlain := by
  simp only [body, List.all_append, all_plain_of_blank e.lead.2, e.test.plain_body, Bool.and_true,
    Bool.true_and]
  decide

theorem Template.SecondName.plain_text (n : SecondName) : n.text.all isPlain := by
  simp only [SecondName.text, List.all_append, List.all_cons, all_plain_of_blank n.before.2,
    all_plain_of_blank n.after.2, all_plain_of_word n.name.2.2, Bool.and_true, Bool.true_and]
  decide

theorem Template.ForTag.plain_body (f : ForTag) : f.body.all isPlain := by
  have hsecond : (f.second.elim [] SecondName.text).all isPlain := by
    cases f.second with
    | none => rfl
    | some n => exact n.plain_text
  simp only [body, List.all_append, all_plain_of_blank f.lead.2, all_plain_of_blank f.gap.2.2,
    all_plain_of_word f.first.2.2, hsecond, all_plain_of_blank f.before.2.2,
    all_plain_of_blank f.after.2.2, f.source.2.1, Bool.and_true, Bool.true_and]
  decide

end Bodies

section Loops

theorem spanWord_append (w : Word) {y : Text} (hy : ∀ c ∈ y.head?, isWordChar c = false) :
    spanWord (w.1 ++ y) = (w.1, y) := by
  have hw := List.all_eq_true.1 w.2.2
  rw [spanWord, List.takeWhile_append_of_pos hw, List.dropWhile_append_of_pos hw]
  cases y with
  | nil => simp
  | cons c cs => simp [hy c rfl]

theorem solid_word (w : Word) : solid w.1 := by
  obtain ⟨_ | ⟨c, cs⟩, hne, hall⟩ := w
  · exact absurd rfl hne
  · have hc : isWordChar c := List.all_eq_true.1 hall c (by simp)
    simp [solid, isBlank_of_isWordChar hc]

/-- No word goes on in blanks. -/
theorem head?_blanks (b : Blanks) {y : Text} (hy : ∀ c ∈ y.head?, isWordChar c = false) :
    ∀ c ∈ (b.1 ++ y).head?, isWordChar c = false := by
  obtain ⟨_ | ⟨d, ds⟩, hall⟩ := b
  · exact hy
  · intro c hc
    obtain rfl : d = c := by simpa using hc
    exact isWordChar_of_isBlank (List.all_eq_true.1 hall d (by simp))

theorem head?_gap (g : Gap) (y : Text) : ∀ c ∈ (g.1 ++ y).head?, isWordChar c = false := by
  obtain ⟨_ | ⟨d, ds⟩, hne, hall⟩ := g
  · exact absurd rfl hne
  · intro c hc
    obtain rfl : d = c := by simpa using hc
    exact isWordChar_of_isBlank (List.all_eq_true.1 hall d (by simp))

theorem LoopTag.readNames_one (w : Word) (before : Gap) (y : Text) :
    readNames (w.1 ++ (before.1 ++ (text "in" ++ y))) = some ([w.1], before.1 ++ (text "in" ++ y)) := by
  have hempty : w.1.isEmpty = false := by simpa using w.2.1
  have hskip : skipBlanks (before.1 ++ (text "in" ++ y)) = 'i' :: 'n' :: y := by
    rw [skipBlanks_append before.2.2, skipBlanks_of_solid rfl]
    rfl
  simp only [readNames, spanWord_append w (head?_gap before _), hempty, hskip]
  rfl

theorem LoopTag.readNames_two (w : Word) (n : SecondName) (before : Gap) (y : Text) :
    readNames (w.1 ++ (n.text ++ (before.1 ++ y))) = some ([w.1, n.name.1], before.1 ++ y) := by
  have hempty : w.1.isEmpty = false := by simpa using w.2.1
  have hempty' : n.name.1.isEmpty = false := by simpa using n.name.2.1
  have hcomma : n.text ++ (before.1 ++ y) =
      n.before.1 ++ ',' :: (n.after.1 ++ (n.name.1 ++ (before.1 ++ y))) := by
    simp [SecondName.text]
  have hskip : skipBlanks (n.text ++ (before.1 ++ y)) =
      ',' :: (n.after.1 ++ (n.name.1 ++ (before.1 ++ y))) := by
    rw [hcomma, skipBlanks_append n.before.2, skipBlanks_cons (by decide)]
  have hskip' : skipBlanks (n.after.1 ++ (n.name.1 ++ (before.1 ++ y))) =
      n.name.1 ++ (before.1 ++ y) := by
    rw [skipBlanks_append n.after.2, skipBlanks_of_solid (solid_append (solid_word _) _)]
  have hfirst : spanWord (w.1 ++ (n.text ++ (before.1 ++ y))) = (w.1, n.text ++ (before.1 ++ y)) := by
    rw [hcomma]
    refine spanWord_append w (head?_blanks n.before fun c hc => ?_)
    obtain rfl : ',' = c := by simpa using hc
    decide
  simp only [readNames, hfirst, hempty, hskip, hskip', spanWord_append n.name (head?_gap before y),
    hempty']
  rfl

theorem LoopTag.readNames_forTag (f : ForTag) (y : Text) :
    readNames (f.first.1 ++ (f.second.elim [] SecondName.text ++ (f.before.1 ++ (text "in" ++ y)))) =
      some (f.names, f.before.1 ++ (text "in" ++ y)) := by
  obtain ⟨_, _, first, second, before, _, _⟩ := f
  cases second with
  | none => exact readNames_one first before y
  | some n => exact readNames_two first n before (text "in" ++ y)

theorem LoopTag.readCollection_append (gap : Gap) (s : Source) :
    readCollection (gap.1 ++ s.1) = some (trim s.1) := by
  have hne : (trim s.1).isEmpty = false := by simpa using trim_ne_nil s.2.2
  rw [readCollection, if_pos (startsBlank_append gap.2 _), trim_append gap.2.2, hne]
  rfl

theorem LoopTag.ofBody?_for (f : ForTag) :
    ofBody? f.body = some (.opener f.names (trim f.source.1)) := by
  let x := text "for" ++ (f.gap.1 ++ (f.first.1 ++ (f.second.elim [] SecondName.text ++
    (f.before.1 ++ (text "in" ++ f.after.1)))))
  have hbody : f.body = f.lead.1 ++ (x ++ f.source.1) := by simp only [ForTag.body, x, List.append_assoc]
  have htrim : trim f.body = x ++ dropEndWhile isBlank f.source.1 := by
    rw [hbody, trim_append_source (solid_append (by decide) _)]
  have hskip : skipBlanks f.body = text "for" ++ (f.gap.1 ++ (f.first.1 ++
      (f.second.elim [] SecondName.text ++ (f.before.1 ++ (text "in" ++ (f.after.1 ++ f.source.1)))))) := by
    rw [hbody, skipBlanks_append_solid (solid_append (by decide) _)]
    simp only [List.append_assoc]
  have hafter : Tag.afterWord? (text "for") (skipBlanks f.body) = some (f.first.1 ++
      (f.second.elim [] SecondName.text ++ (f.before.1 ++ (text "in" ++ (f.after.1 ++ f.source.1))))) := by
    rw [hskip, afterWord?_append, skipBlanks_of_solid (solid_append (solid_word _) _)]
  have hin : after? (text "in") (skipBlanks (f.before.1 ++ (text "in" ++ (f.after.1 ++ f.source.1)))) =
      some (f.after.1 ++ f.source.1) := by
    rw [skipBlanks_append f.before.2.2, skipBlanks_of_solid rfl, after?_append]
  rw [ofBody?, if_neg (by rw [htrim]; nofun), if_neg (by rw [htrim]; nofun), hafter]
  simp only [Option.bind_eq_bind, Option.bind_some, readNames_forTag, startsBlank_append f.before.2,
    if_pos, hin, readCollection_append]

end Loops

end PageTemplate
