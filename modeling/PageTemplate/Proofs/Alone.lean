import PageTemplate.Proofs.Nesting
import PageTemplate.Proofs.Search
set_option autoImplicit false
/-!
A tag that is all of a text, and what the substitution of variables makes of it. It goes to the path that it
is, else to the variable whose name it is but for blanks, and else it is evaluated.
-/
namespace PageTemplate

open Piece Tag Render Template

theorem all_plain_between {x t y : Text} (hx : x.all isBlank) (ht : t.all isPlain) (hy : y.all isBlank) :
    (x ++ (t ++ y)).all isPlain := by
  rw [List.all_append, List.all_append, all_plain_of_blank hx, ht, all_plain_of_blank hy]
  rfl

theorem eq_of_append_closing {x body rest : Text} (hb : '\x7d' ∉ body)
    (h : x ++ '\x7d' :: '\x7d' :: rest = body ++ ['\x7d', '\x7d']) : x = body := by
  rcases List.append_eq_append_iff.1 h with ⟨z, rfl, hz⟩ | ⟨z, rfl, hz⟩
  · cases z with
    | nil => rw [List.append_nil]
    | cons c z =>
      obtain rfl : '\x7d' = c := by simpa using congrArg List.head? hz
      simp at hb
  · have hlength := congrArg List.length hz
    simp only [List.length_append, List.length_cons, List.length_nil] at hlength
    obtain rfl := List.length_eq_zero_iff.1 (show z.length = 0 by omega)
    rw [List.append_nil]

namespace Variable

variable {ctx : RenderContext} {body : Text}

/-- A key has a tag only if the body is the key between blanks. -/
theorem body_of_readKey {key : Text} {r : Unit × Text} (hb : '\x7d' ∉ body)
    (h : readKey key (wrap body) = some r) :
    ∃ lead trail : Text, lead.all isBlank ∧ trail.all isBlank ∧ body = lead ++ (key ++ trail) := by
  obtain ⟨lead, trail, hlead, htrail, hshape⟩ := readKey_shape h
  have hclosed := wrap_append body []
  rw [List.append_nil, hshape, wrap_append] at hclosed
  simp only [List.cons.injEq, true_and] at hclosed
  exact ⟨lead, trail, hlead, htrail, (eq_of_append_closing hb hclosed).symm⟩

theorem readEmpty_wrap_eq_none (hb : '\x7d' ∉ body) (hne : ¬ body.all isBlank) : readEmpty (wrap body) = none := by
  have hskip : skipBlanks body ≠ [] := fun h => hne (by
    rw [← blankRun_append_skipBlanks body, h, List.append_nil]
    exact List.all_takeWhile)
  have hopen := after?_opening_wrap body []
  rw [List.append_nil] at hopen
  have htwice (t : Text) : skipBlanks (skipBlanks t) = skipBlanks t := List.dropWhile_idempotent isBlank t
  have hclosed := after?_closing (fun h => hb (mem_of_mem_skipBlanks h)) []
  simp only [readEmpty, readKeyword, hopen, Option.bind_eq_bind, Option.bind_some, after?, htwice,
    skipBlanks_append_brace, hclosed, if_neg hskip, Option.bind_none]

/-- Where no key has the tag, it stays. -/
theorem substituteKeys_wrap {es : Entries} (ho : '\x7b' ∉ body)
    (h : ∀ key ∈ Scope.keys es, readKey key (wrap body) = none) :
    substituteKeys es (wrap body) = pure (wrap body) :=
  substituteKeys_of_untagged fun key hkey _ => (opening_readKey key).untagged_wrap_nil ho (h key hkey)

theorem keysShown_wrap {es : Entries} (ho : '\x7b' ∉ body)
    (h : ∀ key ∈ Scope.keys es, readKey key (wrap body) = none) :
    keysShown es (wrap body) = wrap body ∧ keysShowable es (wrap body) = true := by
  have hsettles := settles_substituteKeys es (wrap body)
  rw [substituteKeys_wrap ho h] at hsettles
  obtain ⟨hshowable, hshown⟩ := hsettles.unique (gives_pure (wrap body)).settles
  exact ⟨hshown rfl, hshowable⟩

theorem readPath_wrap_nil (hb : '\x7d' ∉ body) :
    readPath (wrap body) = if body.all inPath then (path? body).map fun p => (p, []) else none := by
  have hread := readPath_wrap [] hb
  rw [List.append_nil] at hread
  rw [hread]
  cases hall : body.all inPath with
  | true =>
    rw [List.all_eq_true] at hall
    rw [List.dropWhile_eq_nil_iff.2 hall, List.takeWhile_eq_self_iff.2 hall]
    rfl
  | false =>
    have hdrop : body.dropWhile inPath ≠ [] := by
      rw [ne_eq, List.dropWhile_eq_nil_iff, ← List.all_eq_true, hall]
      decide
    rw [if_neg hdrop]
    rfl

/-- A tag of a path shows what the path leads to. -/
theorem shown_wrap_of_path {o : Option Value} (hpath : readPath (wrap body) = some (body, []))
    (ho : (Value.map ctx.vars).atPath? body = .ok o) (hcalm : calm (o.getD .null).display) :
    shown ctx (wrap body) = (o.getD .null).display ∧ showable ctx (wrap body) = (o.getD .null).showable := by
  have hscan : scan readPath (wrap body) = [.tag body (wrap body)] := by
    have hread : scan readPath (wrap body ++ []) = .tag body (wrap body) :: scan readPath [] :=
      scan_of_read (wrap_ne_nil body) (by rwa [List.append_nil])
    rwa [List.append_nil, scan_nil] at hread
  have hvalue : valueAtPath ctx body = o.getD .null := by
    rw [valueAtPath, ho]
    rfl
  have hpaths : pathsShown ctx (wrap body) = (o.getD .null).display := by
    rw [pathsShown, hscan]
    simp [rewritten, hvalue]
  have hpathsShowable : pathsShowable ctx (wrap body) = (o.getD .null).showable := by
    rw [pathsShowable, hscan]
    simp [hvalue, ho, Except.isOk, Except.toBool]
  obtain ⟨hkeys, hkeysShowable⟩ := keysShown_of_calm ctx.vars hcalm
  obtain ⟨htags, htagsShowable⟩ := tagsShown_of_calm ctx hcalm
  rw [shown, showable, hpaths, hpathsShowable, hkeys, hkeysShowable, htags, htagsShowable]
  exact ⟨rfl, Bool.and_true _⟩

/-- A tag that is neither a path nor a key shows what its body evaluates to. -/
theorem shown_wrap_of_expression (hplain : body.all isPlain) (hne : ¬ body.all isBlank)
    (hpath : readPath (wrap body) = none)
    (hkeys : ∀ key ∈ Scope.keys ctx.vars, readKey key (wrap body) = none)
    (hfree : isReservedBody body = false) :
    shown ctx (wrap body) = (valueAt ctx (trim body)).display ∧
      showable ctx (wrap body) = (valueAt ctx (trim body)).showable := by
  obtain ⟨ho, hc, -⟩ := notMem_of_plain hplain
  obtain ⟨hpaths, hpathsShowable⟩ :=
    pathsShown_of_untagged (bracketed_readPath.opening.untagged_wrap_nil ho hpath) ctx
  have hempty : remove readEmpty (wrap body) = wrap body :=
    (bracketed_readEmpty.opening.untagged_wrap_nil ho (readEmpty_wrap_eq_none hc hne)).replace_eq _
  have hscan := scan_expression hc (by rintro rfl; exact hne rfl) []
  rw [List.append_nil, scan_nil] at hscan
  obtain ⟨hshown, hshowable⟩ := keysShown_wrap ho hkeys
  rw [shown, showable, hpaths, hpathsShowable, hshown, hshowable, hempty, tagsShown, tagsShowable, hscan]
  simp [rewritten, hfree]

/-- A tag that a key has shows what the keys make of it. -/
theorem shown_wrap_of_key {shownText : Text} (hb : '\x7b' ∉ body) (hpath : readPath (wrap body) = none)
    (hkeys : keysShown ctx.vars (wrap body) = shownText) (hcalm : calm shownText) :
    shown ctx (wrap body) = shownText ∧ showable ctx (wrap body) = keysShowable ctx.vars (wrap body) := by
  obtain ⟨hpaths, hpathsShowable⟩ :=
    pathsShown_of_untagged (bracketed_readPath.opening.untagged_wrap_nil hb hpath) ctx
  obtain ⟨hshown, hshowable⟩ := tagsShown_of_calm ctx hcalm
  rw [shown, showable, hpaths, hpathsShowable, hkeys, hshown, hshowable, Bool.true_and, Bool.and_true]
  exact ⟨rfl, rfl⟩

/-- On a page a tag shows what it shows alone. -/
theorem settles_substituteVariables_beside (hnamed : ctx.vars.plainlyNamed) (hplain : body.all isPlain)
    (hcalm : calm (shown ctx (wrap body))) {x y rest : Text} (hx : calm x) (hgrave : grave ∉ x ++ y) {d : Bool}
    (hy : Settles (substituteVariables ctx y) d rest) :
    Settles (substituteVariables ctx (x ++ (wrap body ++ y))) (showable ctx (wrap body) && d)
      (x ++ (shown ctx (wrap body) ++ rest)) := by
  rw [List.mem_append, not_or] at hgrave
  have hown : grave ∉ wrap body := by
    simp [wrap, Tag.opening, closing, (notMem_of_plain hplain).2.2, show grave ≠ '\x7b' ∧ grave ≠ '\x7d' by decide]
  obtain ⟨hshown, hshowable⟩ : shown ctx x = x ∧ showable ctx x = true := shown_of_calm hx
  have hleft : Sealed (shown ctx x) := by rw [hshown]; exact sealed_of_calm hx
  have hmiddle : Sealed (shown ctx (wrap body)) := sealed_of_calm hcalm
  have hrest := settles_substituteVariables ctx y
  rw [(untagged_readEscaped hgrave.2).replace_eq] at hrest
  obtain ⟨hd, hsame⟩ := hrest.unique hy
  have hall := settles_substituteVariables ctx (x ++ (wrap body ++ y))
  rw [(untagged_readEscaped (by simp [hgrave, hown])).replace_eq, (seamless_shown hnamed x hleft).2,
    (seamless_shown hnamed (wrap body) hmiddle).2, divides_showable hnamed x hleft,
    divides_showable hnamed (wrap body) hmiddle, hshown, hshowable, hd, Bool.true_and] at hall
  exact hall.congr fun h => by rw [hsame (Bool.and_eq_true_iff.1 h).2]

end Variable

/-- A body without blanks inside and without colons that is no structural word. -/
theorem isReservedBody_eq_false {body : Text} (hcolon : ':' ∉ body) (hblank : ' ' ∉ trim body)
    (hword : trim body ∉ structuralWords) : isReservedBody body = false := by
  have hcall : occursIn (text "user:") body = false := by
    rw [Bool.eq_false_iff]
    intro h
    obtain ⟨⟨before, rest⟩, hcut⟩ := Option.isSome_iff_exists.1 h
    exact hcolon (by rw [cut?_eq_some hcut]; simp [text])
  have hstart : (["if ", "else if ", "for "].any fun s => (after? (text s) (trim body)).isSome) = false := by
    rw [List.any_eq_false]
    intro s hs h
    obtain ⟨rest, hrest⟩ := Option.isSome_iff_exists.1 h
    have hmem : ' ' ∈ text s := by
      simp only [List.mem_cons, List.not_mem_nil, or_false] at hs
      rcases hs with rfl | rfl | rfl <;> decide
    exact hblank (by rw [after?_eq_some_iff.1 hrest]; exact List.mem_append_left _ hmem)
  simp only [isReservedBody, hcall, hstart, Bool.or_false, Bool.false_or]
  simpa using hword

/-- A text that a tag can only evaluate. One of its characters keeps it apart from the words that structure
a page. -/
structure Formula (t : Text) : Prop where
  plain : t.all isPlain
  unspaced : ∀ c ∈ t, isBlank c = false
  colonless : ':' ∉ t
  wordless : ∃ c ∈ t, ∀ word ∈ structuralWords, c ∉ word

namespace Formula

open Variable

variable {t lead trail : Text} (h : Formula t) (hlead : lead.all isBlank) (htrail : trail.all isBlank)
include h hlead htrail

theorem trim_body : trim (lead ++ (t ++ trail)) = t := by
  rw [trim_between hlead htrail, trim_of_notBlank h.unspaced]

theorem plain_body : (lead ++ (t ++ trail)).all isPlain := all_plain_between hlead h.plain htrail

theorem isReservedBody_body : isReservedBody (lead ++ (t ++ trail)) = false := by
  refine isReservedBody_eq_false ?_ ?_ ?_
  · simp only [List.mem_append, not_or]
    exact ⟨notMem_of_blank hlead (by decide), h.colonless, notMem_of_blank htrail (by decide)⟩
  · rw [h.trim_body hlead htrail]
    exact fun hm => absurd (h.unspaced ' ' hm) (by decide)
  · rw [h.trim_body hlead htrail]
    obtain ⟨c, hc, hwords⟩ := h.wordless
    exact fun hm => hwords t hm hc

/-- Only a variable that has the text for its name, blanks aside, has the tag. -/
theorem readKey_body {key : Text} (hkey : trim key ≠ t) : readKey key (wrap (lead ++ (t ++ trail))) = none := by
  cases hread : readKey key (wrap (lead ++ (t ++ trail))) with
  | none => rfl
  | some r =>
    obtain ⟨x, y, hx, hy, hbody⟩ := body_of_readKey (notMem_of_plain (h.plain_body hlead htrail)).2.1 hread
    have htrim := h.trim_body hlead htrail
    rw [hbody, trim_between hx hy] at htrim
    exact absurd htrim hkey

theorem settles_substituteVariables {ctx : RenderContext} (hpath : readPath (wrap (lead ++ (t ++ trail))) = none)
    (hkeys : ∀ key ∈ Scope.keys ctx.vars, trim key ≠ t) :
    Settles (substituteVariables ctx (wrap (lead ++ (t ++ trail)))) (valueAt ctx t).showable
      (valueAt ctx t).display := by
  have hplain := h.plain_body hlead htrail
  have hsolid : ¬ (lead ++ (t ++ trail)).all isBlank := by
    obtain ⟨c, hc, -⟩ := h.wordless
    intro hall
    have hblank := List.all_eq_true.1 hall c (List.mem_append_right _ (List.mem_append_left _ hc))
    rw [h.unspaced c hc] at hblank
    cases hblank
  have hnone := fun key hm => h.readKey_body hlead htrail (hkeys key hm)
  obtain ⟨hshown, hshowable⟩ :=
    shown_wrap_of_expression hplain hsolid hpath hnone (h.isReservedBody_body hlead htrail)
  rw [h.trim_body hlead htrail] at hshown hshowable
  rw [← hshown, ← hshowable]
  exact settles_substituteVariables_wrap hplain

end Formula

end PageTemplate
