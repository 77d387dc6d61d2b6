import PageTemplate.Proofs.Composition
import PageTemplate.Proofs.Spelling
import PageTemplate.Proofs.Stripping
set_option autoImplicit false
/-!
Break and continue tags in the expansions of loops. A loop looks for them in the renderings of its body: one with a
break tag is the last, and is kept without its break tags, and one with a continue tag alone is dropped. So a tag of
either kind is left over where one rendering has both kinds, and a new one can come about from stretches of text that
the loop puts side by side.
-/
namespace PageTemplate

namespace Piece

variable {α : Type} {read : TagReader α}

/-- The texts between the tags. -/
def stretches : List (Piece α) → List Text
  | [] => [[]]
  | .char c :: ps => (stretches ps).modifyHead (c :: ·)
  | .tag _ _ :: ps => [] :: stretches ps

theorem exists_stretches_eq_cons (ps : List (Piece α)) : ∃ t ts, stretches ps = t :: ts := by
  induction ps with
  | nil => exact ⟨[], [], rfl⟩
  | cons p ps ih =>
    cases p with
    | char c =>
      obtain ⟨t, ts, h⟩ := ih
      exact ⟨c :: t, ts, by rw [stretches, h]; rfl⟩
    | tag a s => exact ⟨[], stretches ps, rfl⟩

theorem flatten_stretches (ps : List (Piece α)) : (stretches ps).flatten = kept ps := by
  induction ps with
  | nil => rfl
  | cons p ps ih =>
    cases p with
    | char c =>
      obtain ⟨t, ts, h⟩ := exists_stretches_eq_cons ps
      rw [stretches, kept_char, ← ih, h]
      rfl
    | tag a s => rw [stretches, kept_tag, ← ih, List.flatten_cons, List.nil_append]

theorem stretches_chars_append (t : Text) (ps : List (Piece α)) :
    stretches (chars t ++ ps) = (stretches ps).modifyHead (t ++ ·) := by
  induction t with
  | nil => exact (congrFun List.modifyHead_id (stretches ps)).symm
  | cons c cs ih =>
    rw [chars_cons, List.cons_append, stretches, ih, List.modifyHead_modifyHead]
    rfl

theorem chars_prefix_of_stretches_eq {ps : List (Piece α)} {t : Text} {ts : List Text}
    (h : stretches ps = t :: ts) : chars t <+: ps := by
  induction ps generalizing t ts with
  | nil =>
    obtain ⟨rfl, -⟩ := List.cons.inj h
    exact List.nil_prefix
  | cons p ps ih =>
    cases p with
    | char c =>
      obtain ⟨u, us, hu⟩ := exists_stretches_eq_cons ps
      rw [stretches, hu, List.modifyHead_cons] at h
      obtain ⟨rfl, -⟩ := List.cons.inj h
      exact List.cons_prefix_cons.2 ⟨rfl, ih hu⟩
    | tag a s =>
      obtain ⟨rfl, -⟩ := List.cons.inj h
      exact List.nil_prefix

/-- The characters of a stretch stand in a row. -/
theorem chars_infix_of_mem_stretches {ps : List (Piece α)} {t : Text} (h : t ∈ stretches ps) : chars t <:+: ps := by
  induction ps with
  | nil =>
    obtain rfl : t = [] := by simpa [stretches] using h
    exact List.nil_infix
  | cons p ps ih =>
    have hlater : t ∈ stretches ps → chars t <:+: p :: ps := fun h => (ih h).trans (List.suffix_cons p ps).isInfix
    cases p with
    | char c =>
      obtain ⟨u, us, hu⟩ := exists_stretches_eq_cons ps
      rw [stretches, hu, List.modifyHead_cons] at h
      rcases List.mem_cons.1 h with rfl | hmem
      · exact (List.cons_prefix_cons.2 ⟨rfl, chars_prefix_of_stretches_eq hu⟩).isInfix
      · exact hlater (hu ▸ List.mem_cons_of_mem u hmem)
    | tag a s =>
      rcases List.mem_cons.1 h with rfl | hmem
      · exact List.nil_infix
      · exact hlater hmem

end Piece

namespace Tag

open Piece

variable {α : Type} {read : TagReader α}

/-- A tag occurs in a text if and only if its source stands in the text. -/
theorem Bracketed.occurs_iff (hr : Bracketed read) {t : Text} :
    occurs read t ↔ ∃ m a, read m = some (a, []) ∧ m <:+: t := by
  constructor
  · intro h
    by_contra hnone
    refine Bool.eq_false_iff.1 (occurs_eq_false_iff.2 fun u hu _ => ?_) h
    cases hread : read u with
    | none => rfl
    | some r =>
      obtain ⟨body, hb, rfl⟩ := hr.shape hread
      refine absurd ⟨wrap body, r.1, ?_, ?_⟩ hnone
      · have hframe := hr.frame r.2 hb
        rw [hread] at hframe
        obtain ⟨r', hr', heq⟩ := Option.map_eq_some_iff.1 hframe.symm
        have hself := hr.frame [] hb
        rw [List.append_nil, hr'] at hself
        rw [hr', ← (Prod.mk.inj heq).1, Option.some.inj hself]
      · exact (List.prefix_append _ _).isInfix.trans hu.isInfix
  · rintro ⟨m, a, hm, x, y, rfl⟩
    by_contra hnone
    have huntagged := occurs_eq_false_iff.1 (Bool.eq_false_iff.2 hnone)
    obtain ⟨body, hb, rfl⟩ := hr.shape hm
    have hnil := huntagged (wrap body ++ y) ⟨x, by simp⟩ (by simp [wrap_ne_nil])
    rw [List.append_nil] at hm
    rw [hr.frame y hb, hm] at hnil
    cases hnil

/-- No tag occurs between the tags. -/
theorem Bracketed.not_occurs_stretch (hr : Bracketed read) {r t : Text} (h : t ∈ stretches (scan read r)) :
    ¬ occurs read t := by
  intro hoccurs
  obtain ⟨m, a, hm, x, y, rfl⟩ := hr.occurs_iff.1 hoccurs
  obtain ⟨ps, qs, heq⟩ := chars_infix_of_mem_stretches h
  obtain ⟨body, hb, rfl⟩ := hr.shape hm
  have hscan : scan read r = (ps ++ chars x) ++ .char '\x7b' ::
      (chars ('\x7b' :: (body ++ closing)) ++ (chars y ++ qs)) := by
    rw [← heq, List.append_nil, wrap_eq_cons]
    simp only [chars_append, chars_cons, List.append_assoc, List.cons_append]
  have hnone := read_of_scan_eq hscan
  rw [join_append, join_append, join_chars, join_chars, ← List.cons_append, ← wrap_eq_cons, hr.frame _ hb] at hnone
  rw [List.append_nil] at hm
  rw [hm] at hnone
  cases hnone

end Tag

namespace Loop

open Piece Tag Template

section Marks

/-- A break tag or a continue tag. -/
def IsControl (m : Text) : Prop := readBreak m = some ((), []) ∨ readContinue m = some ((), [])

/-- A text in which a loop would find a break tag or a continue tag. -/
def Controlled (t : Text) : Prop := occurs readBreak t ∨ occurs readContinue t

instance (t : Text) : Decidable (Controlled t) := inferInstanceAs (Decidable (_ ∨ _))

/-- A break tag or a continue tag is made up of the end of one text and the beginning of the texts behind it. -/
def Joins (ts : List Text) : Prop :=
  ∃ xs ys u z, ts = xs ++ ys ∧ u ≠ [] ∧ z ≠ [] ∧ u <:+ xs.flatten ∧ z <+: ys.flatten ∧ IsControl (u ++ z)

theorem bracketed_readBreak : Bracketed readBreak := bracketed_readKeyword (by decide)

theorem bracketed_readContinue : Bracketed readContinue := bracketed_readKeyword (by decide)

theorem controlled_iff {t : Text} : Controlled t ↔ ∃ m, IsControl m ∧ m <:+: t := by
  rw [Controlled, bracketed_readBreak.occurs_iff, bracketed_readContinue.occurs_iff]
  constructor
  · rintro (⟨m, a, hm, ht⟩ | ⟨m, a, hm, ht⟩)
    · exact ⟨m, .inl hm, ht⟩
    · exact ⟨m, .inr hm, ht⟩
  · rintro ⟨m, hm | hm, ht⟩
    · exact .inl ⟨m, (), hm, ht⟩
    · exact .inr ⟨m, (), hm, ht⟩

theorem IsControl.ne_nil {m : Text} (h : IsControl m) : m ≠ [] := by
  rintro rfl
  rcases h with h | h <;> exact absurd h (by decide)

/-- Side by side, texts hold a control tag if one of them does, or if one comes about where they meet. -/
theorem controlled_flatten_iff {ts : List Text} :
    Controlled ts.flatten ↔ (∃ t ∈ ts, Controlled t) ∨ Joins ts := by
  constructor
  · rw [controlled_iff]
    rintro ⟨m, hm, ht⟩
    induction ts with
    | nil => exact absurd (List.infix_nil.1 ht) hm.ne_nil
    | cons t ts ih =>
      have hlater : m <:+: ts.flatten → (∃ u ∈ t :: ts, Controlled u) ∨ Joins (t :: ts) := by
        intro h
        rcases ih h with ⟨u, hu, hc⟩ | ⟨xs, ys, u, z, rfl, hu, hz, hsuffix, hprefix, hc⟩
        · exact .inl ⟨u, List.mem_cons_of_mem t hu, hc⟩
        · exact .inr ⟨t :: xs, ys, u, z, rfl, hu, hz, hsuffix.trans (List.suffix_append _ _), hprefix, hc⟩
      rcases List.infix_append_iff.1 ht with h | h | ⟨u, z, rfl, hsuffix, hprefix⟩
      · exact .inl ⟨t, List.mem_cons_self, controlled_iff.2 ⟨m, hm, h⟩⟩
      · exact hlater h
      · by_cases hu : u = []
        · subst hu
          exact hlater hprefix.isInfix
        by_cases hz : z = []
        · subst hz
          rw [List.append_nil] at hm
          exact .inl ⟨t, List.mem_cons_self, controlled_iff.2 ⟨u, hm, hsuffix.isInfix⟩⟩
        · exact .inr ⟨[t], ts, u, z, rfl, hu, hz, by simpa using hsuffix, hprefix, hm⟩
  · rintro (⟨t, ht, hc⟩ | ⟨xs, ys, u, z, rfl, -, -, ⟨x, hx⟩, ⟨y, hy⟩, hc⟩)
    · obtain ⟨m, hm, hinfix⟩ := controlled_iff.1 hc
      exact controlled_iff.2 ⟨m, hm, hinfix.trans (List.infix_of_mem_flatten ht)⟩
    · exact controlled_iff.2 ⟨u ++ z, hc, x, y, by simp [← hx, ← hy]⟩

/-- The search for the tags of one word passes over a tag of another. -/
theorem inert_of_readKeyword {word word' m : Text} (hne : word ≠ word') (hs : solid word) (hs' : solid word')
    (he : trim word = word) (he' : trim word' = word') (hp : word.all isPlain) (hp' : word'.all isPlain)
    (h : readKeyword word' m = some ((), [])) : Inert (readKeyword word) m := by
  obtain ⟨w, rfl⟩ := (readKeyword_iff hs').1 h
  obtain ⟨ho, hc, -⟩ := notMem_of_plain (w.plain_body hp')
  rw [List.append_nil]
  refine (bracketed_readKeyword (notMem_of_plain hp).2.1).inert_wrap ho hc ?_
  cases hread : readKeyword word (wrap (w.body word')) with
  | none => rfl
  | some r =>
    obtain ⟨w', heq⟩ := (readKeyword_iff hs).1 hread
    have hbody := (wrap_append_inj hc (notMem_of_plain (w'.plain_body hp)).2.1
      ((List.append_nil _).trans heq)).1
    have htrim := congrArg trim hbody
    rw [w.trim_body hs' he', w'.trim_body hs he] at htrim
    exact absurd htrim.symm hne

theorem inert_break {m : Text} (h : readContinue m = some ((), [])) : Inert readBreak m :=
  inert_of_readKeyword (by decide) (by decide) (by decide) (by decide) (by decide) (by decide) (by decide) h

theorem inert_continue {m : Text} (h : readBreak m = some ((), [])) : Inert readContinue m :=
  inert_of_readKeyword (by decide) (by decide) (by decide) (by decide) (by decide) (by decide) (by decide) h

theorem occurs_append_of_inert {α : Type} {read : TagReader α} {m : Text} (h : Inert read m) (t : Text) :
    occurs read (m ++ t) = occurs read t := by
  simp [occurs, h t, chars, isTag]

/-- The continue tags of a text stand between its break tags. -/
theorem exists_stretch_of_occurs {r : Text} (h : occurs readContinue r) :
    ∃ t ∈ stretches (scan readBreak r), occurs readContinue t := by
  induction hn : r.length using Nat.strongRecOn generalizing r with
  | ind n ih =>
    subst hn
    -- no tag of either kind begins inside one of the other, so each is passed whole in the search for the other
    cases hcontinue : readContinue r with
    | some found =>
      obtain ⟨w, rfl⟩ := (readKeyword_iff (by decide)).1 hcontinue
      have hself : readContinue (wrap (w.body (text "continue"))) = some ((), []) :=
        (readKeyword_iff (by decide)).2 ⟨w, (List.append_nil _).symm⟩
      obtain ⟨u, us, hu⟩ := exists_stretches_eq_cons (scan readBreak found.2)
      refine ⟨wrap (w.body (text "continue")) ++ u, ?_, ?_⟩
      · rw [inert_break hself, stretches_chars_append, hu]
        exact List.mem_cons_self
      · exact bracketed_readContinue.occurs_iff.2 ⟨_, (), hself, (List.prefix_append _ _).isInfix⟩
    | none =>
      cases hbreak : readBreak r with
      | some found =>
        obtain ⟨w, rfl⟩ := (readKeyword_iff (by decide)).1 hbreak
        have hself : readBreak (wrap (w.body (text "break"))) = some ((), []) :=
          (readKeyword_iff (by decide)).2 ⟨w, (List.append_nil _).symm⟩
        have hshorter : found.2.length < (wrap (w.body (text "break")) ++ found.2).length := by
          have := List.length_pos_iff.2 (wrap_ne_nil (w.body (text "break")))
          rw [List.length_append]
          omega
        rw [occurs_append_of_inert (inert_continue hself)] at h
        obtain ⟨t, ht, hoccurs⟩ := ih _ hshorter h rfl
        rw [scan_of_read (wrap_ne_nil _) hbreak, stretches]
        exact ⟨t, List.mem_cons_of_mem [] ht, hoccurs⟩
      | none =>
        cases r with
        | nil => simp [occurs] at h
        | cons c cs =>
          rw [occurs, scan_of_skip hcontinue, List.any_cons, isTag, Bool.false_or] at h
          obtain ⟨t, ht, hoccurs⟩ := ih cs.length (Nat.lt_succ_self _) h rfl
          obtain ⟨u, us, hu⟩ := exists_stretches_eq_cons (scan readBreak cs)
          rw [scan_of_skip hbreak, stretches, hu, List.modifyHead_cons]
          rw [hu] at ht
          rcases List.mem_cons.1 ht with rfl | hmem
          · obtain ⟨m, a, hm, hinfix⟩ := bracketed_readContinue.occurs_iff.1 hoccurs
            exact ⟨c :: t, List.mem_cons_self, bracketed_readContinue.occurs_iff.2
              ⟨m, a, hm, hinfix.trans (List.suffix_cons c t).isInfix⟩⟩
          · exact ⟨t, List.mem_cons_of_mem _ hmem, hoccurs⟩

/-- Cut at its break tags, a text holds the other tags still, and those alone. -/
theorem controlled_stretches_iff {r : Text} :
    (∃ t ∈ stretches (scan readBreak r), Controlled t) ↔ occurs readContinue r := by
  constructor
  · rintro ⟨t, ht, hbreak | hcontinue⟩
    · exact absurd hbreak (bracketed_readBreak.not_occurs_stretch ht)
    · obtain ⟨m, a, hm, hinfix⟩ := bracketed_readContinue.occurs_iff.1 hcontinue
      refine bracketed_readContinue.occurs_iff.2 ⟨m, a, hm, hinfix.trans ?_⟩
      obtain ⟨ps, qs, heq⟩ := chars_infix_of_mem_stretches ht
      refine ⟨join ps, join qs, ?_⟩
      rw [← join_scan readBreak r, ← heq, join_append, join_append, join_chars]
  · intro h
    obtain ⟨t, ht, hoccurs⟩ := exists_stretch_of_occurs h
    exact ⟨t, ht, .inr hoccurs⟩

end Marks

section Keeping

variable (render : Renderer) (ctx : RenderContext) (l : Loop)

/-- The renderings of the body, up to the first one that ends the loop. -/
def taken (total : Nat) : Nat → List (Value × Value) → Render (List Text)
  | _, [] => pure []
  | index, (key, value) :: rest => do
    let rendered ← render (ctx.bind (bindings l.names total index key value)) l.body
    if occurs readBreak rendered then pure [rendered]
    else return rendered :: (← taken total (index + 1) rest)

/-- The renderings of the body that a loop takes, of which there are none if it cannot be run. -/
def renderings : Render (List Text) :=
  match l.names.filter refused with
  | name :: more => do
    Render.report [.loopNames (name :: more)]
    pure []
  | [] => do
    match ← Render.evaluate ctx l.source with
    | .error e => do
      Render.report [.loopFailed l.source e]
      pure []
    | .ok collection =>
      match entriesOf? (1 < l.names.length) collection with
      | some es => taken render ctx l es.length 0 es
      | none => do
        Render.report [.loopNotIterable l.source collection.typeName]
        pure []

/-- The stretches of text that a loop keeps of its renderings. -/
def shown (rs : List Text) : List Text := rs.flatMap fun r =>
  if occurs readBreak r then stretches (scan readBreak r)
  else if occurs readContinue r then []
  else [r]

theorem controlled_shown_iff {rs : List Text} :
    (∃ t ∈ shown rs, Controlled t) ↔ ∃ r ∈ rs, occurs readBreak r ∧ occurs readContinue r := by
  simp only [shown, List.mem_flatMap]
  constructor
  · rintro ⟨t, ⟨r, hr, ht⟩, hc⟩
    split at ht
    · next hbreak => exact ⟨r, hr, hbreak, controlled_stretches_iff.1 ⟨t, ht, hc⟩⟩
    · next hbreak =>
      split at ht
      · simp at ht
      · next hcontinue =>
        obtain rfl := List.mem_singleton.1 ht
        exact absurd hc (not_or.2 ⟨hbreak, hcontinue⟩)
  · rintro ⟨r, hr, hbreak, hcontinue⟩
    obtain ⟨t, ht, hc⟩ := controlled_stretches_iff.2 hcontinue
    exact ⟨t, ⟨r, hr, by rwa [if_pos hbreak]⟩, hc⟩

theorem iterate_eq (total index : Nat) (es : List (Value × Value)) :
    iterate render ctx l total index es = (fun rs => (shown rs).flatten) <$> taken render ctx l total index es := by
  induction es generalizing index with
  | nil => simp [iterate, taken, shown]
  | cons e es ih =>
    obtain ⟨key, value⟩ := e
    rw [iterate, taken, map_bind]
    refine congrArg (render _ _ >>= ·) (funext fun rendered => ?_)
    split
    · next hbreak => simp [shown, hbreak, flatten_stretches, remove_eq_kept]
    · next hbreak =>
      split
      · next hcontinue => simp [ih, shown, hbreak, hcontinue]
      · next hcontinue => simp [ih, shown, hbreak, hcontinue]

end Keeping

/-- Over a collection that is not empty a loop gives the stretches that it keeps of its renderings. There is a control
tag in them if and only if one rendering has tags of both kinds or one is made up of several stretches. -/
theorem expand_controlled_iff (render : Renderer) {ctx : RenderContext} {l : Loop} {v : Value}
    (hv : (Expr.evaluate ctx.surroundings l.source).result = .ok v) (hne : isEmptyCollection v = false) :
    expand render ctx l = (fun rs => (shown rs).flatten) <$> renderings render ctx l ∧
    ∀ rs, Controlled (shown rs).flatten ↔
      (∃ r ∈ rs, occurs readBreak r ∧ occurs readContinue r) ∨ Joins (shown rs) := by
  refine ⟨?_, fun rs => by rw [controlled_flatten_iff, controlled_shown_iff]⟩
  unfold expand renderings
  cases l.names.filter refused with
  | cons name more => simp [shown]
  | nil =>
    have hgives := Render.gives_evaluate ctx l.source
    rw [hv] at hgives
    dsimp only
    rw [hgives.bind_eq, map_bind, hgives.bind_eq fun o => _ <$> _]
    refine congrArg (Render.evaluate ctx l.source >>= ·) (funext fun _ => ?_)
    simp only [hne]
    cases entriesOf? (1 < l.names.length) v with
    | some es => exact iterate_eq render ctx l es.length 0 es
    | none => simp [shown]

section Samples

/-- A place of a page without variables. -/
def bareContext : RenderContext := ⟨[], ⟨0.5, 0, 1.0⟩, 20, 0⟩

def stopping : Loop := ⟨[text "x"], text "[1, 2]", text "a\x7b\x7bbreak\x7d\x7db", none⟩

/-- A loop that stops in its first iteration. -/
theorem expand_controlled_iff_stopping :
    ((expand ((Pipeline.standard 10).execute 2) bareContext stopping).runFrom (.start none)).1 = .ok (text "ab") ∧
      (Controlled (text "ab") ↔ (∃ r ∈ [stopping.body], occurs readBreak r ∧ occurs readContinue r) ∨
        Joins [text "a", text "b"]) := by
  refine ⟨by decide +kernel, ?_⟩
  have hfilled : (Expr.evaluate bareContext.surroundings stopping.source).result.toOption.map isEmptyCollection =
      some false := by decide +kernel
  cases hv : (Expr.evaluate bareContext.surroundings stopping.source).result with
  | error e => rw [hv] at hfilled; cases hfilled
  | ok v =>
    rw [hv] at hfilled
    have hshown : shown [stopping.body] = [text "a", text "b"] := by decide +kernel
    have hiff := (expand_controlled_iff ((Pipeline.standard 10).execute 2) hv (Option.some.inj hfilled)).2
      [stopping.body]
    rwa [hshown] at hiff

/-- A break tag behind a continue tag: the one is taken out, and the other stays on the page. In a loop around it, the
other drops the iteration. -/
theorem expand_controlled_both :
    Controlled (text "\x7b\x7bcontinue\x7d\x7d") ∧
    (((Pipeline.standard 10).execute 2 bareContext (text
      "\x7b\x7bfor x in [1]\x7d\x7d\x7b\x7bcontinue\x7d\x7d\x7b\x7bbreak\x7d\x7d\x7b\x7bendfor\x7d\x7d")).runFrom
      (.start none)).1 = .ok (text "\x7b\x7bcontinue\x7d\x7d") ∧
    (((Pipeline.standard 10).execute 3 bareContext (text
      ("\x7b\x7bfor y in [1]\x7d\x7dA" ++
        "\x7b\x7bfor x in [1]\x7d\x7d\x7b\x7bcontinue\x7d\x7d\x7b\x7bbreak\x7d\x7d\x7b\x7bendfor\x7d\x7d" ++
        "\x7b\x7bendfor\x7d\x7d"))).runFrom (.start none)).1 = .ok [] := by
  decide +kernel

end Samples

end Loop

end PageTemplate
