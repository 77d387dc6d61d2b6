import PageTemplate.Proofs.KeyTag
import PageTemplate.Proofs.Keyword
import PageTemplate.Proofs.Following
set_option autoImplicit false
/-!
Pages of text and of tags that belong to other phases. Only the last step of the substitution of variables looks
whether a tag belongs elsewhere; accents, paths and empty tags cannot be mistaken for such a tag, but a variable takes
every tag that its name fills. So a page of this kind stays as it is, whatever the variables hold, if and only if no
variable has a name whose plain tag stands on it.
-/
namespace PageTemplate

open Piece Render Tag Template

/-- A tag that belongs to another phase. -/
structure ForeignTag where
  body : Text
  plain : body.all isPlain
  reserved : isReservedBody body

namespace ForeignTag

variable (f : ForeignTag)

theorem marked : trim f.body ∈ structuralWords ∨ ':' ∈ f.body ∨ ' ' ∈ trim f.body := by
  rcases isReservedBody_iff.1 f.reserved with h | h | h | h | h
  · refine .inr (.inl ?_)
    rw [occursIn, Option.isSome_iff_ne_none, ne_eq, cut?_eq_none_iff, not_not] at h
    exact h.subset (by decide)
  · exact .inl h
  all_goals exact .inr (.inr (h.subset (by decide)))

theorem not_blank : ¬ f.body.all isBlank := by
  intro hblank
  have hnil : trim f.body = [] := by
    have := trim_append hblank []
    rwa [List.append_nil] at this
  rcases f.marked with h | h | h
  · rw [hnil] at h
    exact absurd h (by decide)
  · exact notMem_of_blank hblank (by decide) h
  · simp [hnil] at h

theorem body_ne_nil : f.body ≠ [] := fun h => f.not_blank (by rw [h]; rfl)

/-- A path has no colon and no blank in it, and no structural word is one. -/
theorem readPath_eq_none (rest : Text) : Variable.readPath (wrap f.body ++ rest) = none := by
  rw [Variable.readPath_wrap rest (notMem_of_plain f.plain).2.1]
  split
  · next hdrop =>
    have hall : f.body.all Variable.inPath := List.all_eq_true.2 (List.dropWhile_eq_nil_iff.1 hdrop)
    have hmem {c : Char} (hc : c ∈ f.body) (hout : Variable.inPath c = false) : False := by
      rw [List.all_eq_true.1 hall c hc] at hout
      cases hout
    rcases f.marked with h | h | h
    · have htrim : trim f.body = f.body := trim_of_notBlank fun c hc => by
        rw [Bool.eq_false_iff]
        intro hblank
        have := Dotted.eq_nil_of_inPath (t := [c]) (by simpa using hblank)
          (by simpa using List.all_eq_true.1 hall c hc)
        cases this
      have hwords : ∀ w ∈ structuralWords, Variable.path? w = none := by decide +kernel
      rw [List.takeWhile_eq_self_iff.2 (List.all_eq_true.1 hall), hwords _ (htrim ▸ h)]
      rfl
    · exact (hmem h (by decide +kernel)).elim
    · exact (hmem (mem_of_mem_trim h) (by decide +kernel)).elim
  · rfl

theorem readEmpty_eq_none (rest : Text) : Variable.readEmpty (wrap f.body ++ rest) = none := by
  have hc := (notMem_of_plain f.plain).2.1
  rw [Variable.bracketed_readEmpty.frame rest hc, Variable.readEmpty_wrap_eq_none hc f.not_blank]
  rfl

end ForeignTag

/-- A page of text and of tags that belong to other phases. -/
inductive Scaffold where
  | done
  | plain (t : Plain) (rest : Scaffold)
  | tag (f : ForeignTag) (rest : Scaffold)

namespace Scaffold

def print : Scaffold → Text
  | done => []
  | plain t rest => t.1 ++ rest.print
  | tag f rest => wrap f.body ++ rest.print

theorem grave_notMem_print (p : Scaffold) : Variable.grave ∉ p.print := by
  have hbrace : Variable.grave ≠ '\x7b' ∧ Variable.grave ≠ '\x7d' := by decide
  induction p with
  | done => exact List.not_mem_nil
  | plain t rest ih => simp [print, ih, (notMem_of_plain t.2).2.2]
  | tag f rest ih => simp [print, wrap_append, ih, (notMem_of_plain f.plain).2.2, hbrace]

theorem untagged {α : Type} {read : TagReader α} (hr : Opening read)
    (h : ∀ (f : ForeignTag) rest, read (wrap f.body ++ rest) = none) (p : Scaffold) : Untagged read p.print := by
  induction p with
  | done => exact fun u hu hne => absurd (List.suffix_nil.1 hu) hne
  | plain t rest ih => exact hr.untagged_append (calm_of_notMem (notMem_of_plain t.2).1) ih
  | tag f rest ih => exact hr.untagged_wrap (notMem_of_plain f.plain).1 (h f rest.print) ih

theorem untagged_readEscaped (p : Scaffold) : Untagged Variable.readEscaped p.print :=
  Variable.untagged_readEscaped p.grave_notMem_print

theorem untagged_readPath : ∀ p : Scaffold, Untagged Variable.readPath p.print :=
  untagged Variable.bracketed_readPath.opening ForeignTag.readPath_eq_none

theorem untagged_readEmpty : ∀ p : Scaffold, Untagged Variable.readEmpty p.print :=
  untagged Variable.bracketed_readEmpty.opening ForeignTag.readEmpty_eq_none

/-- The last step leaves every tag to the phase that it belongs to. -/
theorem evaluateTags_print (ctx : RenderContext) (p : Scaffold) : Variable.evaluateTags ctx p.print = pure p.print := by
  unfold Variable.evaluateTags
  induction p with
  | done => rw [print, scan_nil, replaceM]
  | plain t rest ih =>
    rw [print, Variable.bracketed_readExpression.opening.scan_append _ (calm_of_notMem (notMem_of_plain t.2).1),
      replaceM_append, replaceM_chars, ih, pure_bind, pure_bind]
  | tag f rest ih =>
    rw [print, Variable.scan_expression (notMem_of_plain f.plain).2.1 f.body_ne_nil, replaceM, ih, if_pos f.reserved,
      pure_bind, pure_bind]

/-- The page stays as it is where no safe variable has a tag on it. -/
theorem substituteVariables_print {ctx : RenderContext} {p : Scaffold}
    (h : ∀ key ∈ Scope.keys ctx.vars, isUnsafeName key = false → ¬ Variable.Tagged key p.print) :
    substituteVariables ctx p.print = pure p.print := by
  have hpaths : Variable.substitutePaths ctx p.print = pure p.print := by
    rw [Variable.substitutePaths, p.untagged_readPath.scan_eq, replaceM_chars]
  have hkeys : Variable.substituteKeys ctx.vars p.print = pure p.print :=
    Variable.substituteKeys_of_untagged fun key hkey hsafe => Variable.untagged_readKey_iff.2 (h key hkey hsafe)
  rw [substituteVariables, p.untagged_readEscaped.replace_eq, hpaths, pure_bind, hkeys, pure_bind, remove,
    p.untagged_readEmpty.replace_eq, evaluateTags_print]

/-! Variables that show nothing -/

theorem print_ne_closing (p : Scaffold) (t : Text) : p.print ≠ '\x7d' :: t := by
  induction p with
  | done => exact nofun
  | plain t' rest ih =>
    obtain ⟨_ | ⟨c, cs⟩, ht⟩ := t'
    · exact ih
    · intro h
      obtain rfl : c = '\x7d' := (List.cons.inj h).1
      exact (notMem_of_plain ht).2.1 List.mem_cons_self
  | tag f rest ih => simp [print, wrap_append]

/-- Two closing braces end a tag, and a smaller page stands behind it. -/
theorem exists_rest {p : Scaffold} {x rest : Text} (h : p.print = x ++ '\x7d' :: '\x7d' :: rest) :
    ∃ q : Scaffold, q.print = rest ∧ sizeOf q < sizeOf p := by
  induction p generalizing x with
  | done => simp [print] at h
  | plain t p ih =>
    rcases List.append_eq_append_iff.1 h with ⟨z, -, hz⟩ | ⟨z, ht, hz⟩
    · obtain ⟨q, hq, hlt⟩ := ih hz
      exact ⟨q, hq, by simp only [plain.sizeOf_spec]; omega⟩
    · cases z with
      | nil => exact absurd hz.symm (p.print_ne_closing _)
      | cons c z =>
        obtain rfl : '\x7d' = c := (List.cons.inj hz).1
        exact absurd (ht ▸ List.mem_append_right x List.mem_cons_self) (notMem_of_plain t.2).2.1
  | tag f p ih =>
    rcases List.append_eq_append_iff.1 h with ⟨z, -, hz⟩ | ⟨z, hwrap, hz⟩
    · obtain ⟨q, hq, hlt⟩ := ih hz
      exact ⟨q, hq, by simp only [tag.sizeOf_spec]; omega⟩
    · cases z with
      | nil => exact absurd hz.symm (p.print_ne_closing _)
      | cons c z =>
        simp only [List.cons_append, List.cons.injEq] at hz
        obtain ⟨rfl, htail⟩ := hz
        rcases behind_closing (notMem_of_plain f.plain).2.1 hwrap with rfl | rfl
        · exact absurd htail.symm (p.print_ne_closing _)
        · exact ⟨p, (List.cons.inj htail).2.symm, by simp only [tag.sizeOf_spec]; omega⟩

/-- What a page becomes when tags are taken out: a page again, and a shorter one unless nothing is taken out. -/
structure Cut (p : Scaffold) (t : Text) (intact : Prop) : Prop where
  page : ∃ q : Scaffold, q.print = t
  le : t.length ≤ p.print.length
  intact_of_le : p.print.length ≤ t.length → intact

/-- Where a variable shows nothing, its tags are taken out, and what is left is a page of the same kind. -/
theorem cut_keyShown (key : Text) (p : Scaffold) :
    p.Cut (Variable.keyShown key (.str []) p.print) (Untagged (Variable.readKey key) p.print) := by
  have hopen := Variable.opening_readKey key
  have hcalm {x : Text} (hx : calm x) (y : Text) :
      Variable.keyShown key (.str []) (x ++ y) = x ++ Variable.keyShown key (.str []) y := by
    rw [Variable.keyShown, hopen.scan_append y hx, rewritten_append, rewritten_chars]
    rfl
  induction hn : sizeOf p using Nat.strongRecOn generalizing p with
  | ind n ih =>
    cases p with
    | done =>
      have hshown : Variable.keyShown key (.str []) [] = [] := by rw [Variable.keyShown, scan_nil]; rfl
      rw [print, hshown]
      exact ⟨⟨done, rfl⟩, Nat.le_refl _, fun _ u hu hne => absurd (List.suffix_nil.1 hu) hne⟩
    | plain t p =>
      have ht := calm_of_notMem (notMem_of_plain t.2).1
      obtain ⟨⟨q, hq⟩, hle, hintact⟩ := ih (sizeOf p) (by simp only [plain.sizeOf_spec] at hn; omega) p rfl
      rw [print, hcalm ht]
      refine ⟨⟨plain t q, by rw [print, hq]⟩, by simpa [print] using hle, fun h => ?_⟩
      exact hopen.untagged_append ht (hintact (by simpa [print] using h))
    | tag f p =>
      have hplain := (notMem_of_plain f.plain).1
      rw [print]
      cases hread : Variable.readKey key (wrap f.body ++ p.print) with
      | none =>
        obtain ⟨⟨q, hq⟩, hle, hintact⟩ := ih (sizeOf p) (by simp only [tag.sizeOf_spec] at hn; omega) p rfl
        have hshown : Variable.keyShown key (.str []) (wrap f.body ++ p.print) =
            wrap f.body ++ Variable.keyShown key (.str []) p.print := by
          have hskip := hread
          rw [wrap_eq_cons, List.cons_append] at hskip ⊢
          rw [Variable.keyShown, scan_of_skip hskip]
          exact congrArg ('\x7b' :: ·) (hcalm (calm_tail_wrap hplain) p.print)
        rw [hshown]
        refine ⟨⟨tag f q, by rw [print, hq]⟩, by simpa [print] using hle, fun h => ?_⟩
        exact hopen.untagged_wrap hplain hread (hintact (by simpa [print] using h))
      | some r =>
        -- the tag that is taken out may be several tags of the page with what stands between them
        obtain ⟨lead, trail, -, -, hshape⟩ := Variable.readKey_shape hread
        have hclosed : (tag f p).print = ('\x7b' :: '\x7b' :: (lead ++ (key ++ trail))) ++ '\x7d' :: '\x7d' :: r.2 := by
          rw [print, hshape, wrap_append]
          rfl
        obtain ⟨p', hp', hlt⟩ := exists_rest hclosed
        obtain ⟨⟨q, hq⟩, hle, -⟩ := ih (sizeOf p') (hn ▸ hlt) p' rfl
        have hshown : Variable.keyShown key (.str []) (wrap f.body ++ p.print) =
            Variable.keyShown key (.str []) p'.print := by
          rw [hshape] at hread ⊢
          rw [Variable.keyShown, scan_of_read (wrap_ne_nil _) hread, hp']
          rfl
        have hlength : p'.print.length < (tag f p).print.length := by
          rw [hclosed, hp']
          simp only [List.length_cons, List.length_append]
          omega
        rw [hshown]
        exact ⟨⟨q, hq⟩, by omega, fun h => by omega⟩

/-- Variables of these names that show nothing. -/
def blanked (names : List Value) : Entries := names.map fun name => (name, .str [])

theorem cut_keysShown (names : List Value) (p : Scaffold) :
    p.Cut (Variable.keysShown (blanked names) p.print)
      (∀ key, .str key ∈ names → isUnsafeName key = false → Untagged (Variable.readKey key) p.print) := by
  induction names generalizing p with
  | nil => exact ⟨⟨p, rfl⟩, Nat.le_refl _, fun _ _ h => absurd h List.not_mem_nil⟩
  | cons name names ih =>
    have hcons : Variable.keysShown (blanked (name :: names)) p.print =
        Variable.keysShown (blanked names) (Variable.entryShown (name, .str []) p.print) := rfl
    have hentry : p.Cut (Variable.entryShown (name, .str []) p.print)
        (Variable.entryShown (name, .str []) p.print = p.print ∧
          ∀ key, name = .str key → isUnsafeName key = false → Untagged (Variable.readKey key) p.print) := by
      cases name with
      | str key =>
        rw [Variable.entryShown]
        split
        · next hunsafe =>
          refine ⟨⟨p, rfl⟩, Nat.le_refl _, fun _ => ⟨rfl, fun key' heq hsafe => ?_⟩⟩
          rw [← Value.str.inj heq, hunsafe] at hsafe
          cases hsafe
        · obtain ⟨hpage, hle, hintact⟩ := cut_keyShown key p
          refine ⟨hpage, hle, fun h => ⟨?_, fun key' heq _ => Value.str.inj heq ▸ hintact h⟩⟩
          rw [Variable.keyShown, (hintact h).scan_eq, rewritten_chars]
      | _ =>
        refine ⟨⟨p, rfl⟩, Nat.le_refl _, fun _ => ⟨rfl, fun key heq => ?_⟩⟩
        cases heq
    obtain ⟨⟨q, hq⟩, hle, hintact⟩ := hentry
    obtain ⟨hpage, hle', hintact'⟩ := ih q
    rw [hcons, ← hq]
    rw [← hq] at hle hintact
    refine ⟨hpage, by omega, fun h key hkey hsafe => ?_⟩
    obtain ⟨hsame, hfirst⟩ := hintact (by omega)
    rcases List.mem_cons.1 hkey with heq | hkey
    · exact hfirst key heq.symm hsafe
    · exact hsame ▸ hintact' (by omega) key hkey hsafe

theorem shown_print (ctx : RenderContext) (q : Scaffold) :
    Variable.tagsShown ctx (remove Variable.readEmpty q.print) = q.print := by
  have hsettles := Variable.settles_evaluateTags ctx q.print
  rw [evaluateTags_print] at hsettles
  rw [remove, q.untagged_readEmpty.replace_eq]
  exact (hsettles.unique (Render.gives_pure _).settles).2 rfl

/-- A page of text and of tags that belong to other phases comes back as it was, whatever the variables of the given
names hold, if and only if none of these names that is safe has its plain tag on the page. -/
theorem spared_iff (names : List Value) (p : Scaffold) :
    (∀ ctx : RenderContext, ctx.vars.map Prod.fst = names → substituteVariables ctx p.print = pure p.print) ↔
      ∀ key, .str key ∈ names → isUnsafeName key = false → ¬ Variable.Tagged key p.print := by
  constructor
  · intro h key hkey hsafe
    let ctx : RenderContext := ⟨blanked names, ⟨0.5, 0, 1.0⟩, 20, 0⟩
    have hnames : ctx.vars.map Prod.fst = names := by simp [ctx, blanked, Function.comp_def]
    obtain ⟨⟨q, hq⟩, -, hintact⟩ := cut_keysShown names p
    have hsettles := settles_substituteVariables ctx p.print
    rw [h ctx hnames, p.untagged_readEscaped.replace_eq, Variable.shown, Variable.pathsShown,
      p.untagged_readPath.scan_eq, rewritten_chars, show Variable.keysShown ctx.vars p.print = q.print from hq.symm,
      shown_print] at hsettles
    have hsame : q.print = p.print := (hsettles.unique (Render.gives_pure _).settles).2 rfl
    exact Variable.untagged_readKey_iff.1 (hintact (by rw [← hq, hsame]) key hkey hsafe)
  · rintro h ctx rfl
    refine substituteVariables_print fun key hkey hsafe => h key ?_ hsafe
    obtain ⟨⟨name, value⟩, he, hname⟩ := List.mem_filterMap.1 hkey
    cases name with
    | str t =>
      obtain rfl := Option.some.inj hname
      exact List.mem_map_of_mem he
    | _ => cases hname

def elseTag : ForeignTag := ⟨text "else", by decide, by decide +kernel⟩

/-- A variable with the name of a structural word takes the tag of a conditional. -/
theorem spared_else :
    (tag elseTag done).print = text "\x7b\x7belse\x7d\x7d" ∧
      ((substituteVariables ⟨[(.str (text "else"), .nat 1)], ⟨0.5, 0, 1.0⟩, 20, 0⟩ (tag elseTag done).print).runFrom
        (.start none)).1 = .ok (text "1") := by
  decide +kernel

end Scaffold

end PageTemplate
