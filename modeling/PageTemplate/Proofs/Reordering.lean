import PageTemplate.Proofs.Alone
import PageTemplate.Proofs.Filling
import PageTemplate.Proofs.FreeNames
import PageTemplate.Proofs.Search
set_option autoImplicit false
/-!
The order of variables. They take their plain tags one after the other, each in the text that the ones before it have
left. Where what one of them shows completes the tag of another, the order decides whether the other one takes that
tag or leaves it to the last step, which evaluates it. So every order gives a text that comes from one and the same,
in which all variables have taken their tags at once, by replacing some of the tags that were completed on the way;
and it is all one where each of these comes to the same in the last step, opens no tag, and stands in no other tag.
What cannot be shown, on the way or at the end, is what cannot be shown in that one text.
-/
namespace PageTemplate

open Piece Tag Render

namespace Entries

/-- What takes the plain tags of a name. -/
def taker? (es : Entries) (name : Text) : Option Value := if isUnsafeName name then none else es.get? name

theorem get?_perm {es es' : Entries} (h : es.Perm es') (hn : (Scope.keys es).Nodup) (name : Text) :
    es.get? name = es'.get? name := by
  induction h with
  | nil => rfl
  | cons e h ih =>
    obtain ⟨key, value⟩ := e
    cases key with
    | str key => rw [get?, get?, ih (List.nodup_cons.1 hn).2]
    | _ => exact ih hn
  | swap e e' es =>
    obtain ⟨key, value⟩ := e
    obtain ⟨key', value'⟩ := e'
    cases key with
    | str key =>
      cases key' with
      | str key' =>
        have hne : key' ≠ key := fun heq => (List.nodup_cons.1 hn).1 (heq ▸ List.mem_cons_self)
        simp only [get?]
        split
        · next heq =>
          rw [if_neg]
          rintro rfl
          exact hne heq
        · rfl
      | _ => rfl
    | _ => cases key' <;> rfl
  | trans h h' ih ih' =>
    have hkeys : (Scope.keys _).Perm (Scope.keys _) := h.filterMap _
    exact (ih hn).trans (ih' (hkeys.nodup hn))

theorem mem_keys_of_get? {es : Entries} {name : Text} {value : Value} (h : es.get? name = some value) :
    name ∈ Scope.keys es := by
  induction es with
  | nil => cases h
  | cons e es ih =>
    obtain ⟨key, value'⟩ := e
    cases key with
    | str key =>
      rw [get?] at h
      split at h
      · next heq => exact heq ▸ List.mem_cons_self
      · exact List.mem_cons_of_mem _ (ih h)
    | _ => exact ih h

section Cons

variable {key : Text} (value : Value) {es : Entries}

theorem taker?_cons_unsafe (h : isUnsafeName key = true) : taker? ((.str key, value) :: es) = taker? es := by
  funext name
  simp only [taker?, get?]
  split
  · rfl
  · next hsafe =>
    rw [if_neg]
    rintro rfl
    exact hsafe h

theorem taker?_cons_safe (h : isUnsafeName key = false) :
    taker? ((.str key, value) :: es) = fun name => (if name = key then some value else none).or (taker? es name) := by
  funext name
  simp only [taker?, get?]
  by_cases heq : key = name
  · simp [← heq, h]
  · simp [heq, Ne.symm heq]

theorem taker?_cons_of_some (hnew : key ∉ Scope.keys es) {name : Text} {v : Value} (h : taker? es name = some v) :
    taker? ((.str key, value) :: es) name = some v := by
  have hne : key ≠ name := by
    rintro rfl
    rw [taker?] at h
    split at h
    · cases h
    · exact hnew (mem_keys_of_get? h)
  rw [← h, taker?, taker?, get?, if_neg hne]

end Cons

end Entries

namespace Variable

/-- Pieces with the tags of some names replaced by what these names show. -/
def fillValues (g : Text → Option Value) (ps : List (Piece Text)) : List (Piece Text) :=
  fill (fun name => (g name).map Value.display) ps

/-- Can something be shown for each tag that is replaced so? -/
def legible (g : Text → Option Value) (ps : List (Piece Text)) : Bool :=
  allTags (fun name _ => (g name).elim true Value.showable) ps

/-- The text with the plain tags of all variables replaced at once. -/
def atOnce (es : Entries) (t : Text) : Text := join (fillValues es.taker? (scan readName t))

/-- Plain tags are replaced by what their names show, one at a time. Can something be shown for all of them? -/
inductive Reduces (g : Text → Option Value) : Text → Text → Bool → Prop where
  | refl (t : Text) : Reduces g t t true
  | step {x body y t : Text} {v : Value} {b : Bool} (ho : '\x7b' ∉ body) (hc : '\x7d' ∉ body)
      (hv : g (trim body) = some v) (h : Reduces g (x ++ (v.display ++ y)) t b) :
      Reduces g (x ++ (wrap body ++ y)) t (v.showable && b)

namespace Reduces

variable {g h : Text → Option Value} {t u v : Text} {b c : Bool}

theorem trans (htu : Reduces g t u b) (huv : Reduces g u v c) : Reduces g t v (b && c) := by
  induction htu with
  | refl => exact huv
  | step ho hc hv _ ih => exact Bool.and_assoc _ _ c ▸ .step ho hc hv (ih huv)

theorem mono (hgh : ∀ name v, g name = some v → h name = some v) (htu : Reduces g t u b) : Reduces h t u b := by
  induction htu with
  | refl t => exact .refl t
  | step ho hc hv _ ih => exact .step ho hc (hgh _ _ hv) ih

end Reduces

theorem legible_tag (g : Text → Option Value) (name source : Text) (ps : List (Piece Text)) :
    legible g (.tag name source :: ps) = ((g name).elim true Value.showable && legible g ps) := rfl

theorem legible_or (g h : Text → Option Value) (ps : List (Piece Text)) :
    legible (fun name => (g name).or (h name)) ps = (legible g ps && legible h (fillValues g ps)) := by
  induction ps with
  | nil => rfl
  | cons p ps ih =>
    cases p with
    | char c => exact ih
    | tag name source =>
      have hfill : legible h (fillValues g (.tag name source :: ps)) =
          (legible h (((g name).map Value.display).elim [.tag name source] chars) && legible h (fillValues g ps)) :=
        allTags_append _ _ _
      rw [legible_tag, legible_tag, ih, hfill]
      cases g name with
      | none =>
        have htag : legible h [.tag name source] = (h name).elim true Value.showable := Bool.and_true _
        simp only [Option.map_none, Option.elim_none, htag]
        exact Bool.and_left_comm _ _ _
      | some v =>
        have hchars : legible h (chars v.display) = true := allTags_chars _ _
        simp only [Option.map_some, Option.elim_some, hchars, Bool.true_and]
        exact (Bool.and_assoc _ _ _).symm

theorem fillValues_or (g h : Text → Option Value) (ps : List (Piece Text)) :
    fillValues (fun name => (g name).or (h name)) ps = fillValues h (fillValues g ps) := by
  rw [fillValues, fillValues, fillValues, fill_fill]
  congr 1
  funext name
  exact Option.map_or

/-- Where the text of some pieces is cut again, the tags that were spelt out in characters are replaced as well. -/
theorem reduces_cutAgain (g : Text → Option Value) {ps qs : List (Piece Text)} (h : CutAgain ps qs) :
    ∃ b, legible g qs = (legible g ps && b) ∧
      ∀ x, Reduces g (x ++ join (fillValues g ps)) (x ++ join (fillValues g qs)) b := by
  induction h with
  | nil => exact ⟨true, rfl, fun x => .refl _⟩
  | @tag body ps qs h ih =>
    obtain ⟨b, hlegible, ih⟩ := ih
    refine ⟨b, ?_, fun x => ?_⟩
    · rw [legible_tag, legible_tag, hlegible, Bool.and_assoc]
    · rw [fillValues, fillValues, fill_tag, fill_tag, join_append, join_append, ← List.append_assoc,
        ← List.append_assoc]
      exact ih _
  | @spelt body ps qs ho hc h ih =>
    obtain ⟨b, hlegible, ih⟩ := ih
    have hchars : legible g (chars (wrap body) ++ ps) = legible g ps := by
      rw [legible, allTags_append, allTags_chars, Bool.true_and, legible]
    cases hv : g (trim body) with
    | none =>
      refine ⟨b, ?_, fun x => ?_⟩
      · rw [hchars, ← hlegible, legible_tag, hv]
        exact Bool.true_and _
      · rw [fillValues, fillValues, fill_append, fill_chars, fill_tag, join_append, join_append, join_chars, hv,
          Option.map_none, Option.elim_none, show join [.tag (trim body) (wrap body)] = wrap body from List.append_nil _,
          ← List.append_assoc, ← List.append_assoc]
        exact ih _
    | some v =>
      refine ⟨v.showable && b, ?_, fun x => ?_⟩
      · rw [hchars, legible_tag, hlegible, hv]
        exact Bool.and_left_comm _ _ _
      · rw [fillValues, fillValues, fill_append, fill_chars, fill_tag, join_append, join_append, join_chars, hv,
          Option.map_some, Option.elim_some, join_chars]
        refine .step ho hc hv ?_
        rw [← List.append_assoc, ← List.append_assoc]
        exact ih _
  | @char c ps qs h ih =>
    obtain ⟨b, hlegible, ih⟩ := ih
    refine ⟨b, hlegible, fun x => ?_⟩
    rw [fillValues, fillValues, fill_char, fill_char, join_cons, join_cons, ← List.append_assoc, ← List.append_assoc]
    exact ih _

/-- One variable takes its tags before some others: they find tags that it has completed. -/
theorem reduces_keyShown {key : Text} (hkey : Expr.isIdentifier key = true) (value : Value) (g : Text → Option Value)
    (t : Text) :
    let both (name : Text) := (if name = key then some value else none).or (g name)
    ∃ b, (keyShowable key value t && legible g (scan readName (keyShown key value t))) =
        (legible both (scan readName t) && b) ∧
      Reduces g (join (fillValues both (scan readName t)))
        (join (fillValues g (scan readName (keyShown key value t)))) b := by
  let own (name : Text) : Option Value := if name = key then some value else none
  have hshown : join (fillValues own (scan readName t)) = keyShown key value t := by
    rw [keyShown_eq hkey, fillValues]
    congr 2
    funext name
    exact apply_ite (Option.map Value.display) _ _ _
  have hshowable : legible own (scan readName t) = keyShowable key value t := by
    rw [keyShowable_eq hkey, legible]
    congr 1
    funext name _
    by_cases hname : name = key <;> simp [own, hname]
  have hnamed : Named (fillValues own (scan readName t)) := (named_scan t).fill _
  obtain ⟨b, hlegible, hcut⟩ := reduces_cutAgain g (cutAgain_scan hnamed)
  rw [hshown] at hlegible
  refine ⟨b, ?_, ?_⟩
  · rw [hlegible, ← hshowable, ← Bool.and_assoc]
    exact congrArg (· && b) (legible_or own g _).symm
  · have hreduces := hcut []
    rw [hshown, List.nil_append, List.nil_append] at hreduces
    exact (fillValues_or own g _).symm ▸ hreduces

/-- One after the other the variables leave a text that comes from the one in which they have all taken their tags at
once, by induction on the variables. -/
theorem reduces_keysShown {es : Entries} (hn : (Scope.keys es).Nodup)
    (hk : ∀ key ∈ Scope.keys es, Expr.isIdentifier key = true) (t : Text) :
    ∃ b, keysShowable es t = (legible es.taker? (scan readName t) && b) ∧
      Reduces es.taker? (atOnce es t) (keysShown es t) b := by
  induction es generalizing t with
  | nil =>
    have hnone : Entries.taker? [] = fun _ => none := funext fun name => ite_self _
    refine ⟨true, ?_, ?_⟩
    · have hlegible : legible (fun _ => none) (scan readName t) = true :=
        (allTags_const true _).trans (Bool.or_true _)
      rw [hnone, hlegible]
      rfl
    · have hfill : fillValues (fun _ => none) (scan readName t) = scan readName t := fill_none _
      rw [atOnce, hnone, hfill, join_scan]
      exact .refl t
  | cons e es ih =>
    obtain ⟨key, value⟩ := e
    cases key with
    | str key =>
      obtain ⟨hkey, hkeys⟩ := List.forall_mem_cons.1 hk
      obtain ⟨hnew, hn⟩ := List.nodup_cons.1 hn
      have hcons : keysShown ((.str key, value) :: es) t = keysShown es (entryShown (.str key, value) t) := rfl
      rw [hcons, keysShowable, entryShown, entryShowable]
      cases hunsafe : isUnsafeName key with
      | true =>
        rw [atOnce, Entries.taker?_cons_unsafe value hunsafe]
        exact ih hn hkeys t
      | false =>
        obtain ⟨b, hfirst, hreduces⟩ := reduces_keyShown hkey value (Entries.taker? es) t
        obtain ⟨c, hrest, hreduces'⟩ := ih hn hkeys (keyShown key value t)
        rw [← Entries.taker?_cons_safe value hunsafe] at hfirst hreduces
        have hmono (name : Text) (v : Value) (h : Entries.taker? es name = some v) :=
          Entries.taker?_cons_of_some value hnew h
        refine ⟨b && c, ?_, (hreduces.mono hmono).trans (hreduces'.mono hmono)⟩
        rw [Bool.false_or, if_neg (by decide), hrest, ← Bool.and_assoc, hfirst, Bool.and_assoc]
    | _ => exact ih hn hk t

/-! The last step -/

/-- What a text shows once the variables have taken their tags. -/
def finished (ctx : RenderContext) (t : Text) : Text := tagsShown ctx (remove readEmpty t)

def finishable (ctx : RenderContext) (t : Text) : Bool := tagsShowable ctx (remove readEmpty t)

section Finished

variable (ctx : RenderContext) {x body : Text}

/-- Empty tags are taken out of the parts of a text if the first part does not break off inside a tag then. -/
theorem remove_append (hx : Sealed (remove readEmpty x)) :
    Sealed x ∧ ∀ y, remove readEmpty (x ++ y) = remove readEmpty x ++ remove readEmpty y :=
  bracketed_readEmpty.seamless (fun _ _ => []) x hx

theorem remove_calm (hx : calm x) (y : Text) : remove readEmpty (x ++ y) = x ++ remove readEmpty y := by
  rw [remove, replace_eq_rewritten, bracketed_readEmpty.opening.scan_append y hx, rewritten_append, rewritten_chars]
  rfl

theorem remove_wrap (ho : '\x7b' ∉ body) (hc : '\x7d' ∉ body) (hb : ¬ body.all isBlank) (y : Text) :
    remove readEmpty (wrap body ++ y) = wrap body ++ remove readEmpty y := by
  rw [remove, replace_eq_rewritten, bracketed_readEmpty.inert_wrap ho hc (readEmpty_wrap_eq_none hc hb),
    rewritten_append, rewritten_chars]
  rfl

theorem finished_append (hx : Sealed (remove readEmpty x)) (y : Text) :
    finished ctx (x ++ y) = tagsShown ctx (remove readEmpty x) ++ finished ctx y ∧
      finishable ctx (x ++ y) = (tagsShowable ctx (remove readEmpty x) && finishable ctx y) := by
  rw [finished, finishable, (remove_append hx).2, tagsShown, tagsShowable,
    bracketed_readExpression.scan_append (hx.apart _), rewritten_append, allTags_append]
  exact ⟨rfl, rfl⟩

theorem finished_calm (hx : calm x) (y : Text) :
    finished ctx (x ++ y) = x ++ finished ctx y ∧ finishable ctx (x ++ y) = finishable ctx y := by
  rw [finished, finishable, remove_calm hx, tagsShown, tagsShowable,
    bracketed_readExpression.opening.scan_append _ hx, rewritten_append, rewritten_chars, allTags_append, allTags_chars,
    Bool.true_and]
  exact ⟨rfl, rfl⟩

theorem finished_wrap (ho : '\x7b' ∉ body) (hc : '\x7d' ∉ body) (hb : ¬ body.all isBlank) (y : Text) :
    finished ctx (wrap body ++ y) = tagsShown ctx (wrap body) ++ finished ctx y ∧
      finishable ctx (wrap body ++ y) = (tagsShowable ctx (wrap body) && finishable ctx y) := by
  have hne : body ≠ [] := fun hnil => hb (by rw [hnil]; rfl)
  have hwrap := scan_expression hc hne []
  rw [List.append_nil, scan_nil] at hwrap
  rw [finished, finishable, remove_wrap ho hc hb, tagsShown, tagsShowable, scan_expression hc hne, tagsShown,
    tagsShowable, hwrap, finished, finishable, tagsShown, tagsShowable]
  simp [rewritten]

end Finished

/-- It is all one whether a plain tag of a name is replaced or left to the last step: it comes to the same there, opens
no tag, and stands in no other tag. -/
def Indifferent (ctx : RenderContext) (g : Text → Option Value) (t : Text) : Prop :=
  ∀ x body y v, t = x ++ (wrap body ++ y) → '\x7b' ∉ body → '\x7d' ∉ body → g (trim body) = some v →
    (tagsShown ctx (wrap body) = v.display ∧ tagsShowable ctx (wrap body) = v.showable) ∧
      calm v.display ∧ Sealed (remove readEmpty x)

section Steps

variable {ctx : RenderContext} {g : Text → Option Value} (hg : g [] = none)

include hg

theorem not_blank_of_name {body : Text} {v : Value} (h : g (trim body) = some v) : ¬ body.all isBlank := by
  intro hblank
  have hnil := trim_append hblank []
  rw [List.append_nil] at hnil
  rw [hnil, show trim [] = [] from rfl, hg] at h
  cases h

theorem Indifferent.finished_eq {x body y : Text} {v : Value} (h : Indifferent ctx g (x ++ (wrap body ++ y)))
    (ho : '\x7b' ∉ body) (hc : '\x7d' ∉ body) (hv : g (trim body) = some v) :
    finished ctx (x ++ (wrap body ++ y)) = finished ctx (x ++ (v.display ++ y)) ∧
      finishable ctx (x ++ (wrap body ++ y)) = (v.showable && finishable ctx (x ++ (v.display ++ y))) := by
  obtain ⟨⟨hshown, hshowable⟩, hcalm, hx⟩ := h x body y v rfl ho hc hv
  obtain ⟨hfront, hfrontable⟩ := finished_append ctx hx (wrap body ++ y)
  obtain ⟨hfront', hfrontable'⟩ := finished_append ctx hx (v.display ++ y)
  obtain ⟨htag, htaggable⟩ := finished_wrap ctx ho hc (not_blank_of_name hg hv) y
  obtain ⟨htext, htextable⟩ := finished_calm ctx hcalm y
  rw [hfront, hfrontable, hfront', hfrontable', htag, htaggable, htext, htextable, hshown, hshowable]
  exact ⟨rfl, Bool.and_left_comm _ _ _⟩

/-- No tag is completed by what such a tag shows, so what is left of the tags is as it was. -/
theorem Indifferent.replaced {x body y : Text} {v : Value} (h : Indifferent ctx g (x ++ (wrap body ++ y)))
    (ho : '\x7b' ∉ body) (hc : '\x7d' ∉ body) (hv : g (trim body) = some v) :
    Indifferent ctx g (x ++ (v.display ++ y)) := by
  obtain ⟨-, hcalm, hx⟩ := h x body y v rfl ho hc hv
  obtain ⟨hsealed, hremove⟩ := remove_append hx
  intro x' body' y' v' ht ho' hc' hv'
  rcases hsealed.wrap_cases hc' ht with ⟨a, rfl, rfl⟩ | ⟨b, rfl, hb⟩
  · exact h x' body' (a ++ (wrap body ++ y)) v' (by simp) ho' hc' hv'
  · rcases (sealed_of_calm hcalm).wrap_cases hc' hb with ⟨a, hdisplay, -⟩ | ⟨a, rfl, rfl⟩
    · have hopen : calm (wrap body' ++ a) := calm_of_suffix hcalm (hdisplay ▸ List.suffix_append _ _)
      rw [wrap_append] at hopen
      exact absurd hopen (by simp [calm])
    · obtain ⟨hsame', hcalm', hfront⟩ := h (x ++ (wrap body ++ a)) body' y' v' (by simp) ho' hc' hv'
      rw [hremove, remove_wrap ho hc (not_blank_of_name hg hv), ← List.append_assoc] at hfront
      rw [hremove, remove_calm hcalm]
      exact ⟨hsame', hcalm', hx.append ((sealed_of_calm hcalm).append (hfront.of_suffix (List.suffix_append _ _)))⟩

theorem Reduces.finished_eq {t u : Text} {b : Bool} (h : Reduces g t u b) (ht : Indifferent ctx g t) :
    finished ctx t = finished ctx u ∧ finishable ctx t = (b && finishable ctx u) := by
  induction h with
  | refl => exact ⟨rfl, (Bool.true_and _).symm⟩
  | step ho hc hv _ ih =>
    obtain ⟨hshown, hshowable⟩ := ht.finished_eq hg ho hc hv
    obtain ⟨hrest, hrestable⟩ := ih (ht.replaced hg ho hc hv)
    rw [hshown, hshowable, hrest, hrestable]
    exact ⟨rfl, (Bool.and_assoc _ _ _).symm⟩

end Steps

section Reordered

variable {vars vars' : Entries} (hget : ∀ name, vars.get? name = vars'.get? name)

include hget

theorem taker?_of_get? : vars.taker? = vars'.taker? := funext fun name => by
  rw [Entries.taker?, Entries.taker?, hget]

theorem pathsShown_of_get? (ctx : RenderContext) (t : Text) :
    pathsShown { ctx with vars := vars } t = pathsShown { ctx with vars := vars' } t ∧
      pathsShowable { ctx with vars := vars } t = pathsShowable { ctx with vars := vars' } t := by
  have hpath (path : Text) : (Value.map vars).atPath? path = (Value.map vars').atPath? path := by
    unfold Value.atPath?
    cases h : splitAt ['.'] path with
    | nil => exact absurd h (splitAt_ne_nil _ _)
    | cons s ss => simp only [Value.follow?, Value.member?, hget]
  simp only [pathsShown, pathsShowable, valueAtPath, hpath, and_self]

theorem tagsShown_of_get? (ctx : RenderContext) (t : Text) :
    tagsShown { ctx with vars := vars } t = tagsShown { ctx with vars := vars' } t ∧
      tagsShowable { ctx with vars := vars } t = tagsShowable { ctx with vars := vars' } t := by
  have hagree (names : List Text) : Entries.AgreeOn names vars vars' := fun name _ _ => hget name
  have hvalue (source : Text) : valueAt { ctx with vars := vars } source = valueAt { ctx with vars := vars' } source := by
    have hevaluate := Expr.evaluate_of_agreeOn ctx.ambient ctx.level source fun _ _ => hagree _
    exact congrArg (fun o : Outcome Value => o.result.toOption.getD .null) hevaluate
  simp only [tagsShown, tagsShowable, hvalue, and_self]

end Reordered

/-- What the variables leave in one order comes to what it would be if they had all taken their tags at once. -/
theorem shown_eq_atOnce {ctx : RenderContext} {vars : Entries} (hnodup : (Scope.keys vars).Nodup)
    (hnames : ∀ key ∈ Scope.keys vars, Expr.isIdentifier key = true) (u : Text)
    (hleft : Indifferent ctx vars.taker? (atOnce vars u)) :
    finished ctx (keysShown vars u) = finished ctx (atOnce vars u) ∧
      (keysShowable vars u && finishable ctx (keysShown vars u)) =
        (legible vars.taker? (scan readName u) && finishable ctx (atOnce vars u)) := by
  have hnil : vars.taker? [] = none := by
    rw [Entries.taker?]
    split
    · rfl
    · refine Option.eq_none_iff_forall_ne_some.2 fun value hvalue => ?_
      exact absurd (hnames [] (Entries.mem_keys_of_get? hvalue)) (by decide)
  obtain ⟨b, hshowable, hreduces⟩ := reduces_keysShown hnodup hnames u
  obtain ⟨hfinished, hfinishable⟩ := hreduces.finished_eq hnil hleft
  rw [hfinished, hshowable, hfinishable]
  exact ⟨rfl, Bool.and_assoc _ _ _⟩

/-- Variables come to the same in every order, if it is all one which of the tags that they complete are replaced. -/
theorem substituteVariables_reordered (ctx : RenderContext) {vars vars' : Entries} (hperm : vars.Perm vars')
    (hnodup : (Scope.keys vars).Nodup) (hnames : ∀ key ∈ Scope.keys vars, Expr.isIdentifier key = true) (t : Text)
    (hleft : Indifferent { ctx with vars := vars } vars.taker?
      (atOnce vars (pathsShown { ctx with vars := vars } (replace readEscaped id t)))) (s s' : RenderState) :
    ((substituteVariables { ctx with vars := vars } t).runFrom s).1 =
      ((substituteVariables { ctx with vars := vars' } t).runFrom s').1 := by
  have hget (name : Text) : vars.get? name = vars'.get? name := Entries.get?_perm hperm hnodup name
  have hkeys : (Scope.keys vars).Perm (Scope.keys vars') := hperm.filterMap _
  have htaker : vars'.taker? = vars.taker? := (taker?_of_get? hget).symm
  obtain ⟨hpaths, hpathsShowable⟩ := pathsShown_of_get? hget ctx (replace readEscaped id t)
  generalize hu : pathsShown { ctx with vars := vars } (replace readEscaped id t) = u at hleft
  have hatOnce : atOnce vars' u = atOnce vars u := by rw [atOnce, htaker, atOnce]
  obtain ⟨hshown, hshowable⟩ := shown_eq_atOnce hnodup hnames u hleft
  obtain ⟨hshown', hshowable'⟩ := shown_eq_atOnce (hkeys.nodup hnodup)
    (fun key hkey => hnames key (hkeys.mem_iff.2 hkey)) u (by rwa [htaker, hatOnce])
  have hends := tagsShown_of_get? hget ctx (remove readEmpty (keysShown vars' u))
  rw [settles_substituteVariables _ t s, settles_substituteVariables _ t s', showable, showable, shown, shown,
    ← hpathsShowable, ← hpaths, hu]
  change (if _ && (keysShowable vars u && finishable { ctx with vars := vars } (keysShown vars u)) then
    Except.ok (finished { ctx with vars := vars } (keysShown vars u)) else _) = _
  rw [hshown, hshowable, ← hends.1, ← hends.2]
  rw [hatOnce] at hshown'
  rw [htaker, hatOnce] at hshowable'
  rw [← hshown', ← hshowable']
  rfl

section Samples

/-- What a text shows under variables. -/
def sampleShown (vars : Entries) (t : Text) : Except Halt Text :=
  ((substituteVariables ⟨vars, ⟨0.5, 0, 1.0⟩, 20, 0⟩ t).runFrom (.start none)).1

/-- One variable completes the tag of another, and one has the name of a capability. -/
def mixed : Entries :=
  [(.str (text "a"), .str []), (.str (text "process"), .nat 2), (.str (text "foo"), .nat 1)]

theorem indifferent_mixed : Indifferent ⟨mixed, ⟨0.5, 0, 1.0⟩, 20, 0⟩ mixed.taker? (text "\x7b\x7bfoo\x7d\x7d 2") := by
  have hends : tagsShown ⟨mixed, ⟨0.5, 0, 1.0⟩, 20, 0⟩ (wrap (text "foo")) = (Value.nat 1).display ∧
      tagsShowable ⟨mixed, ⟨0.5, 0, 1.0⟩, 20, 0⟩ (wrap (text "foo")) = (Value.nat 1).showable := by decide +kernel
  have hfoo : mixed.taker? (trim (text "foo")) = some (.nat 1) := rfl
  intro x body y v ht ho hc hv
  have hwhole : text "\x7b\x7bfoo\x7d\x7d 2" = wrap (text "foo") ++ text " 2" := rfl
  rw [hwhole] at ht
  have hx : x = [] := by
    rcases x with _ | ⟨_, _ | ⟨_, x⟩⟩
    · rfl
    · exact absurd (congrArg (·[2]?) ht) (by simp [wrap_append, text])
    · have hrest : text "foo" ++ '\x7d' :: '\x7d' :: text " 2" = x ++ (wrap body ++ y) := by
        rw [wrap_append, List.cons_append, List.cons_append] at ht
        exact (List.cons.inj (List.cons.inj ht).2).2
      exact absurd (show '\x7b' ∈ text "foo" ++ '\x7d' :: '\x7d' :: text " 2" by rw [hrest]; simp [wrap_append])
        (by decide)
  subst hx
  obtain ⟨rfl, -⟩ := wrap_append_inj (by decide) hc ht
  rw [hfoo] at hv
  obtain rfl := Option.some.inj hv
  exact ⟨hends, by decide +kernel, sealed_of_calm (by decide +kernel)⟩

theorem substituteVariables_reordered_sample :
    let t := text "\x7b\x7bfo\x7b\x7ba\x7d\x7do\x7d\x7d \x7b\x7b process \x7d\x7d"
    mixed.Perm mixed.reverse ∧ (Scope.keys mixed).Nodup ∧ (∀ key ∈ Scope.keys mixed, Expr.isIdentifier key = true) ∧
      Indifferent ⟨mixed, ⟨0.5, 0, 1.0⟩, 20, 0⟩ mixed.taker?
        (atOnce mixed (pathsShown ⟨mixed, ⟨0.5, 0, 1.0⟩, 20, 0⟩ (replace readEscaped id t))) ∧
      sampleShown mixed t = sampleShown mixed.reverse t := by
  intro t
  have hperm : mixed.Perm mixed.reverse := (List.reverse_perm mixed).symm
  have hnodup : (Scope.keys mixed).Nodup := by decide
  have hnames : ∀ key ∈ Scope.keys mixed, Expr.isIdentifier key = true := by decide +kernel
  have hatOnce : atOnce mixed (pathsShown ⟨mixed, ⟨0.5, 0, 1.0⟩, 20, 0⟩ (replace readEscaped id t)) =
      text "\x7b\x7bfoo\x7d\x7d 2" := by decide +kernel
  have hleft := hatOnce ▸ indifferent_mixed
  exact ⟨hperm, hnodup, hnames, hleft, substituteVariables_reordered ⟨mixed, ⟨0.5, 0, 1.0⟩, 20, 0⟩ hperm hnodup hnames
    t hleft (.start none) (.start none)⟩

/-- What a variable shows completes the tag of another one, and it is not all one: the name is one that the language
keeps for itself, the tag stands in another one, or what it shows opens a tag. -/
theorem substituteVariables_reordered_limits :
    let kept : Entries := [(.str (text "a"), .str []), (.str (text "process"), .nat 1)]
    let nested : Entries := [(.str (text "a"), .nat 1), (.str (text "y1"), .nat 2), (.str (text "x2"), .nat 3)]
    let opened : Entries := [(.str (text "a"), .str []), (.str (text "foo"), .str (text "\x7b\x7b1"))]
    let split := text "\x7b\x7bpro\x7b\x7ba\x7d\x7dcess\x7d\x7d"
    let deep := text "\x7b\x7bx\x7b\x7by\x7b\x7ba\x7d\x7d\x7d\x7d\x7d\x7d"
    let broken := text "\x7b\x7bfo\x7b\x7ba\x7d\x7do\x7d\x7d \x7d\x7d"
    (∀ key ∈ Scope.keys kept ++ Scope.keys nested ++ Scope.keys opened, Expr.isIdentifier key = true) ∧
      (sampleShown kept split = .ok (text "1") ∧ sampleShown kept.reverse split = .ok []) ∧
      (sampleShown nested deep = .ok (text "3") ∧ sampleShown nested.reverse deep = .ok (text "\x7d\x7d")) ∧
      (sampleShown opened broken = .ok (text "1") ∧
        sampleShown opened.reverse broken = .ok (text "\x7b\x7b1 \x7d\x7d")) := by
  decide +kernel

end Samples

end Variable

end PageTemplate
