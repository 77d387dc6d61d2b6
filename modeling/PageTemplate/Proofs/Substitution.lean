import PageTemplate.Proofs.Reader
set_option autoImplicit false
/-!
Substitution of variables on texts alone. What a text shows does not depend on the state of rendering, and
a text without accents shows what its parts show, if what the first part shows does not break off inside a
tag.
-/
namespace PageTemplate

/-- No variable has a name with a closing brace. -/
def Entries.plainlyNamed (es : Entries) : Prop := ∀ k v, (Value.str k, v) ∈ es → '\x7d' ∉ k

theorem Entries.plainlyNamed_put {es : Entries} (h : es.plainlyNamed) {key : Value}
    (hk : ∀ k, key = .str k → '\x7d' ∉ k) (value : Value) : (es.put key value).plainlyNamed := by
  induction es with
  | nil =>
    intro k v hm
    simp only [put, List.mem_singleton, Prod.mk.injEq] at hm
    exact hk k hm.1.symm
  | cons e es ih =>
    obtain ⟨key', value'⟩ := e
    have ih := ih fun k v hm => h k v (by simp [hm])
    intro k v hm
    rw [put] at hm
    split at hm
    · rcases List.mem_cons.1 hm with he | hm
      · obtain ⟨rfl, -⟩ := Prod.mk.inj he
        exact h k value' (by simp)
      · exact h k v (by simp [hm])
    · rcases List.mem_cons.1 hm with he | hm
      · exact h k v (by simp [he])
      · exact ih k v hm

theorem Entries.plainlyNamed_overlay {base extra : Entries} (hb : base.plainlyNamed)
    (he : extra.plainlyNamed) : (base.overlay extra).plainlyNamed := by
  induction extra generalizing base with
  | nil => exact hb
  | cons e es ih =>
    obtain ⟨key, value⟩ := e
    have hkey : ∀ k, key = .str k → '\x7d' ∉ k := fun k hk => he k value (by simp [hk])
    exact ih (plainlyNamed_put hb hkey value) fun k v hm => he k v (by simp [hm])

namespace Variable

open Piece Render Tag

/-- What a path leads to, null where it leads nowhere. -/
def valueAtPath (ctx : RenderContext) (path : Text) : Value :=
  (((Value.map ctx.vars).atPath? path).toOption.getD none).getD .null

def pathsShown (ctx : RenderContext) (t : Text) : Text :=
  rewritten (fun path _ => (valueAtPath ctx path).display) (scan readPath t)

def keyShown (key : Text) (value : Value) (t : Text) : Text :=
  rewritten (fun _ _ => value.display) (scan (readKey key) t)

def entryShown : Value × Value → Text → Text
  | (.str key, value), t => if isUnsafeName key then t else keyShown key value t
  | _, t => t

def keysShown (es : Entries) (t : Text) : Text := es.foldl (fun t e => entryShown e t) t

def tagsShown (ctx : RenderContext) (t : Text) : Text :=
  rewritten
    (fun body source => if isReservedBody body then source else (valueAt ctx (trim body)).display)
    (scan readExpression t)

/-- What a text without accents shows. -/
def shown (ctx : RenderContext) (t : Text) : Text :=
  tagsShown ctx (remove readEmpty (keysShown ctx.vars (pathsShown ctx t)))

def pathsShowable (ctx : RenderContext) (t : Text) : Bool :=
  allTags (fun path _ => ((Value.map ctx.vars).atPath? path).isOk && (valueAtPath ctx path).showable) (scan readPath t)

def keyShowable (key : Text) (value : Value) (t : Text) : Bool :=
  allTags (fun _ _ => value.showable) (scan (readKey key) t)

def entryShowable : Value × Value → Text → Bool
  | (.str key, value), t => isUnsafeName key || keyShowable key value t
  | _, _ => true

def keysShowable : Entries → Text → Bool
  | [], _ => true
  | e :: es, t => entryShowable e t && keysShowable es (entryShown e t)

def tagsShowable (ctx : RenderContext) (t : Text) : Bool :=
  allTags (fun body _ => isReservedBody body || (valueAt ctx (trim body)).showable) (scan readExpression t)

/-- Something can be shown for every tag that a text without accents shows. -/
def showable (ctx : RenderContext) (t : Text) : Bool :=
  pathsShowable ctx t && (keysShowable ctx.vars (pathsShown ctx t) &&
    tagsShowable ctx (remove readEmpty (keysShown ctx.vars (pathsShown ctx t))))

theorem settles_substitutePaths (ctx : RenderContext) (t : Text) :
    Settles (substitutePaths ctx t) (pathsShowable ctx t) (pathsShown ctx t) := by
  refine settles_replaceM (fun path _ => ?_) _
  have hpath : ∀ f, (Value.map ctx.vars).atPath? path = .error f → f = .tooManyDigits := fun _ => Value.follow?_eq_error
  exact (settles_ofExcept hpath none).bind (settles_display _)

theorem settles_substituteKey (key : Text) (value : Value) (t : Text) :
    Settles (substituteKey key value t) (keyShowable key value t) (keyShown key value t) := by
  rw [keyShowable, allTags_const, substituteKey]
  cases h : occurs (readKey key) t with
  | true =>
    rw [show (scan (readKey key) t).any isTag = true from h, if_pos rfl, Bool.not_true, Bool.false_or,
      ← Bool.and_true value.showable]
    exact (settles_display value).bind (gives_pure _).settles
  | false =>
    rw [show (scan (readKey key) t).any isTag = false from h, keyShown, (occurs_eq_false_iff.1 h).scan_eq, rewritten_chars]
    exact (gives_pure t).settles

theorem settles_substituteKeys (es : Entries) (t : Text) :
    Settles (substituteKeys es t) (keysShowable es t) (keysShown es t) := by
  induction es generalizing t with
  | nil => exact (gives_pure t).settles
  | cons e es ih =>
    obtain ⟨key, value⟩ := e
    cases key with
    | str key =>
      rw [substituteKeys, keysShowable, entryShowable, show keysShown ((.str key, value) :: es) t
        = keysShown es (entryShown (.str key, value) t) from rfl, entryShown]
      cases isUnsafeName key with
      | true => exact (gives_pure t).settles.bind (ih t)
      | false => exact (settles_substituteKey key value t).bind (ih _)
    | _ => exact ih t

theorem settles_evaluateTags (ctx : RenderContext) (t : Text) :
    Settles (evaluateTags ctx t) (tagsShowable ctx t) (tagsShown ctx t) := by
  refine settles_replaceM (fun body source => ?_) _
  cases isReservedBody body with
  | true => exact (gives_pure source).settles
  | false => exact (gives_valueOf ctx _).settles.bind (settles_display _)

end Variable

theorem settles_substituteVariables (ctx : RenderContext) (t : Text) :
    Render.Settles (substituteVariables ctx t) (Variable.showable ctx (Piece.replace Variable.readEscaped id t))
      (Variable.shown ctx (Piece.replace Variable.readEscaped id t)) :=
  (Variable.settles_substitutePaths ctx _).bind
    ((Variable.settles_substituteKeys _ _).bind (Variable.settles_evaluateTags ctx _))

namespace Variable

open Piece Render Tag

/-- Without accents there is nothing to escape. -/
theorem untagged_readEscaped {t : Text} (h : grave ∉ t) : Untagged readEscaped t := by
  intro u hu hne
  cases hr : readEscaped u with
  | none => rfl
  | some r =>
    simp only [readEscaped, Option.bind_eq_bind, Option.bind_eq_some_iff] at hr
    obtain ⟨r, hr, -⟩ := hr
    exact absurd (hu.subset (by rw [after?_eq_some_iff.1 hr]; simp)) h

theorem seamless_entryShown {e : Value × Value} (h : ∀ k, e.1 = .str k → '\x7d' ∉ k) :
    Seamless (entryShown e) := by
  obtain ⟨key, value⟩ := e
  cases key with
  | str key =>
    cases hu : isUnsafeName key with
    | true =>
      rw [show entryShown (.str key, value) = id by funext t; simp [entryShown, hu]]
      exact seamless_id
    | false =>
      rw [show entryShown (.str key, value) = keyShown key value by funext t; simp [entryShown, hu]]
      exact (bracketed_readKey (h key rfl)).seamless _
  | _ => exact seamless_id

theorem seamless_keysShown {es : Entries} (h : es.plainlyNamed) : Seamless (keysShown es) := by
  induction es with
  | nil => exact seamless_id
  | cons e es ih =>
    have he : Seamless (entryShown e) :=
      seamless_entryShown fun k hk => h k e.2 (by rw [← hk]; simp)
    exact (ih fun k v hm => h k v (by simp [hm])).comp he

theorem divides_entryShowable {e : Value × Value} (h : ∀ k, e.1 = .str k → '\x7d' ∉ k) :
    Divides (entryShowable e) (entryShown e) := by
  obtain ⟨key, value⟩ := e
  cases key with
  | str key =>
    intro x hx y
    simp only [entryShowable, entryShown] at hx ⊢
    cases hu : isUnsafeName key with
    | true => rfl
    | false =>
      rw [hu, if_neg (by decide)] at hx
      exact (bracketed_readKey (h key rfl)).divides _ _ x hx y
  | _ => exact divides_true _

theorem divides_keysShowable {es : Entries} (h : es.plainlyNamed) : Divides (keysShowable es) (keysShown es) := by
  induction es with
  | nil => exact divides_true _
  | cons e es ih =>
    have he : ∀ k, e.1 = .str k → '\x7d' ∉ k := fun k hk => h k e.2 (by rw [← hk]; simp)
    have hes : Entries.plainlyNamed es := fun k v hm => h k v (by simp [hm])
    exact (ih hes).comp (seamless_keysShown hes) (seamless_entryShown he) (divides_entryShowable he)

theorem seamless_tagsShown (ctx : RenderContext) : Seamless fun t => tagsShown ctx (remove readEmpty t) :=
  (bracketed_readExpression.seamless _).comp (bracketed_readEmpty.seamless _)

theorem divides_tagsShowable (ctx : RenderContext) :
    Divides (fun t => tagsShowable ctx (remove readEmpty t)) fun t => tagsShown ctx (remove readEmpty t) :=
  (bracketed_readExpression.divides _ _).comp (bracketed_readExpression.seamless _) (bracketed_readEmpty.seamless _)
    (divides_true _)

theorem seamless_shown {ctx : RenderContext} (h : ctx.vars.plainlyNamed) : Seamless (shown ctx) :=
  ((seamless_tagsShown ctx).comp (seamless_keysShown h)).comp (bracketed_readPath.seamless _)

/-- Something can be shown for a text if it can for its parts, where what the first one shows does not break off
inside a tag. -/
theorem divides_showable {ctx : RenderContext} (h : ctx.vars.plainlyNamed) : Divides (showable ctx) (shown ctx) := by
  have hkeys := Divides.comp (g := fun t => tagsShown ctx (remove readEmpty t)) (seamless_tagsShown ctx)
    (divides_tagsShowable ctx) (seamless_keysShown h) (divides_keysShowable h)
  exact hkeys.comp ((seamless_tagsShown ctx).comp (seamless_keysShown h)) (bracketed_readPath.seamless _)
    (bracketed_readPath.divides _ _)

end Variable

end PageTemplate
