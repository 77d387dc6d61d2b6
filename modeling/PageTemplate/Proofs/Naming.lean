import PageTemplate.Proofs.Following
set_option autoImplicit false
/-!
The ways of a variable to a page. The substitution of names takes a variable as it is bound; conditionals,
loops and expressions ask the scope of its name. For a name that the scope leaves to the variables all of
them see the same value.
-/
namespace PageTemplate

open Piece Tag Render Template

namespace Entries

theorem split_of_get? {es : Entries} {k : Text} {v : Value} (h : es.get? k = some v) :
    ∃ before after, es = before ++ (.str k, v) :: after ∧ k ∉ Scope.keys before := by
  induction es with
  | nil => cases h
  | cons e es ih =>
    obtain ⟨key, w⟩ := e
    have hrest (h : get? k es = some v) (hkey : key ≠ .str k) : ∃ before after,
        (key, w) :: es = before ++ (.str k, v) :: after ∧ k ∉ Scope.keys before := by
      obtain ⟨before, after, rfl, hbefore⟩ := ih h
      refine ⟨(key, w) :: before, after, rfl, ?_⟩
      cases key with
      | str key' =>
        have hne : k ≠ key' := fun heq => hkey (by rw [heq])
        simpa [Scope.keys, hne] using hbefore
      | _ => exact hbefore
    cases key with
    | str key =>
      rw [get?] at h
      split at h
      · next heq =>
        obtain rfl := Option.some.inj h
        exact ⟨[], es, by rw [heq]; rfl, List.not_mem_nil⟩
      · next hne => exact hrest h fun heq => hne (Value.str.inj heq)
    | _ => exact hrest h fun heq => by cases heq

end Entries

theorem Scope.lookup?_of_free {n : Text} (h : isFreeName n = true) (context : Entries) :
    lookup? context n = context.get? n := by
  simp only [isFreeName, Bool.and_eq_true, Bool.not_eq_true', Option.isNone_iff_eq_none] at h
  obtain ⟨⟨hsafe, hnull⟩, hglobal⟩ := h
  simp only [lookup?, hsafe, hnull, hglobal, Bool.false_eq_true, if_false]

/-- A path of one name. -/
def Dotted.ofName (n : Text) (named : Expr.isIdentifier n = true) (unliteral : Parser.nameLiteral? n = none) :
    Dotted :=
  ⟨n, [], by simpa using named, unliteral⟩

theorem Dotted.source_ofName {n : Text} (named : Expr.isIdentifier n = true)
    (unliteral : Parser.nameLiteral? n = none) : (ofName n named unliteral).source = n :=
  List.append_nil n

namespace Expr

variable {s : Surroundings} {n : Text} {v : Value}

/-- A name alone means what the scope makes of it. -/
theorem evaluate_identifier (named : isIdentifier n = true) (unliteral : Parser.nameLiteral? n = none)
    (htime : s.ambient.expired = false) (hsafe : isUnsafeName n = false)
    (hv : Scope.lookup? s.context n = some v) : evaluate s n = .ok v := by
  have hsource := Dotted.source_ofName named unliteral
  have hparse := (Dotted.ofName n named unliteral).ofTextWithin_source 248
  have htrim := (Dotted.ofName n named unliteral).trim_source
  rw [hsource] at hparse htrim
  exact evaluate_of_lookup? (by rw [htrim]; exact hparse) htime hsafe hv

end Expr

theorem Render.evaluate_of_ok {ctx : RenderContext} {source : Text} {v : Value}
    (h : Expr.evaluate ctx.surroundings source = .ok v) : Render.evaluate ctx source = pure (.ok v) := by
  refine Render.ext fun s => ?_
  rw [Render.evaluate, h, runFrom_bind, runFrom_report]
  simp [Outcome.ok]

theorem Render.valueAt_of_ok {ctx : RenderContext} {source : Text} {v : Value}
    (h : Expr.evaluate ctx.surroundings source = .ok v) : valueAt ctx source = v := by
  rw [valueAt, h]
  rfl

/-- A name that the language leaves to the variables. -/
structure FreeName where
  name : Text
  named : Expr.isIdentifier name = true
  unliteral : Parser.nameLiteral? name = none
  free : Scope.isFreeName name = true

namespace FreeName

variable (k : FreeName)

def path : Dotted := .ofName k.name k.named k.unliteral

theorem source_path : k.path.source = k.name := Dotted.source_ofName k.named k.unliteral

theorem safe : isUnsafeName k.name = false := by
  have hfree := k.free
  simp only [Scope.isFreeName, Bool.and_eq_true, Bool.not_eq_true'] at hfree
  exact hfree.1.1

/-- The name in brackets. -/
def grouped : Text := '(' :: (k.name ++ [')'])

theorem name_ne_nil : k.name ≠ [] := k.source_path ▸ k.path.source_ne_nil

theorem isBlank_of_mem {c : Char} (h : c ∈ k.name) : isBlank c = false :=
  k.path.isBlank_of_mem_source (by rwa [k.source_path])

theorem plain_name : k.name.all isPlain := k.source_path ▸ k.path.plain_source

theorem formula_grouped : Formula k.grouped where
  plain := by
    rw [grouped, List.all_cons, List.all_append, k.plain_name]
    rfl
  unspaced c hc := by
    simp only [grouped, List.mem_cons, List.mem_append, List.not_mem_nil, or_false] at hc
    rcases hc with rfl | hc | rfl
    · decide
    · exact k.isBlank_of_mem hc
    · decide
  colonless := by
    have hname : ':' ∉ k.name := Token.notMem_of_isIdentifier k.named (by decide)
    simpa [grouped] using hname
  wordless := ⟨'(', List.mem_cons_self, by decide⟩

section Bound

variable {k} {s : Surroundings} {v : Value}

theorem evaluate_name (htime : s.ambient.expired = false) (hv : s.context.get? k.name = some v) :
    Expr.evaluate s k.name = .ok v :=
  Expr.evaluate_identifier k.named k.unliteral htime k.safe (by rw [Scope.lookup?_of_free k.free, hv])

theorem evaluate_grouped (htime : s.ambient.expired = false) (hv : s.context.get? k.name = some v) :
    Expr.evaluate s k.grouped = .ok v := by
  have hparse := k.path.ofTextWithin_grouped 246
  rw [k.source_path] at hparse
  have hlookup : Scope.lookup? s.context k.name = some v := by rw [Scope.lookup?_of_free k.free, hv]
  exact Expr.evaluate_of_lookup? (by rw [trim_of_notBlank k.formula_grouped.unspaced]; exact hparse) htime k.safe hlookup

end Bound

end FreeName

namespace Variable

theorem substituteKeys_append (es fs : Entries) (t : Text) :
    substituteKeys (es ++ fs) t = substituteKeys es t >>= substituteKeys fs := by
  induction es generalizing t with
  | nil => rw [List.nil_append, substituteKeys, pure_bind]
  | cons e es ih =>
    obtain ⟨key, value⟩ := e
    cases key with
    | str key =>
      rw [List.cons_append, substituteKeys, substituteKeys]
      split
      · rw [pure_bind, pure_bind]
        exact ih t
      · rw [bind_assoc]
        exact bind_congr ih
    | _ => exact ih t

theorem keysShown_append (es fs : Entries) (t : Text) : keysShown (es ++ fs) t = keysShown fs (keysShown es t) :=
  List.foldl_append

theorem keysShowable_append (es fs : Entries) (t : Text) :
    keysShowable (es ++ fs) t = (keysShowable es t && keysShowable fs (keysShown es t)) := by
  induction es generalizing t with
  | nil => rfl
  | cons e es ih => simp only [List.cons_append, keysShowable, ih, Bool.and_assoc, keysShown, List.foldl_cons]

/-- The bare tag of a key. -/
theorem readKey_wrap_self {key : Text} (hne : key ≠ []) (hblank : ∀ c ∈ key, isBlank c = false) :
    readKey key (wrap key) = some ((), []) := by
  have hopen := after?_opening_wrap key []
  rw [List.append_nil] at hopen
  have hrun : blankRun (key ++ ['\x7d', '\x7d']) = [] := by
    obtain ⟨c, cs, rfl⟩ := List.exists_cons_of_ne_nil hne
    exact List.takeWhile_cons_of_neg (by simp [hblank c List.mem_cons_self])
  have hskip : skipBlanks ['\x7d', '\x7d'] = ['\x7d', '\x7d'] := by decide
  have hclose : after? closing ['\x7d', '\x7d'] = some [] := by decide
  simp [readKey, hopen, hrun, after?_append, hskip, hclose]

theorem scan_readKey_wrap_self {key : Text} (hne : key ≠ []) (hblank : ∀ c ∈ key, isBlank c = false) :
    scan (readKey key) (wrap key) = [.tag () (wrap key)] := by
  have hread := readKey_wrap_self hne hblank
  have hscan : scan (readKey key) (wrap key ++ []) = .tag () (wrap key) :: scan (readKey key) [] :=
    scan_of_read (wrap_ne_nil key) (by rwa [List.append_nil])
  rwa [List.append_nil, scan_nil] at hscan

theorem substituteKey_wrap_self {key : Text} (hne : key ≠ []) (hblank : ∀ c ∈ key, isBlank c = false) (v : Value) :
    substituteKey key v (wrap key) = Render.display v := by
  have hscan := scan_readKey_wrap_self hne hblank
  have hreplace (shown : Text) : replace (readKey key) (fun _ => shown) (wrap key) = shown := by
    rw [replace_eq_rewritten, hscan]
    simp [rewritten]
  simp only [substituteKey, occurs, hscan, hreplace]
  simp [isTag]

end Variable

/-- A loop over a given collection. -/
def Loop.expandOver (render : RenderContext → Text → Render Text) (ctx : RenderContext) (l : Loop)
    (collection : Value) : Render Text :=
  match l.names.filter refused with
  | name :: more => do
    Render.report [.loopNames (name :: more)]
    pure []
  | [] =>
    if isEmptyCollection collection then
      match l.alternative with
      | some (c :: cs) => render ctx (c :: cs)
      | _ => pure []
    else
      match entriesOf? (1 < l.names.length) collection with
      | some es => iterate render ctx l es.length 0 es
      | none => do
        Render.report [.loopNotIterable l.source collection.typeName]
        pure []

theorem Loop.expand_eq_expandOver {render : RenderContext → Text → Render Text} {ctx : RenderContext} {l : Loop}
    {v : Value} (h : Expr.evaluate ctx.surroundings l.source = .ok v) :
    expand render ctx l = expandOver render ctx l v := by
  unfold expand expandOver
  cases l.names.filter refused with
  | nil =>
    rw [Render.evaluate_of_ok h]
    exact pure_bind _ _
  | cons name more => rfl

/-- A loop alone expands as its collection says. -/
theorem expandLoops_for {render : RenderContext → Text → Render Text} {ctx : RenderContext} {f : ForTag} {v : Value}
    (body : Template) (a : Alternative) (h : Expr.evaluate ctx.surroundings (trim f.source.1) = .ok v) :
    expandLoops render ctx (wrap f.body ++ (body.print ++ a.print)) =
      Loop.expandOver render ctx ⟨f.names, trim f.source.1, body.print, a.text?⟩ v := by
  have hparts := Loop.parts_for f body a []
  rw [List.append_nil, scan_nil, Loop.parts] at hparts
  rw [expandLoops, hparts, Loop.expandParts, Loop.expandParts,
    Loop.expand_eq_expandOver (l := ⟨f.names, trim f.source.1, body.print, a.text?⟩) h]
  simp

theorem Conditional.holdsConditional_of_calm {t : Text} (h : calm t) : holdsConditional t = false := by
  rw [Bool.eq_false_iff]
  intro hc
  obtain ⟨u, hu, ht⟩ := anywhere_iff.1 hc
  simp [after?_opening_of_calm h hu] at ht

/-- A conditional alone is decided by its condition. -/
theorem gives_resolveConditionals_if {ctx : RenderContext} (hpasses : 1 ≤ ctx.maxConditionalPasses) (i : IfTag)
    (yes no : Plain) (e f : WordTag) :
    Gives (resolveConditionals ctx (wrap i.body ++ (yes.1 ++
        (wrap (e.body (text "else")) ++ (no.1 ++ wrap (f.body (text "endif")))))))
      (if (valueAt ctx (trim i.condition.1)).truthy then yes.1 else no.1) := by
  let page : Template := .choice i (.plain yes .done) (.otherwise e (.plain no .done) f) .done
  have hquiet : page.Quiet true ctx := ⟨trivial, trivial, trivial⟩
  have hshape : page.shape ctx = wrap i.body ++ (yes.1 ++
      (wrap (e.body (text "else")) ++ (no.1 ++ wrap (f.body (text "endif"))))) := by
    simp [page, Template.shape, Branches.shape]
  have hchosen : (chosen i (.plain yes .done) (.otherwise e (.plain no .done) f) ctx).shape ctx =
      if (valueAt ctx (trim i.condition.1)).truthy then yes.1 else no.1 := by
    rw [chosen, IfTag.holds]
    split <;> simp [Branches.pick, Template.shape]
  have hstep : (page.step ctx).shape ctx = if (valueAt ctx (trim i.condition.1)).truthy then yes.1 else no.1 := by
    rw [Template.step, Template.shape_append, hchosen, Template.step, Template.shape, List.append_nil]
  have hnested : page.nested ctx = false := by
    rw [Template.nested, Template.nested, Bool.or_false, hchosen]
    refine Conditional.holdsConditional_of_calm ?_
    split
    · exact calm_of_notMem (notMem_of_plain yes.2).1
    · exact calm_of_notMem (notMem_of_plain no.2).1
  have hpass := page.gives_pass hquiet
  obtain ⟨n, hn⟩ : ∃ n, ctx.maxConditionalPasses.toNat = n + 1 := ⟨ctx.maxConditionalPasses.toNat - 1, by omega⟩
  rw [resolveConditionals, hn, ← hshape, ← hstep, Conditional.passes]
  rw [hnested] at hpass
  exact hpass.bind (gives_pure _)

namespace FreeName

open Variable

variable {k : FreeName} {ctx : RenderContext} {v : Value}

/-- The bare tag is the tag of no other key. -/
theorem eq_of_readKey {key : Text} {r : Unit × Text} (h : readKey key (wrap k.name) = some r) : key = k.name := by
  obtain ⟨lead, trail, hlead, htrail, hname⟩ := body_of_readKey (notMem_of_plain k.plain_name).2.1 h
  have hnil {t : Text} (hblank : t.all isBlank) (hsub : ∀ c ∈ t, c ∈ k.name) : t = [] := by
    refine List.eq_nil_iff_forall_not_mem.2 fun c hc => ?_
    have := k.isBlank_of_mem (hsub c hc)
    rw [List.all_eq_true.1 hblank c hc] at this
    cases this
  obtain rfl := hnil hlead fun c hc => by rw [hname]; simp [hc]
  obtain rfl := hnil htrail fun c hc => by rw [hname]; simp [hc]
  rw [hname, List.nil_append, List.append_nil]

/-- The variables up to this one leave its tag alone. -/
theorem split_vars (hv : ctx.vars.get? k.name = some v) : ∃ before after,
    ctx.vars = before ++ (.str k.name, v) :: after ∧
      ∀ key ∈ Scope.keys before, readKey key (wrap k.name) = none := by
  obtain ⟨before, after, hvars, hbefore⟩ := Entries.split_of_get? hv
  refine ⟨before, after, hvars, fun key hkey => ?_⟩
  cases hread : readKey key (wrap k.name) with
  | none => rfl
  | some r => exact absurd (eq_of_readKey hread ▸ hkey) hbefore

/-- The tag of a variable becomes what the variable shows, and the variables behind it go on from there. -/
theorem substituteKeys_name (hv : ctx.vars.get? k.name = some v) : ∃ before after,
    ctx.vars = before ++ (.str k.name, v) :: after ∧
      substituteKeys ctx.vars (wrap k.name) = Render.display v >>= substituteKeys after := by
  obtain ⟨before, after, hvars, hnone⟩ := split_vars hv
  refine ⟨before, after, hvars, ?_⟩
  rw [hvars, substituteKeys_append, substituteKeys_wrap (notMem_of_plain k.plain_name).1 hnone, pure_bind,
    substituteKeys, k.safe, if_neg (by decide), substituteKey_wrap_self k.name_ne_nil fun _ => k.isBlank_of_mem]

theorem keysShown_name (hv : ctx.vars.get? k.name = some v) (hcalm : calm v.display) :
    keysShown ctx.vars (wrap k.name) = v.display ∧ keysShowable ctx.vars (wrap k.name) = v.showable := by
  obtain ⟨before, after, hvars, hnone⟩ := split_vars hv
  obtain ⟨hbefore, hbeforeShowable⟩ := keysShown_wrap (notMem_of_plain k.plain_name).1 hnone
  obtain ⟨hafter, hafterShowable⟩ := keysShown_of_calm after hcalm
  have hscan := scan_readKey_wrap_self k.name_ne_nil fun _ => k.isBlank_of_mem
  have hkey : entryShown (.str k.name, v) (wrap k.name) = v.display := by
    simp [entryShown, k.safe, keyShown, hscan, rewritten]
  have hkeyShowable : entryShowable (.str k.name, v) (wrap k.name) = v.showable := by
    simp [entryShowable, k.safe, keyShowable, hscan]
  rw [hvars, keysShown_append, keysShowable_append, hbefore, hbeforeShowable, keysShowable, hkey, hkeyShowable,
    hafterShowable, keysShown, List.foldl_cons, hkey]
  exact ⟨hafter, by rw [Bool.true_and, Bool.and_true]⟩

theorem readPath_name (k : FreeName) : readPath (wrap k.name) = none := by
  have hpath : path? k.name = none := by
    have hsplit := k.path.splitAt_source
    rw [k.source_path] at hsplit
    rw [path?, hsplit]
    rfl
  rw [readPath_wrap_nil (notMem_of_plain k.plain_name).2.1, hpath]
  split <;> rfl

/-- A variable that shows no tag is shown by its tag. -/
theorem shown_name (hv : ctx.vars.get? k.name = some v) (hcalm : calm v.display) :
    shown ctx (wrap k.name) = v.display ∧ showable ctx (wrap k.name) = v.showable := by
  obtain ⟨hkeys, hkeysShowable⟩ := keysShown_name hv hcalm
  have hall := shown_wrap_of_key (notMem_of_plain k.plain_name).1 k.readPath_name hkeys hcalm
  rwa [hkeysShowable] at hall

theorem settles_substituteVariables_name (hv : ctx.vars.get? k.name = some v) (hcalm : calm v.display) :
    Settles (substituteVariables ctx (wrap k.name)) v.showable v.display := by
  obtain ⟨hshown, hshowable⟩ := shown_name hv hcalm
  rw [← hshown, ← hshowable]
  exact settles_substituteVariables_wrap k.plain_name

/-- In brackets a name is evaluated, unless a variable is named so, brackets included. -/
theorem settles_substituteVariables_grouped (hv : ctx.vars.get? k.name = some v)
    (htime : ctx.ambient.expired = false) (hkeys : ∀ key ∈ Scope.keys ctx.vars, trim key ≠ k.grouped)
    {lead trail : Text} (hlead : lead.all isBlank) (htrail : trail.all isBlank) :
    Settles (substituteVariables ctx (wrap (lead ++ (k.grouped ++ trail)))) v.showable v.display := by
  have hopen : ¬ (lead ++ (k.grouped ++ trail)).all inPath := fun h =>
    absurd (List.all_eq_true.1 h '(' (List.mem_append_right _ (List.mem_append_left _ List.mem_cons_self))) (by decide)
  have hclosed := (notMem_of_plain (k.formula_grouped.plain_body hlead htrail)).2.1
  have hpath : readPath (wrap (lead ++ (k.grouped ++ trail))) = none := by
    rw [readPath_wrap_nil hclosed, if_neg hopen]
  have hsettles := k.formula_grouped.settles_substituteVariables hlead htrail hpath hkeys
  rwa [valueAt_of_ok (evaluate_grouped htime hv)] at hsettles

/-- What the ways to a page make of a variable. A number with too many digits is shown by none of them. -/
structure Seen (k : FreeName) (ctx : RenderContext) (v : Value) : Prop where
  evaluated : Expr.evaluate ctx.surroundings k.name = .ok v
  /-- What the value shows meets the variables behind it as if it had been written there. -/
  substituted : ∃ before after, ctx.vars = before ++ (.str k.name, v) :: after ∧
    substituteKeys ctx.vars (wrap k.name) = Render.display v >>= substituteKeys after
  shown : calm v.display → Settles (substituteVariables ctx (wrap k.name)) v.showable v.display
  beside : calm v.display → ctx.vars.plainlyNamed → ∀ x y shown : Text, calm x → grave ∉ x ++ y →
    Gives (substituteVariables ctx y) shown →
      Settles (substituteVariables ctx (x ++ (wrap k.name ++ y))) v.showable (x ++ (v.display ++ shown))
  decided : 1 ≤ ctx.maxConditionalPasses → ∀ i : IfTag, trim i.condition.1 = k.name →
    ∀ (yes no : Plain) (e f : WordTag),
      Gives (resolveConditionals ctx (wrap i.body ++ (yes.1 ++
          (wrap (e.body (text "else")) ++ (no.1 ++ wrap (f.body (text "endif")))))))
        (if v.truthy then yes.1 else no.1)
  looped : ∀ f : ForTag, trim f.source.1 = k.name →
    ∀ (render : RenderContext → Text → Render Text) (body : Template) (a : Alternative),
      expandLoops render ctx (wrap f.body ++ (body.print ++ a.print)) =
        Loop.expandOver render ctx ⟨f.names, k.name, body.print, a.text?⟩ v
  bracketed : (∀ key ∈ Scope.keys ctx.vars, trim key ≠ k.grouped) →
    ∀ lead trail : Text, lead.all isBlank → trail.all isBlank →
      Settles (substituteVariables ctx (wrap (lead ++ (k.grouped ++ trail)))) v.showable v.display

/-- The name of a variable means the variable everywhere: to expressions, the tag of its own, conditionals,
loops and, if no variable is named with the brackets, to a tag with the name in brackets. -/
theorem seen_alike (k : FreeName) (ctx : RenderContext) (v : Value) (hv : ctx.vars.get? k.name = some v)
    (htime : ctx.ambient.expired = false) : Seen k ctx v where
  evaluated := evaluate_name htime hv
  substituted := substituteKeys_name hv
  shown := settles_substituteVariables_name hv
  beside hcalm hnamed _ _ _ hx hgrave hy := by
    obtain ⟨hshown, hshowable⟩ := shown_name hv hcalm
    have hall := settles_substituteVariables_beside hnamed k.plain_name (by rwa [hshown]) hx hgrave hy.settles
    rwa [hshown, hshowable, Bool.and_true] at hall
  decided hpasses i hi yes no e f := by
    have hif := gives_resolveConditionals_if hpasses i yes no e f
    rwa [hi, valueAt_of_ok (evaluate_name htime hv)] at hif
  looped f hf render body a := by
    have hvalue : Expr.evaluate ctx.surroundings (trim f.source.1) = .ok v := by
      rw [hf]
      exact evaluate_name htime hv
    rw [expandLoops_for body a hvalue, hf]
  bracketed hkeys _ _ hlead htrail := settles_substituteVariables_grouped hv htime hkeys hlead htrail

def sampleName : FreeName := ⟨['a'], rfl, rfl, rfl⟩

def sampleBinding : Entries := [(.str ['b'], .null), (.str ['a'], .nat 7)]

theorem seen_alike_sample :
    let ctx := sampleContext sampleBinding
    Expr.evaluate ctx.surroundings ['a'] = .ok (.nat 7) ∧
      Gives (substituteVariables ctx (wrap ['a'])) ['7'] ∧
      Gives (substituteVariables ctx (wrap (text " (a) "))) ['7'] ∧
      Gives (resolveConditionals ctx (wrap ifA.body ++ (['y'] ++
          (wrap (bare.body (text "else")) ++ (['n'] ++ wrap (bare.body (text "endif"))))))) ['y'] := by
  have hseen := seen_alike sampleName (sampleContext sampleBinding) (.nat 7) rfl (by decide)
  have hdisplay : (Value.nat 7).display = ['7'] := by decide +kernel
  have hshowable : (Value.nat 7).showable = true := by decide +kernel
  refine ⟨hseen.evaluated, ?_, ?_, ?_⟩
  · rw [← hdisplay]
    exact (hseen.shown (by rw [hdisplay]; decide)).gives hshowable
  · rw [← hdisplay]
    exact (hseen.bracketed (by decide) [' '] [' '] (by decide) (by decide)).gives hshowable
  · exact hseen.decided (by decide) ifA (by decide) ⟨['y'], by decide⟩ ⟨['n'], by decide⟩ bare bare

/-- A name that the scope blanks out is shown by its own tag all the same, and a tag in brackets shows the
variable that is named with the brackets. -/
theorem seen_alike_limits :
    let blanked := sampleContext [(.str (text "open"), .nat 1)]
    let bracketed := sampleContext [(.str ['a'], .nat 1), (.str (text "(a)"), .nat 2)]
    (Expr.isIdentifier (text "open") ∧ isUnsafeName (text "open") = false ∧
        Parser.nameLiteral? (text "open") = none ∧ blanked.vars.get? (text "open") = some (.nat 1) ∧
        Expr.evaluate blanked.surroundings (text "open") = .ok .null ∧
        ((substituteVariables blanked (wrap (text "open"))).runFrom (.start none)).1 = .ok ['1']) ∧
      Expr.evaluate bracketed.surroundings ['a'] = .ok (.nat 1) ∧
      ((substituteVariables bracketed (wrap (text " (a) "))).runFrom (.start none)).1 = .ok ['2'] :=
  ⟨⟨by decide, by decide, by decide, rfl, Expr.evaluate_identifier (by decide) (by decide) rfl rfl rfl,
    by decide +kernel⟩, sampleName.evaluate_name rfl rfl, by decide +kernel⟩

end FreeName

end PageTemplate
