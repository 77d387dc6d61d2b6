import PageTemplate.Proofs.Choice
import PageTemplate.Proofs.Untagged
set_option autoImplicit false
/-!
Rendering a page gives what the page means. Loops are expanded by rendering their bodies, conditionals are
resolved, no calls are met, and the substitution of variables shows every tag as it shows it alone; what
comes out holds no tag, so that one pass is enough.
-/
namespace PageTemplate

open Piece Tag Render

theorem occursIn_of_after? {needle t u rest : Text} (hu : u <:+ t) (h : after? needle u = some rest) :
    occursIn needle t := by
  induction t with
  | nil =>
    obtain rfl := List.suffix_nil.1 hu
    cases needle with
    | nil => rfl
    | cons c cs => simp [after?] at h
  | cons c cs ih =>
    rw [occursIn, cut?]
    cases hc : after? needle (c :: cs) with
    | some r => rfl
    | none =>
      rcases List.suffix_cons_iff.1 hu with rfl | hu
      · simp [h] at hc
      · have := ih hu
        simpa [occursIn] using this

theorem Tag.after?_opening_of_calm {t u : Text} (h : calm t) (hu : u <:+ t) : after? opening u = none := by
  rw [Option.eq_none_iff_forall_not_mem]
  intro r hr
  have hopen := after?_eq_some_iff.1 hr
  have hne : u ≠ [] := by simp [hopen, Tag.opening]
  exact not_opening_of_calm (y := []) (calm_of_suffix h hu) hne ⟨r, by simp [hopen]⟩

theorem Tag.remains_of_calm {t : Text} (h : calm t) : remains t = false := by
  rw [Bool.eq_false_iff]
  intro hr
  obtain ⟨u, hu, ht⟩ := anywhere_iff.1 hr
  simp [after?_opening_of_calm h hu] at ht

theorem CallTag.opening_read : Opening CallTag.read := by
  intro t r h
  simp only [read, Option.bind_eq_bind, Option.bind_eq_some_iff] at h
  obtain ⟨u, hu, -⟩ := h
  exact ⟨u, (after?_eq_some_iff.1 hu).symm⟩

/-- A call starts with its mark. -/
theorem CallTag.read_wrap_of_after? {body : Text} (h : after? (text "user:") (skipBlanks body) = none) (rest : Text) :
    CallTag.read (wrap body ++ rest) = none := by
  simp only [read, Option.bind_eq_bind, after?_opening_wrap, Option.bind_some, skipBlanks_append_brace,
    after?_append_cons (show '\x7d' ∉ text "user:" by decide), h, Option.map_none, Option.bind_none]

theorem CallTag.read_wrap_eq_none {body : Text} (h : occursIn (text "user:") body = false) (rest : Text) :
    CallTag.read (wrap body ++ rest) = none := by
  refine read_wrap_of_after? ?_ rest
  cases hr : after? (text "user:") (skipBlanks body) with
  | none => rfl
  | some r =>
    have := occursIn_of_after? (List.dropWhile_suffix isBlank) hr
    simp [h] at this

theorem Variable.opening_readKey (key : Text) : Opening (readKey key) := by
  intro t r h
  simp only [readKey, Option.bind_eq_bind, Option.bind_eq_some_iff] at h
  obtain ⟨u, hu, -⟩ := h
  exact ⟨u, (after?_eq_some_iff.1 hu).symm⟩

theorem Variable.pathsShown_of_untagged {t : Text} (h : Untagged readPath t) (ctx : RenderContext) :
    pathsShown ctx t = t ∧ pathsShowable ctx t = true := by
  rw [pathsShown, pathsShowable, h.scan_eq, rewritten_chars, allTags_chars]
  exact ⟨rfl, rfl⟩

theorem Variable.entryShown_of_calm (e : Value × Value) {x : Text} (hx : calm x) :
    entryShown e x = x ∧ entryShowable e x = true := by
  obtain ⟨key, value⟩ := e
  cases key with
  | str key =>
    have hscan := ((opening_readKey key).untagged hx).scan_eq
    simp [entryShown, entryShowable, keyShown, keyShowable, hscan]
  | _ => exact ⟨rfl, rfl⟩

theorem Variable.keysShown_of_calm (es : Entries) {x : Text} (hx : calm x) :
    keysShown es x = x ∧ keysShowable es x = true := by
  induction es with
  | nil => exact ⟨rfl, rfl⟩
  | cons e es ih =>
    obtain ⟨hshown, hshowable⟩ := entryShown_of_calm e hx
    rw [keysShowable, hshown, hshowable, ih.2, keysShown, List.foldl_cons, hshown]
    exact ⟨ih.1, rfl⟩

theorem Variable.tagsShown_of_calm (ctx : RenderContext) {x : Text} (hx : calm x) :
    tagsShown ctx (remove readEmpty x) = x ∧ tagsShowable ctx (remove readEmpty x) = true := by
  have hempty : remove readEmpty x = x := (bracketed_readEmpty.opening.untagged hx).replace_eq _
  rw [hempty, tagsShown, tagsShowable, (bracketed_readExpression.opening.untagged hx).scan_eq, rewritten_chars,
    allTags_chars]
  exact ⟨rfl, rfl⟩

theorem Variable.shown_of_calm {ctx : RenderContext} {x : Text} (hx : calm x) :
    shown ctx x = x ∧ showable ctx x = true := by
  obtain ⟨hpaths, hpathsShowable⟩ := pathsShown_of_untagged (bracketed_readPath.opening.untagged hx) ctx
  obtain ⟨hkeys, hkeysShowable⟩ := keysShown_of_calm ctx.vars hx
  obtain ⟨htags, htagsShowable⟩ := tagsShown_of_calm ctx hx
  rw [shown, showable, hpaths, hpathsShowable, hkeys, hkeysShowable, htags, htagsShowable]
  exact ⟨rfl, rfl⟩

/-- Nothing is shown for the tag of a first variable with too many digits. -/
theorem Variable.showable_eq_false {ctx : RenderContext} {key t : Text} {value : Value} {es : Entries}
    (hvars : ctx.vars = (.str key, value) :: es) (hpath : Untagged readPath t) (htag : occurs (readKey key) t = true)
    (hsafe : isUnsafeName key = false) (hvalue : value.showable = false) : showable ctx t = false := by
  have hkey : keyShowable key value t = false := by
    rw [keyShowable, allTags_const, hvalue, show (scan (readKey key) t).any isTag = true from htag]
    rfl
  rw [showable, (pathsShown_of_untagged hpath ctx).1, hvars, keysShowable, entryShowable, hsafe, hkey]
  simp

namespace Template

variable {ctx : RenderContext}

theorem settles_substituteVariables_wrap {body : Text} (h : body.all isPlain) :
    Settles (substituteVariables ctx (wrap body)) (Variable.showable ctx (wrap body))
      (Variable.shown ctx (wrap body)) := by
  have hgrave : Variable.grave ∉ wrap body := by
    have := (notMem_of_plain h).2.2
    simp only [wrap, List.mem_append, not_or]
    exact ⟨⟨by decide, this⟩, by decide⟩
  have h := settles_substituteVariables ctx (wrap body)
  rwa [(Variable.untagged_readEscaped hgrave).replace_eq] at h

theorem alone_eq (e : ExprTag) : alone ctx e =
    if Variable.showable ctx (wrap e.body) then .ok (Variable.shown ctx (wrap e.body))
    else .error (.fault .tooManyDigits) := settles_substituteVariables_wrap e.plain _

/-- A tag shows alone what its text shows, if anything. -/
theorem shownAlone_eq {e : ExprTag} (h : (alone ctx e).isOk) :
    shownAlone ctx e = Variable.shown ctx (wrap e.body) ∧ Variable.showable ctx (wrap e.body) = true := by
  cases hc : Variable.showable ctx (wrap e.body) with
  | true =>
    rw [shownAlone, alone_eq, hc]
    exact ⟨rfl, rfl⟩
  | false =>
    rw [alone_eq, hc] at h
    cases h

theorem ExprTag.noCall (e : ExprTag) : occursIn (text "user:") e.body = false := by
  have h := e.free
  simp only [isReservedBody, Bool.or_eq_false_iff] at h
  exact h.1.1

theorem untagged_call_shape (t : Template) {cap : Nat} (hw : t.Within cap 0) (hq : t.Quiet true ctx) :
    Untagged CallTag.read (t.shape ctx) := by
  cases t with
  | done => exact fun u hu hne => absurd (List.suffix_nil.1 hu) hne
  | plain t rest =>
    exact CallTag.opening_read.untagged_append (calm_of_notMem (notMem_of_plain t.2).1)
      (rest.untagged_call_shape hw hq)
  | expr e rest =>
    exact CallTag.opening_read.untagged_wrap (notMem_of_plain e.plain).1 (CallTag.read_wrap_eq_none e.noCall _)
      (rest.untagged_call_shape hw hq.2)
  | choice i yes others rest => exact absurd hw.1 (by simp)
  | loop f body alternative rest =>
    exact CallTag.opening_read.untagged_append hq.1.1 (rest.untagged_call_shape hw.2.2 hq.2.2.2)

theorem grave_notMem_shape (t : Template) {cap : Nat} (hw : t.Within cap 0) (hq : t.Quiet true ctx) :
    Variable.grave ∉ t.shape ctx := by
  cases t with
  | done => simp [shape]
  | plain t rest =>
    have ht := (notMem_of_plain t.2).2.2
    have hrest := rest.grave_notMem_shape hw hq
    simp [shape, ht, hrest]
  | expr e rest =>
    have he := (notMem_of_plain e.plain).2.2
    have hrest := rest.grave_notMem_shape hw hq.2
    have hbrace : Variable.grave ≠ '\x7b' ∧ Variable.grave ≠ '\x7d' := by decide
    simp [shape, wrap, Tag.opening, closing, he, hrest, hbrace]
  | choice i yes others rest => exact absurd hw.1 (by simp)
  | loop f body alternative rest =>
    have hrest := rest.grave_notMem_shape hw.2.2 hq.2.2.2
    simp [shape, hq.1.2, hrest]

/-- A text shows what its parts show, where what the first one shows opens no tag. -/
theorem shown_append (hn : ctx.vars.plainlyNamed) {x y u v : Text} (hcalm : calm u)
    (hx : Variable.shown ctx x = u ∧ Variable.showable ctx x = true)
    (hy : Variable.shown ctx y = v ∧ Variable.showable ctx y = true) :
    Variable.shown ctx (x ++ y) = u ++ v ∧ Variable.showable ctx (x ++ y) = true := by
  have hsealed : Sealed (Variable.shown ctx x) := hx.1 ▸ sealed_of_calm hcalm
  rw [(Variable.seamless_shown hn x hsealed).2, Variable.divides_showable hn x hsealed, hx.1, hx.2, hy.1, hy.2]
  exact ⟨rfl, rfl⟩

/-- A page without conditionals shows what it means. -/
theorem shown_shape (t : Template) {cap : Nat} (hn : ctx.vars.plainlyNamed) (hw : t.Within cap 0)
    (hq : t.Quiet true ctx) :
    Variable.shown ctx (t.shape ctx) = t.reading ctx ∧ Variable.showable ctx (t.shape ctx) = true := by
  cases t with
  | done => exact Variable.shown_of_calm rfl
  | plain t rest =>
    have hcalm : calm t.1 := calm_of_notMem (notMem_of_plain t.2).1
    exact shown_append hn hcalm (Variable.shown_of_calm hcalm) (rest.shown_shape hn hw hq)
  | expr e rest =>
    obtain ⟨hshown, hcalm⟩ := hq.1 rfl
    obtain ⟨hown, hshowable⟩ := shownAlone_eq hshown
    exact shown_append hn hcalm ⟨hown.symm, hshowable⟩ (rest.shown_shape hn hw hq.2)
  | choice i yes others rest => exact absurd hw.1 (by simp)
  | loop f body alternative rest =>
    exact shown_append hn hq.1.1 (Variable.shown_of_calm hq.1.1) (rest.shown_shape hn hw.2.2 hq.2.2.2)

theorem gives_runOnce {render : RenderContext → Text → Render Text} {cap depth : Nat} (maxPasses : Int)
    (hr : Renders render cap depth) (hn : ctx.vars.plainlyNamed)
    (hcap : ctx.maxConditionalPasses.toNat = cap) (t : Template) (hd : t.loops ≤ depth)
    (hw : t.Within cap cap) (hq : t.Quiet true ctx) :
    Gives ((Pipeline.standard maxPasses).runOnce render ctx t.print) (t.reading ctx) := by
  obtain ⟨u, hu, hwu, hqu, hread⟩ := t.gives_passes cap hw hq
  have hloops := t.gives_expandLoops hr hn hcap hd hw hq
  have hchoices : Gives (resolveConditionals ctx (t.shape ctx)) (u.shape ctx) := by
    rw [resolveConditionals, hcap]
    exact hu
  have hcalls : Gives (resolveCalls ctx (u.shape ctx)) (u.shape ctx) := by
    rw [resolveCalls, (u.untagged_call_shape hwu hqu).scan_eq, replaceM_chars]
    exact gives_pure _
  have hnames : Gives (substituteVariables ctx (u.shape ctx)) (t.reading ctx) := by
    obtain ⟨hshown, hshowable⟩ := u.shown_shape hn hwu hqu
    have h := settles_substituteVariables ctx (u.shape ctx)
    rw [(Variable.untagged_readEscaped (u.grave_notMem_shape hwu hqu)).replace_eq, hshown, hread] at h
    exact h.gives hshowable
  exact hloops.bind (hchoices.bind (hcalls.bind (hnames.bind (gives_pure _))))

theorem maxPasses_standard {maxPasses : Int} (h : maxPasses ≠ 0) :
    (Pipeline.standard maxPasses).maxPasses = maxPasses := if_neg h

theorem renders_execute {maxPasses : Int} (hpasses : 1 ≤ maxPasses) (cap depth : Nat) :
    Renders ((Pipeline.standard maxPasses).execute depth) cap depth := by
  induction depth with
  | zero => exact fun t ctx hd => absurd hd (by omega)
  | succ depth ih =>
    intro t ctx hd hn hcap hw hq
    have honce := gives_runOnce maxPasses ih hn hcap t (by omega) hw hq
    have hlimit : (Pipeline.standard maxPasses).maxPasses.toNat = (maxPasses.toNat - 1) + 1 := by
      rw [maxPasses_standard (by omega)]
      omega
    have hdone : remains (t.reading ctx) = false := remains_of_calm (t.calm_reading hq)
    rw [Pipeline.execute, hlimit, Pipeline.repeatPasses]
    refine honce.bind ?_
    rw [hdone, Bool.not_false, Bool.or_true, if_pos rfl]
    exact gives_pure _

/-- One pass shows a tag as it is shown alone. -/
theorem settles_runOnce_expr {render : RenderContext → Text → Render Text} (maxPasses : Int) (e : ExprTag) :
    Settles ((Pipeline.standard maxPasses).runOnce render ctx (wrap e.body)) (Variable.showable ctx (wrap e.body))
      (Variable.shown ctx (wrap e.body)) := by
  obtain ⟨ho, hc, hgrave⟩ := notMem_of_plain e.plain
  have hloop := LoopTag.read_wrap [] hc
  have hbranch := BranchTag.read_wrap [] hc
  have hcall := CallTag.read_wrap_eq_none e.noCall []
  rw [Option.isNone_iff_eq_none.1 e.noLoop, Option.map_none, List.append_nil] at hloop
  rw [Option.isNone_iff_eq_none.1 e.noBranch, Option.map_none, List.append_nil] at hbranch
  rw [List.append_nil] at hcall
  have hloops : Gives (expandLoops render ctx (wrap e.body)) (wrap e.body) := by
    rw [expandLoops_of_untagged (LoopTag.bracketed_read.opening.untagged_wrap_nil ho hloop)]
    exact gives_pure _
  have hchoices : Gives (resolveConditionals ctx (wrap e.body)) (wrap e.body) := by
    rw [resolveConditionals_of_untagged (BranchTag.bracketed_read.opening.untagged_wrap_nil ho hbranch)]
    exact gives_pure _
  have hcalls : Gives (resolveCalls ctx (wrap e.body)) (wrap e.body) := by
    rw [resolveCalls_of_untagged (CallTag.opening_read.untagged_wrap_nil ho hcall)]
    exact gives_pure _
  have hlast : Settles (substituteVariables ctx (wrap e.body) >>= pure) (Variable.showable ctx (wrap e.body))
      (Variable.shown ctx (wrap e.body)) := by
    rw [bind_pure]
    exact settles_substituteVariables_wrap e.plain
  exact hloops.settles.bind (hchoices.settles.bind (hcalls.settles.bind hlast))

/-- A page that is a tag with too many digits is not rendered. -/
theorem fails_execute_expr {maxPasses : Int} (hpasses : 1 ≤ maxPasses) {e : ExprTag}
    (h : Variable.showable ctx (wrap e.body) = false) (depth : Nat) :
    Fails ((Pipeline.standard maxPasses).execute (depth + 1) ctx (Template.expr e .done).print)
      (.fault .tooManyDigits) := by
  have hlimit : (Pipeline.standard maxPasses).maxPasses.toNat = (maxPasses.toNat - 1) + 1 := by
    rw [maxPasses_standard (by omega)]
    omega
  rw [Pipeline.execute, hlimit, Pipeline.repeatPasses, Template.print, Template.print, List.append_nil]
  exact ((settles_runOnce_expr maxPasses e).fails h).bind _

/-- A page is rendered to what it means, if its conditionals do not nest too deep for the passes that
resolve them, no variable has a name with a closing brace, each tag shows a text, and nothing that is shown looks
like the start of a tag or, in a loop, holds an accent. -/
theorem execute_print {maxPasses : Int} (hpasses : 1 ≤ maxPasses) (t : Template) (ctx : RenderContext)
    (hnames : ctx.vars.plainlyNamed)
    (hwithin : t.Within ctx.maxConditionalPasses.toNat ctx.maxConditionalPasses.toNat)
    (hquiet : t.Quiet true ctx) (depth : Nat) (hdepth : t.loops < depth) (s : RenderState) :
    (((Pipeline.standard maxPasses).execute depth ctx t.print).runFrom s).1 = .ok (t.reading ctx) :=
  renders_execute hpasses _ depth t ctx hdepth hnames rfl hwithin hquiet s

section Samples

def gap : Gap := ⟨[' '], by decide⟩

def bare : WordTag := ⟨⟨[], rfl⟩, ⟨[], rfl⟩⟩

def tagA : ExprTag := ⟨text "a", by decide, by decide, by decide, by decide +kernel⟩

def tagB : ExprTag := ⟨text "b", by decide, by decide, by decide, by decide +kernel⟩

def tagSum : ExprTag := ⟨text "1+1", by decide, by decide, by decide, by decide +kernel⟩

def ifA : IfTag := ⟨⟨[], rfl⟩, gap, ⟨text "a", by decide⟩⟩

/-- A loop that binds `a`. -/
def forA : ForTag :=
  ⟨⟨[], rfl⟩, gap, ⟨text "a", by decide⟩, none, gap, gap, ⟨text "xs", by decide⟩⟩

/-- Conditionals in the body of a loop, and a part for an empty collection. -/
def samplePage : Template :=
  .loop forA
    (.choice ifA (.expr tagA .done) (.otherwise bare (.plain ⟨text "-", by decide⟩ .done) bare) .done)
    (.ifEmpty bare (.plain ⟨text "none", by decide⟩ .done) bare)
    (.plain ⟨text "!", by decide⟩ .done)

def sampleContext (vars : Entries) : RenderContext := ⟨vars, ⟨0.5, 0, 1.0⟩, 20, 0⟩

/-- What the standard passes make of a page without user functions. -/
def sampleResult (vars : Entries) (t : Template) : Except Halt Text :=
  (((Pipeline.standard 10).execute 3 (sampleContext vars) t.print).runFrom (.start none)).1

def sampleItems : Entries := [(.str (text "xs"), .list [.nat 1, .nat 0, .nat 2])]

theorem execute_print_sample : sampleResult sampleItems samplePage = .ok (text "1-2!") := by
  have hnames : Entries.plainlyNamed sampleItems := by
    intro k v h
    obtain ⟨⟨⟩, -⟩ : Value.str k = .str (text "xs") ∧ _ := by simpa [sampleItems] using h
    decide
  have h := execute_print (show (1 : Int) ≤ 10 by decide) samplePage (sampleContext sampleItems) hnames
    (by decide) (by decide +kernel) 3 (by decide) (.start none)
  rw [sampleResult, h]
  decide +kernel

/-- A number with too many digits is not shown. -/
theorem sampleResult_overlong :
    sampleResult [(.str (text "a"), .overlong)] (.expr tagA .done) = .error (.fault .tooManyDigits) := by
  have hpath : Untagged Variable.readPath (wrap tagA.body) := untagged_of_not_occurs (by decide +kernel)
  have hshow : Variable.showable (sampleContext [(.str (text "a"), .overlong)]) (wrap tagA.body) = false :=
    Variable.showable_eq_false rfl hpath (by decide +kernel) (by decide) Value.showable_overlong
  rw [sampleResult]
  exact fails_execute_expr (by decide) hshow 2 (.start none)

/-- Rendering differs from the meaning where shown text opens a tag, or lends a tag its first brace, where a
name spans two tags, where a loop in a branch that is not chosen shows a tag, and where loops show accents; and a
number with too many digits ends it. -/
theorem execute_print_limits :
    let opened : Entries := [(.str (text "a"), .str (text "\x7b\x7buser: f()\x7d\x7d"))]
    let lent : Entries := [(.str (text "a"), .str (text "\x7b"))]
    let spanned : Entries := [(.str (text "a\x7d\x7d\x7b\x7bb"), .str (text "x"))]
    let closed : Entries := [(.str (text "xs"), .list [.str (text "\x7b\x7bendif\x7d\x7d")])]
    let accented : Entries := [(.str (text "xs"), .list [.str [Variable.grave]])]
    let unchosen : Template := .choice ⟨⟨[], rfl⟩, gap, ⟨text "0", by decide⟩⟩
      (.loop forA (.expr tagA .done) (.close bare) .done) (.close bare) (.plain ⟨text "!", by decide⟩ .done)
    let quoted : Template := .loop forA (.expr tagA .done) (.close bare)
      (.expr tagSum (.loop forA (.expr tagA .done) (.close bare) .done))
    (sampleResult opened (.expr tagA .done) = .ok [] ∧
      reading (.expr tagA .done) (sampleContext opened) = text "\x7b\x7buser: f()\x7d\x7d") ∧
    (sampleResult lent (.expr tagA (.expr tagSum .done)) = .ok [] ∧
      reading (.expr tagA (.expr tagSum .done)) (sampleContext lent) = text "\x7b2") ∧
    (sampleResult spanned (.expr tagA (.expr tagB .done)) = .ok (text "x") ∧
      reading (.expr tagA (.expr tagB .done)) (sampleContext spanned) = []) ∧
    (sampleResult closed unchosen = .ok (text "\x7b\x7bendif\x7d\x7d!") ∧
      unchosen.reading (sampleContext closed) = text "!") ∧
    (sampleResult accented quoted = .ok (text "2") ∧
      quoted.reading (sampleContext accented) = [Variable.grave, '2', Variable.grave]) ∧
    sampleResult [(.str (text "a"), .overlong)] (.expr tagA .done) = .error (.fault .tooManyDigits) := by
  intro opened lent spanned closed accented unchosen quoted
  refine ⟨?_, ?_, ?_, ?_, ?_, sampleResult_overlong⟩ <;> decide +kernel

end Samples

end Template

end PageTemplate
