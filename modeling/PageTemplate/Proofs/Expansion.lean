import PageTemplate.Proofs.Spelling
import PageTemplate.Proofs.Substitution
set_option autoImplicit false
/-!
The loops of a page. The tags of conditionals and of expressions are no loop tags, so the search for loops
finds the outermost ones with the bodies they were written with, and each is replaced by its expansion.
-/
namespace PageTemplate

open Piece Tag

theorem Template.inert_plain {α : Type} {read : TagReader α} (hr : Opening read) (t : Plain) :
    Inert read t.1 :=
  hr.inert (calm_of_notMem (notMem_of_plain t.2).1)

namespace LoopTag

open Template

theorem inert_wrap {body : Text} (hb : body.all isPlain) (h : ofBody? body = none) :
    Inert LoopTag.read (wrap body) := by
  obtain ⟨ho, hc, -⟩ := notMem_of_plain hb
  refine bracketed_read.inert_wrap ho hc ?_
  rw [← List.append_nil (wrap body), read_wrap [] hc, h, Option.map_none]

theorem scan_wrap {body : Text} {a : LoopTag} (hb : body.all isPlain) (h : ofBody? body = some a)
    (rest : Text) : scan LoopTag.read (wrap body ++ rest) = .tag a (wrap body) :: scan LoopTag.read rest := by
  refine scan_of_read (wrap_ne_nil body) ?_
  rw [read_wrap rest (notMem_of_plain hb).2.1, h, Option.map_some]

theorem scan_for (f : ForTag) (rest : Text) : scan LoopTag.read (wrap f.body ++ rest) =
    .tag (.opener f.names (trim f.source.1)) (wrap f.body) :: scan LoopTag.read rest :=
  scan_wrap f.plain_body (ofBody?_for f) rest

theorem scan_endfor (w : WordTag) (rest : Text) : scan LoopTag.read (wrap (w.body (text "endfor")) ++ rest) =
    .tag .closer (wrap (w.body (text "endfor"))) :: scan LoopTag.read rest :=
  scan_wrap (w.plain_body (by decide)) (ofBody?_word w (by decide) (by decide) fun _ => rfl) rest

theorem scan_empty (w : WordTag) (rest : Text) : scan LoopTag.read (wrap (w.body (text "empty")) ++ rest) =
    .tag .alternative (wrap (w.body (text "empty"))) :: scan LoopTag.read rest :=
  scan_wrap (w.plain_body (by decide)) (ofBody?_word w (by decide) (by decide) fun _ => rfl) rest

theorem inert_expr (e : ExprTag) : Inert LoopTag.read (wrap e.body) :=
  inert_wrap e.plain (Option.isNone_iff_eq_none.1 e.noLoop)

theorem inert_if (i : IfTag) : Inert LoopTag.read (wrap i.body) := inert_wrap i.plain_body (ofBody?_if i)

theorem inert_elseIf (e : ElseIfTag) : Inert LoopTag.read (wrap e.body) :=
  inert_wrap e.plain_body (ofBody?_elseIf e)

theorem inert_else (w : WordTag) : Inert LoopTag.read (wrap (w.body (text "else"))) :=
  inert_wrap (w.plain_body (by decide)) (ofBody?_word w (by decide) (by decide) fun _ => rfl)

theorem inert_endif (w : WordTag) : Inert LoopTag.read (wrap (w.body (text "endif"))) :=
  inert_wrap (w.plain_body (by decide)) (ofBody?_word w (by decide) (by decide) fun _ => rfl)

end LoopTag

namespace Loop

@[reducible] def collector : Collector LoopTag Enclosed where
  read := LoopTag.read
  enclose := enclose
  push := Enclosed.push
  push_nil _ := rfl
  push_push x y e := by simp [Enclosed.push]
  enclose_char _ _ _ := rfl

/-- The texts to which an enclosing loop pays no attention. -/
abbrev Kept (depth after : Nat) (x : Text) : Prop := collector.Kept depth after x

theorem kept_iff {a b : Nat} {x : Text} : Kept a b x ↔
    ∀ y, enclose a (scan LoopTag.read (x ++ y)) = (enclose b (scan LoopTag.read y)).map (·.push x) := Iff.rfl

theorem kept_for (f : Template.ForTag) (d : Nat) : Kept d (d + 1) (wrap f.body) := by
  refine kept_iff.2 fun y => ?_
  rw [LoopTag.scan_for, enclose]

theorem kept_endfor (w : Template.WordTag) (d : Nat) : Kept (d + 1) d (wrap (w.body (text "endfor"))) := by
  refine kept_iff.2 fun y => ?_
  rw [LoopTag.scan_endfor, enclose]

theorem kept_empty (w : Template.WordTag) (d : Nat) : Kept (d + 1) (d + 1) (wrap (w.body (text "empty"))) := by
  refine kept_iff.2 fun y => ?_
  rw [LoopTag.scan_empty, enclose]
  rfl

end Loop

mutual

theorem Template.kept_print (t : Template) (d : Nat) : Loop.Kept d d t.print := by
  cases t with
  | done => exact Collector.kept_nil d
  | plain t rest =>
    exact (Collector.kept_of_inert (Template.inert_plain LoopTag.bracketed_read.opening t) d).append
      (rest.kept_print d)
  | expr e rest => exact (Collector.kept_of_inert (LoopTag.inert_expr e) d).append (rest.kept_print d)
  | choice i yes others rest =>
    exact (Collector.kept_of_inert (LoopTag.inert_if i) d).append
      ((yes.kept_print d).append ((others.kept_print d).append (rest.kept_print d)))
  | loop f body alternative rest =>
    exact (Loop.kept_for f d).append
      ((body.kept_print (d + 1)).append ((alternative.kept_print d).append (rest.kept_print d)))

theorem Branches.kept_print (b : Branches) (d : Nat) : Loop.Kept d d b.print := by
  cases b with
  | close e => exact Collector.kept_of_inert (LoopTag.inert_endif e) d
  | otherwise e no f =>
    exact (Collector.kept_of_inert (LoopTag.inert_else e) d).append
      ((no.kept_print d).append (Collector.kept_of_inert (LoopTag.inert_endif f) d))
  | elseIf e yes others =>
    exact (Collector.kept_of_inert (LoopTag.inert_elseIf e) d).append
      ((yes.kept_print d).append (others.kept_print d))

theorem Alternative.kept_print (a : Alternative) (d : Nat) : Loop.Kept (d + 1) d a.print := by
  cases a with
  | close e => exact Loop.kept_endfor e d
  | ifEmpty e part f =>
    exact (Loop.kept_empty e d).append ((part.kept_print (d + 1)).append (Loop.kept_endfor f d))

end

/-- The part for an empty collection, if there is one. -/
def Alternative.text? : Alternative → Option Text
  | .close _ => none
  | .ifEmpty _ part _ => some part.print

namespace Loop

open Template Render

theorem enclose_alternative (a : Alternative) (u : Text) : ∃ o,
    enclose 0 (scan LoopTag.read (a.print ++ u)) = some ⟨[], o, scan LoopTag.read u⟩ ∧
      o.map (·.2) = a.text? := by
  cases a with
  | close e => exact ⟨none, by rw [Alternative.print, LoopTag.scan_endfor, enclose], rfl⟩
  | ifEmpty e part f =>
    refine ⟨some (wrap (e.body (text "empty")), part.print), ?_, rfl⟩
    rw [Alternative.print, List.append_assoc, LoopTag.scan_empty, enclose, List.append_assoc,
      Loop.kept_iff.1 (part.kept_print 0), LoopTag.scan_endfor, enclose]
    simp [Enclosed.push, Enclosed.split]

theorem parts_for (f : ForTag) (body : Template) (a : Alternative) (u : Text) :
    parts (scan LoopTag.read (wrap f.body ++ (body.print ++ (a.print ++ u)))) =
      .loop ⟨f.names, trim f.source.1, body.print, a.text?⟩ :: parts (scan LoopTag.read u) := by
  obtain ⟨o, ho, ha⟩ := enclose_alternative a u
  have hbody : enclose 0 (scan LoopTag.read (body.print ++ (a.print ++ u))) =
      some ⟨body.print, o, scan LoopTag.read u⟩ := by
    rw [Loop.kept_iff.1 (body.kept_print 0), ho]
    simp [Enclosed.push]
  rw [LoopTag.scan_for, parts_enclosed _ _ _ hbody, ha]

section Expanding

variable {render : RenderContext → Text → Render Text} {ctx : RenderContext}

theorem gives_expandParts_inert {x y r : Text} (hx : Inert LoopTag.read x)
    (h : Gives (expandParts render ctx (parts (scan LoopTag.read y))) r) :
    Gives (expandParts render ctx (parts (scan LoopTag.read (x ++ y)))) (x ++ r) := by
  rw [hx]
  clear hx
  induction x with
  | nil => exact h
  | cons c cs ih =>
    rw [chars_cons, List.cons_append, parts, expandParts]
    exact ih.bind (gives_pure _)

theorem entriesOf?_ne_nil {keyed : Bool} {v : Value} {es : List (Value × Value)}
    (h : entriesOf? keyed v = some es) (hne : isEmptyCollection v = false) : es ≠ [] := by
  rintro rfl
  cases v with
  | map es => cases es <;> cases keyed <;> simp_all [entriesOf?, isEmptyCollection]
  | list xs => cases xs <;> simp_all [entriesOf?, isEmptyCollection]
  | tuple xs => cases xs <;> simp_all [entriesOf?, isEmptyCollection]
  | _ => simp [entriesOf?] at h

/-- The iterations of a loop, if no body shows a tag. -/
theorem gives_iterate {l : Loop} {body : RenderContext → Text} {total : Nat} (es : List (Value × Value))
    (index : Nat)
    (h : ∀ p ∈ es.zipIdx index, Gives (render (ctx.bind (bindings l.names total p.2 p.1.1 p.1.2)) l.body)
      (body (ctx.bind (bindings l.names total p.2 p.1.1 p.1.2))))
    (hcalm : ∀ p ∈ es.zipIdx index, calm (body (ctx.bind (bindings l.names total p.2 p.1.1 p.1.2)))) :
    Gives (iterate render ctx l total index es)
      ((es.zipIdx index).flatMap fun p => body (ctx.bind (bindings l.names total p.2 p.1.1 p.1.2))) := by
  induction es generalizing index with
  | nil => exact gives_pure []
  | cons e es ih =>
    obtain ⟨key, value⟩ := e
    have hfree : ∀ word, '\x7d' ∉ word →
        occurs (readKeyword word) (body (ctx.bind (bindings l.names total index key value))) = false :=
      fun word hw => occurs_eq_false_iff.2 ((bracketed_readKeyword hw).opening.untagged
        (hcalm ((key, value), index) (by simp)))
    have hrest := ih (index + 1) (fun p hp => h p (by simp [hp])) (fun p hp => hcalm p (by simp [hp]))
    refine (h ((key, value), index) (by simp)).bind ?_
    rw [readBreak, readContinue, hfree _ (by decide), hfree _ (by decide)]
    exact hrest.bind (gives_pure _)

theorem keyed_eq (f : ForTag) : decide (1 < f.names.length) = f.second.isSome := by
  unfold ForTag.names
  cases f.second <;> rfl

theorem filter_refused_eq_nil_iff (names : List Text) :
    names.filter refused = [] ↔ ¬ names.any refused := by
  simp [List.filter_eq_nil_iff]

theorem expansion_of_iterations {f : ForTag} {body part : RenderContext → Text} {cs : List RenderContext}
    (h : f.scopes? ctx = some cs) (hne : cs ≠ []) : f.expansion body part ctx = cs.flatMap body := by
  obtain ⟨c, cs, rfl⟩ := List.exists_cons_of_ne_nil hne
  rw [ForTag.expansion, h]

theorem gives_iterations {f : ForTag} {body : Template} {a : Alternative} {es : List (Value × Value)}
    (hs : f.scopes? ctx = some (es.zipIdx.map fun p => ctx.bind (bindings f.names es.length p.2 p.1.1 p.1.2)))
    (hne : es ≠ [])
    (hbody : ∀ c ∈ (f.scopes? ctx).getD [], Gives (render c body.print) (body.reading c))
    (hcalm : ∀ c ∈ (f.scopes? ctx).getD [], calm (body.reading c)) :
    Gives (iterate render ctx ⟨f.names, trim f.source.1, body.print, a.text?⟩ es.length 0 es)
      (f.expansion body.reading a.reading ctx) := by
  rw [hs, Option.getD_some] at hbody hcalm
  rw [expansion_of_iterations hs (by simpa using hne), List.flatMap_map]
  exact gives_iterate es 0 (fun p hp => hbody _ (List.mem_map_of_mem hp))
    fun p hp => hcalm _ (List.mem_map_of_mem hp)

theorem gives_alternative {f : ForTag} {body : Template} {a : Alternative}
    (hs : f.scopes? ctx = some [])
    (hpart : ∀ t, a.text? = some t → Gives (render ctx t) (a.reading ctx))
    (hnone : a.text?.getD [] = [] → a.reading ctx = []) :
    Gives (match a.text? with
      | some (c :: cs) => render ctx (c :: cs)
      | _ => pure []) (f.expansion body.reading a.reading ctx) := by
  rw [ForTag.expansion, hs]
  split
  · next c cs ht => exact hpart _ ht
  · next hno =>
    have hnil : a.text?.getD [] = [] := by
      cases ht : a.text? with
      | none => rfl
      | some t =>
        cases t with
        | nil => rfl
        | cons c cs => exact absurd ht (hno c cs)
    dsimp only
    rw [hnone hnil]
    exact gives_pure []

/-- What a loop expands to, if its bodies are rendered to what they mean. -/
theorem gives_expand {f : ForTag} {body : Template} {a : Alternative}
    (hbody : ∀ c ∈ (f.scopes? ctx).getD [], Gives (render c body.print) (body.reading c))
    (hcalm : ∀ c ∈ (f.scopes? ctx).getD [], calm (body.reading c))
    (hpart : f.scopes? ctx = some [] → ∀ t, a.text? = some t → Gives (render ctx t) (a.reading ctx))
    (hnone : a.text?.getD [] = [] → a.reading ctx = []) :
    Gives (expand render ctx ⟨f.names, trim f.source.1, body.print, a.text?⟩)
      (f.expansion body.reading a.reading ctx) := by
  unfold expand
  dsimp only
  split
  · next name more hn =>
    have hany : f.names.any refused := by
      have := mt (filter_refused_eq_nil_iff f.names).2 (by simp [hn])
      simpa using this
    rw [ForTag.expansion, ForTag.scopes?, if_pos hany]
    exact (gives_report _).bind (gives_pure [])
  · next hn =>
    have hany := (filter_refused_eq_nil_iff f.names).1 hn
    refine (gives_evaluate ctx _).bind ?_
    cases hv : (Expr.evaluate ctx.surroundings (trim f.source.1)).result with
    | error e =>
      rw [ForTag.expansion, ForTag.scopes?, if_neg hany, hv]
      exact (gives_report _).bind (gives_pure [])
    | ok v =>
      have hs : f.scopes? ctx = if isEmptyCollection v then some [] else
          (entriesOf? f.second.isSome v).map fun es =>
            es.zipIdx.map fun p => ctx.bind (bindings f.names es.length p.2 p.1.1 p.1.2) := by
        rw [ForTag.scopes?, if_neg hany, hv]
      cases he : isEmptyCollection v with
      | true =>
        rw [he, if_pos rfl] at hs
        simp only [he, if_pos]
        exact gives_alternative hs (hpart hs) hnone
      | false =>
        simp only [he, keyed_eq]
        cases hes : entriesOf? f.second.isSome v with
        | none =>
          rw [he, hes] at hs
          rw [ForTag.expansion, show f.scopes? ctx = none from hs]
          exact (gives_report _).bind (gives_pure [])
        | some es =>
          rw [he, hes] at hs
          exact gives_iterations hs (entriesOf?_ne_nil hes he) hbody hcalm

end Expanding

end Loop

theorem Template.reading_of_print_eq_nil (t : Template) (ctx : RenderContext) (h : t.print = []) :
    t.reading ctx = [] := by
  cases t with
  | done => rfl
  | plain t rest =>
    simp only [print, List.append_eq_nil_iff] at h
    simp [reading, h.1, rest.reading_of_print_eq_nil ctx h.2]
  | _ => simp [print, wrap_ne_nil] at h

mutual

theorem Template.calm_reading (t : Template) {ctx : RenderContext} (h : t.Quiet true ctx) :
    calm (t.reading ctx) := by
  cases t with
  | done => rfl
  | plain t rest => exact calm_append (calm_of_notMem (notMem_of_plain t.2).1) (rest.calm_reading h)
  | expr e rest => exact calm_append (h.1 rfl).2 (rest.calm_reading h.2)
  | choice i yes others rest =>
    obtain ⟨hyes, hothers, hrest⟩ := h
    refine calm_append ?_ (rest.calm_reading hrest)
    cases hi : i.holds ctx with
    | true => exact yes.calm_reading (by simpa [hi] using hyes)
    | false => exact others.calm_reading (by simpa [hi] using hothers)
  | loop f body alternative rest => exact calm_append h.1.1 (rest.calm_reading h.2.2.2)

theorem Branches.calm_reading (b : Branches) {ctx : RenderContext} (h : b.Quiet true ctx) :
    calm (b.reading ctx) := by
  cases b with
  | close e => rfl
  | otherwise e no f => exact no.calm_reading h
  | elseIf e yes others =>
    simp only [Branches.reading]
    cases hi : e.test.holds ctx with
    | true => exact yes.calm_reading (by simpa [hi] using h.1)
    | false => exact others.calm_reading (by simpa [hi] using h.2)

end

mutual

/-- The text of a page with its loops expanded. -/
def Template.shape : Template → RenderContext → Text
  | .done, _ => []
  | .plain t rest, ctx => t.1 ++ rest.shape ctx
  | .expr e rest, ctx => wrap e.body ++ rest.shape ctx
  | .choice i yes others rest, ctx => wrap i.body ++ (yes.shape ctx ++ (others.shape ctx ++ rest.shape ctx))
  | .loop f body alternative rest, ctx => f.expansion body.reading alternative.reading ctx ++ rest.shape ctx

def Branches.shape : Branches → RenderContext → Text
  | .close e, _ => wrap (e.body (text "endif"))
  | .otherwise e no f, ctx => wrap (e.body (text "else")) ++ (no.shape ctx ++ wrap (f.body (text "endif")))
  | .elseIf e yes others, ctx => wrap e.body ++ (yes.shape ctx ++ others.shape ctx)

end

theorem Loop.plainlyNamed_bindings {names : List Text} (h : ∀ n ∈ names, '\x7d' ∉ n) (total index : Nat)
    (key value : Value) : (bindings names total index key value).plainlyNamed := by
  have hfold : ∀ (others : List Text) (base : Entries), base.plainlyNamed → (∀ n ∈ others, '\x7d' ∉ n) →
      Entries.plainlyNamed (others.foldl (fun es name => es.put (.str name) value) base) := by
    intro others
    induction others with
    | nil => exact fun base hb _ => hb
    | cons n others ih =>
      intro base hb hn
      refine ih _ (Entries.plainlyNamed_put hb ?_ value) fun m hm => hn m (by simp [hm])
      rintro k ⟨⟩
      exact hn n (by simp)
  cases names with
  | nil => exact fun k v hm => absurd hm (by simp [bindings])
  | cons primary others =>
    have hp : '\x7d' ∉ primary := h primary (by simp)
    refine hfold others _ ?_ fun n hn => h n (by simp [hn])
    refine Entries.plainlyNamed_overlay (fun k v hm => absurd hm (by simp)) fun k v hm => ?_
    simp only [List.mem_cons, Prod.mk.injEq, Value.str.injEq, List.not_mem_nil, or_false] at hm
    rcases hm with ⟨rfl, -⟩ | ⟨rfl, -⟩ | ⟨rfl, -⟩ | ⟨rfl, -⟩ <;> simp [hp, text]

theorem Template.ForTag.plainlyNamed_scope {f : ForTag} {ctx c : RenderContext}
    (h : ctx.vars.plainlyNamed) (hc : c ∈ (f.scopes? ctx).getD []) :
    c.vars.plainlyNamed ∧ c.maxConditionalPasses = ctx.maxConditionalPasses := by
  have hnames : ∀ n ∈ f.names, '\x7d' ∉ n := by
    have hword : ∀ w : Word, '\x7d' ∉ w.1 := fun w => (notMem_of_plain (all_plain_of_word w.2.2)).2.1
    intro n hn
    rw [names] at hn
    cases hs : f.second with
    | none =>
      obtain rfl : n = f.first.1 := by simpa [hs] using hn
      exact hword f.first
    | some s =>
      rcases (show n = f.first.1 ∨ n = s.name.1 by simpa [hs] using hn) with rfl | rfl
      · exact hword f.first
      · exact hword s.name
  rw [scopes?] at hc
  split at hc
  · simp at hc
  · split at hc
    · simp at hc
    · next v hv =>
      split at hc
      · simp at hc
      · cases hes : Loop.entriesOf? f.second.isSome v with
        | none => simp [hes] at hc
        | some es =>
          simp only [hes, Option.map_some, Option.getD_some, List.mem_map] at hc
          obtain ⟨p, -, rfl⟩ := hc
          exact ⟨Entries.plainlyNamed_overlay h (Loop.plainlyNamed_bindings hnames _ _ _ _), rfl⟩

/-- Pages whose loops nest less than `depth` deep are rendered to what they mean. -/
def Renders (render : RenderContext → Text → Render Text) (cap depth : Nat) : Prop :=
  ∀ (t : Template) (ctx : RenderContext), t.loops < depth → ctx.vars.plainlyNamed →
    ctx.maxConditionalPasses.toNat = cap → t.Within cap cap → t.Quiet true ctx →
    Render.Gives (render ctx t.print) (t.reading ctx)

theorem Alternative.text?_getD (a : Alternative) (ctx : RenderContext) (h : a.text?.getD [] = []) :
    a.reading ctx = [] := by
  cases a with
  | close e => rfl
  | ifEmpty e part f => exact part.reading_of_print_eq_nil ctx h

section Phase

variable {render : RenderContext → Text → Render Text} {cap depth : Nat} {ctx : RenderContext}

theorem Renders.gives_expand (hr : Renders render cap depth) (hn : ctx.vars.plainlyNamed)
    (hcap : ctx.maxConditionalPasses.toNat = cap) {f : Template.ForTag} {body : Template} {a : Alternative}
    (hdepth : body.loops < depth ∧ a.loops < depth) (hw : body.Within cap cap ∧ a.Within cap)
    (hbody : ∀ c ∈ (f.scopes? ctx).getD [], body.Quiet true c) (ha : f.scopes? ctx = some [] → a.Quiet ctx) :
    Render.Gives (Loop.expand render ctx ⟨f.names, trim f.source.1, body.print, a.text?⟩)
      (f.expansion body.reading a.reading ctx) := by
  refine Loop.gives_expand (fun c hc => ?_) (fun c hc => body.calm_reading (hbody c hc)) (fun hs t ht => ?_)
    (a.text?_getD ctx)
  · obtain ⟨hnamed, hsame⟩ := f.plainlyNamed_scope hn hc
    exact hr body c hdepth.1 hnamed (by rw [hsame, hcap]) hw.1 (hbody c hc)
  · cases a with
    | close e => simp [Alternative.text?] at ht
    | ifEmpty e part f =>
      obtain rfl := Option.some.inj ht
      exact hr part ctx hdepth.2 hn hcap hw.2 (ha hs)

/-- A text is expanded to another one, whatever follows it. -/
def Loop.Expands (render : RenderContext → Text → Render Text) (ctx : RenderContext) (x y : Text) : Prop :=
  ∀ u r, Render.Gives (expandParts render ctx (parts (scan LoopTag.read u))) r →
    Render.Gives (expandParts render ctx (parts (scan LoopTag.read (x ++ u)))) (y ++ r)

theorem Loop.Expands.append {x y x' y' : Text} (h : Expands render ctx x y) (h' : Expands render ctx x' y') :
    Expands render ctx (x ++ x') (y ++ y') := by
  intro u r hu
  rw [List.append_assoc, List.append_assoc]
  exact h _ _ (h' u r hu)

theorem Loop.expands_of_inert {x : Text} (h : Inert LoopTag.read x) : Expands render ctx x x :=
  fun _ _ hu => gives_expandParts_inert h hu

mutual

theorem Template.expands_print (hr : Renders render cap depth) (hn : ctx.vars.plainlyNamed)
    (hcap : ctx.maxConditionalPasses.toNat = cap) (t : Template) {k : Nat} {live : Bool}
    (hd : t.loops ≤ depth) (hw : t.Within cap k) (hq : t.Quiet live ctx) :
    Loop.Expands render ctx t.print (t.shape ctx) := by
  cases t with
  | done => exact fun u r hu => hu
  | plain t rest =>
    exact (Loop.expands_of_inert (Template.inert_plain LoopTag.bracketed_read.opening t)).append
      (rest.expands_print hr hn hcap hd hw hq)
  | expr e rest =>
    exact (Loop.expands_of_inert (LoopTag.inert_expr e)).append (rest.expands_print hr hn hcap hd hw hq.2)
  | choice i yes others rest =>
    simp only [Template.loops, Nat.max_le] at hd
    obtain ⟨-, hyes, hothers, hrest⟩ := hw
    exact (Loop.expands_of_inert (LoopTag.inert_if i)).append
      ((yes.expands_print hr hn hcap hd.1.1 hyes hq.1).append
        ((others.expands_print hr hn hcap hd.1.2 hothers hq.2.1).append
          (rest.expands_print hr hn hcap hd.2 hrest hq.2.2)))
  | loop f body a rest =>
    simp only [Template.loops] at hd
    obtain ⟨hbody, ha, hrest⟩ := hw
    obtain ⟨-, hqbody, hqa, hqrest⟩ := hq
    intro u r hu
    have hinner : body.loops < depth ∧ a.loops < depth := by omega
    have hloop := hr.gives_expand hn hcap hinner ⟨hbody, ha⟩ hqbody fun hs => hqa (by rw [hs]; rfl)
    have htail := rest.expands_print hr hn hcap (by omega) hrest hqrest u r hu
    simp only [Template.print, Template.shape, List.append_assoc]
    rw [Loop.parts_for, Loop.expandParts]
    exact hloop.bind (htail.bind (Render.gives_pure _))

theorem Branches.expands_print (hr : Renders render cap depth) (hn : ctx.vars.plainlyNamed)
    (hcap : ctx.maxConditionalPasses.toNat = cap) (b : Branches) {k : Nat} {live : Bool}
    (hd : b.loops ≤ depth) (hw : b.Within cap k) (hq : b.Quiet live ctx) :
    Loop.Expands render ctx b.print (b.shape ctx) := by
  cases b with
  | close e => exact Loop.expands_of_inert (LoopTag.inert_endif e)
  | otherwise e no f =>
    exact (Loop.expands_of_inert (LoopTag.inert_else e)).append
      ((no.expands_print hr hn hcap hd hw hq).append (Loop.expands_of_inert (LoopTag.inert_endif f)))
  | elseIf e yes others =>
    simp only [Branches.loops, Nat.max_le] at hd
    exact (Loop.expands_of_inert (LoopTag.inert_elseIf e)).append
      ((yes.expands_print hr hn hcap hd.1 hw.1 hq.1).append (others.expands_print hr hn hcap hd.2 hw.2 hq.2))

end

theorem Template.gives_expandLoops (hr : Renders render cap depth) (hn : ctx.vars.plainlyNamed)
    (hcap : ctx.maxConditionalPasses.toNat = cap) (t : Template) {k : Nat} {live : Bool}
    (hd : t.loops ≤ depth) (hw : t.Within cap k) (hq : t.Quiet live ctx) :
    Render.Gives (expandLoops render ctx t.print) (t.shape ctx) := by
  have hnil : Render.Gives (Loop.expandParts render ctx (Loop.parts (scan LoopTag.read []))) [] := by
    rw [scan_nil, Loop.parts]
    exact Render.gives_pure []
  have h := t.expands_print hr hn hcap hd hw hq [] [] hnil
  rwa [List.append_nil, List.append_nil] at h

end Phase

end PageTemplate
