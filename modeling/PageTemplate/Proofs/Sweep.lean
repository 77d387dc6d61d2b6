import PageTemplate.Proofs.Division
import PageTemplate.Proofs.Nesting
set_option autoImplicit false
/-!
Expanding loops in place. The first outermost loop at or behind a place of the text is replaced by its expansion,
however long that is, and the search goes on behind the expansion. What stands there is the text as it was given,
and it gets shorter with every loop: so the search ends, and no expansion is searched.
-/
namespace PageTemplate

open Piece Render

section Asking

variable {α : Type} {act : Renderer → Render α}

/-- A step that is given a renderer comes to a rendering: where that one stops, the step is over. -/
def Asks (act : Renderer → Render α) (render : Renderer) (s : RenderState) (c : RenderCall) : Prop :=
  ∀ s', (act (haltAt c s' render)).runFrom s = (.error .tooDeep, s')

/-- A step ends if and only if the renderings that it comes to end. -/
theorem Scripted.ends_iff (h : Scripted act) (render : Renderer) (s : RenderState) :
    ((act render).runFrom s).1 ≠ .error .tooDeep ↔ ∀ c, Asks act render s c → (c.run render).1 ≠ .error .tooDeep := by
  obtain ⟨p, hp⟩ := h s
  rw [hp]
  constructor
  · intro hends c hc hdeep
    have hreach : p.Reaches render c := fun s' => (hp _).symm.trans (hc s')
    exact hends (p.run_tooDeep_of_reaches (fun _ _ => rfl) hreach hdeep)
  · intro hall hdeep
    obtain ⟨c, hc, hcdeep⟩ := p.reaches_of_run_tooDeep hdeep
    exact hall c (fun s' => (hp _).trans (hc s')) hcdeep

/-- A step does not come to a rendering whose result makes no difference. -/
theorem not_asks {render : Renderer} {s : RenderState} {c : RenderCall}
    (h : ∀ s', act (haltAt c s' render) = act render) : ¬ Asks act render s c := by
  intro hasks
  have h1 := hasks ⟨none, [], []⟩
  have h2 := hasks ⟨some .empty, [], []⟩
  rw [h] at h1 h2
  simpa using h1.symm.trans h2

end Asking

namespace Loop

section Congruence

variable {render render' : Renderer} {l : Loop}

/-- A loop's expansion depends on the renderings of its body and of its part for an empty collection. -/
theorem iterate_congr (h : ∀ ctx, render ctx l.body = render' ctx l.body) (ctx : RenderContext) (total index : Nat)
    (es : List (Value × Value)) : iterate render ctx l total index es = iterate render' ctx l total index es := by
  induction es generalizing index with
  | nil => rfl
  | cons e es ih => simp only [iterate, h, ih]

theorem expand_congr (h : ∀ ctx t, t = l.body ∨ l.alternative = some t → render ctx t = render' ctx t)
    (ctx : RenderContext) : expand render ctx l = expand render' ctx l := by
  have hiterate := iterate_congr (fun ctx => h ctx _ (.inl rfl)) ctx
  unfold expand
  cases halternative : l.alternative with
  | none => simp only [hiterate]
  | some t =>
    cases t with
    | nil => simp only [hiterate]
    | cons c cs => simp only [hiterate, h ctx _ (.inr halternative)]

end Congruence

section Sweeping

variable (render : Renderer) (ctx : RenderContext)

/-- The first outermost loop, with the text in front of it and the pieces behind it. -/
def first? : List (Piece LoopTag) → Option (Text × Loop × List (Piece LoopTag))
  | [] => none
  | .tag (.opener names source) _ :: ps =>
    (enclose 0 ps).map fun e => ([], ⟨names, source, e.body, e.alternative.map (·.2)⟩, e.rest)
  | p :: ps => (first? ps).map fun r => (p.source ++ r.1, r.2)

/-- A loop, from one place of a text to another. -/
structure Found where
  start : Nat
  stop : Nat
  loop : Loop

/-- The first outermost loop at or behind a place. -/
def find? (t : Text) (start : Nat) : Option Found :=
  (first? (scan LoopTag.read (t.drop start))).map fun (front, l, rest) =>
    ⟨start + front.length, t.length - (join rest).length, l⟩

theorem exists_written_of_first? {ps rest : List (Piece LoopTag)} {front : Text} {l : Loop}
    (h : first? ps = some (front, l, rest)) (hps : ∀ a s, .tag a s ∈ ps → s ≠ []) :
    ∃ written qs, written ≠ [] ∧ ps = qs ++ rest ∧ join qs = front ++ written := by
  fun_induction first? ps generalizing front with
  | case1 => simp at h
  | case2 names source s ps =>
    obtain ⟨e, he, heq⟩ := Option.map_eq_some_iff.1 h
    simp only [Prod.mk.injEq] at heq
    obtain ⟨rfl, -, rfl⟩ := heq
    obtain ⟨qs, s', rfl, -⟩ := exists_encloses_of_enclose he
    refine ⟨s ++ join (qs ++ [.tag .closer s']), .tag (.opener names source) s :: (qs ++ [.tag .closer s']), ?_, ?_, ?_⟩
    · exact fun hnil => hps _ _ List.mem_cons_self (List.append_eq_nil_iff.1 hnil).1
    · simp
    · rw [join_cons]; rfl
  | case3 p ps _ ih =>
    obtain ⟨⟨front', found⟩, hr, heq⟩ := Option.map_eq_some_iff.1 h
    simp only [Prod.mk.injEq] at heq
    obtain ⟨rfl, rfl⟩ := heq
    obtain ⟨written, qs, hne, rfl, hjoin⟩ := ih hr fun a s hmem => hps a s (List.mem_cons_of_mem p hmem)
    exact ⟨written, p :: qs, hne, rfl, by rw [join_cons, hjoin, List.append_assoc]⟩

theorem tag_ne_nil {t : Text} {a : LoopTag} {s : Text} (h : .tag a s ∈ scan LoopTag.read t) : s ≠ [] := by
  obtain ⟨body, -, -, rfl, -⟩ := LoopTag.bracketed_read.mem_scan h
  exact Tag.wrap_ne_nil body

theorem find?_spec {t : Text} {start : Nat} {f : Found} (h : find? t start = some f) :
    start ≤ f.start ∧ f.start < f.stop ∧ f.stop ≤ t.length := by
  obtain ⟨⟨front, l, rest⟩, hfirst, rfl⟩ := Option.map_eq_some_iff.1 h
  obtain ⟨written, qs, hne, heq, hjoin⟩ := exists_written_of_first? hfirst fun a s => tag_ne_nil
  have hlen := congrArg List.length (join_scan LoopTag.read (t.drop start))
  have hpos := List.length_pos_iff.2 hne
  rw [heq, join_append, hjoin] at hlen
  simp only [List.length_append, List.length_drop] at hlen
  dsimp only
  omega

/-- Replaces the outermost loops from a place on, in the text itself. -/
def sweep (t : Text) (start : Nat) : Render Text :=
  match _h : find? t start with
  | none => pure t
  | some f => do
    let expanded ← expand render ctx f.loop
    sweep (t.take f.start ++ expanded ++ t.drop f.stop) (f.start + expanded.length)
termination_by t.length - start
decreasing_by
  have := find?_spec _h
  simp only [List.length_append, List.length_take, List.length_drop]
  omega

theorem sweep_of_eq_none {t : Text} {start : Nat} (h : find? t start = none) :
    sweep render ctx t start = pure t := by
  rw [sweep]
  split
  · rfl
  · simp_all

theorem sweep_of_eq_some {t : Text} {start : Nat} {f : Found} (h : find? t start = some f) :
    sweep render ctx t start = expand render ctx f.loop >>= fun expanded =>
      sweep render ctx (t.take f.start ++ expanded ++ t.drop f.stop) (f.start + expanded.length) := by
  rw [sweep]
  split
  · simp_all
  · next f' hf =>
    obtain rfl : f' = f := Option.some.inj (hf.symm.trans h)
    rfl

theorem expandParts_of_first?_eq_none {ps : List (Piece LoopTag)} (h : first? ps = none) :
    expandParts render ctx (parts ps) = pure (join ps) := by
  fun_induction first? ps with
  | case1 => rw [parts]; rfl
  | case2 names source s ps =>
    rw [Option.map_eq_none_iff] at h
    simp [parts_unclosed names source s h, expandParts, join_cons, Piece.source]
  | case3 p ps hp ih =>
    rw [Option.map_eq_none_iff] at h
    simp [parts_stray hp, expandParts, ih h, join_cons]

theorem expandParts_of_first?_eq_some {ps rest : List (Piece LoopTag)} {front : Text} {l : Loop}
    (h : first? ps = some (front, l, rest)) :
    expandParts render ctx (parts ps) = expand render ctx l >>= fun expanded =>
      (fun behind => front ++ (expanded ++ behind)) <$> expandParts render ctx (parts rest) := by
  fun_induction first? ps generalizing front with
  | case1 => simp at h
  | case2 names source s ps =>
    obtain ⟨e, he, heq⟩ := Option.map_eq_some_iff.1 h
    simp only [Prod.mk.injEq] at heq
    obtain ⟨rfl, rfl, rfl⟩ := heq
    simp only [parts_enclosed names source s he, expandParts, bind_pure_comp, List.nil_append]
  | case3 p ps hp ih =>
    obtain ⟨⟨front', found⟩, hr, heq⟩ := Option.map_eq_some_iff.1 h
    simp only [Prod.mk.injEq] at heq
    obtain ⟨rfl, rfl⟩ := heq
    simp [parts_stray hp, expandParts, ih hr]

theorem find?_append (t u : Text) :
    find? (t ++ u) t.length = (first? (scan LoopTag.read u)).map fun (front, l, rest) =>
      ⟨t.length + front.length, (t ++ u).length - (join rest).length, l⟩ := by
  rw [find?, List.drop_left]

/-- What stands behind the place of the search is expanded as it is, and what stands in front of it stays. -/
theorem sweep_append (t u : Text) :
    sweep render ctx (t ++ u) t.length = (t ++ ·) <$> expandParts render ctx (parts (scan LoopTag.read u)) := by
  -- by the length of what stands behind the place: an expansion goes to the text in front of it
  induction hn : u.length using Nat.strongRecOn generalizing t u with
  | ind n ih =>
    subst hn
    cases hfirst : first? (scan LoopTag.read u) with
    | none =>
      have hfind : find? (t ++ u) t.length = none := by rw [find?_append, hfirst, Option.map_none]
      rw [sweep_of_eq_none render ctx hfind, expandParts_of_first?_eq_none render ctx hfirst, join_scan, map_pure]
    | some r =>
      obtain ⟨front, l, rest⟩ := r
      obtain ⟨written, qs, hne, heq, hjoin⟩ := exists_written_of_first? hfirst fun a s => tag_ne_nil
      have hu : u = front ++ (written ++ join rest) := by
        rw [← join_scan LoopTag.read u, heq, join_append, hjoin, List.append_assoc]
      have hfind : find? (t ++ u) t.length = some ⟨(t ++ front).length, (t ++ front ++ written).length, l⟩ := by
        rw [find?_append, hfirst, Option.map_some, hu]
        simp
        omega
      have hfront : (t ++ u).take (t ++ front).length = t ++ front := by
        rw [hu, ← List.append_assoc, List.take_left]
      have hbehind : (t ++ u).drop (t ++ front ++ written).length = join rest := by
        rw [hu, ← List.append_assoc, ← List.append_assoc, List.drop_left]
      have hshorter : (join rest).length < u.length := by
        have := List.length_pos_iff.2 hne
        simp only [hu, List.length_append]
        omega
      rw [sweep_of_eq_some render ctx hfind, expandParts_of_first?_eq_some render ctx hfirst, map_bind]
      refine congrArg (expand render ctx l >>= ·) (funext fun expanded => ?_)
      rw [hfront, hbehind, ← List.length_append, ih _ hshorter _ _ rfl, scan_join_of_append heq]
      simp

end Sweeping

section Segments

variable (render : Renderer) (ctx : RenderContext)

def Segment.expanded : Segment → Render Text
  | .text t => pure t
  | .loop l _ => expand render ctx l

theorem expandParts_map_part (d : List Segment) :
    expandParts render ctx (d.map Segment.part) = List.flatten <$> d.mapM (Segment.expanded render ctx) := by
  induction d with
  | nil => simp [expandParts]
  | cons g d ih => cases g <;> simp [Segment.part, expandParts, Segment.expanded, ih]

theorem expandParts_congr {render render' : Renderer} {d : List Segment}
    (h : ∀ l written, .loop l written ∈ d → expand render ctx l = expand render' ctx l) :
    expandParts render ctx (d.map Segment.part) = expandParts render' ctx (d.map Segment.part) := by
  induction d with
  | nil => rfl
  | cons g d ih =>
    have htail := ih fun l written hmem => h l written (List.mem_cons_of_mem g hmem)
    cases g with
    | text t => simp only [List.map_cons, Segment.part, expandParts, htail]
    | loop l written => simp only [List.map_cons, Segment.part, expandParts, htail, h l written List.mem_cons_self]

/-- Only the bodies of loops are rendered, and their parts for empty collections. -/
theorem exists_loop_of_asks {d : List Segment} {s : RenderState} {c : RenderCall}
    (h : Asks (fun render => expandParts render ctx (d.map Segment.part)) render s c) :
    ∃ l written, .loop l written ∈ d ∧ (c.text = l.body ∨ l.alternative = some c.text) := by
  by_contra hnone
  refine not_asks (fun s' => expandParts_congr ctx fun l written hmem => ?_) h
  refine expand_congr (fun ctx' t ht => ?_) ctx
  have hne : ∀ s'', (⟨ctx', t, s''⟩ : RenderCall) ≠ c := by
    rintro s'' rfl
    exact hnone ⟨l, written, hmem, ht⟩
  exact funext fun s'' => if_neg (hne s'')

end Segments

end Loop

/-- Every text divides into outermost loops and other text in one way, and each of the loops is replaced by its
expansion, in order and once, whatever the expansions are; replacing them in the text itself does the same. This ends
if and only if the renderings that it takes end, and these are renderings of the loops' bodies. -/
theorem expandLoops_divided (render : Renderer) (ctx : RenderContext) (t : Text) :
    ∃ d : List Loop.Segment, (∀ d', Loop.Divides (scan LoopTag.read t) d' ↔ d' = d) ∧
      d.flatMap Loop.Segment.source = t ∧
      expandLoops render ctx t = List.flatten <$> d.mapM (Loop.Segment.expanded render ctx) ∧
      Loop.sweep render ctx t 0 = expandLoops render ctx t ∧
      ∀ s, (((expandLoops render ctx t).runFrom s).1 ≠ .error .tooDeep ↔
          ∀ c, Asks (expandLoops · ctx t) render s c → (c.run render).1 ≠ .error .tooDeep) ∧
        ∀ c, Asks (expandLoops · ctx t) render s c →
          ∃ l written, .loop l written ∈ d ∧ (c.text = l.body ∨ l.alternative = some c.text) := by
  obtain ⟨d, hd, hparts⟩ := Loop.exists_divides (scan LoopTag.read t)
  have heq : ∀ render, expandLoops render ctx t = Loop.expandParts render ctx (d.map Loop.Segment.part) :=
    fun render => by rw [expandLoops, hparts]
  refine ⟨d, fun d' => ⟨fun hd' => hd'.unique hd, fun hd' => hd' ▸ hd⟩, ?_, ?_, ?_, fun s => ⟨?_, fun c hc => ?_⟩⟩
  · rw [hd.flatMap_source, join_scan]
  · rw [heq, Loop.expandParts_map_part]
  · have hsweep := Loop.sweep_append render ctx [] t
    simpa [expandLoops] using hsweep
  · exact (Composed.expandParts ctx _).scripted.ends_iff render s
  · simp only [heq] at hc
    exact Loop.exists_loop_of_asks render ctx hc

end PageTemplate
