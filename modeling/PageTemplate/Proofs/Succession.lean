import PageTemplate.Proofs.Drafting
import PageTemplate.Proofs.Fixpoint
set_option autoImplicit false
/-!
Pages rendered one after another. With pure functions a page depends on the files and the features alone, so
that no page changes what another one gives. What one leaves behind are reports, calls and, while compiling,
the files that it spliced in.
-/
namespace PageTemplate

def Features.Pure (f : Features) : Prop := ∀ i ∈ f.functions.items, i.2.Pure

namespace EngineContext

/-- Recording touches nothing but the record. -/
theorem foldl_recordIncluded (fs : List Text) (c : EngineContext) :
    fs.foldl (fun c f => c.recordIncluded f) c =
      { c with included := (fs.foldl (fun c f => c.recordIncluded f) c).included } := by
  induction fs generalizing c with
  | nil => rfl
  | cons f fs ih =>
    rw [List.foldl_cons, ih]
    unfold recordIncluded
    split <;> rfl

theorem mem_recordIncluded {c : EngineContext} (hc : c.compiling) (f g : Text) :
    g ∈ (c.recordIncluded f).included ↔ g ∈ c.included ∨ g = f := by
  unfold recordIncluded
  by_cases hf : f ∈ c.included
  · simp only [hc, List.contains_eq_mem, hf]
    simpa using fun hg => hg ▸ hf
  · simp [hc, hf, or_comm]

/-- While compiling every file is recorded. -/
theorem mem_foldl_recordIncluded {c : EngineContext} (hc : c.compiling) (fs : List Text) (g : Text) :
    g ∈ (fs.foldl (fun c f => c.recordIncluded f) c).included ↔ g ∈ c.included ∨ g ∈ fs := by
  induction fs generalizing c with
  | nil => simp
  | cons f fs ih =>
    have hkept : (c.recordIncluded f).compiling := congrArg compiling (foldl_recordIncluded [f] c) ▸ hc
    rw [List.foldl_cons, ih hkept, mem_recordIncluded hc, List.mem_cons, or_assoc]

end EngineContext

namespace Site

/-- The same site for whoever renders a page. -/
structure Alike (site' site : Site) : Prop where
  tree : site'.tree = site.tree
  vars : site'.context.features.vars = site.context.features.vars
  items : site'.context.features.functions.items = site.context.features.functions.items

/-- A site after pages that spliced the given files in. -/
structure Later (site' site : Site) (spliced : List Text) : Prop extends Alike site' site where
  now : site'.now = site.now
  recent : site'.context.recent = site.context.recent
  compiling : site'.context.compiling = site.context.compiling
  included : site.context.compiling → ∀ f, f ∈ site'.context.included ↔ f ∈ site.context.included ∨ f ∈ spliced

variable {site site' site'' : Site}

theorem Alike.trans (h : site''.Alike site') (h' : site'.Alike site) : site''.Alike site :=
  ⟨h.tree.trans h'.tree, h.vars.trans h'.vars, h.items.trans h'.items⟩

theorem Later.refl (site : Site) : site.Later site [] := ⟨⟨rfl, rfl, rfl⟩, rfl, rfl, rfl, fun _ _ => by simp⟩

theorem Later.trans {fs fs' : List Text} (h : site'.Later site fs) (h' : site''.Later site' fs') :
    site''.Later site (fs ++ fs') where
  toAlike := h'.toAlike.trans h.toAlike
  now := h'.now.trans h.now
  recent := h'.recent.trans h.recent
  compiling := h'.compiling.trans h.compiling
  included := fun hc f => by
    rw [h'.included (h.compiling.trans hc), h.included hc, List.mem_append, or_assoc]

theorem Later.of_leave {α : Type} (d : Draft α) (site : Site) : (d.leave site).Later site d.spliced := by
  unfold Draft.leave
  rw [EngineContext.foldl_recordIncluded]
  exact ⟨⟨rfl, rfl, rfl⟩, rfl, rfl, rfl, fun hc f => EngineContext.mem_foldl_recordIncluded hc d.spliced f⟩

variable {α β : Type}

/-- Does an action give the same on all sites like this one, and leave only what pages leave? -/
def Settled (site : Site) (a : SiteAction α) (spliced : List Text) : Prop :=
  ∀ site', site'.Alike site → ∃ later, a.runFrom site' = ((a.runFrom site).1, later) ∧ later.Later site' spliced

theorem Settled.bind {a : SiteAction α} {f : α → SiteAction β} {fs : List Text} (ha : site.Settled a fs)
    (hf : ∀ x, site.Settled (f x) []) : site.Settled (a >>= f) fs := by
  intro site' h
  obtain ⟨later, hrun, hlater⟩ := ha site' h
  obtain ⟨later₀, hrun₀, hlater₀⟩ := ha site ⟨rfl, rfl, rfl⟩
  rw [SiteAction.runFrom_bind, SiteAction.runFrom_bind, hrun, hrun₀]
  cases (a.runFrom site).1 with
  | error e => exact ⟨later, rfl, hlater⟩
  | ok x =>
    obtain ⟨last, hlast, hlast'⟩ := hf x later (hlater.toAlike.trans h)
    obtain ⟨last₀, hlast₀, -⟩ := hf x later₀ hlater₀.toAlike
    refine ⟨last, ?_, List.append_nil fs ▸ hlater.trans hlast'⟩
    dsimp only
    rw [hlast, hlast₀]

theorem settled_pure (a : α) : site.Settled (pure a) [] := fun site' _ => ⟨site', rfl, .refl site'⟩

theorem settled_throw (e : SiteError) : site.Settled (throw e : SiteAction α) [] := fun site' _ =>
  ⟨site', rfl, .refl site'⟩

theorem settled_report (ns : List Notice) : site.Settled (SiteAction.report ns) [] := fun site' _ =>
  ⟨{ site' with notices := site'.notices ++ ns }, rfl, ⟨⟨rfl, rfl, rfl⟩, rfl, rfl, rfl, fun _ _ => by simp⟩⟩

theorem settled_draft {a : SiteAction α} {d : FileTree → Draft α} (h : Draft.Of a d) :
    site.Settled a (d site.tree).spliced := by
  intro site' hsame
  refine ⟨(d site.tree).leave site', ?_, .of_leave _ _⟩
  rw [h site', h site, hsame.tree]

variable (s : SiteSettings)

theorem runFrom_process (content : Text) (vars : Entries) (site : Site) :
    (process s content vars).runFrom site =
      let features := site.context.features
      let ctx : RenderContext := ⟨features.vars.overlay vars, s.ambient, s.maxConditionalPasses, 0⟩
      let r := (s.pipeline.execute Pipeline.depthLimit ctx content).runFrom (.start (some features.functions))
      (r.1.mapError .rendering,
        { site with
          notices := site.notices ++ r.2.notices
          context := site.context.replaceFeatures { features with functions := r.2.registry.getD .empty } }) := by
  simp only [process, SiteAction.runFrom_bind, SiteAction.runFrom_get, SiteAction.runFrom_report,
    SiteAction.runFrom_onContext]
  cases ((s.pipeline.execute Pipeline.depthLimit
    ⟨site.context.features.vars.overlay vars, s.ambient, s.maxConditionalPasses, 0⟩ content).runFrom
      (.start (some site.context.features.functions))).1 <;> rfl

theorem settled_process (hp : site.context.features.Pure) (content : Text) (vars : Entries) :
    site.Settled (process s content vars) [] := by
  intro site' h
  have hpure : (RenderState.start (some site.context.features.functions)).Pure := fun is his =>
    Option.some.inj his ▸ hp
  have hitems : (RenderState.start (some site'.context.features.functions)).items =
      (RenderState.start (some site.context.features.functions)).items := congrArg some h.items
  obtain ⟨hsame, hkept⟩ := Pipeline.steady_execute s.pipeline
    ⟨site.context.features.vars.overlay vars, s.ambient, s.maxConditionalPasses, 0⟩ Pipeline.depthLimit content
    _ _ hpure hitems
  rw [runFrom_process, runFrom_process]
  dsimp only
  rw [h.vars, hsame]
  refine ⟨_, rfl, ⟨rfl, h.vars.symm, ?_⟩, rfl, rfl, rfl, fun _ _ => by simp [EngineContext.replaceFeatures]⟩
  obtain ⟨r, hr, hri⟩ := Option.map_eq_some_iff.1 hkept
  simp only [EngineContext.replaceFeatures, hr, Option.getD_some]
  exact hri.trans h.items.symm

theorem settled_renderPage (hp : site.context.features.Pure) (page : Text) (vars : Entries) :
    site.Settled (renderPage s page vars) (draft s page site.tree).spliced :=
  (settled_draft (renderTemplate_of s page)).bind fun content => settled_process s hp content _

/-- A page is its draft with the dynamic content rendered. -/
theorem renderPage_of_draft (hp : site.context.features.Pure) {page content : Text} (vars : Entries)
    (h : (draft s page site.tree).outcome = .ok content) :
    ((renderPage s page vars).runFrom site).1 = ((process s content (pageVariables page vars)).runFrom site).1 := by
  obtain ⟨later, hrun, -⟩ := settled_process s hp content (pageVariables page vars)
    _ (Later.of_leave (draft s page site.tree) site).toAlike
  rw [renderPage, SiteAction.runFrom_bind, renderTemplate_of s page site, h]
  dsimp only
  rw [hrun]

theorem settled_validate (page : Text) (lenient : Bool) : site.Settled (validate s page lenient) [] := by
  have hread : site.Settled (readTemplate s page) [] :=
    settled_draft (Draft.Of.ofExcept (runFrom_readTemplate s page))
  refine hread.bind fun content => ?_
  dsimp only
  split
  · exact settled_throw _
  · exact (settled_report _).bind fun _ => settled_pure _

/-! All pages -/

/-- Is there an error if an action is run on a site? -/
def Raises (site : Site) (a : SiteAction α) : Prop := ∃ e, (a.runFrom site).1 = .error e

/-- Does a page raise when it is validated or rendered on its own? -/
def Rejects (site : Site) (page : Text) : Prop :=
  site.Raises (validate s page false) ∨ site.Raises (renderPage s page [])

theorem exists_ok_of_not_raises {a : SiteAction α} (h : ¬site.Raises a) : ∃ x, (a.runFrom site).1 = .ok x := by
  cases hrun : (a.runFrom site).1 with
  | error e => exact absurd ⟨e, hrun⟩ h
  | ok x => exact ⟨x, rfl⟩

/-- The pages with their texts, each page once. -/
structure Renders (html : Text → Text) (pages : List Text) (rendered : List (Text × Text)) : Prop where
  nodup : (rendered.map (·.1)).Nodup
  mem : ∀ r, r ∈ rendered ↔ r.1 ∈ pages ∧ r.2 = html r.1

theorem renders_nil (html : Text → Text) : Renders html [] [] := ⟨.nil, fun r => by simp⟩

/-- A page that is there already stays as it is, since it has the same text. -/
theorem Renders.add {html : Text → Text} {pages : List Text} {rendered : List (Text × Text)}
    (h : Renders html pages rendered) (page : Text) :
    Renders html (pages ++ [page])
      (if rendered.any (·.1 == page) then
        rendered.map fun r => if r.1 = page then (page, html page) else r
      else rendered ++ [(page, html page)]) := by
  have hkey : rendered.any (·.1 == page) ↔ page ∈ pages := by
    simp only [List.any_eq_true, beq_iff_eq]
    exact ⟨fun ⟨r, hr, he⟩ => he ▸ ((h.mem r).1 hr).1,
      fun hm => ⟨(page, html page), (h.mem _).2 ⟨hm, rfl⟩, rfl⟩⟩
  split
  · next hthere =>
    have hsame (r : Text × Text) (hr : r ∈ rendered) : (if r.1 = page then (page, html page) else r) = r := by
      split
      · next he => exact Prod.ext he.symm (he ▸ ((h.mem r).1 hr).2.symm)
      · rfl
    rw [List.map_congr_left hsame, List.map_id']
    refine ⟨h.nodup, fun r => ?_⟩
    rw [h.mem r, List.mem_append, List.mem_singleton]
    exact ⟨fun ⟨hm, he⟩ => ⟨.inl hm, he⟩, fun ⟨hm, he⟩ => ⟨hm.elim id (· ▸ hkey.1 hthere), he⟩⟩
  · next hnew =>
    refine ⟨?_, fun r => ?_⟩
    · rw [List.map_append, List.nodup_append]
      refine ⟨h.nodup, by simp, fun k hk k' hk' he => hnew ?_⟩
      obtain ⟨r, hr, rfl⟩ := List.mem_map.1 hk
      exact List.any_eq_true.2 ⟨r, hr, by simpa [he] using hk'⟩
    · rw [List.mem_append, List.mem_append, List.mem_singleton, List.mem_singleton, h.mem r, or_and_right]
      exact or_congr_right ⟨fun he => he ▸ ⟨rfl, rfl⟩, fun ⟨hk, he⟩ => Prod.ext hk (hk ▸ he)⟩

theorem runFrom_renderAll {html : Text → Text} (hp : site.context.features.Pure) {pages : List Text}
    (hpages : ∀ p ∈ pages, ¬site.Rejects s p ∧ ((renderPage s p []).runFrom site).1 = .ok (html p))
    (h : site'.Alike site) {done : List Text} {rendered : List (Text × Text)} (hr : Renders html done rendered) :
    ∃ result later, (renderAll s rendered pages).runFrom site' = (.ok result, later) ∧
      Renders html (done ++ pages) result ∧
      later.Later site' (pages.flatMap fun p => (draft s p site.tree).spliced) := by
  induction pages generalizing site' done rendered with
  | nil => exact ⟨rendered, site', rfl, by simpa using hr, .refl site'⟩
  | cons page pages ih =>
    obtain ⟨⟨hvalid, hhtml⟩, hrest⟩ := List.forall_mem_cons.1 hpages
    obtain ⟨errors, herrors⟩ := exists_ok_of_not_raises fun he => hvalid (.inl he)
    obtain ⟨site₁, hrun₁, h₁⟩ := settled_validate s page false site' h
    obtain ⟨site₂, hrun₂, h₂⟩ := settled_renderPage s hp page [] site₁ (h₁.toAlike.trans h)
    obtain ⟨result, later, hrun, hresult, hlater⟩ :=
      ih hrest (h₂.toAlike.trans (h₁.toAlike.trans h)) (hr.add page)
    refine ⟨result, later, ?_, by simpa using hresult, ?_⟩
    · rw [renderAll, SiteAction.runFrom_bind, hrun₁, herrors]
      dsimp only
      rw [SiteAction.runFrom_bind, hrun₂, hhtml]
      exact hrun
    · simpa using (h₁.trans h₂).trans hlater

/-- If some page raises on its own, rendering all of them raises. -/
theorem runFrom_renderAll_of_rejects (hp : site.context.features.Pure) {pages : List Text}
    (hpages : ∃ p ∈ pages, site.Rejects s p) (h : site'.Alike site) (rendered : List (Text × Text)) :
    ∃ e later fs, (renderAll s rendered pages).runFrom site' = (.error e, later) ∧ later.Later site' fs := by
  induction pages generalizing site' rendered with
  | nil => simp at hpages
  | cons page pages ih =>
    obtain ⟨site₁, hrun₁, h₁⟩ := settled_validate s page false site' h
    obtain ⟨site₂, hrun₂, h₂⟩ := settled_renderPage s hp page [] site₁ (h₁.toAlike.trans h)
    rw [renderAll, SiteAction.runFrom_bind, hrun₁]
    cases hvalid : ((validate s page false).runFrom site).1 with
    | error e => exact ⟨e, site₁, _, rfl, h₁⟩
    | ok errors =>
      dsimp only
      rw [SiteAction.runFrom_bind, hrun₂]
      cases hhtml : ((renderPage s page []).runFrom site).1 with
      | error e => exact ⟨e, site₂, _, rfl, h₁.trans h₂⟩
      | ok html =>
        have hrest : ∃ p ∈ pages, site.Rejects s p := by
          obtain ⟨p, hmem, hrej⟩ := hpages
          rcases List.mem_cons.1 hmem with rfl | hmem
          · rcases hrej with ⟨e, he⟩ | ⟨e, he⟩
            · nomatch hvalid.symm.trans he
            · nomatch hhtml.symm.trans he
          · exact ⟨p, hmem, hrej⟩
        obtain ⟨e, later, fs, hrun, hlater⟩ := ih hrest (h₂.toAlike.trans (h₁.toAlike.trans h)) _
        exact ⟨e, later, _, hrun, (h₁.trans h₂).trans hlater⟩

end Site

end PageTemplate
