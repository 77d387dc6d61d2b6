import PageTemplate.Proofs.Inclusion
import PageTemplate.Proofs.Succession
import PageTemplate.Proofs.Writing
set_option autoImplicit false
/-!
Compiling a site. All pages are rendered before the first one is written, so that a page that cannot be
rendered leaves every file alone, and whether a page is included somewhere is known when it would be written.
What is written and with which text depends on the files and the features, not on the order of the pages or
on what was recorded before.
-/
namespace PageTemplate

namespace Site

open SiteAction

variable {site : Site} (s : SiteSettings)

/-- A site with other files recorded as included, compiling or not. -/
def withRecord (included : List Text) (compiling : Bool) (site : Site) : Site :=
  { site with context := { site.context with included := included, compiling := compiling } }

def setCompiling (on : Bool) (site : Site) : Site := { site with context := site.context.setCompiling on }

/-! Features -/

/-- Fresh features and what is reported about them, or why there are none, and the files afterwards. -/
def freshFeatures (create : Bool) (tree : FileTree) :
    Option Path → Except SiteError (Features × List Notice) × FileTree
  | none => (.ok (.empty, []), tree)
  | some directory =>
    match tree.hasDirectory directory with
    | .error f => (.error (.file f), tree)
    | .ok true => ((Features.collect tree directory).mapError .file, tree)
    | .ok false =>
      if create then
        let (r, t) := (FileAction.makeDirectories directory).runOn tree
        ((r.mapError .file).map fun _ => (.empty, []), t)
      else (.ok (.empty, []), tree)

theorem sameFiles_freshFeatures (create : Bool) (tree : FileTree) (customize : Option Path) :
    (freshFeatures create tree customize).2.SameFiles tree := by
  unfold freshFeatures
  split
  · exact .refl tree
  · split
    · exact .refl tree
    · exact .refl tree
    · split
      · exact FileAction.keepsFiles_makeDirectories _ tree
      · exact .refl tree

theorem runFrom_reloadFeatures (create : Bool) (site : Site) :
    (reloadFeatures create).runFrom site =
      match freshFeatures create site.tree site.customize with
      | (.error e, t) => (.error e, { site with tree := t })
      | (.ok (f, ns), t) =>
        (.ok (), { site with
          tree := t
          notices := site.notices ++ ns
          context := site.context.replaceFeatures f }) := by
  obtain ⟨tree, customize, context, now, notices⟩ := site
  rw [reloadFeatures, runFrom_bind, runFrom_get]
  cases customize with
  | none => simp [freshFeatures]
  | some directory =>
    simp only [runFrom_bind, runFrom_ofFile, freshFeatures]
    cases tree.hasDirectory directory with
    | error f => rfl
    | ok there =>
      cases there with
      | true =>
        simp only [mapError_ok, if_true, runFrom_bind, runFrom_ofFile]
        cases Features.collect tree directory with
        | error f => rfl
        | ok loaded => rfl
      | false =>
        simp only [mapError_ok, Bool.false_eq_true, if_false]
        cases create with
        | false => simp
        | true =>
          simp only [if_true, runFrom_bind, runFrom_onTree]
          rcases (FileAction.makeDirectories directory).runOn tree with ⟨_ | _, t⟩
          · rfl
          · simp [Except.map]

/-- Loads fresh features, where there are any to load. -/
def refresh : SiteAction Unit := do
  if (← get).customize.isSome then reloadFeatures true

/-- What refreshing leaves where it succeeds. -/
theorem refresh_ok {fresh : Site} (h : refresh.runFrom site = (.ok (), fresh)) :
    fresh.tree.SameFiles site.tree ∧ fresh.now = site.now ∧ fresh.context.recent = site.context.recent := by
  rw [refresh, runFrom_bind, runFrom_get] at h
  dsimp only at h
  split at h
  · rw [runFrom_reloadFeatures] at h
    have hfiles := sameFiles_freshFeatures true site.tree site.customize
    split at h
    · nomatch h
    · next heq =>
      rw [heq] at hfiles
      obtain rfl := (Prod.mk.inj h).2
      exact ⟨hfiles, rfl, rfl⟩
  · obtain rfl := (Prod.mk.inj h).2
    exact ⟨.refl _, rfl, rfl⟩

/-- Where refreshing fails nothing but directories may have changed. -/
theorem refresh_error {e : SiteError} {failed : Site} (h : refresh.runFrom site = (.error e, failed)) :
    failed.context = site.context ∧ failed.tree.SameFiles site.tree := by
  rw [refresh, runFrom_bind, runFrom_get] at h
  dsimp only at h
  split at h
  · rw [runFrom_reloadFeatures] at h
    have hfiles := sameFiles_freshFeatures true site.tree site.customize
    split at h
    · next heq =>
      rw [heq] at hfiles
      obtain rfl := (Prod.mk.inj h).2
      exact ⟨rfl, hfiles⟩
    · nomatch h
  · nomatch h

theorem refresh_withRecord (included : List Text) (compiling : Bool) (site : Site) :
    refresh.runFrom (site.withRecord included compiling) =
      ((refresh.runFrom site).1, (refresh.runFrom site).2.withRecord included compiling) := by
  simp only [refresh, runFrom_bind, runFrom_get]
  rw [show (site.withRecord included compiling).customize = site.customize from rfl]
  split
  · rw [runFrom_reloadFeatures, runFrom_reloadFeatures]
    rw [show freshFeatures true (site.withRecord included compiling).tree
      (site.withRecord included compiling).customize =
        freshFeatures true site.tree site.customize from rfl]
    split <;> rfl
  · rfl

/-! Pages -/

/-- The pages below the root, or why there are none. -/
def discovered (t : FileTree) : Except SiteError (List Text) :=
  match t.hasDirectory s.root.path with
  | .error f => .error (.file f)
  | .ok false => .error (.resolution (.noDirectory s.root.toText))
  | .ok true =>
    let pages := (t.filesBelow s.root).filter fun l =>
      l.getLast?.any fun name => isPageName name && name != s.baseName
    if pages.isEmpty then .error (.resolution (.noTemplates s.root.toText)) else .ok (pages.map Location.relativeText)

theorem runFrom_available (site : Site) : (available s).runFrom site = (discovered s site.tree, site) := by
  simp only [available, discovered, runFrom_bind, runFrom_get, runFrom_ofFile]
  cases site.tree.hasDirectory s.root.path with
  | error f => rfl
  | ok there =>
    cases there with
    | false => rfl
    | true =>
      simp only [mapError_ok, Bool.not_true, Bool.false_eq_true, if_false]
      split <;> rfl

/-- A discovered page names a file below the root. -/
theorem mem_discovered {t : FileTree} {pages : List Text} (h : discovered s t = .ok pages) {p : Text}
    (hp : p ∈ pages) :
    ∃ l : Location, l ≠ [] ∧ l.relativeText = p ∧ ∃ n : Node, n.isFile ∧ (s.root ++ l, n) ∈ t.entries := by
  unfold discovered at h
  split at h
  · nomatch h
  · nomatch h
  · dsimp only at h
    split at h
    · nomatch h
    · obtain rfl := Except.ok.inj h
      obtain ⟨l, hl, rfl⟩ := List.mem_map.1 hp
      have hbelow := (List.mem_filter.1 hl).1
      unfold FileTree.filesBelow at hbelow
      obtain ⟨hfound, hne⟩ := List.mem_filter.1 (List.mem_mergeSort.1 hbelow)
      obtain ⟨⟨l', n⟩, he, hn⟩ := List.mem_filterMap.1 hfound
      split at hn
      · next hfile =>
        obtain rfl := Location.below?_eq_some_iff.1 hn
        exact ⟨l, by simpa using hne, rfl, n, hfile, he⟩
      · nomatch hn

/-- Where a discovered page is written, relative to the output. -/
theorem location_join_of_mem {t : FileTree} {pages : List Text} (hs : ∀ e ∈ t.entries, e.2.isFile → e.1.Proper)
    (h : discovered s t = .ok pages) {p : Text} (hp : p ∈ pages) (target : Path) :
    ∃ l : Location, l.relativeText = p ∧ (target.join p).location = target.location ++ l := by
  obtain ⟨l, -, rfl, n, hfile, he⟩ := mem_discovered s h hp
  have hl : Location.Proper l := .of_append (hs _ he hfile)
  exact ⟨l, rfl, hl.location_join_relativeText target⟩

/-- No two discovered pages are written to the same place. -/
theorem eq_of_location_eq {t : FileTree} {pages : List Text} (hs : ∀ e ∈ t.entries, e.2.isFile → e.1.Proper)
    (h : discovered s t = .ok pages) {p q : Text} (hp : p ∈ pages) (hq : q ∈ pages) {target : Path}
    (heq : (target.join p).location = (target.join q).location) : p = q := by
  obtain ⟨l, rfl, hl⟩ := location_join_of_mem s hs h hp target
  obtain ⟨l', rfl, hl'⟩ := location_join_of_mem s hs h hq target
  rw [hl, hl'] at heq
  rw [List.append_cancel_left heq]

/-! Compilation -/

/-- Compilation refreshes first and leaves the mode last. -/
theorem runFrom_compile (target : Path) (pages : Option (List Text)) (site : Site) :
    (compile s target pages).runFrom site =
      match refresh.runFrom site with
      | (.error e, failed) => (.error e, failed)
      | (.ok _, fresh) =>
        (((compilePages s target pages).runFrom (fresh.setCompiling true)).1,
          ((compilePages s target pages).runFrom (fresh.setCompiling true)).2.setCompiling false) := by
  have hlast (a : SiteAction (List Path)) (site : Site) : (do
      onContext (·.setCompiling true)
      tryFinally a (onContext (·.setCompiling false))).runFrom site =
        ((a.runFrom (site.setCompiling true)).1, (a.runFrom (site.setCompiling true)).2.setCompiling false) := by
    rw [runFrom_bind, runFrom_onContext]
    exact runFrom_tryFinally ..
  simp only [compile, refresh, runFrom_bind, runFrom_get]
  split
  · rw [runFrom_bind]
    split
    · next heq => rw [heq]; exact hlast _ _
    · next heq => rw [heq]
  · exact hlast _ _

/-- A page that no page splices in. -/
def Wanted (t : FileTree) (pages : List Text) (p : Text) : Prop :=
  p ∈ pages ∧ ∀ q ∈ pages, p ∉ (draft s q t).spliced

/-- What a compilation leaves. Nothing here depends on the order of the pages. -/
structure Compiled (target : Path) (t : FileTree) (pages : List Text) (html : Text → Text) (site : Site)
    (written : List Path) (site' : Site) : Prop where
  nodup : written.Nodup
  mem : ∀ path, path ∈ written ↔ ∃ p, Wanted s t pages p ∧ target.join p = path
  apart : ∀ p q, Wanted s t pages p → Wanted s t pages q →
    (target.join p).location = (target.join q).location → p = q
  file : ∀ p, Wanted s t pages p →
    site'.tree.fileAt? (target.join p).location = some (.file (Utf8.encode (html p)))
  other : ∀ l, (∀ p, Wanted s t pages p → (target.join p).location ≠ l) →
    site'.tree.fileAt? l = site.tree.fileAt? l
  recent : ∀ p, Wanted s t pages p → ∀ later, ¬site.now < later - site.context.recent.timeToLive →
    (site'.context.recent.containsPath? (target.join p) later).1 = some true

/-- Compilations of the same pages write the same files. -/
theorem Compiled.unique {target : Path} {t : FileTree} {pages : List Text} {html : Text → Text}
    {written written' : List Path} {site₁ site₂ : Site} (h : Compiled s target t pages html site written site₁)
    (h' : Compiled s target t pages html site written' site₂) :
    written.Perm written' ∧ ∀ l, site₁.tree.fileAt? l = site₂.tree.fileAt? l := by
  refine ⟨(List.perm_ext_iff_of_nodup h.nodup h'.nodup).2 fun path => by rw [h.mem, h'.mem], fun l => ?_⟩
  by_cases hl : ∃ p, Wanted s t pages p ∧ (target.join p).location = l
  · obtain ⟨p, hp, rfl⟩ := hl
    rw [h.file p hp, h'.file p hp]
  · have hnone : ∀ p, Wanted s t pages p → (target.join p).location ≠ l := fun p hp he => hl ⟨p, hp, he⟩
    rw [h.other l hnone, h'.other l hnone]

theorem contains_of_mem {r : RecentWrites Number} {l : Location} {now later : Number} (hm : (l, now) ∈ r.entries)
    (hlater : ¬now < later - r.timeToLive) : (r.contains l later).1 = true := by
  simp only [RecentWrites.contains, RecentWrites.prune, List.any_filter, List.any_eq_true]
  exact ⟨(l, now), hm, by simp [hlater]⟩

section Pages

variable {s} (target : Path) {pages : Option (List Text)} {fresh : Site} {found : List Text}
  (hfound : discovered s fresh.tree = .ok found)

include hfound

theorem runFrom_compilePages (pages : Option (List Text)) :
    (compilePages s target pages).runFrom (fresh.setCompiling true) =
      (renderAll s [] (pages.getD found) >>= fun rendered => do
        writeAll target (← get).context.included rendered).runFrom (fresh.setCompiling true) := by
  have hpages : (pages.elim (available s) pure).runFrom (fresh.setCompiling true) =
      (.ok (pages.getD found), fresh.setCompiling true) := by
    cases pages with
    | none => exact (runFrom_available s _).trans (congrArg (·, fresh.setCompiling true) hfound)
    | some order => rfl
  rw [compilePages, runFrom_bind, hpages]

variable (hp : fresh.context.features.Pure) (horder : (pages.getD found).Perm found)

include hp horder

/-- A page that raises ends the compilation before anything is written. -/
theorem compilePages_of_rejects (hreject : ∃ p ∈ found, fresh.Rejects s p) :
    ∃ e later, (compilePages s target pages).runFrom (fresh.setCompiling true) = (.error e, later) ∧
      later.tree = fresh.tree := by
  obtain ⟨p, hmem, hreject⟩ := hreject
  have hstart : (fresh.setCompiling true).Alike fresh := ⟨rfl, rfl, rfl⟩
  obtain ⟨e, later, fs, hrun, hlater⟩ := runFrom_renderAll_of_rejects s hp
    ⟨p, horder.mem_iff.2 hmem, hreject⟩ hstart []
  refine ⟨e, later, ?_, hlater.tree⟩
  rw [runFrom_compilePages target hfound, runFrom_bind, hrun]

/-- If no page raises the pages that are wanted are written, with their texts. -/
theorem compilePages_of_renders {html : Text → Text}
    (hpages : ∀ p ∈ found, ¬fresh.Rejects s p ∧ ((renderPage s p []).runFrom fresh).1 = .ok (html p)) :
    ∃ rs later,
      (compilePages s target pages).runFrom (fresh.setCompiling true) = (writeAll target [] rs).runFrom later ∧
      (rs.map (·.1)).Nodup ∧ (∀ r, r ∈ rs ↔ Wanted s fresh.tree found r.1 ∧ r.2 = html r.1) ∧
      later.tree = fresh.tree ∧ later.now = fresh.now ∧ later.context.recent = fresh.context.recent := by
  have hstart : (fresh.setCompiling true).Alike fresh := ⟨rfl, rfl, rfl⟩
  obtain ⟨rendered, later, hrun, hrendered, hlater⟩ := runFrom_renderAll s hp
    (fun p hmem => hpages p (horder.mem_iff.1 hmem)) hstart (renders_nil html)
  -- While compiling the record is complete once all pages are rendered.
  have hincluded (p : Text) :
      p ∈ later.context.included ↔ ∃ q ∈ found, p ∈ (draft s q fresh.tree).spliced := by
    rw [hlater.included rfl, List.mem_flatMap]
    simp [setCompiling, EngineContext.setCompiling, horder.mem_iff]
  refine ⟨rendered.filter fun r => !later.context.included.contains r.1, later, ?_, ?_, fun r => ?_, hlater.tree,
    hlater.now, hlater.recent⟩
  · rw [runFrom_compilePages target hfound, runFrom_bind, hrun]
    dsimp only
    rw [runFrom_bind, runFrom_get]
    exact congrArg (·.runFrom later) (writeAll_eq ..)
  · exact hrendered.nodup.sublist (List.filter_sublist.map _)
  · rw [List.mem_filter, hrendered.mem, List.nil_append, horder.mem_iff]
    simp only [List.contains_eq_mem, Bool.not_eq_true', decide_eq_false_iff_not, hincluded, not_exists, not_and,
      Wanted]
    exact ⟨fun ⟨⟨hm, he⟩, hw⟩ => ⟨⟨hm, hw⟩, he⟩, fun ⟨⟨hm, hw⟩, he⟩ => ⟨⟨hm, he⟩, hw⟩⟩

end Pages

/-- Saving the pages that are wanted, each one once, fails with this error. -/
def SaveFails (target : Path) (t : FileTree) (pages : List Text) (html : Text → Text) (e : SiteError) : Prop :=
  ∃ rs f, (rs.map (·.1)).Nodup ∧ (∀ r, r ∈ rs ↔ Wanted s t pages r.1 ∧ r.2 = html r.1) ∧
    ((saveAll target rs).runOn t).1 = .error f ∧ e = .file f

/-- How a compilation ends if every page renders. -/
def Delivered (target : Path) (t : FileTree) (pages : List Text) (html : Text → Text) (site : Site) :
    Except SiteError (List Path) × Site → Prop
  | (.ok written, site') => Compiled s target t pages html site written site'
  | (.error e, _) => SaveFails s target t pages html e

/-- Writing the pages that are wanted is all there is to do. -/
theorem compiled_of_wrote {s : SiteSettings} {target : Path} {t : FileTree} {pages : List Text}
    {html : Text → Text} {rs : List (Text × Text)} {start last : Site}
    (hapart : ∀ p q, Wanted s t pages p → Wanted s t pages q →
      (target.join p).location = (target.join q).location → p = q)
    (hrs : ∀ r, r ∈ rs ↔ Wanted s t pages r.1 ∧ r.2 = html r.1) (hplaces : (rs.map (pagePlace target)).Nodup)
    (hwrote : Wrote target rs start last) (hfiles : start.tree.SameFiles site.tree) (hnow : start.now = site.now)
    (hrecent : start.context.recent = site.context.recent) :
    Compiled s target t pages html site (rs.map (target.join ·.1)) last := by
  have hwanted {p : Text} (hw : Wanted s t pages p) : (p, html p) ∈ rs := (hrs _).2 ⟨hw, rfl⟩
  refine ⟨?_, fun path => ?_, hapart, fun p hw => ?_, fun l hl => ?_, fun p hw later hlater => ?_⟩
  · exact List.pairwise_map.2 ((List.pairwise_map.1 hplaces).imp fun hne he => hne (congrArg Path.location he))
  · rw [List.mem_map]
    exact ⟨fun ⟨r, hr, he⟩ => ⟨r.1, ((hrs r).1 hr).1, he⟩, fun ⟨p, hw, he⟩ => ⟨_, hwanted hw, he⟩⟩
  · exact hwrote.file _ (hwanted hw)
  · exact (hwrote.other l fun r hr => hl r.1 ((hrs r).1 hr).1).trans (hfiles.fileAt? l)
  · have hplace : (target.join p).location? = some (target.join p).location :=
      Path.location?_eq_some_iff.2 ⟨hwrote.nameable _ (hwanted hw), rfl⟩
    rw [← hrecent, ← hwrote.timeToLive] at hlater
    rw [RecentWrites.containsPath?, hplace]
    exact congrArg some (contains_of_mem (hnow ▸ hwrote.recent _ (hwanted hw)) hlater)

theorem delivered_of_renders (hs : site.tree.Sound) (target : Path) {pages : Option (List Text)} {fresh : Site}
    {found : List Text} (hfresh : refresh.runFrom site = (.ok (), fresh))
    (hfound : discovered s fresh.tree = .ok found) (hp : fresh.context.features.Pure)
    (horder : (pages.getD found).Perm found) {html : Text → Text}
    (hpages : ∀ p ∈ found, ¬fresh.Rejects s p ∧ ((renderPage s p []).runFrom fresh).1 = .ok (html p)) :
    Delivered s target fresh.tree found html site ((compile s target pages).runFrom site) := by
  obtain ⟨hfiles, hnow, hrecent⟩ := refresh_ok hfresh
  obtain ⟨rs, later, hrun, hkeys, hrs, htree, hnow', hrecent'⟩ :=
    compilePages_of_renders target hfound hp horder hpages
  have hproper : ∀ e ∈ fresh.tree.entries, e.2.isFile → e.1.Proper := fun e he hf =>
    (hs e (hfiles.entries e he hf)).1
  have hapart (p q : Text) (hp : Wanted s fresh.tree found p) (hq : Wanted s fresh.tree found q) :
      (target.join p).location = (target.join q).location → p = q :=
    eq_of_location_eq s hproper hfound hp.1 hq.1
  rw [runFrom_compile, hfresh]
  dsimp only
  rw [hrun]
  rcases hwrite : (writeAll target [] rs).runFrom later with ⟨e | written, last⟩
  · obtain ⟨f, he, hsave⟩ := saveAll_of_writeAll hwrite
    exact ⟨rs, f, hkeys, hrs, htree ▸ hsave, he⟩
  · have hplaces : (rs.map (pagePlace target)).Nodup :=
      List.pairwise_map.2 ((List.pairwise_map.1 hkeys).imp_of_mem fun hr hr' hne he =>
        hne (hapart _ _ ((hrs _).1 hr).1 ((hrs _).1 hr').1 he))
    obtain ⟨rfl, hwrote⟩ := wrote_of_writeAll hplaces hwrite
    have hcompiled := compiled_of_wrote hapart hrs hplaces hwrote (htree ▸ hfiles) (hnow'.trans hnow)
      (hrecent'.trans hrecent)
    -- Leaving the mode touches neither files nor recent writes.
    exact ⟨hcompiled.nodup, hcompiled.mem, hapart, hcompiled.file, hcompiled.other, hcompiled.recent⟩

/-- A compilation that cannot refresh the features ends there, with the mode as it was. Every other one ends
with the mode off and does not depend on the record before it. If a page raises, no file has changed. If
none does, the pages that none splices in are written, each with the text that it has on its own, whatever
the order of the pages is, or a page could not be saved. -/
theorem compile_outcome (s : SiteSettings) (target : Path) (pages : Option (List Text)) (site : Site)
    (hs : site.tree.Sound) :
    (∀ e failed, refresh.runFrom site = (.error e, failed) →
      (compile s target pages).runFrom site = (.error e, failed) ∧ failed.context = site.context ∧
        ∀ l, failed.tree.fileAt? l = site.tree.fileAt? l) ∧
    ∀ fresh, refresh.runFrom site = (.ok (), fresh) →
      ((compile s target pages).runFrom site).2.context.compiling = false ∧
      (∀ included compiling, (compile s target pages).runFrom (site.withRecord included compiling) =
        (compile s target pages).runFrom site) ∧
      ∀ found, ((available s).runFrom fresh).1 = .ok found → (pages.getD found).Perm found →
        fresh.context.features.Pure →
          ((∃ p ∈ found, fresh.Rejects s p) →
            ∃ e, ((compile s target pages).runFrom site).1 = .error e ∧
              ∀ l, ((compile s target pages).runFrom site).2.tree.fileAt? l = site.tree.fileAt? l) ∧
          ∀ html : Text → Text,
            (∀ p ∈ found, ¬fresh.Rejects s p ∧ ((renderPage s p []).runFrom fresh).1 = .ok (html p)) →
              Delivered s target fresh.tree found html site ((compile s target pages).runFrom site) ∧
              ∀ pages' : Option (List Text), (pages'.getD found).Perm found →
                ∀ written written' site₁ site₂, (compile s target pages).runFrom site = (.ok written, site₁) →
                  (compile s target pages').runFrom site = (.ok written', site₂) →
                    written.Perm written' ∧ ∀ l, site₁.tree.fileAt? l = site₂.tree.fileAt? l := by
  refine ⟨fun e failed hfailed => ?_, fun fresh hfresh => ⟨?_, fun included compiling => ?_, ?_⟩⟩
  · obtain ⟨hcontext, hfiles⟩ := refresh_error hfailed
    exact ⟨by rw [runFrom_compile, hfailed], hcontext, hfiles.fileAt?⟩
  · rw [runFrom_compile, hfresh]
    rfl
  · rw [runFrom_compile, runFrom_compile, refresh_withRecord, hfresh]
    rfl
  · intro found havailable horder hp
    rw [runFrom_available] at havailable
    refine ⟨fun hreject => ?_, fun html hpages => ?_⟩
    · obtain ⟨hfiles, -⟩ := refresh_ok hfresh
      obtain ⟨e, later, hrun, htree⟩ := compilePages_of_rejects target havailable hp horder hreject
      have hcompile : (compile s target pages).runFrom site = (.error e, later.setCompiling false) := by
        rw [runFrom_compile, hfresh]
        dsimp only
        rw [hrun]
      rw [hcompile]
      exact ⟨e, rfl, fun l => (congrArg (FileTree.fileAt? · l) htree).trans (hfiles.fileAt? l)⟩
    · refine ⟨delivered_of_renders s hs target hfresh havailable hp horder hpages, ?_⟩
      intro pages' horder' written written' site₁ site₂ hrun hrun'
      have hends := delivered_of_renders s hs target hfresh havailable hp horder hpages
      have hends' := delivered_of_renders s hs target hfresh havailable hp horder' hpages
      rw [hrun] at hends
      rw [hrun'] at hends'
      exact Compiled.unique s hends hends'

/-- A page that includes another one, which calls a function. -/
def pairSite : Site where
  tree :=
    { entries :=
      [([text "site"], .directory),
        ([text "site", text "index.html"], .file (Utf8.encode (text "a[include part.html]"))),
        ([text "site", text "part.html"], .file (Utf8.encode (text "\x7b\x7buser: m.f()\x7d\x7d")))] }
  customize := none
  context :=
    { EngineContext.start (.whole 2) with
      features := ⟨[], ⟨[(text "m.f", .function 0 fun _ _ => .ok (.str (text "b")))], []⟩⟩ }
  now := .whole 0
  notices := []

def pairSettings : SiteSettings := { SiteSettings.standard [text "site"] 0.5 0 with doctype := [] }

def pairOutput : Path := ⟨false, [text "out"]⟩

def pairPages : List Text := [text "index.html", text "part.html"]

def pairTexts (p : Text) : Text := if p = text "index.html" then text "ab" else text "b"

theorem pure_pair : pairSite.context.features.Pure := by
  intro i hi
  obtain rfl := List.mem_singleton.1 hi
  exact fun _ _ => rfl

theorem eq_ok_of_toOption {ε α : Type} {r : Except ε α} {x : α} (h : r.toOption = some x) : r = .ok x := by
  cases r with
  | error e => nomatch h
  | ok y => exact congrArg _ (Option.some.inj h)

theorem available_pair :
    ((available pairSettings).runFrom pairSite).1 = .ok pairPages := by
  have hthere : pairSite.tree.hasDirectory pairSettings.root.path = .ok true :=
    eq_ok_of_toOption (by decide +kernel)
  have hfiles : pairSite.tree.filesBelow pairSettings.root = [[text "index.html"], [text "part.html"]] :=
    List.mergeSort_of_pairwise (by decide +kernel)
  rw [runFrom_available, discovered, hthere, hfiles]
  exact eq_ok_of_toOption (by decide +kernel)

theorem draft_pair (page content child : Text)
    (ht : (templateText pairSettings page pairSite.tree).toOption = some content)
    (hbase : Inherit.splitExtends content = (none, content))
    (hchild : (Include.resolveWithin pairSite.tree [text "site"] 3 page [] content).bind (·.text) = some child) :
    (draft pairSettings page pairSite.tree).outcome = .ok (Inherit.compose [] child []) := by
  have hfew : (Include.files pairSite.tree [text "site"]).length < 3 := by decide +kernel
  rw [Include.resolveWithin_eq hfew, Option.bind_some] at hchild
  have hinclusion : (inclusion pairSettings content page pairSite.tree).outcome = .ok child := by
    show (Include.resolve pairSite.tree [text "site"] page [] content).text.elim _ _ = _
    rw [hchild]
    rfl
  simp only [draft, eq_ok_of_toOption ht, Draft.andThen_ok, hbase]
  simp [Draft.andThen, hinclusion]
  rfl

theorem compile_outcome_pair :
    ((compile pairSettings pairOutput none).runFrom pairSite).2.context.compiling = false ∧
      Delivered pairSettings pairOutput pairSite.tree pairPages pairTexts pairSite
        ((compile pairSettings pairOutput none).runFrom pairSite) := by
  obtain ⟨-, hfresh⟩ := compile_outcome pairSettings pairOutput none pairSite (by decide)
  obtain ⟨hoff, -, hpages⟩ := hfresh pairSite rfl
  obtain ⟨-, hrun⟩ := hpages pairPages available_pair (.refl _) pure_pair
  have hpage {p content : Text}
      (hvalid : ((validate pairSettings p false).runFrom pairSite).1.toOption = some [])
      (hdraft : (draft pairSettings p pairSite.tree).outcome = .ok content)
      (hprocess : ((process pairSettings content (pageVariables p [])).runFrom pairSite).1.toOption =
        some (pairTexts p)) :
      ¬pairSite.Rejects pairSettings p ∧
        ((renderPage pairSettings p []).runFrom pairSite).1 = .ok (pairTexts p) := by
    have hhtml := (renderPage_of_draft _ pure_pair [] hdraft).trans (eq_ok_of_toOption hprocess)
    refine ⟨fun hreject => ?_, hhtml⟩
    rcases hreject with ⟨e, he⟩ | ⟨e, he⟩
    · nomatch (eq_ok_of_toOption hvalid).symm.trans he
    · nomatch hhtml.symm.trans he
  have hindex := draft_pair (text "index.html") (text "a[include part.html]")
    (text "a\x7b\x7buser: m.f()\x7d\x7d") (by decide +kernel) (by decide +kernel) (by decide +kernel)
  have hpart := draft_pair (text "part.html") (text "\x7b\x7buser: m.f()\x7d\x7d")
    (text "\x7b\x7buser: m.f()\x7d\x7d") (by decide +kernel) (by decide +kernel) (by decide +kernel)
  refine ⟨hoff, (hrun pairTexts (List.forall_mem_cons.2 ⟨?_, List.forall_mem_cons.2 ⟨?_, nofun⟩⟩)).1⟩
  · exact hpage (by decide +kernel) hindex (by decide +kernel)
  · exact hpage (by decide +kernel) hpart (by decide +kernel)

/-- A site that is compiling already, with a file where the features should be. -/
def blockedSite : Site :=
  { pairSite.setCompiling true with customize := some ⟨false, [text "site", text "part.html"]⟩ }

/-- The features cannot be loaded, and the mode stays on. -/
theorem compile_blocked :
    blockedSite.tree.Sound ∧ blockedSite.context.features.Pure ∧
      blockedSite.Raises (compile pairSettings pairOutput none) ∧
      ¬((compile pairSettings pairOutput none).runFrom blockedSite).2.context.compiling = false := by
  refine ⟨by decide, pure_pair, ?_, by decide +kernel⟩
  have hfails : ((compile pairSettings pairOutput none).runFrom blockedSite).1.toOption = none := by decide +kernel
  cases hrun : ((compile pairSettings pairOutput none).runFrom blockedSite).1 with
  | error e => exact ⟨e, hrun⟩
  | ok written => rw [hrun] at hfails; nomatch hfails

end Site

end PageTemplate
