import PageTemplate.Proofs.Compiling
set_option autoImplicit false
/-!
Where a compilation writes. The name of a page is followed twice: from the root, to read the page, and from the
output, to write it. Only the first way is checked. A name that climbs above where it starts stays below the
output only if it comes down again by the names it has climbed over; a name without such steps always does.
-/
namespace PageTemplate

namespace Path

/-- How far segments climb above the place they start from, and the names by which they come down. -/
structure Course where
  up : Nat
  down : Location
  deriving DecidableEq, Repr

/-- The course with one more segment. -/
def Course.turn (c : Course) (segment : Text) : Course :=
  if segment = upSegment then
    if c.down = [] then { c with up := c.up + 1 } else { c with down := c.down.dropLast }
  else { c with down := c.down ++ [segment] }

def course (segments : List Text) : Course := segments.foldl Course.turn ⟨0, []⟩

/-- The place that a course leads to. -/
def Course.endFrom (c : Course) (here : Location) : Location := here.take (here.length - c.up) ++ c.down

theorem Course.step_endFrom (c : Course) (here : Location) (s : Text) :
    step (c.endFrom here) s = (c.turn s).endFrom here := by
  unfold step turn
  split
  · split
    · next hdown =>
      have hlength : min (here.length - c.up) here.length - 1 = here.length - (c.up + 1) := by omega
      have htake : min (here.length - (c.up + 1)) (here.length - c.up) = here.length - (c.up + 1) := by omega
      simp only [Course.endFrom, hdown, List.append_nil, List.dropLast_eq_take, List.length_take, hlength,
        List.take_take, htake]
    · next hdown => exact List.dropLast_append_of_ne_nil hdown
  · exact List.append_assoc ..

/-- A course says where segments lead, whatever the place they start from is. -/
theorem foldl_step_eq (here : Location) (segments : List Text) :
    segments.foldl step here = (course segments).endFrom here := by
  have hfold (c : Course) : segments.foldl step (c.endFrom here) = (segments.foldl Course.turn c).endFrom here := by
    induction segments generalizing c with
    | nil => rfl
    | cons s ss ih => rw [List.foldl_cons, List.foldl_cons, c.step_endFrom, ih]
  simpa [course, Course.endFrom] using hfold ⟨0, []⟩

/-- Does a course lead back below the place it started from? What it climbs it has to come down by the same
names. -/
def Course.Returns (c : Course) (here : Location) : Prop := here.drop (here.length - c.up) <+: c.down

theorem Course.returns_iff (c : Course) (here : Location) : c.Returns here ↔ here.isBelow (c.endFrom here) := by
  have hsplit : here.take (here.length - c.up) ++ here.drop (here.length - c.up) = here := List.take_append_drop ..
  rw [Location.isBelow_iff]
  constructor
  · rintro ⟨rest, h⟩
    exact ⟨rest, by rw [endFrom, ← h, ← List.append_assoc, hsplit]⟩
  · rintro ⟨rest, h⟩
    refine ⟨rest, (List.append_right_inj (here.take (here.length - c.up))).1 ?_⟩
    rw [← List.append_assoc, hsplit]
    exact h.symm

/-- Does a text mean a place below the path it is given under? -/
def Keeps (target : Path) (t : Text) : Prop :=
  if isAbsolute t then target.location.isBelow (ofText t).location = true
  else (course (split t)).Returns target.location

theorem keeps_iff (target : Path) (t : Text) : target.Keeps t ↔ target.location.isBelow (target.join t).location := by
  unfold Keeps join
  split
  · rfl
  · rw [Course.returns_iff, ← foldl_step_eq, location, location, List.foldl_append]

end Path

namespace SiteAction

variable {α β : Type}

/-- Does an action leave the files as they are, whether or not it fails? -/
def KeepsTree (a : SiteAction α) : Prop := ∀ site, (a.runFrom site).2.tree = site.tree

theorem KeepsTree.bind {a : SiteAction α} {f : α → SiteAction β} (ha : KeepsTree a) (hf : ∀ x, KeepsTree (f x)) :
    KeepsTree (a >>= f) := by
  intro site
  have hfirst := ha site
  rw [runFrom_bind]
  rcases hrun : a.runFrom site with ⟨_ | x, site'⟩ <;> rw [hrun] at hfirst
  · exact hfirst
  · exact (hf x site').trans hfirst

end SiteAction

namespace Site

open SiteAction

variable (s : SiteSettings)

theorem keepsTree_validate (page : Text) (lenient : Bool) : KeepsTree (validate s page lenient) := by
  refine KeepsTree.bind (fun site => by rw [runFrom_readTemplate]) fun content site => ?_
  dsimp only
  split <;> rfl

theorem keepsTree_renderPage (page : Text) (vars : Entries) : KeepsTree (renderPage s page vars) := by
  refine KeepsTree.bind (fun site => by rw [renderTemplate_of s page site, Draft.leave_tree]) fun content site => ?_
  rw [runFrom_process]

theorem keepsTree_renderAll (rendered : List (Text × Text)) (pages : List Text) :
    KeepsTree (renderAll s rendered pages) := by
  induction pages generalizing rendered with
  | nil => exact fun _ => rfl
  | cons page pages ih =>
    exact (keepsTree_validate s page false).bind fun _ => (keepsTree_renderPage s page []).bind fun _ => ih _

/-- The pages given are rendered, and no others. -/
theorem mem_renderAll {rendered result : List (Text × Text)} {pages : List Text} {site later : Site}
    (h : (renderAll s rendered pages).runFrom site = (.ok result, later)) (p : Text) :
    p ∈ result.map (·.1) ↔ p ∈ rendered.map (·.1) ∨ p ∈ pages := by
  induction pages generalizing rendered site with
  | nil =>
    obtain rfl := Except.ok.inj (Prod.mk.inj h).1
    simp
  | cons page pages ih =>
    rw [renderAll, runFrom_bind] at h
    split at h
    · next errors site₁ _ =>
      rw [runFrom_bind] at h
      split at h
      · next html site₂ _ =>
        rw [ih h, List.mem_cons, ← or_assoc]
        refine or_congr_left ?_
        split
        · next hany =>
          obtain ⟨r, hr, he⟩ := List.any_eq_true.1 hany
          have hkeys : (rendered.map fun r => if r.1 = page then (page, html) else r).map (·.1) =
              rendered.map (·.1) := by
            rw [List.map_map]
            refine List.map_congr_left fun r _ => ?_
            dsimp only [Function.comp_apply]
            split
            · next he => exact he.symm
            · rfl
          have hpage : page ∈ rendered.map (·.1) := List.mem_map.2 ⟨r, hr, eq_of_beq he⟩
          rw [hkeys]
          exact ⟨.inl, fun hp => hp.elim id (· ▸ hpage)⟩
        · simp
      · cases h
    · cases h

/-! Writing -/

variable (target : Path)

/-- Writing touches no file but those of the pages. -/
theorem fileAt?_writeAll (rs : List (Text × Text)) (site : Site) {l : Location}
    (hl : ∀ r ∈ rs, pagePlace target r ≠ l) :
    ((writeAll target [] rs).runFrom site).2.tree.fileAt? l = site.tree.fileAt? l := by
  induction rs generalizing site with
  | nil => rfl
  | cons r rs ih =>
    obtain ⟨hr, hrs⟩ := List.forall_mem_cons.1 hl
    rw [runFrom_writeAll_cons]
    rcases hsave : (savePage target r).runOn site.tree with ⟨f | _, t⟩
    · exact FileAction.runOn_save_error hsave l
    · refine (ih _ hrs).trans ?_
      exact ((FileAction.runOn_save_ok rfl hsave).2 l).trans (if_neg hr.symm)

theorem included_writeAll (rs : List (Text × Text)) (site : Site) :
    ((writeAll target [] rs).runFrom site).2.context.included = site.context.included := by
  induction rs generalizing site with
  | nil => rfl
  | cons r rs ih =>
    rw [runFrom_writeAll_cons]
    rcases (savePage target r).runOn site.tree with ⟨f | _, t⟩
    · rfl
    · exact ih _

/-- Pages may be written to the same place; there is a file in the end all the same. -/
theorem writeAll_ok {rs : List (Text × Text)} {site later : Site} {written : List Path}
    (h : (writeAll target [] rs).runFrom site = (.ok written, later)) :
    written = rs.map (target.join ·.1) ∧ ∀ r ∈ rs, (later.tree.fileAt? (pagePlace target r)).isSome := by
  induction rs generalizing site written with
  | nil =>
    obtain rfl := Except.ok.inj (Prod.mk.inj h).1
    exact ⟨rfl, nofun⟩
  | cons r rs ih =>
    rw [runFrom_writeAll_cons] at h
    rcases hsave : (savePage target r).runOn site.tree with ⟨_ | _, t⟩ <;> rw [hsave] at h
    · nomatch h
    · dsimp only at h
      have hkept := fileAt?_writeAll target rs (site.recordPage target r t) (l := pagePlace target r)
      rcases hrest : (writeAll target [] rs).runFrom (site.recordPage target r t) with ⟨_ | paths, last⟩ <;>
        rw [hrest] at h hkept
      · nomatch h
      · obtain ⟨hwritten, rfl⟩ := Prod.mk.inj h
        obtain ⟨rfl, hfiles⟩ := ih hrest
        refine ⟨(Except.ok.inj hwritten).symm, List.forall_mem_cons.2 ⟨?_, hfiles⟩⟩
        by_cases hsame : ∃ r' ∈ rs, pagePlace target r' = pagePlace target r
        · obtain ⟨r', hr', he⟩ := hsame
          exact he ▸ hfiles r' hr'
        · have hsaved : t.fileAt? (pagePlace target r) = some (.file (Utf8.encode r.2)) :=
            ((FileAction.runOn_save_ok rfl hsave).2 _).trans (if_pos rfl)
          rw [hkept fun r' hr' he => hsame ⟨r', hr', he⟩]
          exact Option.isSome_of_eq_some hsaved

/-! Compilation -/

/-- A compilation of given pages changes no file, or writes those that none of them included. -/
theorem compile_cases (order : List Text) (site : Site) {last : Site} {outcome : Except SiteError (List Path)}
    (h : (compile s target (some order)).runFrom site = (outcome, last)) :
    (∃ e, outcome = .error e ∧ ∀ l, last.tree.fileAt? l = site.tree.fileAt? l) ∨
      ∃ rs start, (∀ p, p ∈ rs.map (·.1) ↔ p ∈ order ∧ p ∉ last.context.included) ∧
        (∀ l, start.tree.fileAt? l = site.tree.fileAt? l) ∧ outcome = ((writeAll target [] rs).runFrom start).1 ∧
        last = ((writeAll target [] rs).runFrom start).2.setCompiling false := by
  rw [runFrom_compile] at h
  split at h
  · next e failed hrefresh =>
    obtain ⟨rfl, rfl⟩ := Prod.mk.inj h
    exact .inl ⟨e, rfl, (refresh_error hrefresh).2.fileAt?⟩
  · next fresh hrefresh =>
    have hfresh := (refresh_ok hrefresh).1.fileAt?
    have hpages : ((some order).elim (available s) pure).runFrom (fresh.setCompiling true) =
        (.ok order, fresh.setCompiling true) := rfl
    have htree := keepsTree_renderAll s [] order (fresh.setCompiling true)
    rw [compilePages, runFrom_bind, hpages] at h
    dsimp only at h
    rw [runFrom_bind] at h
    rcases hrender : (renderAll s [] order).runFrom (fresh.setCompiling true) with ⟨e | rendered, start⟩ <;>
      rw [hrender] at h htree
    · obtain ⟨rfl, rfl⟩ := Prod.mk.inj h
      exact .inl ⟨e, rfl, fun l => (congrArg (FileTree.fileAt? · l) htree).trans (hfresh l)⟩
    · dsimp only at h
      rw [runFrom_bind, runFrom_get] at h
      dsimp only at h
      rw [writeAll_eq] at h
      obtain ⟨rfl, rfl⟩ := Prod.mk.inj h
      refine .inr ⟨rendered.filter fun r => !start.context.included.contains r.1, start, fun p => ?_,
        fun l => (congrArg (FileTree.fileAt? · l) htree).trans (hfresh l), rfl, rfl⟩
      have hincluded := included_writeAll target (rendered.filter fun r => !start.context.included.contains r.1) start
      have hkeys := mem_renderAll s hrender p
      simp only [setCompiling, EngineContext.setCompiling, Bool.false_eq_true, if_false, hincluded]
      simp only [List.map_nil, List.not_mem_nil, false_or] at hkeys
      rw [← hkeys]
      simp only [List.mem_map, List.mem_filter, List.contains_eq_mem, Bool.not_eq_true', decide_eq_false_iff_not]
      constructor
      · rintro ⟨r, ⟨hr, hnot⟩, rfl⟩
        exact ⟨⟨r, hr, rfl⟩, hnot⟩
      · rintro ⟨⟨r, hr, rfl⟩, hnot⟩
        exact ⟨r, ⟨hr, hnot⟩, rfl⟩

/-- Whatever a compilation of given pages comes to, it changes no file outside the output if each name that no
page includes keeps below it; and if it succeeds, the files it wrote lie below the output only in that case. -/
theorem compile_below_iff (order : List Text) (site : Site) {last : Site} {outcome : Except SiteError (List Path)}
    (h : (compile s target (some order)).runFrom site = (outcome, last)) :
    ((∀ p ∈ order, p ∉ last.context.included → target.Keeps p) →
      ∀ l, last.tree.fileAt? l ≠ site.tree.fileAt? l → target.location.isBelow l) ∧
    ∀ written, outcome = .ok written →
      (∀ path ∈ written, (last.tree.fileAt? path.location).isSome) ∧
      ((∀ path ∈ written, target.location.isBelow path.location) ↔
        ∀ p ∈ order, p ∉ last.context.included → target.Keeps p) := by
  obtain ⟨e, rfl, hsame⟩ | ⟨rs, start, hkeys, hstart, houtcome, rfl⟩ := compile_cases s target order site h
  · exact ⟨fun _ l hl => absurd (hsame l) hl, nofun⟩
  refine ⟨fun hkeep l hl => ?_, fun written hok => ?_⟩
  · by_cases hplace : ∃ r ∈ rs, pagePlace target r = l
    · obtain ⟨r, hr, rfl⟩ := hplace
      obtain ⟨hmem, hnot⟩ := (hkeys r.1).1 (List.mem_map_of_mem hr)
      exact (Path.keeps_iff target r.1).1 (hkeep r.1 hmem hnot)
    · have hkept := fileAt?_writeAll target rs start fun r hr he => hplace ⟨r, hr, he⟩
      exact absurd (hkept.trans (hstart l)) hl
  · rcases hwrite : (writeAll target [] rs).runFrom start with ⟨e | paths, later⟩ <;> rw [hwrite] at houtcome
    · nomatch houtcome.symm.trans hok
    · obtain rfl : paths = written := Except.ok.inj (houtcome.symm.trans hok)
      obtain ⟨rfl, hfiles⟩ := writeAll_ok target hwrite
      rw [hwrite] at hkeys
      refine ⟨List.forall_mem_map.2 hfiles, ?_⟩
      simp only [List.forall_mem_map, ← Path.keeps_iff]
      constructor
      · intro hbelow p hp hnot
        obtain ⟨r, hr, rfl⟩ := List.mem_map.1 ((hkeys p).2 ⟨hp, hnot⟩)
        exact hbelow r hr
      · intro hkeep r hr
        obtain ⟨hmem, hnot⟩ := (hkeys r.1).1 (List.mem_map_of_mem hr)
        exact hkeep r.1 hmem hnot

/-- A name that climbs out of the root and comes back. -/
def climbing : Text := text "../site/part.html"

/-- What the page has in its file. -/
def callText : Text := text "\x7b\x7buser: m.f()\x7d\x7d"

theorem draft_climbing :
    (draft pairSettings climbing pairSite.tree).outcome = .ok callText ∧
      (draft pairSettings climbing pairSite.tree).spliced = [] := by
  have hfew : (Include.files pairSite.tree [text "site"]).length < 3 := by decide +kernel
  have htemplate : templateText pairSettings climbing pairSite.tree = .ok callText :=
    eq_ok_of_toOption (by decide +kernel)
  have hbase : Inherit.splitExtends callText =
      (none, callText) := by decide +kernel
  have hwithin : (Include.resolveWithin pairSite.tree [text "site"] 3 climbing []
      callText).map (fun e => (e.text, e.spliced)) =
        some (some callText, []) := by decide +kernel
  rw [Include.resolveWithin_eq hfew, Option.map_some] at hwithin
  obtain ⟨htext, hspliced⟩ := Prod.mk.inj (Option.some.inj hwithin)
  obtain ⟨notices, hinclusion⟩ : ∃ ns, inclusion pairSettings callText climbing pairSite.tree =
      ⟨.ok callText, ns, []⟩ := by
    rw [inclusion, show pairSettings.root = [text "site"] from rfl, htext, hspliced]
    exact ⟨_, rfl⟩
  have hcompose : Inherit.compose [] callText [] =
      callText := by decide +kernel
  simp only [draft, htemplate, Draft.andThen_ok, hbase, hinclusion]
  simp only [Draft.andThen, Draft.ofExcept]
  exact ⟨congrArg Except.ok hcompose, rfl⟩

theorem renderAll_climbing : ∃ later,
    (renderAll pairSettings [] [climbing]).runFrom (pairSite.setCompiling true) = (.ok [(climbing, text "b")], later) ∧
      later.tree = pairSite.tree ∧ later.context.included = [] := by
  obtain ⟨hdraft, hspliced⟩ := draft_climbing
  have hvalid : ((validate pairSettings climbing false).runFrom pairSite).1 = .ok [] :=
    eq_ok_of_toOption (by decide +kernel)
  have hhtml : ((renderPage pairSettings climbing []).runFrom pairSite).1 = .ok (text "b") :=
    (renderPage_of_draft _ pure_pair [] hdraft).trans (eq_ok_of_toOption (by decide +kernel))
  have haccepted : ¬pairSite.Rejects pairSettings climbing := by
    rintro (⟨e, he⟩ | ⟨e, he⟩)
    · nomatch hvalid.symm.trans he
    · nomatch hhtml.symm.trans he
  have hstart : (pairSite.setCompiling true).Alike pairSite := ⟨rfl, rfl, rfl⟩
  obtain ⟨result, later, hrun, hresult, hlater⟩ := runFrom_renderAll pairSettings pure_pair
    (List.forall_mem_singleton.2 ⟨haccepted, hhtml⟩) hstart (renders_nil fun _ => text "b")
  have hnodup : result.Nodup := (List.pairwise_map.1 hresult.nodup).imp fun hne he => hne (congrArg _ he)
  have hone : result.Perm [(climbing, text "b")] := by
    refine (List.perm_ext_iff_of_nodup hnodup (by simp)).2 fun r => ?_
    rw [hresult.mem, List.nil_append, List.mem_singleton, List.mem_singleton]
    exact ⟨fun ⟨hp, ht⟩ => Prod.ext hp ht, fun he => he ▸ ⟨rfl, rfl⟩⟩
  refine ⟨later, ?_, hlater.tree, List.eq_nil_iff_forall_not_mem.2 fun f hf => ?_⟩
  · rw [hrun, List.perm_singleton.1 hone]
  · have hfiles := (hlater.included rfl f).1 hf
    simp [hspliced, setCompiling, EngineContext.setCompiling] at hfiles

/-- Compiling the page comes down to saving it. -/
theorem compile_climbing (target : Path) {t : FileTree}
    (hsave : (savePage target (climbing, text "b")).runOn pairSite.tree = (.ok (), t)) : ∃ last,
    (compile pairSettings target (some [climbing])).runFrom pairSite = (.ok [target.join climbing], last) ∧
      last.tree = t := by
  obtain ⟨later, hrun, htree, hincluded⟩ := renderAll_climbing
  have hpages : (compilePages pairSettings target (some [climbing])).runFrom (pairSite.setCompiling true) =
      (.ok [target.join climbing], later.recordPage target (climbing, text "b") t) := by
    rw [compilePages, runFrom_bind]
    change ((renderAll pairSettings [] [climbing] >>= _).runFrom (pairSite.setCompiling true)) = _
    rw [runFrom_bind, hrun]
    dsimp only
    rw [runFrom_bind, runFrom_get]
    dsimp only
    rw [hincluded, runFrom_writeAll_cons, htree, hsave]
    rfl
  refine ⟨(later.recordPage target (climbing, text "b") t).setCompiling false, ?_, rfl⟩
  rw [runFrom_compile, show refresh.runFrom pairSite = (.ok (), pairSite) from rfl]
  dsimp only
  rw [hpages]

theorem saved_of_toOption {α : Type} {a : FileAction α} {t : FileTree} {x : α} (h : (a.runOn t).1.toOption = some x) :
    a.runOn t = (.ok x, (a.runOn t).2) :=
  Prod.ext (eq_ok_of_toOption h) rfl

/-- Below an output of the root's own name the page comes back. -/
theorem compile_below_iff_returning : ∃ last,
    (compile pairSettings ⟨false, [text "copy", text "site"]⟩ (some [climbing])).runFrom pairSite =
        (.ok [Path.join ⟨false, [text "copy", text "site"]⟩ climbing], last) ∧
      Path.Keeps ⟨false, [text "copy", text "site"]⟩ climbing ∧
      ∀ path ∈ [Path.join ⟨false, [text "copy", text "site"]⟩ climbing],
        Location.isBelow [text "copy", text "site"] path.location := by
  have hkeep : Path.Keeps ⟨false, [text "copy", text "site"]⟩ climbing := (Path.keeps_iff _ _).2 (by decide +kernel)
  obtain ⟨last, hrun, -⟩ := compile_climbing ⟨false, [text "copy", text "site"]⟩
    (saved_of_toOption (by decide +kernel))
  obtain ⟨-, hok⟩ := compile_below_iff pairSettings ⟨false, [text "copy", text "site"]⟩ [climbing] pairSite hrun
  refine ⟨last, hrun, hkeep, (hok _ rfl).2.2 fun p hp _ => ?_⟩
  obtain rfl := List.mem_singleton.1 hp
  exact hkeep

/-- Anywhere else the page is written over its own template. -/
theorem compile_strays : ∃ last,
    (compile pairSettings pairOutput (some [climbing])).runFrom pairSite =
        (.ok [⟨false, [text "out", upSegment, text "site", text "part.html"]⟩], last) ∧
      ¬pairOutput.location.isBelow [text "site", text "part.html"] ∧
      (pairSite.tree.readText [text "site", text "part.html"]).toOption =
        some callText ∧
      (last.tree.readText [text "site", text "part.html"]).toOption = some (text "b") := by
  obtain ⟨last, hrun, htree⟩ := compile_climbing pairOutput (saved_of_toOption (by decide +kernel))
  have hpath : pairOutput.join climbing = ⟨false, [text "out", upSegment, text "site", text "part.html"]⟩ := by
    decide +kernel
  rw [hpath] at hrun
  refine ⟨last, hrun, by decide +kernel, by decide +kernel, ?_⟩
  rw [htree]
  decide +kernel

end Site

end PageTemplate
