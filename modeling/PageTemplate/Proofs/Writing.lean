import PageTemplate.Proofs.Saving
set_option autoImplicit false
/-!
Writing pages. Each page is saved to its place and recorded as a recent write. As long as the places differ,
every page that was written is there at the end, and what was elsewhere is as it was.
-/
namespace PageTemplate

namespace Site

open SiteAction

variable {site : Site}

theorem runFrom_write (path : Path) (content : Text) (site : Site) :
    (write path content).runFrom site =
      match (FileAction.save path (.file (Utf8.encode content))).runOn site.tree with
      | (.error f, t) => (.error (.file f), { site with tree := t })
      | (.ok _, t) =>
        (.ok path, { site with tree := t, context := site.context.recordWrite path.location site.now }) := by
  rw [write, runFrom_bind, runFrom_onTree]
  rcases hsave : (FileAction.save path (.file (Utf8.encode content))).runOn site.tree with ⟨_ | _, t⟩
  · rfl
  · obtain ⟨hname, -⟩ := FileAction.runOn_save_ok rfl hsave
    have hplace : path.location? = some path.location := Path.location?_eq_some_iff.2 ⟨hname, rfl⟩
    simp only [mapError_ok, runFrom_bind, runFrom_locate, hplace, Option.elim, runFrom_modify, runFrom_pure]

/-- The file of a page is the page's alone. -/
def savePage (target : Path) (r : Text × Text) : FileAction Unit :=
  FileAction.save (target.join r.1) (.file (Utf8.encode r.2))

/-- Where a page is written. -/
def pagePlace (target : Path) (r : Text × Text) : Location := (target.join r.1).location

theorem writeAll_eq (target : Path) (included : List Text) (rs : List (Text × Text)) :
    writeAll target included rs = writeAll target [] (rs.filter fun r => !included.contains r.1) := by
  induction rs with
  | nil => rfl
  | cons r rs ih =>
    rw [writeAll, List.filter_cons]
    cases included.contains r.1 with
    | true => exact ih
    | false =>
      simp only [Bool.false_eq_true, if_false, Bool.not_false, if_true]
      rw [ih, writeAll]
      rfl

/-- A site after the file of a page was saved. -/
def recordPage (target : Path) (r : Text × Text) (t : FileTree) (site : Site) : Site :=
  { site with tree := t, context := site.context.recordWrite (pagePlace target r) site.now }

theorem runFrom_writeAll_cons (target : Path) (r : Text × Text) (rs : List (Text × Text)) (site : Site) :
    (writeAll target [] (r :: rs)).runFrom site =
      match (savePage target r).runOn site.tree with
      | (.error f, t) => (.error (.file f), { site with tree := t })
      | (.ok _, t) =>
        (((writeAll target [] rs).runFrom (site.recordPage target r t)).1.map (target.join r.1 :: ·),
          ((writeAll target [] rs).runFrom (site.recordPage target r t)).2) := by
  rw [writeAll, List.contains_nil]
  simp only [Bool.false_eq_true, if_false, runFrom_bind, runFrom_write, savePage, recordPage, pagePlace]
  rcases (FileAction.save (target.join r.1) (.file (Utf8.encode r.2))).runOn site.tree with ⟨_ | _, t⟩
  · rfl
  · dsimp only
    split
    · next heq => rw [heq]; rfl
    · next heq => rw [heq]; rfl

/-- A site after files of pages were written. -/
structure Wrote (target : Path) (rs : List (Text × Text)) (site site' : Site) : Prop where
  now : site'.now = site.now
  nameable : ∀ r ∈ rs, (target.join r.1).isNameable
  file : ∀ r ∈ rs, site'.tree.fileAt? (pagePlace target r) = some (.file (Utf8.encode r.2))
  other : ∀ l, (∀ r ∈ rs, pagePlace target r ≠ l) → site'.tree.fileAt? l = site.tree.fileAt? l
  recent : ∀ r ∈ rs, (pagePlace target r, site.now) ∈ site'.context.recent.entries
  older : ∀ e ∈ site.context.recent.entries, (∀ r ∈ rs, pagePlace target r ≠ e.1) → e ∈ site'.context.recent.entries
  timeToLive : site'.context.recent.timeToLive = site.context.recent.timeToLive

theorem wrote_nil (target : Path) (site : Site) : Wrote target [] site site :=
  ⟨rfl, by simp, by simp, fun _ _ => rfl, by simp, fun _ he _ => he, rfl⟩

theorem wrote_page {target : Path} {r : Text × Text} {t : FileTree}
    (h : (savePage target r).runOn site.tree = (.ok (), t)) : Wrote target [r] site (site.recordPage target r t) := by
  obtain ⟨hname, hfiles⟩ := FileAction.runOn_save_ok rfl h
  refine ⟨rfl, by simpa using hname, ?_, fun l hl => ?_, ?_, fun e he hne => ?_, rfl⟩
  · simpa [recordPage, pagePlace] using (hfiles (pagePlace target r)).trans (if_pos rfl)
  · exact (hfiles l).trans (if_neg fun he => hl r List.mem_cons_self he.symm)
  · simp [recordPage, EngineContext.recordWrite, RecentWrites.record]
  · have hkept : e.1 ≠ pagePlace target r := fun he => hne r List.mem_cons_self he.symm
    simp [recordPage, EngineContext.recordWrite, RecentWrites.record, he, hkept]

theorem Wrote.cons {target : Path} {r : Text × Text} {rs : List (Text × Text)} {next later : Site}
    (h : Wrote target [r] site next) (h' : Wrote target rs next later)
    (hapart : ∀ r' ∈ rs, pagePlace target r' ≠ pagePlace target r) : Wrote target (r :: rs) site later where
  now := h'.now.trans h.now
  nameable := List.forall_mem_cons.2 ⟨h.nameable r List.mem_cons_self, h'.nameable⟩
  file := List.forall_mem_cons.2 ⟨(h'.other _ hapart).trans (h.file r List.mem_cons_self), h'.file⟩
  other l hl := by
    obtain ⟨hr, hrs⟩ := List.forall_mem_cons.1 hl
    exact (h'.other l hrs).trans (h.other l (by simpa using hr))
  recent := List.forall_mem_cons.2
    ⟨h'.older _ (h.recent r List.mem_cons_self) hapart, fun r' hr' => h.now ▸ h'.recent r' hr'⟩
  older e he hne := by
    obtain ⟨hr, hrs⟩ := List.forall_mem_cons.1 hne
    exact h'.older e (h.older e he (by simpa using hr)) hrs
  timeToLive := h'.timeToLive.trans h.timeToLive

theorem wrote_of_writeAll {target : Path} {rs : List (Text × Text)} (hrs : (rs.map (pagePlace target)).Nodup)
    {written : List Path} {later : Site} (h : (writeAll target [] rs).runFrom site = (.ok written, later)) :
    written = rs.map (target.join ·.1) ∧ Wrote target rs site later := by
  induction rs generalizing site written with
  | nil =>
    obtain ⟨hwritten, rfl⟩ := Prod.mk.inj h
    exact ⟨(Except.ok.inj hwritten).symm, wrote_nil target site⟩
  | cons r rs ih =>
    obtain ⟨hr, hrs⟩ := List.nodup_cons.1 hrs
    rw [runFrom_writeAll_cons] at h
    rcases hsave : (savePage target r).runOn site.tree with ⟨_ | _, t⟩ <;> rw [hsave] at h
    · nomatch h
    · dsimp only at h
      rcases hrest : (writeAll target [] rs).runFrom (site.recordPage target r t) with ⟨_ | paths, last⟩ <;>
        rw [hrest] at h
      · nomatch h
      · obtain ⟨hwritten, rfl⟩ := Prod.mk.inj h
        obtain ⟨rfl, hwrote⟩ := ih hrs hrest
        refine ⟨(Except.ok.inj hwritten).symm, (wrote_page hsave).cons hwrote fun r' hr' he => hr ?_⟩
        exact he ▸ List.mem_map_of_mem hr'

/-- Saves pages in turn. -/
def saveAll (target : Path) : List (Text × Text) → FileAction Unit
  | [] => pure ()
  | r :: rs => do
    savePage target r
    saveAll target rs

/-- Writing fails only where saving does. -/
theorem saveAll_of_writeAll {target : Path} {rs : List (Text × Text)} {e : SiteError} {later : Site}
    (h : (writeAll target [] rs).runFrom site = (.error e, later)) :
    ∃ f, e = .file f ∧ ((saveAll target rs).runOn site.tree).1 = .error f := by
  induction rs generalizing site with
  | nil => nomatch h
  | cons r rs ih =>
    rw [runFrom_writeAll_cons] at h
    rw [saveAll, FileAction.runOn_bind]
    rcases hsave : (savePage target r).runOn site.tree with ⟨f | _, t⟩ <;> rw [hsave] at h
    · exact ⟨f, (Except.error.inj (Prod.mk.inj h).1).symm, rfl⟩
    · dsimp only at h
      rcases hrest : (writeAll target [] rs).runFrom (site.recordPage target r t) with ⟨e' | paths, last⟩ <;>
        rw [hrest] at h
      · obtain ⟨he, rfl⟩ := Prod.mk.inj h
        obtain rfl : e' = e := Except.error.inj he
        exact ih hrest
      · nomatch h

end Site

end PageTemplate
