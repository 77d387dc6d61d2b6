import PageTemplate.Proofs.Drafting
import PageTemplate.Proofs.Place
import PageTemplate.Proofs.Splitting
set_option autoImplicit false
/-!
The choice of the entry page. The pages are read in order until one holds the entry marker; those that are not there
are passed over and reported. A page whose file holds no text is not passed over: it ends the search with a failure.
-/
namespace PageTemplate

namespace Site

open SiteAction

variable (s : SiteSettings) (t : FileTree)

/-! What a page is found to be -/

/-- Does a page name a place from the root on? -/
def Names (page : Text) (l : Location) : Prop := (s.root.path.join page).location? = some l ∧ s.root.isBelow l

/-- The text in the file of a page. -/
def Holds (page content : Text) : Prop :=
  ∃ l bytes decoded, Names s page l ∧ t.hasFile l.path = .ok true ∧ t.find? l = some (.file bytes) ∧
    Utf8.decode? bytes = some decoded ∧ unifyLineEnds decoded = content

/-- There is no file where the page should be, but a directory or nothing. -/
def Lacks (page : Text) : Prop := ∃ l, Names s page l ∧ t.hasFile l.path = .ok false

/-- Why a page is neither read nor missing. Its file holds no text, or its name is too long to look for. -/
inductive Defies (page : Text) : FileFailure → Prop
  | undecodable {l : Location} (hnames : Names s page l) (hfile : t.hasFile l.path = .ok true)
    (hbytes : ∀ bytes, t.find? l = some (.file bytes) → Utf8.decode? bytes = none) : Defies page .undecodable
  | tooLong {l : Location} (hnames : Names s page l) (hlong : t.hasFile l.path = .error .tooLong) :
    Defies page .tooLong

variable {s t} {page content : Text} {l : Location} {f : FileFailure}

theorem hasFile_eq_error {p : Path} (h : t.hasFile p = .error f) : f = .tooLong := by
  unfold FileTree.hasFile FileTree.probe at h
  split at h <;> simp_all [Except.map]

/-- A place that leads to a file is read as what is at it. -/
theorem readText_of_hasFile (hup : upSegment ∉ l) (h : t.hasFile l.path = .ok true) :
    t.readText l =
      match t.find? l with
      | some (.file bytes) => (Utf8.decode? bytes).elim (.error .undecodable) fun decoded => .ok (unifyLineEnds decoded)
      | _ => .error .undecodable := by
  unfold FileTree.hasFile FileTree.probe at h
  cases hplace : t.place l.path with
  | error f => cases f <;> simp [hplace, Except.map] at h
  | ok here =>
    obtain rfl : here = l := (FileTree.place_eq_ok hplace).symm.trans (Location.location_path hup)
    simp only [hplace, Except.map, Except.ok.injEq] at h
    unfold FileTree.readText
    rw [hplace]
    cases hnode : t.find? here with
    | none => simp [hnode] at h
    | some n =>
      cases n with
      | directory => simp [hnode, Node.isFile, Node.isDirectory] at h
      | module m => rfl
      | file bytes => cases hdecode : Utf8.decode? bytes <;> simp [hdecode]

namespace Names

theorem upSegment_notMem (h : Names s page l) : upSegment ∉ l := by
  obtain ⟨-, rfl⟩ := Path.location?_eq_some_iff.1 h.1
  exact Path.upSegment_notMem_location _

theorem templateText_eq (h : Names s page l) :
    templateText s page t =
      match t.hasFile l.path with
      | .error f => .error (.file f)
      | .ok true => (t.readText l).mapError .file
      | .ok false => .error (.resolution (.notFound page)) := by
  rw [templateText, h.1]
  exact if_neg (by simp [h.2])

/-- A page inside of the root is read, or missing, or defies both. -/
theorem found (h : Names s page l) : (∃ content, Holds s t page content) ∨ Lacks s t page ∨ ∃ f, Defies s t page f := by
  cases hfile : t.hasFile l.path with
  | error f => exact .inr (.inr ⟨_, .tooLong h (hasFile_eq_error hfile ▸ hfile)⟩)
  | ok there =>
    cases there with
    | false => exact .inr (.inl ⟨l, h, hfile⟩)
    | true =>
      by_cases hbytes : ∀ bytes, t.find? l = some (.file bytes) → Utf8.decode? bytes = none
      · exact .inr (.inr ⟨_, .undecodable h hfile hbytes⟩)
      · simp only [not_forall] at hbytes
        obtain ⟨bytes, hnode, hdecode⟩ := hbytes
        obtain ⟨decoded, hdecode⟩ := Option.ne_none_iff_exists'.1 hdecode
        exact .inl ⟨_, l, bytes, decoded, h, hfile, hnode, hdecode, rfl⟩

end Names

theorem Holds.templateText_eq (h : Holds s t page content) : templateText s page t = .ok content := by
  obtain ⟨l, bytes, decoded, hnames, hfile, hnode, hdecode, rfl⟩ := h
  rw [hnames.templateText_eq, hfile]
  simp [readText_of_hasFile hnames.upSegment_notMem hfile, hnode, hdecode]

theorem Lacks.templateText_eq (h : Lacks s t page) : templateText s page t = .error (.resolution (.notFound page)) := by
  obtain ⟨l, hnames, hfile⟩ := h
  rw [hnames.templateText_eq, hfile]

theorem Defies.templateText_eq (h : Defies s t page f) : templateText s page t = .error (.file f) := by
  cases h with
  | @undecodable l hnames hfile hbytes =>
    rw [hnames.templateText_eq, hfile]
    simp only [readText_of_hasFile hnames.upSegment_notMem hfile]
    split
    · next bytes hnode => rw [hbytes bytes hnode]; rfl
    · rfl
  | tooLong hnames hlong => rw [hnames.templateText_eq, hlong]

theorem holds_iff : Holds s t page content ↔ templateText s page t = .ok content := by
  refine ⟨Holds.templateText_eq, fun h => ?_⟩
  have hnames : ∃ l, Names s page l := by
    unfold templateText at h
    split at h
    · nomatch h
    · next l hl =>
      split at h
      · nomatch h
      · next hbelow => exact ⟨l, hl, by simpa using hbelow⟩
  obtain ⟨l, hnames⟩ := hnames
  obtain ⟨content', hholds⟩ | hlacks | ⟨f, hdefies⟩ := hnames.found (t := t)
  · obtain rfl : content' = content := Except.ok.inj (hholds.templateText_eq.symm.trans h)
    exact hholds
  · nomatch hlacks.templateText_eq.symm.trans h
  · nomatch hdefies.templateText_eq.symm.trans h

/-! The search for the marker -/

variable (s t)

def Readable (page : Text) : Prop := ∃ content, Holds s t page content

/-- Does a page hold the entry marker? -/
def HoldsMarker (page : Text) : Prop := ∃ content, Holds s t page content ∧ s.entryMarker <:+: content

instance : DecidablePred (Readable s t) := fun page =>
  match h : templateText s page t with
  | .ok content => isTrue ⟨content, holds_iff.2 h⟩
  | .error _ => isFalse fun ⟨_, hholds⟩ => nomatch h.symm.trans hholds.templateText_eq

instance : DecidablePred (HoldsMarker s t) := fun page =>
  match h : templateText s page t with
  | .ok content =>
    decidable_of_iff (s.entryMarker <:+: content)
      ⟨fun hm => ⟨content, holds_iff.2 h, hm⟩,
        fun ⟨_, hholds, hm⟩ => Except.ok.inj (h.symm.trans hholds.templateText_eq) ▸ hm⟩
  | .error _ => isFalse fun ⟨_, hholds, _⟩ => nomatch h.symm.trans hholds.templateText_eq

/-- The pages that are looked at in vain. -/
def searched (pages : List Text) : List Text := pages.takeWhile fun page => ¬HoldsMarker s t page

/-- What is reported of pages that are looked at. -/
def skips (pages : List Text) : List Notice := (pages.filter fun page => ¬Readable s t page).map .pageSkipped

/-- The site after some reports. -/
def reporting (ns : List Notice) (site : Site) : Site := { site with notices := site.notices ++ ns }

variable {s t} {site : Site} {pages front rest : List Text}

theorem runFrom_markedPage?_cons (page : Text) (pages : List Text) (site : Site) :
    (markedPage? s (page :: pages)).runFrom site =
      match templateText s page site.tree with
      | .ok content =>
        if occursIn s.entryMarker content then (.ok (some page), site) else (markedPage? s pages).runFrom site
      | .error (.resolution _) => (markedPage? s pages).runFrom (reporting [.pageSkipped page] site)
      | .error e => (.error e, site) := by
  rw [markedPage?]
  simp only [runFrom_bind, runFrom_tryCatch, runFrom_readTemplate]
  cases templateText s page site.tree with
  | ok content =>
    simp only [runFrom_pure]
    split <;> rfl
  | error e => cases e <;> rfl

/-- A page that is passed over changes nothing, unless it is missing and so reported. -/
theorem runFrom_markedPage?_of_passed (hnames : ∃ l, Names s page l) (hmarker : ¬HoldsMarker s site.tree page)
    (hdefies : ∀ f, ¬Defies s site.tree page f) :
    (markedPage? s (page :: pages)).runFrom site =
      (markedPage? s pages).runFrom (reporting (skips s site.tree [page]) site) := by
  obtain ⟨l, hnames⟩ := hnames
  rw [runFrom_markedPage?_cons]
  obtain ⟨content, hholds⟩ | hlacks | ⟨f, hd⟩ := hnames.found (t := site.tree)
  · have hmissed : ¬occursIn s.entryMarker content := fun h => hmarker ⟨content, hholds, occursIn_iff.1 h⟩
    have hreadable : Readable s site.tree page := ⟨content, hholds⟩
    simp [hholds.templateText_eq, hmissed, skips, hreadable, reporting]
  · have hunreadable : ¬Readable s site.tree page := fun ⟨_, hholds⟩ =>
      nomatch hlacks.templateText_eq.symm.trans hholds.templateText_eq
    simp [hlacks.templateText_eq, skips, hunreadable]
  · exact absurd hd (hdefies f)

theorem runFrom_markedPage?_append (hfront : ∀ p ∈ front, (∃ l, Names s p l) ∧ ¬HoldsMarker s site.tree p)
    (hdefies : ∀ p ∈ front, ∀ f, ¬Defies s site.tree p f) :
    (markedPage? s (front ++ rest)).runFrom site =
      (markedPage? s rest).runFrom (reporting (skips s site.tree front) site) := by
  induction front generalizing site with
  | nil => simp [skips, reporting]
  | cons p front ih =>
    obtain ⟨⟨hnames, hmarker⟩, hfront⟩ := List.forall_mem_cons.1 hfront
    obtain ⟨hp, hdefies⟩ := List.forall_mem_cons.1 hdefies
    rw [List.cons_append, runFrom_markedPage?_of_passed hnames hmarker hp]
    have hrest : (markedPage? s (front ++ rest)).runFrom (reporting (skips s site.tree [p]) site) = _ :=
      ih hfront hdefies
    have htogether : skips s site.tree (p :: front) = skips s site.tree [p] ++ skips s site.tree front := by
      rw [skips, skips, skips, ← List.map_append, ← List.filter_append, List.singleton_append]
    rw [hrest, htogether]
    simp [reporting]

theorem runFrom_markedPage?_of_marker (h : HoldsMarker s site.tree page) :
    (markedPage? s (page :: pages)).runFrom site = (.ok (some page), site) := by
  obtain ⟨content, hholds, hmarker⟩ := h
  rw [runFrom_markedPage?_cons, hholds.templateText_eq]
  exact if_pos (occursIn_iff.2 hmarker)

theorem runFrom_markedPage?_of_defies (h : Defies s site.tree page f) :
    (markedPage? s (page :: pages)).runFrom site = (.error (.file f), site) := by
  rw [runFrom_markedPage?_cons, h.templateText_eq]

/-! The entry page -/

variable (s t)

/-- The entry page of a list: the first with the marker; without one, the first name of priority that is listed;
without one, the least name. -/
inductive Entry (pages : List Text) : Text → Prop
  | marked {front behind : List Text} {page : Text} (hpages : pages = front ++ page :: behind)
    (hfront : ∀ p ∈ front, ¬HoldsMarker s t p) (hmarker : HoldsMarker s t page) : Entry pages page
  | priority {front behind : List Text} {name : Text} (hmarker : ∀ p ∈ pages, ¬HoldsMarker s t p)
    (hpriority : s.entryPriority = front ++ name :: behind) (hfront : ∀ n ∈ front, n ∉ pages) (hlisted : name ∈ pages) :
    Entry pages name
  | least {name : Text} (hmarker : ∀ p ∈ pages, ¬HoldsMarker s t p) (hpriority : ∀ n ∈ s.entryPriority, n ∉ pages)
    (hlisted : name ∈ pages) (hleast : ∀ p ∈ pages, name ≤ p) : Entry pages name

variable {s t}

theorem Entry.mem {entry : Text} (h : Entry s t pages entry) : entry ∈ pages := by
  cases h with
  | marked hpages => simp [hpages]
  | priority _ _ _ hlisted => exact hlisted
  | least _ _ hlisted => exact hlisted

theorem least_spec (page : Text) (pages : List Text) :
    least page pages ∈ page :: pages ∧ ∀ p ∈ page :: pages, least page pages ≤ p := by
  induction pages generalizing page with
  | nil => simp [least]
  | cons next pages ih =>
    obtain hlt | hle := lt_or_ge next page
    · have hstep : least page (next :: pages) = least next pages := by
        rw [least, List.foldl_cons, if_pos (Value.before_iff.2 hlt), least]
      obtain ⟨hmem, hleast⟩ := ih next
      have hnext := hleast next List.mem_cons_self
      rw [hstep]
      exact ⟨List.mem_cons_of_mem page hmem, List.forall_mem_cons.2 ⟨hnext.trans hlt.le, hleast⟩⟩
    · have hstep : least page (next :: pages) = least page pages := by
        rw [least, List.foldl_cons, if_neg (mt Value.before_iff.1 hle.not_gt), least]
      obtain ⟨hmem, hleast⟩ := ih page
      obtain ⟨hpage, hleast⟩ := List.forall_mem_cons.1 hleast
      rw [hstep]
      refine ⟨?_, List.forall_mem_cons.2 ⟨hpage, List.forall_mem_cons.2 ⟨hpage.trans hle, hleast⟩⟩⟩
      obtain hmem | hmem := List.mem_cons.1 hmem <;> simp [hmem]

theorem not_holdsMarker_of_mem_searched (h : page ∈ searched s t pages) : ¬HoldsMarker s t page := by
  simpa using List.mem_takeWhile_imp h

/-- The pages are those that are looked at in vain, and behind them one with the marker or none. -/
theorem searched_append (s : SiteSettings) (t : FileTree) (pages : List Text) :
    pages = searched s t pages ∧ (∀ p ∈ pages, ¬HoldsMarker s t p) ∨
      ∃ page behind, pages = searched s t pages ++ page :: behind ∧ HoldsMarker s t page := by
  have hsplit := List.takeWhile_append_dropWhile (p := fun page => decide ¬HoldsMarker s t page) (l := pages)
  change searched s t pages ++ _ = _ at hsplit
  cases hrest : pages.dropWhile fun page => decide ¬HoldsMarker s t page with
  | nil =>
    rw [hrest, List.append_nil] at hsplit
    refine .inl ⟨hsplit.symm, fun p hp => ?_⟩
    rw [← hsplit] at hp
    exact not_holdsMarker_of_mem_searched hp
  | cons page behind =>
    have hpage := List.head?_dropWhile_not (fun page => decide ¬HoldsMarker s t page) pages
    rw [hrest] at hsplit hpage
    exact .inr ⟨page, behind, hsplit.symm, by simpa using hpage⟩

/-- The entry page of pages without the marker. -/
theorem entry_of_priority (hmarker : ∀ p ∈ page :: pages, ¬HoldsMarker s t p) :
    Entry s t (page :: pages) ((s.entryPriority.find? (page :: pages).contains).getD (least page pages)) := by
  cases hfind : s.entryPriority.find? (page :: pages).contains with
  | some name =>
    obtain ⟨hlisted, front, behind, hpriority, hfront⟩ := List.find?_eq_some_iff_append.1 hfind
    refine .priority hmarker hpriority (fun n hn => ?_) (List.contains_iff_mem.1 hlisted)
    simpa using hfront n hn
  | none =>
    obtain ⟨hmem, hleast⟩ := least_spec page pages
    refine .least hmarker (fun n hn => ?_) hmem hleast
    simpa using List.find?_eq_none.1 hfind n hn

theorem runFrom_findEntry (page : Text) (pages : List Text) (site : Site) :
    (findEntry s (page :: pages)).runFrom site =
      match (markedPage? s (page :: pages)).runFrom site with
      | (.ok marked?, left) =>
        (.ok (marked?.getD ((s.entryPriority.find? (page :: pages).contains).getD (least page pages))), left)
      | (.error e, left) => (.error e, left) := by
  rw [findEntry, runFrom_bind]
  split
  · next marked? left hrun =>
    cases marked? with
    | some marked => simp [hrun]
    | none => cases hfind : s.entryPriority.find? (page :: pages).contains <;> simp [hrun]
  · next e left hrun => simp [hrun]

theorem runFrom_findEntry_of_defies {behind : List Text} (hnames : ∀ p ∈ pages, ∃ l, Names s p l)
    (hsearched : searched s site.tree pages = front ++ page :: behind)
    (hfront : ∀ p ∈ front, ∀ f, ¬Defies s site.tree p f) (hdefies : Defies s site.tree page f) :
    (findEntry s pages).runFrom site = (.error (.file f), reporting (skips s site.tree front) site) := by
  have hpassed : ∀ p ∈ front, (∃ l, Names s p l) ∧ ¬HoldsMarker s site.tree p := fun p hp => by
    have hmem : p ∈ searched s site.tree pages := hsearched ▸ List.mem_append_left _ hp
    exact ⟨hnames p (List.takeWhile_subset _ hmem), not_holdsMarker_of_mem_searched hmem⟩
  obtain ⟨rest, hpages⟩ : ∃ rest, pages = front ++ page :: rest := by
    obtain ⟨hsplit, -⟩ | ⟨marked, rest, hsplit, -⟩ := searched_append s site.tree pages
    · exact ⟨behind, hsplit.trans hsearched⟩
    · exact ⟨behind ++ marked :: rest, by rw [hsplit, hsearched]; simp⟩
  have hsearch : (markedPage? s pages).runFrom site = (.error (.file f), reporting (skips s site.tree front) site) := by
    rw [hpages, runFrom_markedPage?_append hpassed hfront]
    exact runFrom_markedPage?_of_defies hdefies
  obtain ⟨first, others, rfl⟩ := List.exists_cons_of_ne_nil (l := pages) (by simp [hpages])
  rw [runFrom_findEntry, hsearch]

/-- There is an entry page, and it is the result if no page that is looked at in vain defies the search. -/
theorem exists_entry (hne : pages ≠ []) (hnames : ∀ p ∈ pages, ∃ l, Names s p l) (site : Site) :
    ∃ entry, Entry s site.tree pages entry ∧
      ((∀ p ∈ searched s site.tree pages, ∀ f, ¬Defies s site.tree p f) →
        (findEntry s pages).runFrom site =
          (.ok entry, reporting (skips s site.tree (searched s site.tree pages)) site)) := by
  have hpassed : ∀ p ∈ searched s site.tree pages, (∃ l, Names s p l) ∧ ¬HoldsMarker s site.tree p :=
    fun p hp => ⟨hnames p (List.takeWhile_subset _ hp), not_holdsMarker_of_mem_searched hp⟩
  have hsearch (rest : List Text) (hsteady : ∀ p ∈ searched s site.tree pages, ∀ f, ¬Defies s site.tree p f) :
      (markedPage? s (searched s site.tree pages ++ rest)).runFrom site = _ :=
    runFrom_markedPage?_append hpassed hsteady
  obtain ⟨first, others, rfl⟩ := List.exists_cons_of_ne_nil hne
  obtain ⟨hsplit, hmarker⟩ | ⟨marked, behind, hsplit, hmarker⟩ := searched_append s site.tree (first :: others)
  · refine ⟨_, entry_of_priority hmarker, fun hsteady => ?_⟩
    have hrun := hsearch [] hsteady
    rw [List.append_nil, ← hsplit] at hrun
    rw [runFrom_findEntry, hrun, ← hsplit]
    rfl
  · refine ⟨marked, .marked hsplit (fun p => not_holdsMarker_of_mem_searched) hmarker, fun hsteady => ?_⟩
    have hrun := (hsearch (marked :: behind) hsteady).trans (runFrom_markedPage?_of_marker hmarker)
    rw [← hsplit] at hrun
    rw [runFrom_findEntry, hrun]
    rfl

/-- For pages inside of the root there is an entry page. It is the result, after a report of every page that could not
be read, exactly if no page that is looked at in vain defies the search. The first one that does ends it. -/
theorem findEntry_of_names (hne : pages ≠ []) (hnames : ∀ p ∈ pages, ∃ l, Names s p l) (site : Site) :
    ∃ entry ∈ pages, Entry s site.tree pages entry ∧
      ((findEntry s pages).runFrom site =
          (.ok entry, reporting (skips s site.tree (searched s site.tree pages)) site) ↔
        ∀ p ∈ searched s site.tree pages, ∀ f, ¬Defies s site.tree p f) ∧
      ∀ front p behind f, searched s site.tree pages = front ++ p :: behind →
        (∀ q ∈ front, ∀ f, ¬Defies s site.tree q f) → Defies s site.tree p f →
        (findEntry s pages).runFrom site = (.error (.file f), reporting (skips s site.tree front) site) := by
  obtain ⟨entry, hentry, hsteady⟩ := exists_entry hne hnames site
  refine ⟨entry, hentry.mem, hentry, ⟨fun hrun => ?_, hsteady⟩,
    fun front p behind f => runFrom_findEntry_of_defies hnames⟩
  by_contra hdefies
  classical
  obtain ⟨p, hfirst⟩ : ∃ p, (searched s site.tree pages).find? (fun p => ∃ f, Defies s site.tree p f) = some p := by
    rw [← Option.isSome_iff_exists, List.find?_isSome]
    simpa using hdefies
  obtain ⟨hp, front, behind, hsearched, hfront⟩ := List.find?_eq_some_iff_append.1 hfirst
  obtain ⟨f, hf⟩ := of_decide_eq_true hp
  have hfails := runFrom_findEntry_of_defies hnames hsearched (fun q hq => by simpa using hfront q hq) hf
  nomatch hrun.symm.trans hfails

/-- The first page is missing, the second one holds the marker, and the last one is never read. -/
theorem findEntry_of_names_missing :
    let settings := SiteSettings.standard [text "site"] 0.5 0
    let tree : FileTree := ⟨[([text "site"], .directory),
      ([text "site", text "main.html"], .file (Utf8.encode (text "<!-- @entry -->"))),
      ([text "site", text "z.html"], .file [0xff])]⟩
    let site : Site := ⟨tree, none, .start (.whole 1), .whole 0, []⟩
    let pages := [text "gone.html", text "main.html", text "z.html"]
    pages ≠ [] ∧ (∀ p ∈ pages, ∃ l, Names settings p l) ∧
      (∀ p ∈ searched settings tree pages, ∀ f, ¬Defies settings tree p f) ∧
      ∃ entry, Entry settings tree pages entry ∧
        (findEntry settings pages).runFrom site = (.ok entry, reporting [.pageSkipped (text "gone.html")] site) := by
  intro settings tree site pages
  have hnames : ∀ p ∈ pages, ∃ l, Names settings p l := by
    simp only [pages, List.forall_mem_cons]
    exact ⟨⟨[text "site", text "gone.html"], by decide +kernel, by decide⟩,
      ⟨[text "site", text "main.html"], by decide +kernel, by decide⟩,
      ⟨[text "site", text "z.html"], by decide +kernel, by decide⟩, nofun⟩
  have hsearched : searched settings tree pages = [text "gone.html"] := by decide +kernel
  have hgone : templateText settings (text "gone.html") tree = .error (.resolution (.notFound (text "gone.html"))) := by
    decide +kernel
  have hunreadable : [text "gone.html"].filter (fun page => ¬Readable settings tree page) = [text "gone.html"] := by
    decide +kernel
  obtain ⟨entry, -, hentry, hresult, -⟩ := findEntry_of_names (by decide) hnames site
  have hsteady : ∀ p ∈ searched settings tree pages, ∀ f, ¬Defies settings tree p f := by
    rw [hsearched]
    exact List.forall_mem_singleton.2 fun f hf => nomatch hgone.symm.trans hf.templateText_eq
  have hrun := hresult.2 hsteady
  rw [hsearched, skips, hunreadable] at hrun
  exact ⟨by decide, hnames, hsteady, entry, hentry, hrun⟩

/-- A page that is no text keeps itself from being found. -/
theorem findEntry_undecodable :
    let settings := SiteSettings.standard [text "site"] 0.5 0
    let tree : FileTree := ⟨[([text "site"], .directory), ([text "site", text "index.html"], .file [0xff])]⟩
    let site : Site := ⟨tree, none, .start (.whole 1), .whole 0, []⟩
    let pages := [text "index.html"]
    (∀ p ∈ pages, ∃ l, Names settings p l) ∧ Entry settings tree pages (text "index.html") ∧
      (findEntry settings pages).runFrom site = (.error (.file .undecodable), site) := by
  intro settings tree site pages
  have hnames : ∀ p ∈ pages, ∃ l, Names settings p l :=
    List.forall_mem_singleton.2 ⟨[text "site", text "index.html"], by decide +kernel, by decide⟩
  have hmarker : ¬HoldsMarker settings tree (text "index.html") := by decide +kernel
  have htext : templateText settings (text "index.html") tree = .error (.file .undecodable) := by decide +kernel
  refine ⟨hnames, entry_of_priority (List.forall_mem_singleton.2 hmarker), ?_⟩
  rw [runFrom_findEntry, runFrom_markedPage?_cons, htext]

end Site

end PageTemplate
