import PageTemplate.Proofs.Drafting
import PageTemplate.Proofs.Inclusion
set_option autoImplicit false
/-!
Composing a page stays below the root. Page, base and included files are looked for at places whose way is
already normalised, and only if these lie below the root; so two trees that agree there give the same page,
the same reports, or the same error.
-/
namespace PageTemplate

variable {root : Location} {t t' : FileTree}

namespace Include

theorem expand_congr (h : FileTree.AlikeBelow root t t') (chain : List Location) (current : Text)
    (ps : List (Piece (Option Text))) : expand t root chain current ps = expand t' root chain current ps := by
  fun_induction expand t root chain current ps with
  | case1 => rw [expand]
  | case2 chain current c ps ih => rw [expand, ih]
  | case3 chain current source ps ih => rw [expand, ih]
  | case4 chain current path source ps rest htarget ih => rw [expand_tag, directive, htarget, ← ih]
  | case5 chain current path source ps rest htarget ih => rw [expand_tag, directive, htarget, ← ih]
  | case6 chain current path source ps rest l htarget hc ih =>
    rw [expand_tag, directive, htarget, ← ih]
    dsimp only
    rw [if_pos (List.contains_iff_mem.2 hc)]
  | case7 chain current path source ps rest l htarget hc f hr ih =>
    obtain ⟨hl, hup, -⟩ := target_eq_inside htarget
    rw [expand_tag, directive, htarget, ← ih]
    dsimp only
    rw [if_neg (mt List.contains_iff_mem.1 hc), ← h.readText hl hup, hr]
  | case8 chain current path source ps rest l htarget hc text hr file ih ih' =>
    obtain ⟨hl, hup, -⟩ := target_eq_inside htarget
    rw [expand_tag, directive, htarget, ← ih]
    dsimp only
    rw [if_neg (mt List.contains_iff_mem.1 hc), ← h.readText hl hup, hr]
    dsimp only
    rw [← ih']

theorem resolve_congr (h : FileTree.AlikeBelow root t t') (current : Text) (visited : List Path)
    (content : Text) : resolve t root current visited content = resolve t' root current visited content := by
  simp only [resolve, expand_congr h]

end Include

namespace Site

variable {s : SiteSettings} (page : Text)

theorem templateText_congr (h : FileTree.AlikeBelow s.root t t') : templateText s page t = templateText s page t' := by
  unfold templateText
  split
  · rfl
  · next l hl =>
    obtain ⟨-, rfl⟩ := Path.location?_eq_some_iff.1 hl
    have hup := Path.upSegment_notMem_location (s.root.path.join page)
    split
    · rfl
    · next hbelow =>
      rw [Bool.not_eq_true, Bool.not_eq_false'] at hbelow
      rw [h.hasFile hbelow hup, h.readText hbelow hup]

theorem baseText_congr (h : FileTree.AlikeBelow s.root t t') (base : Text) :
    baseText s page base t = baseText s page base t' := by
  unfold baseText
  split
  · rfl
  · rfl
  · next l htarget =>
    obtain ⟨hl, hup, -⟩ := Include.target_eq_inside htarget
    rw [h.hasFile hl hup, h.readText hl hup]

theorem draft_congr (h : FileTree.AlikeBelow s.root t t') : draft s page t = draft s page t' := by
  have hinclusion (content current : Text) : inclusion s content current t = inclusion s content current t' := by
    simp only [inclusion, Include.resolve_congr h]
  simp only [draft, templateText_congr page h, baseText_congr page h, hinclusion]

/-- If nothing is at the root no page is there, and that is all there is to find out. -/
theorem templateText_of_absent (hroot : s.root.Proper) :
    ∃ e, ∀ t : FileTree, t.Sound → t.find? s.root = none → templateText s page t = .error e := by
  unfold templateText
  cases hl : (s.root.path.join page).location? with
  | none => exact ⟨_, fun _ _ _ => rfl⟩
  | some l =>
    obtain ⟨hname, rfl⟩ := Path.location?_eq_some_iff.1 hl
    have hup := Path.upSegment_notMem_location (s.root.path.join page)
    dsimp only
    by_cases hbelow : s.root.isBelow (s.root.path.join page).location
    · have habsent (t : FileTree) (hs : t.Sound) (h : t.find? s.root = none) :=
        hs.hasFile_of_absent hroot h hbelow hup (Path.isNameable_location hname)
      split at habsent
      · exact ⟨.file .tooLong, fun t hs h => by rw [habsent t hs h, hbelow]; rfl⟩
      · exact ⟨.resolution (.notFound page), fun t hs h => by rw [habsent t hs h, hbelow]; rfl⟩
    · rw [Bool.not_eq_true] at hbelow
      exact ⟨.resolution (.escapes page), fun _ _ _ => by rw [hbelow]; rfl⟩

theorem draft_of_agreeBelow (hroot : s.root.Proper) (hs : t.Sound) (hs' : t'.Sound)
    (h : t.AgreeBelow s.root t') : draft s page t = draft s page t' := by
  by_cases hthere : t.find? s.root = none
  · obtain ⟨e, he⟩ := templateText_of_absent page hroot
    unfold draft
    rw [he t hs hthere, he t' hs' (h s.root s.root.isBelow_self ▸ hthere), Draft.andThen_error, Draft.andThen_error]
  · exact draft_congr page (h.alike hs hs' hroot hthere)

/-- A page and its reports, or the error, depend on nothing outside the root. -/
theorem renderTemplate_of_agreeBelow (s : SiteSettings) (page : Text) (site : Site) (tree : FileTree)
    (hroot : s.root.Proper) (hs : site.tree.Sound) (hs' : tree.Sound)
    (h : FileTree.AgreeBelow s.root site.tree tree) :
    (renderTemplate s page).runFrom { site with tree := tree } =
      (((renderTemplate s page).runFrom site).1, { ((renderTemplate s page).runFrom site).2 with tree := tree }) := by
  rw [renderTemplate_of s page, renderTemplate_of s page, draft_of_agreeBelow page hroot hs hs' h]
  rfl

/-- A page that asks for a file of a neighbour, whose name starts with that of the root. -/
def besideTree (secret : Text) : FileTree where
  entries :=
    [([text "site"], .directory),
      ([text "site", text "index.html"], .file (Utf8.encode (text "[include ../site2/secret.txt][include /a.html]"))),
      ([text "site", text "a.html"], .file (Utf8.encode (text "[include ../../site2/secret.txt]"))),
      ([text "site2"], .directory),
      ([text "site2", text "secret.txt"], .file (Utf8.encode secret))]

def besideSite (secret : Text) : Site := ⟨besideTree secret, none, .start (.whole 2), .whole 0, []⟩

def besideSettings : SiteSettings := .standard [text "site"] 0.5 0

theorem renderTemplate_of_agreeBelow_beside :
    (renderTemplate besideSettings (text "b/../index.html")).runFrom (besideSite (text "2")) =
      (((renderTemplate besideSettings (text "b/../index.html")).runFrom (besideSite (text "1"))).1,
        { ((renderTemplate besideSettings (text "b/../index.html")).runFrom (besideSite (text "1"))).2 with
          tree := besideTree (text "2") }) :=
  renderTemplate_of_agreeBelow besideSettings _ (besideSite (text "1")) (besideTree (text "2")) (by decide)
    (by decide) (by decide) (FileTree.agreeBelow_of_entries rfl)

end Site

end PageTemplate
