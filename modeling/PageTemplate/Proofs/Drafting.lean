import PageTemplate.Proofs.Action
set_option autoImplicit false
/-!
What composing a page takes from a site and what it leaves. It reads files only, and all it changes is what
was reported and which files count as included. So it is a function of the files, the draft of the page.
-/
namespace PageTemplate

/-- The text of a page or why there is none, what was reported on the way, and the files spliced in. -/
structure Draft (α : Type) where
  outcome : Except SiteError α
  notices : List Notice
  spliced : List Text

namespace Draft

variable {α β : Type}

def ofExcept (r : Except SiteError α) : Draft α := ⟨r, [], []⟩

/-- One draft after another. The second is not made if the first fails. -/
def andThen (d : Draft α) (f : α → Draft β) : Draft β :=
  match d.outcome with
  | .error e => ⟨.error e, d.notices, d.spliced⟩
  | .ok a => ⟨(f a).outcome, d.notices ++ (f a).notices, d.spliced ++ (f a).spliced⟩

/-- The site that a draft leaves. -/
def leave (d : Draft α) (site : Site) : Site :=
  { site with
    notices := site.notices ++ d.notices
    context := d.spliced.foldl (fun c f => c.recordIncluded f) site.context }

@[simp] theorem outcome_ofExcept (r : Except SiteError α) : (ofExcept r).outcome = r := rfl

@[simp] theorem leave_ofExcept (r : Except SiteError α) (site : Site) : (ofExcept r).leave site = site := by
  simp [leave, ofExcept]

@[simp] theorem leave_tree (d : Draft α) (site : Site) : (d.leave site).tree = site.tree := rfl

@[simp] theorem andThen_error (e : SiteError) (f : α → Draft β) :
    (ofExcept (.error e)).andThen f = ofExcept (.error e) := rfl

@[simp] theorem andThen_ok (a : α) (f : α → Draft β) : (ofExcept (.ok a)).andThen f = f a := by
  simp [andThen, ofExcept]

/-- Does an action make a draft of the files that are there? -/
def Of (a : SiteAction α) (d : FileTree → Draft α) : Prop :=
  ∀ site, a.runFrom site = ((d site.tree).outcome, (d site.tree).leave site)

theorem Of.ofExcept {a : SiteAction α} {r : FileTree → Except SiteError α}
    (h : ∀ site, a.runFrom site = (r site.tree, site)) : Of a fun t => .ofExcept (r t) :=
  fun site => by rw [h, leave_ofExcept]; rfl

theorem Of.bind {a : SiteAction α} {d : FileTree → Draft α} {f : α → SiteAction β}
    {g : α → FileTree → Draft β}
    (ha : Of a d) (hf : ∀ x, Of (f x) (g x)) : Of (a >>= f) fun t => (d t).andThen (g · t) := by
  intro site
  rw [SiteAction.runFrom_bind, ha site]
  cases hd : (d site.tree).outcome with
  | error e => simp [andThen, hd, leave]
  | ok x =>
    dsimp only
    rw [hf x, leave_tree]
    simp [andThen, hd, leave, List.foldl_append, List.append_assoc]

end Draft

namespace Site

open SiteAction

variable (s : SiteSettings)

/-- What reading a template gives. -/
def templateText (page : Text) (t : FileTree) : Except SiteError Text :=
  match (s.root.path.join page).location? with
  | none => .error (.file .unnameable)
  | some l =>
    if !s.root.isBelow l then .error (.resolution (.escapes page))
    else
      match t.hasFile l.path with
      | .error f => .error (.file f)
      | .ok true => (t.readText l).mapError .file
      | .ok false => .error (.resolution (.notFound page))

/-- The file of the base that a page names, and its text. -/
def baseText (page base : Text) (t : FileTree) : Except SiteError (Text × Text) :=
  match Include.target s.root page base with
  | .nowhere => .error (.file .unnameable)
  | .outside => .error (.resolution (.baseNotFound base page))
  | .inside l =>
    match t.hasFile l.path with
    | .error f => .error (.file f)
    | .ok true => ((t.readText l).mapError .file).map fun text => (Include.relative s.root l, text)
    | .ok false => .error (.resolution (.baseNotFound base page))

/-- A text with its files included. -/
def inclusion (content current : Text) (t : FileTree) : Draft Text :=
  let e := Include.resolve t s.root current [] content
  ⟨e.text.elim (.error (.file .unnameable)) .ok, e.notices, e.spliced⟩

/-- A page composed with its base. -/
def draft (page : Text) (t : FileTree) : Draft Text :=
  (Draft.ofExcept (templateText s page t)).andThen fun content =>
    let (base?, body) := Inherit.splitExtends content
    (inclusion s body page t).andThen fun child =>
      match base? with
      | none => .ofExcept (.ok (Inherit.compose s.doctype child []))
      | some base =>
        (Draft.ofExcept (baseText s page base t)).andThen fun (file, text) =>
          (inclusion s text file t).andThen fun text => .ofExcept (.ok (Inherit.compose s.doctype text child))

theorem runFrom_readTemplate (page : Text) (site : Site) :
    (readTemplate s page).runFrom site = (templateText s page site.tree, site) := by
  simp only [readTemplate, templateText, runFrom_bind, runFrom_get, runFrom_locate]
  cases (s.root.path.join page).location? with
  | none => rfl
  | some l =>
    simp only [Option.elim]
    split
    · rfl
    · simp only [runFrom_bind, runFrom_ofFile]
      cases site.tree.hasFile l.path with
      | error f => rfl
      | ok there => cases there <;> simp

theorem resolveIncludes_of (content current : Text) :
    Draft.Of (resolveIncludes s content current) (inclusion s content current) := by
  intro site
  simp only [resolveIncludes, inclusion, runFrom_bind, runFrom_get, runFrom_report, runFrom_onContext,
    runFrom_ofFile, Draft.leave]
  cases (Include.resolve site.tree s.root current [] content).text <;> rfl

theorem renderTemplate_of (page : Text) : Draft.Of (renderTemplate s page) (draft s page) := by
  unfold renderTemplate draft
  refine (Draft.Of.ofExcept (runFrom_readTemplate s page)).bind fun content => ?_
  rcases Inherit.splitExtends content with ⟨base?, body⟩
  refine (resolveIncludes_of s body page).bind fun child => ?_
  cases base? with
  | none => exact Draft.Of.ofExcept fun site => rfl
  | some base =>
    intro site
    simp only [runFrom_bind, runFrom_get, baseText]
    cases Include.target s.root page base with
    | nowhere => simp
    | outside => simp
    | inside l =>
      simp only [runFrom_bind, runFrom_ofFile]
      cases site.tree.hasFile l.path with
      | error f => simp
      | ok there =>
        cases there with
        | false => simp
        | true =>
          simp only [mapError_ok, if_true, runFrom_bind, runFrom_ofFile]
          cases site.tree.readText l with
          | error f => simp [Except.map]
          | ok text =>
            have hpage := (resolveIncludes_of s text (Include.relative s.root l)).bind
              (fun text => Draft.Of.ofExcept (r := fun _ => .ok (Inherit.compose s.doctype text child))
                fun site => runFrom_pure _ site) site
            rw [runFrom_bind] at hpage
            simpa [Except.map] using hpage

end Site

end PageTemplate
