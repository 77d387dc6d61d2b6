import PageTemplate.Proofs.Succession
import PageTemplate.Proofs.Unfolding
set_option autoImplicit false
/-!
Which files count as included. While compiling, a text that is resolved leaves in the record the paths of the
files that were spliced in, one inside another, and of no others; at other times it leaves the record alone.
The record has no say in the text.

Directives are expanded from the last to the first. If a path that leads nowhere is met, the files behind it
have been recorded by then, and those before it are not.
-/
namespace PageTemplate

namespace Include

variable (tree : FileTree) (root : Location)

/-- Is a file spliced in by a piece, for itself or inside another one? -/
inductive Includes : List Location → Text → Piece (Option Text) → Location → Prop where
  | here {chain : List Location} {current path source t : Text} {l : Location}
      (htarget : target root current path = .inside l) (hc : l ∉ chain) (hr : tree.readText l = .ok t) :
      Includes chain current (.tag (some path) source) l
  | inside {chain : List Location} {current path source t : Text} {l l' : Location} {p : Piece (Option Text)}
      (htarget : target root current path = .inside l) (hc : l ∉ chain) (hr : tree.readText l = .ok t)
      (hp : p ∈ Piece.scan read t) (hin : Includes (l :: chain) (relative root l) p l') :
      Includes chain current (.tag (some path) source) l'

/-- Is a file spliced in by a piece before a path that leads nowhere is met? -/
inductive Reaches : List Location → Text → Piece (Option Text) → Location → Prop where
  | here {chain : List Location} {current path source t : Text} {l : Location}
      (htarget : target root current path = .inside l) (hc : l ∉ chain) (hr : tree.readText l = .ok t) :
      Reaches chain current (.tag (some path) source) l
  | inside {chain : List Location} {current path source t : Text} {l l' : Location} {p : Piece (Option Text)}
      {before behind : List (Piece (Option Text))}
      (htarget : target root current path = .inside l) (hc : l ∉ chain) (hr : tree.readText l = .ok t)
      (hp : Piece.scan read t = before ++ p :: behind)
      (hbehind : ∀ q ∈ behind, ¬Strays tree root (l :: chain) (relative root l) q)
      (hin : Reaches (l :: chain) (relative root l) p l') : Reaches chain current (.tag (some path) source) l'

/-- Is a file spliced in by pieces before a path that leads nowhere is met? -/
def ReachesIn (chain : List Location) (current : Text) (ps : List (Piece (Option Text))) (l : Location) : Prop :=
  ∃ before p behind, ps = before ++ p :: behind ∧ (∀ q ∈ behind, ¬Strays tree root chain current q) ∧
    Reaches tree root chain current p l

variable {tree root} {chain : List Location} {current path : Text} {l : Location}

/-- A file that is spliced in can be read, is the target of a directive, and was not being included. -/
theorem Includes.spliced {p : Piece (Option Text)} (h : Includes tree root chain current p l) :
    l ∉ chain ∧ (∃ t, tree.readText l = .ok t) ∧ ∃ current' path', target root current' path' = .inside l := by
  induction h with
  | here htarget hc hr => exact ⟨hc, ⟨_, hr⟩, _, _, htarget⟩
  | inside _ _ _ _ _ ih => exact ⟨(List.ne_and_not_mem_of_not_mem_cons ih.1).2, ih.2⟩

theorem Reaches.includes {p : Piece (Option Text)} (h : Reaches tree root chain current p l) :
    Includes tree root chain current p l := by
  induction h with
  | here htarget hc hr => exact .here htarget hc hr
  | inside htarget hc hr hp _ _ ih => exact .inside htarget hc hr (by simp [hp]) ih

/-- Where no path leads nowhere, everything is reached. -/
theorem Includes.reaches {p : Piece (Option Text)} (h : Includes tree root chain current p l)
    (hp : ¬Strays tree root chain current p) : Reaches tree root chain current p l := by
  induction h with
  | here htarget hc hr => exact .here htarget hc hr
  | inside htarget hc hr hmem _ ih =>
    obtain ⟨before, behind, hscan⟩ := List.append_of_mem hmem
    exact .inside htarget hc hr hscan (fun q hq hs => hp (.inside htarget hc hr (by simp [hscan, hq]) hs))
      (ih fun hs => hp (.inside htarget hc hr hmem hs))

theorem reachesIn_iff {ps : List (Piece (Option Text))} (h : ∀ p ∈ ps, ¬Strays tree root chain current p) :
    ReachesIn tree root chain current ps l ↔ ∃ p ∈ ps, Includes tree root chain current p l := by
  constructor
  · rintro ⟨before, p, behind, rfl, -, hp⟩
    exact ⟨p, by simp, hp.includes⟩
  · rintro ⟨p, hp, hin⟩
    obtain ⟨before, behind, rfl⟩ := List.append_of_mem hp
    exact ⟨before, p, behind, rfl, fun q hq => h q (by simp [hq]), hin.reaches (h p hp)⟩

/-! The record -/

theorem Expansion.mem_spliced_append {first rest : Expansion} {file : Text} :
    file ∈ (first.append rest).spliced ↔ file ∈ rest.spliced ∨ rest.text ≠ none ∧ file ∈ first.spliced := by
  unfold append
  cases rest.text <;> simp

theorem mem_spliced_expand_iff {ps : List (Piece (Option Text))} {file : Text} :
    file ∈ (expand tree root chain current ps).spliced ↔
      ∃ before p behind, ps = before ++ p :: behind ∧
        (∀ q ∈ behind, ¬Strays tree root chain current q) ∧ file ∈ (piece tree root chain current p).spliced := by
  have hbehind (ps : List (Piece (Option Text))) : (expand tree root chain current ps).text ≠ none ↔
      ∀ q ∈ ps, ¬Strays tree root chain current q := by
    simp only [Ne, expand_text_eq_none_iff, strays_iff, not_exists, not_and]
  induction ps with
  | nil => simp [expand, Expansion.verbatim]
  | cons p ps ih =>
    simp only [expand_cons, Expansion.mem_spliced_append, hbehind, ih]
    constructor
    · rintro (⟨before, q, behind, rfl, hq⟩ | hp)
      · exact ⟨p :: before, q, behind, rfl, hq⟩
      · exact ⟨[], p, ps, rfl, hp⟩
    · rintro ⟨_ | ⟨b, before⟩, q, behind, hsplit, hq⟩
      · obtain ⟨rfl, rfl⟩ := List.cons.inj hsplit
        exact .inr hq
      · obtain ⟨rfl, rfl⟩ := List.cons.inj hsplit
        exact .inl ⟨before, q, behind, rfl, hq⟩

theorem Reaches.mem_spliced {p : Piece (Option Text)} (h : Reaches tree root chain current p l) :
    relative root l ∈ (piece tree root chain current p).spliced := by
  induction h with
  | here htarget hc hr =>
    rw [piece, directive_file htarget hc hr]
    exact List.mem_cons_self
  | inside htarget hc hr hp hbehind _ ih =>
    rw [piece, directive_file htarget hc hr]
    exact List.mem_cons_of_mem _ (mem_spliced_expand_iff.2 ⟨_, _, _, hp, hbehind, ih⟩)

theorem mem_spliced_piece_iff {p : Piece (Option Text)} {file : Text} :
    file ∈ (piece tree root chain current p).spliced ↔
      ∃ l, Reaches tree root chain current p l ∧ file = relative root l := by
  constructor
  · intro h
    induction chain, current, p using piece_induction tree root generalizing file with
    | char chain current c => exact absurd h List.not_mem_nil
    | quoted chain current source => exact absurd h List.not_mem_nil
    | nowhere chain current path source htarget =>
      rw [piece, directive_nowhere htarget] at h
      exact absurd h List.not_mem_nil
    | outside chain current path source htarget =>
      rw [piece, directive_outside htarget] at h
      exact absurd h List.not_mem_nil
    | circular chain current path source l htarget hc =>
      rw [piece, directive_circular htarget hc] at h
      exact absurd h List.not_mem_nil
    | unreadable chain current path source l f htarget hc hr =>
      rw [piece, directive_unreadable htarget hc hr] at h
      exact absurd h List.not_mem_nil
    | file chain current path source l t htarget hc hr ih =>
      rw [piece, directive_file htarget hc hr] at h
      rcases List.mem_cons.1 h with rfl | h
      · exact ⟨l, .here htarget hc hr, rfl⟩
      · obtain ⟨before, p, behind, hp, hbehind, hfile⟩ := mem_spliced_expand_iff.1 h
        obtain ⟨l', hin, rfl⟩ := ih p hfile
        exact ⟨l', .inside htarget hc hr hp hbehind hin, rfl⟩
  · rintro ⟨l, hl, rfl⟩
    exact hl.mem_spliced

/-- What resolving a text splices in. -/
theorem mem_spliced_resolve_iff {visited : List Path} {content file : Text} :
    file ∈ (resolve tree root current visited content).spliced ↔
      ∃ chain l, chain? root current visited = some chain ∧
        ReachesIn tree root chain current (Piece.scan read content) l ∧ file = relative root l := by
  rw [resolve_eq]
  cases chain? root current visited with
  | none => simp [Expansion.ended]
  | some chain =>
    simp only [Option.elim, mem_spliced_expand_iff, mem_spliced_piece_iff, Option.some.injEq]
    constructor
    · rintro ⟨before, p, behind, hp, hbehind, l, hl, rfl⟩
      exact ⟨chain, l, rfl, ⟨before, p, behind, hp, hbehind, hl⟩, rfl⟩
    · rintro ⟨_, l, rfl, ⟨before, p, behind, hp, hbehind, hl⟩, rfl⟩
      exact ⟨before, p, behind, hp, hbehind, l, hl, rfl⟩

end Include

/-- When not compiling nothing is recorded. -/
theorem EngineContext.foldl_recordIncluded_idle {c : EngineContext} (hc : c.compiling = false) (fs : List Text) :
    fs.foldl (fun c f => c.recordIncluded f) c = c := by
  induction fs with
  | nil => rfl
  | cons f fs ih =>
    have hidle : c.recordIncluded f = c := by simp [recordIncluded, hc]
    rw [List.foldl_cons, hidle, ih]

namespace Site

open SiteAction Include

variable (s : SiteSettings) (content current : Text)

theorem resolveIncludes_ok {site : Site} {out : Text}
    (h : ((resolveIncludes s content current).runFrom site).1 = .ok out) :
    (resolve site.tree s.root current [] content).text = some out := by
  rw [resolveIncludes_of s content current site] at h
  dsimp only [inclusion] at h
  cases htext : (resolve site.tree s.root current [] content).text with
  | none => rw [htext] at h; nomatch h
  | some t => rw [htext] at h; exact congrArg some (Except.ok.inj h)

/-- Where all of a text is put together, no path that leads nowhere has been met. -/
theorem not_strays_of_ok {site : Site} {out : Text} {chain : List Location}
    (h : ((resolveIncludes s content current).runFrom site).1 = .ok out)
    (hchain : chain? s.root current [] = some chain) :
    ∀ p ∈ Piece.scan read content, ¬Strays site.tree s.root chain current p := by
  have htext := resolveIncludes_ok s content current h
  rw [resolve_eq, hchain] at htext
  intro p hp hs
  rw [Option.elim, expand_text_eq_none_iff.2 ⟨p, hp, strays_iff.1 hs⟩] at htext
  nomatch htext

/-- What a text leaves in the record while compiling: the paths of the files that are spliced in, or, if there
is no text in the end, of those that were spliced in till then. They lead to these files, never to the one
that the text came from. When not compiling nothing changes, and the text is the same. -/
theorem resolveIncludes_registers (site : Site) :
    (site.context.compiling → ∀ out, ((resolveIncludes s content current).runFrom site).1 = .ok out → ∀ file,
      file ∈ ((resolveIncludes s content current).runFrom site).2.context.included ↔
        file ∈ site.context.included ∨ ∃ chain p l, chain? s.root current [] = some chain ∧
          p ∈ Piece.scan read content ∧ Includes site.tree s.root chain current p l ∧ file = relative s.root l) ∧
    (site.context.compiling → ∀ file,
      file ∈ ((resolveIncludes s content current).runFrom site).2.context.included ↔
        file ∈ site.context.included ∨ ∃ chain l, chain? s.root current [] = some chain ∧
          ReachesIn site.tree s.root chain current (Piece.scan read content) l ∧ file = relative s.root l) ∧
    (∀ chain p l, chain? s.root current [] = some chain → Includes site.tree s.root chain current p l →
      (s.root.path.join (relative s.root l)).location? = some l ∧
        (current ≠ [] → (s.root.path.join current).location? ≠ some l)) ∧
    (site.context.compiling = false →
      ((resolveIncludes s content current).runFrom site).2.context = site.context) ∧
    ∀ c : EngineContext, ((resolveIncludes s content current).runFrom { site with context := c }).1 =
      ((resolveIncludes s content current).runFrom site).1 := by
  have hrecord (hc : site.context.compiling) (file : Text) :
      file ∈ ((resolveIncludes s content current).runFrom site).2.context.included ↔
        file ∈ site.context.included ∨ ∃ chain l, chain? s.root current [] = some chain ∧
          ReachesIn site.tree s.root chain current (Piece.scan read content) l ∧ file = relative s.root l := by
    rw [resolveIncludes_of s content current site, ← mem_spliced_resolve_iff]
    exact EngineContext.mem_foldl_recordIncluded hc _ file
  refine ⟨fun hc out hout file => ?_, hrecord, fun chain p l hchain hin => ⟨?_, fun hcurrent hstart => ?_⟩,
    fun hc => ?_, fun c => ?_⟩
  · rw [hrecord hc]
    refine or_congr_right ⟨?_, ?_⟩
    · rintro ⟨chain, l, hchain, hl, rfl⟩
      obtain ⟨p, hp, hin⟩ := (reachesIn_iff (not_strays_of_ok s content current hout hchain)).1 hl
      exact ⟨chain, p, l, hchain, hp, hin, rfl⟩
    · rintro ⟨chain, p, l, hchain, hp, hin, rfl⟩
      exact ⟨chain, l, hchain, (reachesIn_iff (not_strays_of_ok s content current hout hchain)).2 ⟨p, hp, hin⟩, rfl⟩
  · obtain ⟨-, -, current', path', htarget⟩ := hin.spliced
    exact location?_join_relative htarget
  · have hmem : l ∈ chain := by
      rw [chain?, if_neg (by simpa using hcurrent), hstart] at hchain
      exact Option.some.inj hchain ▸ List.mem_cons_self
    exact hin.spliced.1 hmem
  · rw [resolveIncludes_of s content current site]
    exact EngineContext.foldl_recordIncluded_idle hc _
  · rw [resolveIncludes_of s content current site, resolveIncludes_of s content current _]

/-- A page that includes a file twice, which includes the page. -/
def circleText : Text := text "[include a][include a]"

def circleSettings : SiteSettings := .standard [text "site"] 0.5 0

def circleSite : Site where
  tree :=
    ⟨[([text "site"], .directory), ([text "site", text "index.html"], .file (Utf8.encode circleText)),
      ([text "site", text "a"], .file (Utf8.encode (text "A[include index.html]")))]⟩
  customize := none
  context := (EngineContext.start (.whole 2)).setCompiling true
  now := .whole 0
  notices := []

theorem resolve_circle :
    (resolve circleSite.tree circleSettings.root (text "index.html") [] circleText).text = some (text "AA") ∧
      (resolve circleSite.tree circleSettings.root (text "index.html") [] circleText).spliced =
        [text "a", text "a"] := by
  have hfew : (files circleSite.tree circleSettings.root).length < 3 := by decide +kernel
  have hwithin : (resolveWithin circleSite.tree circleSettings.root 3 (text "index.html") [] circleText).map
      (fun e => (e.text, e.spliced)) = some (some (text "AA"), [text "a", text "a"]) := by decide +kernel
  rw [resolveWithin_eq hfew, Option.map_some] at hwithin
  exact Prod.mk.inj (Option.some.inj hwithin)

/-- The file is recorded and the page is not. -/
theorem resolveIncludes_registers_circle :
    text "a" ∈ ((resolveIncludes circleSettings circleText (text "index.html")).runFrom
        circleSite).2.context.included ∧
      text "index.html" ∉ ((resolveIncludes circleSettings circleText (text "index.html")).runFrom
        circleSite).2.context.included := by
  obtain ⟨htext, hspliced⟩ := resolve_circle
  have hrun := resolveIncludes_of circleSettings circleText (text "index.html") circleSite
  obtain ⟨hregisters, -, hstart, -⟩ :=
    resolveIncludes_registers circleSettings circleText (text "index.html") circleSite
  have hok : ((resolveIncludes circleSettings circleText (text "index.html")).runFrom circleSite).1 =
      .ok (text "AA") := by
    rw [hrun]
    dsimp only [inclusion]
    rw [htext]
    rfl
  refine ⟨?_, fun h => ?_⟩
  · rw [hrun]
    dsimp only [inclusion, Draft.leave]
    rw [hspliced]
    decide
  · obtain h | ⟨chain, p, l, hchain, -, hin, hfile⟩ := (hregisters rfl _ hok _).1 h
    · nomatch h
    · obtain ⟨hto, hnot⟩ := hstart chain p l hchain hin
      exact hnot (by decide) (hfile ▸ hto)

end Site

end PageTemplate
