import PageTemplate.Proofs.Dotted
import PageTemplate.Proofs.KeyTag
import PageTemplate.Proofs.Keyword
set_option autoImplicit false
/-!
Plain tags by their names. Tags without braces in their bodies never overlap, and between blanks each is the tag of one
name, so a variable with such a name replaces those of them that have it. Tags may be replaced one name after the other
or all at once; what the first ones show stands in single characters.
-/
namespace PageTemplate

open Piece Tag

namespace Variable

/-- A tag without braces in its body, and the name that it may be the plain tag of. -/
def readName : TagReader Text := fun t => do
  let (body, rest) ← readBody t
  if body.contains '\x7b' then none else some (trim body, rest)

/-- A tag among these pieces is one without braces in its body, under its name. -/
def Named (ps : List (Piece Text)) : Prop :=
  ∀ name source, .tag name source ∈ ps →
    ∃ body, '\x7b' ∉ body ∧ '\x7d' ∉ body ∧ source = wrap body ∧ trim body = name

theorem readName_wrap {body : Text} (ho : '\x7b' ∉ body) (hc : '\x7d' ∉ body) (rest : Text) :
    readName (wrap body ++ rest) = some (trim body, rest) := by
  simp only [readName, readBody_wrap rest hc, Option.bind_eq_bind, Option.bind_some]
  exact if_neg (by simpa using ho)

theorem readName_shape {t : Text} {r : Text × Text} (h : readName t = some r) :
    ∃ body, '\x7b' ∉ body ∧ '\x7d' ∉ body ∧ r.1 = trim body ∧ t = wrap body ++ r.2 := by
  simp only [readName, Option.bind_eq_bind, Option.bind_eq_some_iff] at h
  obtain ⟨⟨body, rest⟩, hread, h⟩ := h
  obtain ⟨hc, rfl⟩ := readBody_shape hread
  split at h
  · cases h
  · next ho =>
    obtain rfl := Option.some.inj h
    exact ⟨body, by simpa using ho, hc, rfl, rfl⟩

/-- A text is nothing, or has a tag in front, or a character at which none is read. -/
theorem name_induction {P : Text → Prop} (nil : P [])
    (char : ∀ c cs, readName (c :: cs) = none → P cs → P (c :: cs))
    (tag : ∀ body rest, '\x7b' ∉ body → '\x7d' ∉ body → P rest → P (wrap body ++ rest)) (t : Text) : P t := by
  induction hn : t.length using Nat.strongRecOn generalizing t with
  | ind n ih =>
    cases t with
    | nil => exact nil
    | cons c cs =>
      cases hread : readName (c :: cs) with
      | none => exact char c cs hread (ih cs.length (by simp [← hn]) cs rfl)
      | some r =>
        obtain ⟨body, ho, hc, -, ht⟩ := readName_shape hread
        have hlt : r.2.length < n := by
          have := List.length_pos_iff.2 (wrap_ne_nil body)
          rw [← hn, ht, List.length_append]
          omega
        exact ht ▸ tag body r.2 ho hc (ih _ hlt r.2 rfl)

theorem scan_wrap {body : Text} (ho : '\x7b' ∉ body) (hc : '\x7d' ∉ body) (rest : Text) :
    scan readName (wrap body ++ rest) = .tag (trim body) (wrap body) :: scan readName rest :=
  scan_of_read (wrap_ne_nil body) (readName_wrap ho hc rest)

theorem named_scan (t : Text) : Named (scan readName t) := by
  induction t using name_induction with
  | nil => simp [Named]
  | char c cs hread ih =>
    rw [scan_of_skip hread]
    exact fun name source hmem => ih name source (by simpa using hmem)
  | tag body rest ho hc ih =>
    rw [scan_wrap ho hc]
    intro name source hmem
    rcases List.mem_cons.1 hmem with heq | hmem
    · obtain ⟨rfl, rfl⟩ := Piece.tag.inj heq
      exact ⟨body, ho, hc, rfl, rfl⟩
    · exact ih name source hmem

/-- The pieces with some of the tags replaced by the characters of what they show. -/
def fill (g : Text → Option Text) (ps : List (Piece Text)) : List (Piece Text) :=
  ps.flatMap fun
    | .char c => [.char c]
    | .tag name source => (g name).elim [.tag name source] chars

section Fill

variable (g h : Text → Option Text)

@[simp] theorem fill_nil : fill g [] = [] := rfl

@[simp] theorem fill_char (c : Char) (ps : List (Piece Text)) : fill g (.char c :: ps) = .char c :: fill g ps := rfl

@[simp] theorem fill_tag (name source : Text) (ps : List (Piece Text)) :
    fill g (.tag name source :: ps) = (g name).elim [.tag name source] chars ++ fill g ps := rfl

@[simp] theorem fill_append (ps qs : List (Piece Text)) : fill g (ps ++ qs) = fill g ps ++ fill g qs :=
  List.flatMap_append

@[simp] theorem fill_chars (t : Text) : fill g (chars t) = chars t := by
  induction t with
  | nil => rfl
  | cons c cs ih => rw [chars_cons, fill_char, ih]

theorem fill_none (ps : List (Piece Text)) : fill (fun _ => none) ps = ps := by
  induction ps with
  | nil => rfl
  | cons p ps ih =>
    cases p with
    | char c => rw [fill_char, ih]
    | tag name source => rw [fill_tag, ih]; rfl

/-- Replacing some tags and then others is replacing all of them, the first ones having been first. -/
theorem fill_fill (ps : List (Piece Text)) : fill h (fill g ps) = fill (fun name => (g name).or (h name)) ps := by
  induction ps with
  | nil => rfl
  | cons p ps ih =>
    cases p with
    | char c => rw [fill_char, fill_char, fill_char, ih]
    | tag name source =>
      rw [fill_tag, fill_append, fill_tag, ih]
      cases hg : g name with
      | none => simp
      | some shown => rw [Option.elim_some, fill_chars, Option.some_or, Option.elim_some]

theorem Named.fill {ps : List (Piece Text)} (hps : Named ps) : Named (fill g ps) := by
  intro name source hmem
  obtain ⟨p, hp, hin⟩ := List.mem_flatMap.1 hmem
  cases p with
  | char c => simp at hin
  | tag name' source' =>
    dsimp only at hin
    cases hg : g name' with
    | none =>
      rw [hg, Option.elim_none, List.mem_singleton, Piece.tag.injEq] at hin
      obtain ⟨rfl, rfl⟩ := hin
      exact hps name source hp
    | some shown => simp [hg, chars] at hin

end Fill

/-- What opens no tag lies in single characters. -/
theorem exists_chars {ps : List (Piece Text)} (hps : Named ps) {x rest : Text} (hx : calm x)
    (h : join ps = x ++ rest) : ∃ qs, ps = chars x ++ qs := by
  induction x generalizing ps with
  | nil => exact ⟨ps, rfl⟩
  | cons d x ih =>
    cases ps with
    | nil => cases h
    | cons p ps =>
      cases p with
      | char c =>
        obtain ⟨rfl, hjoin⟩ := List.cons.inj (show c :: join ps = d :: (x ++ rest) from h)
        obtain ⟨qs, rfl⟩ := ih (fun name source hmem => hps name source (List.mem_cons_of_mem _ hmem)) (calm_of_cons hx) hjoin
        exact ⟨qs, rfl⟩
      | tag name source =>
        obtain ⟨body, -, -, rfl, -⟩ := hps name source List.mem_cons_self
        refine absurd ?_ (not_opening_of_calm (y := rest) hx (List.cons_ne_nil d x))
        rw [← h, join_cons, Piece.source, wrap, List.append_assoc, List.append_assoc]
        exact List.prefix_append _ _

/-- What pieces become where their text is cut again: tags that are spelt out in characters are read as well. -/
inductive CutAgain : List (Piece Text) → List (Piece Text) → Prop where
  | nil : CutAgain [] []
  | tag {body : Text} {ps qs : List (Piece Text)} (h : CutAgain ps qs) :
      CutAgain (.tag (trim body) (wrap body) :: ps) (.tag (trim body) (wrap body) :: qs)
  | spelt {body : Text} {ps qs : List (Piece Text)} (ho : '\x7b' ∉ body) (hc : '\x7d' ∉ body) (h : CutAgain ps qs) :
      CutAgain (chars (wrap body) ++ ps) (.tag (trim body) (wrap body) :: qs)
  | char {c : Char} {ps qs : List (Piece Text)} (h : CutAgain ps qs) : CutAgain (.char c :: ps) (.char c :: qs)

theorem cutAgain_scan {ps : List (Piece Text)} (hps : Named ps) : CutAgain ps (scan readName (join ps)) := by
  induction hn : ps.length using Nat.strongRecOn generalizing ps with
  | ind n ih =>
    cases ps with
    | nil => rw [show join ([] : List (Piece Text)) = [] from rfl, scan_nil]; exact .nil
    | cons p ps =>
      have hps' : Named ps := fun name source hmem => hps name source (List.mem_cons_of_mem _ hmem)
      have hlt : ps.length < n := by simp [← hn]
      cases p with
      | tag name source =>
        obtain ⟨body, ho, hc, rfl, rfl⟩ := hps name source List.mem_cons_self
        rw [join_cons, Piece.source, scan_wrap ho hc]
        exact .tag (ih _ hlt hps' rfl)
      | char c =>
        cases hread : readName (c :: join ps) with
        | none =>
          rw [join_cons, Piece.source, List.singleton_append, scan_of_skip hread]
          exact .char (ih _ hlt hps' rfl)
        | some r =>
          obtain ⟨body, ho, hc, -, ht⟩ := readName_shape hread
          rw [wrap_eq_cons] at ht
          obtain ⟨rfl, hjoin⟩ := List.cons.inj ht
          obtain ⟨qs, rfl⟩ := exists_chars hps' (calm_tail_wrap ho) hjoin
          have hspelt : (.char '\x7b' :: (chars ('\x7b' :: (body ++ closing)) ++ qs) : List (Piece Text)) =
              chars (wrap body) ++ qs := by rw [wrap_eq_cons]; rfl
          have hlt' : qs.length < n := by
            rw [List.length_append] at hlt
            omega
          rw [hspelt, join_append, join_chars, scan_wrap ho hc]
          exact .spelt ho hc (ih _ hlt' (fun name source hmem => hps' name source (List.mem_append_right _ hmem)) rfl)

section Names

variable {key : Text} (hk : Expr.isIdentifier key = true)

include hk

theorem braces_notMem_of_isIdentifier : '\x7b' ∉ key ∧ '\x7d' ∉ key :=
  ⟨Token.notMem_of_isIdentifier hk (by decide +kernel), Token.notMem_of_isIdentifier hk (by decide +kernel)⟩

theorem isBlank_of_isIdentifier {c : Char} (hc : c ∈ key) : isBlank c = false := by
  rcases Bool.or_eq_true_iff.1 (Token.continuesName_of_mem hk hc) with h | h
  · exact isBlank_of_isWordChar h
  · rw [eq_of_beq h]; decide

/-- A name has the tags that are it but for blanks. -/
theorem readKey_wrap {body : Text} (hb : '\x7d' ∉ body) (rest : Text) :
    readKey key (wrap body ++ rest) = if trim body = key then some ((), rest) else none := by
  have hclosed := (braces_notMem_of_isIdentifier hk).2
  split
  · next htrim =>
    obtain ⟨w, hw⟩ := exists_wordTag body
    rw [htrim, Template.WordTag.body, List.append_assoc] at hw
    obtain ⟨r, hr⟩ := Option.isSome_iff_exists.1 (readKey_isSome w.lead.2 w.trail.2 key [])
    rw [← hw, List.append_nil] at hr
    rw [(bracketed_readKey hclosed).frame rest hb, hr]
    rfl
  · next htrim =>
    refine Option.eq_none_iff_forall_ne_some.2 fun r hr => htrim ?_
    obtain ⟨lead, trail, hlead, htrail, hshape⟩ := readKey_shape hr
    have hblank : isBlank '\x7d' = false := by decide
    have hbody := (wrap_append_inj hb (by simp [hclosed, notMem_of_blank hlead hblank, notMem_of_blank htrail hblank])
      hshape).1
    rw [hbody, trim_between hlead htrail, trim_of_notBlank fun _ => isBlank_of_isIdentifier hk]

/-- The tags of a key are those of its name. -/
def ofName (key : Text) (ps : List (Piece Text)) : List (Piece Unit) :=
  ps.flatMap fun
    | .char c => [.char c]
    | .tag name source => if name = key then [.tag () source] else chars source

omit hk in
theorem ofName_char (key : Text) (c : Char) (ps : List (Piece Text)) :
    ofName key (.char c :: ps) = .char c :: ofName key ps := rfl

omit hk in
theorem ofName_tag (key name source : Text) (ps : List (Piece Text)) :
    ofName key (.tag name source :: ps) = (if name = key then [.tag () source] else chars source) ++ ofName key ps := rfl

theorem scan_readKey (t : Text) : scan (readKey key) t = ofName key (scan readName t) := by
  induction t using name_induction with
  | nil => simp [ofName]
  | char c cs hread ih =>
    have hskip : readKey key (c :: cs) = none := by
      refine Option.eq_none_iff_forall_ne_some.2 fun r hr => ?_
      obtain ⟨lead, trail, hlead, htrail, hshape⟩ := readKey_shape hr
      obtain ⟨ho, hc⟩ := braces_notMem_of_isIdentifier hk
      have hblank : isBlank '\x7b' = false ∧ isBlank '\x7d' = false := by decide
      have ho : '\x7b' ∉ lead ++ (key ++ trail) := by
        simp [ho, notMem_of_blank hlead hblank.1, notMem_of_blank htrail hblank.1]
      have hc : '\x7d' ∉ lead ++ (key ++ trail) := by
        simp [hc, notMem_of_blank hlead hblank.2, notMem_of_blank htrail hblank.2]
      have hname := readName_wrap ho hc r.2
      rw [← hshape, hread] at hname
      cases hname
    rw [scan_of_skip hskip, scan_of_skip hread, ofName_char, ih]
  | tag body rest ho hc ih =>
    rw [scan_wrap ho hc, ofName_tag, ← ih]
    have hkey := readKey_wrap hk hc rest
    split at hkey
    · next htrim => rw [scan_of_read (wrap_ne_nil body) hkey, if_pos htrim, List.singleton_append]
    · next htrim =>
      have hown := readKey_wrap hk hc []
      rw [if_neg htrim, List.append_nil] at hown
      rw [(bracketed_readKey (braces_notMem_of_isIdentifier hk).2).inert_wrap ho hc hown, if_neg htrim]

/-- A variable replaces the tags of its name. -/
theorem keyShown_eq (value : Value) (t : Text) :
    keyShown key value t =
      join (fill (fun name => if name = key then some value.display else none) (scan readName t)) := by
  rw [keyShown, scan_readKey hk]
  induction scan readName t with
  | nil => rfl
  | cons p ps ih =>
    cases p with
    | char c =>
      rw [ofName_char, fill_char, join_cons, ← ih]
      rfl
    | tag name source =>
      rw [ofName_tag, rewritten_append, fill_tag, join_append, ih]
      split
      · simp [rewritten]
      · simp [join, Piece.source]

theorem keyShowable_eq (value : Value) (t : Text) :
    keyShowable key value t = allTags (fun name _ => name ≠ key || value.showable) (scan readName t) := by
  rw [keyShowable, scan_readKey hk]
  induction scan readName t with
  | nil => rfl
  | cons p ps ih =>
    cases p with
    | char c => rw [ofName_char, allTags_char, allTags_char, ih]
    | tag name source =>
      rw [ofName_tag, allTags_append, allTags_tag, ih]
      split
      · next hname => simp [hname]
      · next hname => simp [hname]

end Names

end Variable

end PageTemplate
