import PageTemplate.Proofs.Scan
import PageTemplate.Dynamic.Loop
set_option autoImplicit false
/-!
How a text divides into its outermost loops. Read from the left, an opening tag takes everything up to the closing
tag that balances it, and reading goes on behind that one. Closing and alternative tags outside loops are text, and
so is everything from an opening tag on that nothing balances. There is one such division of every text.
-/
namespace PageTemplate.Loop

open Piece

/-- Pieces in which each opening tag has its closing tag and each closing tag its opening one. The flag tells
whether alternative tags may stand between the loops. -/
inductive Nested : Bool → List (Piece LoopTag) → Prop
  | nil (b : Bool) : Nested b []
  | char (c : Char) {b : Bool} {ps : List (Piece LoopTag)} : Nested b ps → Nested b (.char c :: ps)
  | alternative (s : Text) {ps : List (Piece LoopTag)} : Nested true ps → Nested true (.tag .alternative s :: ps)
  | loop (names : List Text) (source s s' : Text) {b : Bool} {ps qs : List (Piece LoopTag)} :
    Nested true ps → Nested b qs → Nested b (.tag (.opener names source) s :: (ps ++ .tag .closer s' :: qs))

/-- What stands between the tags of a loop: its body and, behind the first alternative tag that is no inner
loop's, the part for an empty collection. -/
inductive Encloses : List (Piece LoopTag) → Text → Option Text → Prop
  | body {ps : List (Piece LoopTag)} : Nested false ps → Encloses ps (join ps) none
  | parted (s : Text) {ps qs : List (Piece LoopTag)} : Nested false ps → Nested true qs →
    Encloses (ps ++ .tag .alternative s :: qs) (join ps) (some (join qs))

/-- A stretch of text, or a loop with the text it is written in. -/
inductive Segment where
  | text (t : Text)
  | loop (l : Loop) (written : Text)

def Segment.source : Segment → Text
  | .text t | .loop _ t => t

def Segment.part : Segment → Part
  | .text t => .verbatim t
  | .loop l _ => .loop l

inductive Divides : List (Piece LoopTag) → List Segment → Prop
  | done : Divides [] []
  | stray {p : Piece LoopTag} {ps : List (Piece LoopTag)} {d : List Segment} :
    (∀ names source s, p ≠ .tag (.opener names source) s) → Divides ps d → Divides (p :: ps) (.text p.source :: d)
  | loop (names : List Text) (source s s' : Text) {ps rest : List (Piece LoopTag)} {body : Text}
    {alternative : Option Text} {d : List Segment} : Encloses ps body alternative → Divides rest d →
    Divides (.tag (.opener names source) s :: (ps ++ .tag .closer s' :: rest))
      (.loop ⟨names, source, body, alternative⟩ (s ++ (join ps ++ s')) :: d)
  | unclosed (names : List Text) (source s : Text) {qs : List (Piece LoopTag)} :
    (∀ ps s' rest, Nested true ps → qs ≠ ps ++ .tag .closer s' :: rest) →
    Divides (.tag (.opener names source) s :: qs) [.text (s ++ join qs)]

theorem Enclosed.push_push (x y : Text) (e : Enclosed) : (e.push y).push x = e.push (x ++ y) := by
  simp [push]

section Enclosing

theorem Nested.weaken {b : Bool} {ps : List (Piece LoopTag)} (h : Nested b ps) : Nested true ps := by
  induction h with
  | nil b => exact .nil true
  | char c _ ih => exact .char c ih
  | alternative s _ ih => exact .alternative s ih
  | loop names source s s' hps _ _ ih => exact .loop names source s s' hps ih

theorem Nested.append {b : Bool} {ps qs : List (Piece LoopTag)} (h : Nested b ps) (h' : Nested b qs) :
    Nested b (ps ++ qs) := by
  induction h with
  | nil b => exact h'
  | char c _ ih => exact .char c (ih h')
  | alternative s _ ih => exact .alternative s (ih h')
  | loop names source s s' hps _ _ ih =>
    rw [List.cons_append, List.append_assoc, List.cons_append]
    exact .loop names source s s' hps (ih h')

theorem Encloses.nested {ps : List (Piece LoopTag)} {body : Text} {alternative : Option Text}
    (h : Encloses ps body alternative) : Nested true ps := by
  cases h with
  | body h => exact h.weaken
  | parted s h h' => exact h.weaken.append (.alternative s h')

theorem Nested.exists_encloses {ps : List (Piece LoopTag)} (h : Nested true ps) :
    ∃ body alternative, Encloses ps body alternative := by
  generalize hb : true = b at h
  induction h with
  | nil b => exact ⟨_, _, .body (.nil false)⟩
  | char c _ ih =>
    obtain ⟨_, _, he⟩ := ih hb
    cases he with
    | body h => exact ⟨_, _, .body (.char c h)⟩
    | parted s h h' => exact ⟨_, _, .parted s (.char c h) h'⟩
  | alternative s h => exact ⟨_, _, .parted s (.nil false) h⟩
  | loop names source s s' hps _ _ ih =>
    obtain ⟨_, _, he⟩ := ih hb
    cases he with
    | body h => exact ⟨_, _, .body (.loop names source s s' hps h)⟩
    | parted t h h' =>
      have hparted := Encloses.parted t (.loop names source s s' hps h) h'
      rw [List.cons_append, List.append_assoc, List.cons_append] at hparted
      exact ⟨_, _, hparted⟩

/-- An enclosing loop takes balanced pieces into its body, if no alternative tag among them is its own. -/
theorem Nested.enclose_append {b : Bool} {ps : List (Piece LoopTag)} (h : Nested b ps) {d : Nat}
    (hd : b = true → d ≠ 0) (qs : List (Piece LoopTag)) :
    enclose d (ps ++ qs) = (enclose d qs).map (·.push (join ps)) := by
  induction h generalizing d qs with
  | nil b => cases he : enclose d qs <;> simp [he, Enclosed.push, join]
  | char c _ ih =>
    simp only [List.cons_append, enclose, ih hd, Option.map_map, Function.comp_def, Enclosed.push_push,
      join_cons, Piece.source]
  | alternative s _ ih =>
    simp only [List.cons_append, enclose, ih hd, Option.map_map, Function.comp_def, if_neg (hd rfl),
      Enclosed.push_push, join_cons, Piece.source]
  | loop names source s s' _ _ ih ih' =>
    simp only [List.cons_append, List.append_assoc, enclose, ih (fun _ => Nat.succ_ne_zero d), ih' hd,
      Option.map_map, Function.comp_def, Enclosed.push_push, join_cons, join_append, Piece.source]

/-- All that stands in front of the closing tag. -/
def Enclosed.whole (e : Enclosed) : Text := e.body ++ e.alternative.elim [] fun (s, t) => s ++ t

theorem Enclosed.whole_push (t : Text) (e : Enclosed) : (e.push t).whole = t ++ e.whole :=
  List.append_assoc ..

theorem Enclosed.whole_split (s : Text) (e : Enclosed) : (e.split s).whole = s ++ e.whole := rfl

/-- A loop around balanced pieces loses nothing of them, and ends at the closing tag behind them. -/
theorem Nested.exists_enclosed {ps : List (Piece LoopTag)} (h : Nested true ps) (s' : Text)
    (rest : List (Piece LoopTag)) :
    ∃ e, enclose 0 (ps ++ .tag .closer s' :: rest) = some e ∧ e.whole = join ps ∧ e.rest = rest := by
  generalize hb : true = b at h
  induction h with
  | nil b => exact ⟨⟨[], none, rest⟩, rfl, rfl, rfl⟩
  | char c _ ih =>
    obtain ⟨e, he, hwhole, hrest⟩ := ih hb
    refine ⟨e.push [c], ?_, ?_, hrest⟩
    · rw [List.cons_append, enclose, he, Option.map_some]
    · rw [Enclosed.whole_push, hwhole, join_cons, Piece.source]
  | alternative s _ ih =>
    obtain ⟨e, he, hwhole, hrest⟩ := ih hb
    refine ⟨e.split s, ?_, ?_, hrest⟩
    · rw [List.cons_append, enclose, he, Option.map_some, if_pos rfl]
    · rw [Enclosed.whole_split, hwhole, join_cons, Piece.source]
  | @loop names source s t b ps qs hps _ _ ih =>
    obtain ⟨e, he, hwhole, hrest⟩ := ih hb
    refine ⟨(((e.push t).push (join ps)).push s), ?_, ?_, hrest⟩
    · rw [List.cons_append, List.append_assoc, List.cons_append, enclose,
        hps.enclose_append (fun _ => Nat.one_ne_zero), enclose, he, Option.map_some, Option.map_some, Option.map_some]
    · simp only [Enclosed.whole_push, hwhole, join_cons, join_append, Piece.source]

theorem Encloses.exists_enclosed {ps : List (Piece LoopTag)} {body : Text} {alternative : Option Text}
    (h : Encloses ps body alternative) (s' : Text) (rest : List (Piece LoopTag)) :
    ∃ e, enclose 0 (ps ++ .tag .closer s' :: rest) = some e ∧
      e.body = body ∧ e.alternative.map (·.2) = alternative ∧ e.rest = rest := by
  cases h with
  | body h =>
    refine ⟨⟨join ps, none, rest⟩, ?_, rfl, rfl, rfl⟩
    rw [h.enclose_append nofun, enclose, Option.map_some, Enclosed.push, List.append_nil]
  | @parted s ps qs h h' =>
    obtain ⟨e, he, hwhole, hrest⟩ := h'.exists_enclosed s' rest
    refine ⟨(e.split s).push (join ps), ?_, List.append_nil _, congrArg some hwhole, hrest⟩
    rw [List.append_assoc, List.cons_append, h.enclose_append nofun, enclose, he, Option.map_some, Option.map_some,
      if_pos rfl]

/-- Where an opening tag finds a closing one, balanced pieces stand between them. -/
theorem exists_nested_of_enclose {d : Nat} {qs : List (Piece LoopTag)} (h : (enclose d qs).isSome) :
    ∃ ps s' rest, qs = ps ++ .tag .closer s' :: rest ∧ Nested true ps ∧
      ∀ d', d = d' + 1 → (enclose d' rest).isSome := by
  induction hn : qs.length using Nat.strongRecOn generalizing d qs with
  | ind n ih =>
    subst hn
    match qs, h with
    | .char c :: qs, h =>
      rw [enclose, Option.isSome_map] at h
      obtain ⟨ps, s', rest, rfl, hps, hrest⟩ := ih _ (Nat.lt_succ_self _) h rfl
      exact ⟨.char c :: ps, s', rest, rfl, .char c hps, hrest⟩
    | .tag .alternative s :: qs, h =>
      rw [enclose, Option.isSome_map] at h
      obtain ⟨ps, s', rest, rfl, hps, hrest⟩ := ih _ (Nat.lt_succ_self _) h rfl
      exact ⟨.tag .alternative s :: ps, s', rest, rfl, .alternative s hps, hrest⟩
    | .tag .closer s :: qs, h =>
      refine ⟨[], s, qs, rfl, .nil true, ?_⟩
      rintro d' rfl
      rwa [enclose, Option.isSome_map] at h
    | .tag (.opener names source) s :: qs, h =>
      rw [enclose, Option.isSome_map] at h
      -- the inner loop first, and then what the outer one has behind it
      obtain ⟨ps, s', qs', rfl, hps, hqs'⟩ := ih _ (Nat.lt_succ_self _) h rfl
      have hlt : qs'.length < (Piece.tag (.opener names source) s :: (ps ++ .tag .closer s' :: qs')).length := by
        simp only [List.length_cons, List.length_append]
        omega
      obtain ⟨ps', t', rest, rfl, hps', hrest⟩ := ih _ hlt (hqs' d rfl) rfl
      refine ⟨.tag (.opener names source) s :: (ps ++ .tag .closer s' :: ps'), t', rest, ?_, ?_, hrest⟩
      · simp only [List.cons_append, List.append_assoc]
      · exact .loop names source s s' hps hps'

/-- An opening tag has one closing tag, one body and one part for an empty collection. -/
theorem Encloses.unique {ps ps' rest rest' : List (Piece LoopTag)} {s s' body body' : Text}
    {alternative alternative' : Option Text} (h : Encloses ps body alternative)
    (h' : Encloses ps' body' alternative')
    (heq : ps ++ .tag .closer s :: rest = ps' ++ .tag .closer s' :: rest') :
    ps = ps' ∧ s = s' ∧ rest = rest' ∧ body = body' ∧ alternative = alternative' := by
  obtain ⟨e, he, hbody, halternative, hrest⟩ := h.exists_enclosed s rest
  obtain ⟨e', he', hbody', halternative', hrest'⟩ := h'.exists_enclosed s' rest'
  obtain rfl : e = e' := Option.some.inj (he.symm.trans ((congrArg _ heq).trans he'))
  obtain rfl : rest = rest' := hrest.symm.trans hrest'
  obtain ⟨rfl, htail⟩ := List.append_inj' heq rfl
  exact ⟨rfl, (Piece.tag.inj (List.cons.inj htail).1).2, rfl, hbody.symm.trans hbody',
    halternative.symm.trans halternative'⟩

theorem exists_encloses_of_enclose {qs : List (Piece LoopTag)} {e : Enclosed} (h : enclose 0 qs = some e) :
    ∃ ps s', qs = ps ++ .tag .closer s' :: e.rest ∧ Encloses ps e.body (e.alternative.map (·.2)) := by
  obtain ⟨ps, s', rest, rfl, hps, -⟩ := exists_nested_of_enclose (Option.isSome_of_eq_some h)
  obtain ⟨body, alternative, henc⟩ := hps.exists_encloses
  obtain ⟨e', he', rfl, rfl, rfl⟩ := henc.exists_enclosed s' rest
  obtain rfl : e = e' := Option.some.inj (h.symm.trans he')
  exact ⟨ps, s', rfl, henc⟩

end Enclosing

section Dividing

variable {names : List Text} {source s : Text} {qs : List (Piece LoopTag)}

/-- The part of the text that a loop's tag opens. -/
theorem Divides.opener_cases {d : List Segment} (h : Divides (.tag (.opener names source) s :: qs) d) :
    (∃ ps s' rest body alternative d', qs = ps ++ .tag .closer s' :: rest ∧ Encloses ps body alternative ∧
      Divides rest d' ∧ d = .loop ⟨names, source, body, alternative⟩ (s ++ (join ps ++ s')) :: d') ∨
    (∀ ps s' rest, Nested true ps → qs ≠ ps ++ .tag .closer s' :: rest) ∧ d = [.text (s ++ join qs)] := by
  generalize hqs : Piece.tag (.opener names source) s :: qs = all at h
  cases h with
  | done => simp at hqs
  | stray h => exact absurd hqs.symm (by simp [h])
  | loop names' source' t t' he hd =>
    simp only [List.cons.injEq, Piece.tag.injEq, LoopTag.opener.injEq] at hqs
    obtain ⟨⟨⟨rfl, rfl⟩, rfl⟩, rfl⟩ := hqs
    exact .inl ⟨_, t', _, _, _, _, rfl, he, hd, rfl⟩
  | unclosed names' source' t h =>
    simp only [List.cons.injEq, Piece.tag.injEq, LoopTag.opener.injEq] at hqs
    obtain ⟨⟨⟨rfl, rfl⟩, rfl⟩, rfl⟩ := hqs
    exact .inr ⟨h, rfl⟩

theorem Divides.unique {ps : List (Piece LoopTag)} {d d' : List Segment} (h : Divides ps d)
    (h' : Divides ps d') : d = d' := by
  induction h generalizing d' with
  | done => cases h'; rfl
  | stray hp _ ih =>
    cases h' with
    | stray _ hd' => rw [ih hd']
    | loop => exact (hp _ _ _ rfl).elim
    | unclosed => exact (hp _ _ _ rfl).elim
  | loop names source s s' he _ ih =>
    rcases h'.opener_cases with ⟨_, _, _, _, _, _, heq, he', hd', rfl⟩ | ⟨hnone, -⟩
    · obtain ⟨rfl, rfl, rfl, rfl, rfl⟩ := he.unique he' heq
      rw [ih hd']
    · exact absurd rfl (hnone _ _ _ he.nested)
  | unclosed names source s hnone =>
    rcases h'.opener_cases with ⟨_, _, _, _, _, _, heq, he', -, -⟩ | ⟨-, rfl⟩
    · exact absurd heq (hnone _ _ _ he'.nested)
    · rfl

theorem Divides.flatMap_source {ps : List (Piece LoopTag)} {d : List Segment} (h : Divides ps d) :
    d.flatMap Segment.source = join ps := by
  induction h with
  | done => rfl
  | stray _ _ ih => rw [List.flatMap_cons, ih, Segment.source, join_cons]
  | loop names source s s' _ _ ih =>
    simp only [List.flatMap_cons, ih, Segment.source, join_cons, join_append, Piece.source, List.append_assoc]
  | unclosed names source s => simp only [List.flatMap_cons, List.flatMap_nil, Segment.source, join_cons,
      Piece.source, List.append_nil]

/-- The parts that are expanded are those of a division. -/
theorem exists_divides (ps : List (Piece LoopTag)) : ∃ d, Divides ps d ∧ parts ps = d.map Segment.part := by
  fun_induction parts ps with
  | case1 => exact ⟨[], .done, rfl⟩
  | case2 c ps ih =>
    obtain ⟨d, hd, hparts⟩ := ih
    exact ⟨.text [c] :: d, .stray nofun hd, by rw [hparts]; rfl⟩
  | case3 names source s qs e he ih =>
    obtain ⟨d, hd, hparts⟩ := ih
    obtain ⟨ps, s', rfl, henc⟩ := exists_encloses_of_enclose he
    exact ⟨_, .loop names source s s' henc hd, by rw [hparts]; rfl⟩
  | case4 names source s qs he =>
    refine ⟨_, .unclosed names source s ?_, rfl⟩
    rintro ps s' rest hps rfl
    obtain ⟨e, he', -⟩ := hps.exists_enclosed s' rest
    rw [he] at he'
    cases he'
  | case5 s ps ih =>
    obtain ⟨d, hd, hparts⟩ := ih
    exact ⟨.text s :: d, .stray nofun hd, by rw [hparts]; rfl⟩
  | case6 s ps ih =>
    obtain ⟨d, hd, hparts⟩ := ih
    exact ⟨.text s :: d, .stray nofun hd, by rw [hparts]; rfl⟩

end Dividing

end PageTemplate.Loop
