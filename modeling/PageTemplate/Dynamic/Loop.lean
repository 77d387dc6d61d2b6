import PageTemplate.Dynamic.Render
import PageTemplate.Dynamic.Tag
set_option autoImplicit false
/-!
Loops. A text is first divided into its outermost balanced loops and what stands between them; then each
loop is replaced by its expansion. An opening tag that nothing balances ends the search, and closing and
alternative tags outside loops are text.
-/
namespace PageTemplate

inductive LoopTag where
  | opener (names : List Text) (source : Text)
  | alternative
  | closer

namespace LoopTag

/-- The names of a loop: a word, or two with a comma between them. -/
def readNames (t : Text) : Option (List Text × Text) :=
  let (first, r) := spanWord t
  if first.isEmpty then none
  else
    match skipBlanks r with
    | ',' :: r' =>
      let (second, rest) := spanWord (skipBlanks r')
      if second.isEmpty then none else some ([first, second], rest)
    | _ => some ([first], r)

/-- The collection after `in`. Blanks separate it; of blanks alone the last is taken for it. -/
def readCollection (t : Text) : Option Text :=
  if startsBlank t then
    if !(trim t).isEmpty then some (trim t)
    else if 2 ≤ t.length then some [] else none
  else none

/-- The meaning of a tag body. -/
def ofBody? (body : Text) : Option LoopTag :=
  if trim body = text "endfor" then some .closer
  else if trim body = text "empty" then some .alternative
  else do
    let r ← Tag.afterWord? (text "for") (skipBlanks body)
    let (names, r) ← readNames r
    if startsBlank r then
      let source ← readCollection (← after? (text "in") (skipBlanks r))
      some (.opener names source)
    else none

def read : TagReader LoopTag := fun t => do
  let (body, rest) ← Tag.readBody t
  some (← ofBody? body, rest)

end LoopTag

/-- A loop: its names, the source of its collection, its body, and the body for an empty collection. -/
structure Loop where
  names : List Text
  source : Text
  body : Text
  alternative : Option Text

namespace Loop

/-- What an opening tag encloses, and the pieces behind its closing tag. The alternative tag stands in
front of its part. -/
structure Enclosed where
  body : Text
  alternative : Option (Text × Text)
  rest : List (Piece LoopTag)

def Enclosed.push (t : Text) (e : Enclosed) : Enclosed := { e with body := t ++ e.body }

/-- The body becomes the part of an alternative tag; a second such tag is text. -/
def Enclosed.split (tag : Text) (e : Enclosed) : Enclosed :=
  ⟨[], some (tag, e.body ++ e.alternative.elim [] fun (s, t) => s ++ t), e.rest⟩

/-- Reads up to the closing tag, with `depth` inner loops open. -/
def enclose (depth : Nat) : List (Piece LoopTag) → Option Enclosed
  | [] => none
  | .char c :: ps => (enclose depth ps).map (·.push [c])
  | .tag (.opener _ _) s :: ps => (enclose (depth + 1) ps).map (·.push s)
  | .tag .alternative s :: ps =>
    (enclose depth ps).map fun e => if depth = 0 then e.split s else e.push s
  | .tag .closer s :: ps =>
    match depth with
    | 0 => some ⟨[], none, ps⟩
    | d + 1 => (enclose d ps).map (·.push s)

theorem enclose_rest {ps : List (Piece LoopTag)} {depth : Nat} {e : Enclosed}
    (h : enclose depth ps = some e) : e.rest.length < ps.length := by
  fun_induction enclose depth ps generalizing e with
  | case1 => simp at h
  | case2 d c ps ih =>
    obtain ⟨e', he, rfl⟩ := Option.map_eq_some_iff.1 h
    have := ih he
    simp only [Enclosed.push, List.length_cons]; omega
  | case3 d n s t ps ih =>
    obtain ⟨e', he, rfl⟩ := Option.map_eq_some_iff.1 h
    have := ih he
    simp only [Enclosed.push, List.length_cons]; omega
  | case4 d s ps ih =>
    obtain ⟨e', he, rfl⟩ := Option.map_eq_some_iff.1 h
    have := ih he
    split <;> simp only [Enclosed.push, Enclosed.split, List.length_cons] <;> omega
  | case5 s ps => simp only [Option.some.injEq] at h; subst h; simp
  | case6 s ps d ih =>
    obtain ⟨e', he, rfl⟩ := Option.map_eq_some_iff.1 h
    have := ih he
    simp only [Enclosed.push, List.length_cons]; omega

/-- A stretch of text, or a loop. -/
inductive Part where
  | verbatim (t : Text)
  | loop (l : Loop)

/-- The outermost loops and the text around them. -/
def parts : List (Piece LoopTag) → List Part
  | [] => []
  | .char c :: ps => .verbatim [c] :: parts ps
  | .tag (.opener names source) s :: ps =>
    match _h : enclose 0 ps with
    | some e => .loop ⟨names, source, e.body, e.alternative.map (·.2)⟩ :: parts e.rest
    | none => [.verbatim (s ++ Piece.join ps)]
  | .tag .alternative s :: ps => .verbatim s :: parts ps
  | .tag .closer s :: ps => .verbatim s :: parts ps
termination_by ps => ps.length
decreasing_by
  all_goals simp_wf
  all_goals have := enclose_rest _h; omega

theorem parts_enclosed (names : List Text) (source s : Text) {ps : List (Piece LoopTag)} {e : Enclosed}
    (h : enclose 0 ps = some e) : parts (.tag (.opener names source) s :: ps) =
      .loop ⟨names, source, e.body, e.alternative.map (·.2)⟩ :: parts e.rest := by
  rw [parts]
  split
  · next e' he' =>
    obtain rfl : e' = e := Option.some.inj (he'.symm.trans h)
    rfl
  · next hnone => cases hnone.symm.trans h

theorem parts_unclosed (names : List Text) (source s : Text) {ps : List (Piece LoopTag)} (h : enclose 0 ps = none) :
    parts (.tag (.opener names source) s :: ps) = [.verbatim (s ++ Piece.join ps)] := by
  rw [parts]
  split
  · next he => cases he.symm.trans h
  · rfl

theorem parts_stray {p : Piece LoopTag} (hp : ∀ names source s, p ≠ .tag (.opener names source) s)
    (ps : List (Piece LoopTag)) : parts (p :: ps) = .verbatim p.source :: parts ps := by
  match p with
  | .char _ | .tag .alternative _ | .tag .closer _ => rw [parts, Piece.source]
  | .tag (.opener names source) s => exact absurd rfl (hp names source s)

/-- Words that a loop may not bind. -/
def reservedNames : List Text :=
  ["if", "else", "endif", "for", "endfor", "empty", "break", "continue", "in"].map text

def refused (name : Text) : Bool := isUnsafeName name || reservedNames.contains name

/-- Null, false and containers without members have no iterations. -/
def isEmptyCollection : Value → Bool
  | .null => true
  | .bool b => !b
  | .list xs | .tuple xs => xs.isEmpty
  | .map es => es.isEmpty
  | _ => false

/-- Keys and values of a collection. A sequence has its indices for keys; under a single name a mapping
gives its keys alone. -/
def entriesOf? (keyed : Bool) : Value → Option (List (Value × Value))
  | .map es => some (if keyed then es else es.map fun (k, _) => (k, k))
  | .list xs | .tuple xs => some (xs.zipIdx.map fun (v, i) => (.nat i, v))
  | _ => none

/-- What one iteration binds: the item or key, its place, and the value under a second name. -/
def bindings (names : List Text) (total index : Nat) (key value : Value) : Entries :=
  match names with
  | [] => []
  | primary :: others =>
    let base : Entries := Entries.ofPairs [
      (.str primary, if others.isEmpty then value else key),
      (.str (primary ++ text "_index"), .nat index),
      (.str (primary ++ text "_isFirst"), .bool (index == 0)),
      (.str (primary ++ text "_isLast"), .bool (index + 1 == total))]
    others.foldl (fun es name => es.put (.str name) value) base

def readBreak : TagReader Unit := Tag.readKeyword (text "break")

def readContinue : TagReader Unit := Tag.readKeyword (text "continue")

/-- Renders the iterations in turn. A break tag in the rendered body keeps that iteration and ends the
loop; a continue tag drops the iteration. -/
def iterate (render : RenderContext → Text → Render Text) (ctx : RenderContext) (l : Loop)
    (total : Nat) : Nat → List (Value × Value) → Render Text
  | _, [] => pure []
  | index, (key, value) :: rest => do
    let rendered ← render (ctx.bind (bindings l.names total index key value)) l.body
    if Piece.occurs readBreak rendered then pure (Piece.remove readBreak rendered)
    else if Piece.occurs readContinue rendered then iterate render ctx l total (index + 1) rest
    else return rendered ++ (← iterate render ctx l total (index + 1) rest)

/-- The expansion of a loop, whose bodies are rendered by the given function. -/
def expand (render : RenderContext → Text → Render Text) (ctx : RenderContext) (l : Loop) :
    Render Text :=
  match l.names.filter refused with
  | name :: more => do
    Render.report [.loopNames (name :: more)]
    pure []
  | [] => do
    match ← Render.evaluate ctx l.source with
    | .error e => do
      Render.report [.loopFailed l.source e]
      pure []
    | .ok collection =>
      if isEmptyCollection collection then
        match l.alternative with
        | some (c :: cs) => render ctx (c :: cs)
        | _ => pure []
      else
        match entriesOf? (1 < l.names.length) collection with
        | some es => iterate render ctx l es.length 0 es
        | none => do
          Render.report [.loopNotIterable l.source collection.typeName]
          pure []

def expandParts (render : RenderContext → Text → Render Text) (ctx : RenderContext) :
    List Part → Render Text
  | [] => pure []
  | .verbatim t :: ps => do return t ++ (← expandParts render ctx ps)
  | .loop l :: ps => do
    let t ← expand render ctx l
    return t ++ (← expandParts render ctx ps)

end Loop

/-- Replaces every outermost loop by its expansion. -/
def expandLoops (render : RenderContext → Text → Render Text) (ctx : RenderContext) (t : Text) :
    Render Text :=
  Loop.expandParts render ctx (Loop.parts (Piece.scan LoopTag.read t))

end PageTemplate
