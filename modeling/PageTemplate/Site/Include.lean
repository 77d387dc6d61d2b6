import PageTemplate.Dynamic.Piece
import PageTemplate.Site.Tree
import PageTemplate.Text.Directive
set_option autoImplicit false
/-!
Inclusion of files. A directive is replaced by the text of its file, in which directives are replaced in
turn, relative to that file. A directive that leads out of the root, back to a file being included, or to
nothing readable vanishes. A directive between quotes is text. A path that holds a NUL ends the work.

A file is never included inside itself, so every inclusion inside another one has fewer files to choose
from.
-/
namespace PageTemplate.Include

def isQuote (c : Char) : Bool := c = '"' || c = '\''

/-- What follows the word of a directive. -/
def afterWord? (t : Text) : Option Text := do
  afterFolded? (text "include") (← after? ['['] t)

/-- A directive with a quote, of either kind, on both sides of it. -/
def readQuoted : TagReader (Option Text) := fun t => do
  let q :: r := t | none
  let (body, r) ← cut? [']'] (← afterWord? r)
  let _ ← directivePath? body
  let e :: rest := r | none
  if isQuote q && isQuote e then some (none, rest) else none

/-- The path of a directive and what follows it. The path has at least one character, which may be a
closing bracket; if there is no other bracket behind, the last blank is the path. -/
def path? (t : Text) : Option (Text × Text) :=
  let blanks := (blankRun t).length
  match t.drop blanks with
  | [] => none
  | c :: r =>
    if blanks = 0 then none
    else
      match cut? [']'] r with
      | some (body, rest) => some (trim (c :: body), rest)
      | none => if c = ']' && 2 ≤ blanks then some ([], r) else none

def readBare : TagReader (Option Text) := fun t => do
  let (path, rest) ← path? (← afterWord? t)
  some (some path, rest)

/-- A directive with its path, or without one if it stands between quotes. -/
def read : TagReader (Option Text) := fun t => (readQuoted t).or (readBare t)

/-- Where the path of a directive leads. -/
inductive Target where
  | nowhere
  | outside
  | inside (l : Location)
  deriving DecidableEq, Repr

/-- Where a path in a file leads. A path from the root starts with a slash. -/
def target (root : Location) (current path : Text) : Target :=
  let base :=
    if Path.isAbsolute path || current.isEmpty then root.path
    else (root.path.join current).parent
  match (base.join (path.dropWhile (· == '/'))).location? with
  | none => .nowhere
  | some l => if root.isBelow l then .inside l else .outside

/-- The path of a place below the root. -/
def relative (root l : Location) : Text := Location.relativeText (l.drop root.length)

/-- A text with its directives replaced, what was reported, and the files spliced in. There is no text if
a path leads nowhere. -/
structure Expansion where
  text : Option Text
  notices : List Notice
  spliced : List Text

namespace Expansion

def verbatim (t : Text) : Expansion := ⟨some t, [], []⟩

/-- A directive that vanishes. -/
def dropped (n : Notice) : Expansion := ⟨some [], [n], []⟩

/-- A directive that ends the work. -/
def ended : Expansion := ⟨none, [], []⟩

/-- Directives are expanded from the last to the first. -/
def append (first rest : Expansion) : Expansion :=
  match rest.text with
  | none => rest
  | some t => ⟨first.text.map (· ++ t), rest.notices ++ first.notices, rest.spliced ++ first.spliced⟩

def splice (file : Text) (e : Expansion) : Expansion := { e with spliced := file :: e.spliced }

end Expansion

/-- How many entries of a tree are not on a chain of inclusions. -/
def unvisited (tree : FileTree) (chain : List Location) : Nat :=
  (tree.entries.filter fun e => !chain.contains e.1).length

theorem mem_of_lookup {α β : Type} [BEq α] [LawfulBEq α] {es : List (α × β)} {k : α} {v : β}
    (h : es.lookup k = some v) : (k, v) ∈ es := by
  induction es with
  | nil => simp at h
  | cons e es ih =>
    obtain ⟨k', v'⟩ := e
    rw [List.lookup_cons] at h
    split at h
    · next hk =>
      simp only [Option.some.injEq] at h
      rw [eq_of_beq hk, h]
      exact List.mem_cons_self
    · exact List.mem_cons_of_mem _ (ih h)

theorem mem_of_readText {tree : FileTree} {l : Location} {t : Text}
    (h : tree.readText l = .ok t) : ∃ n, (l, n) ∈ tree.entries := by
  unfold FileTree.readText at h
  split at h
  · simp at h
  · cases hf : tree.find? l with
    | none => simp [hf] at h
    | some n =>
      unfold FileTree.find? at hf
      split at hf
      · next he =>
        simp only [Option.some.injEq] at hf
        subst hf
        simp [FileTree.find?, he] at h
      · exact ⟨n, mem_of_lookup hf⟩

theorem filter_length_lt {α : Type} {p q : α → Bool} {xs : List α} (hpq : ∀ x ∈ xs, p x → q x)
    {a : α} (ha : a ∈ xs) (hq : q a) (hp : p a = false) :
    (xs.filter p).length < (xs.filter q).length := by
  induction xs with
  | nil => simp at ha
  | cons x xs ih =>
    have hle : (xs.filter p).length ≤ (xs.filter q).length := by
      rw [← List.countP_eq_length_filter, ← List.countP_eq_length_filter]
      exact List.countP_mono_left fun y hy h => hpq y (List.mem_cons_of_mem _ hy) h
    rcases List.mem_cons.1 ha with rfl | hm
    · simp only [List.filter_cons, hq, hp, if_true, Bool.false_eq_true, if_false, List.length_cons]
      omega
    · have hlt := ih (fun y hy => hpq y (List.mem_cons_of_mem _ hy)) hm
      have hx := hpq x List.mem_cons_self
      simp only [List.filter_cons]
      split
      · next hpx =>
        simp only [hx hpx, if_true, List.length_cons]
        omega
      · split
        · simp only [List.length_cons]
          omega
        · exact hlt

theorem unvisited_cons {tree : FileTree} {chain : List Location} {l : Location} {n : Node}
    (hc : l ∉ chain) (hm : (l, n) ∈ tree.entries) :
    unvisited tree (l :: chain) < unvisited tree chain := by
  apply filter_length_lt (a := (l, n)) _ hm
  · simpa using hc
  · simp
  · intro e _ h
    simp_all

/-- Replaces directives, where `chain` holds the files being included and `current` is the path of the
innermost. -/
def expand (tree : FileTree) (root : Location) (chain : List Location) (current : Text) :
    List (Piece (Option Text)) → Expansion
  | [] => .verbatim []
  | .char c :: ps => (Expansion.verbatim [c]).append (expand tree root chain current ps)
  | .tag none s :: ps => (Expansion.verbatim s).append (expand tree root chain current ps)
  | .tag (some path) _ :: ps =>
    let rest := expand tree root chain current ps
    match target root current path with
    | .nowhere => Expansion.ended.append rest
    | .outside => (Expansion.dropped (.includeEscapes path current)).append rest
    | .inside l =>
      if _hc : l ∈ chain then (Expansion.dropped (.includeCircular path current)).append rest
      else
        match _hr : tree.readText l with
        | .error f => (Expansion.dropped (.includeUnreadable l.toText f)).append rest
        | .ok t =>
          let file := relative root l
          ((expand tree root (l :: chain) file (Piece.scan read t)).splice file).append rest
termination_by ps => (unvisited tree chain, ps.length)
decreasing_by
  all_goals simp_wf
  all_goals first
    | exact Prod.Lex.right _ (by omega)
    | exact Prod.Lex.left _ _ (unvisited_cons _hc (mem_of_readText _hr).choose_spec)

/-- The place of a path that is written as places are. No other path names a file being included. -/
def settled? (p : Path) : Option Location := if p = p.location.path then some p.location else none

/-- The expansion of a text that came from the file of path `current`, or from no file, while the files
at `visited` are being included. -/
def resolve (tree : FileTree) (root : Location) (current : Text) (visited : List Path)
    (content : Text) : Expansion :=
  let chain := visited.filterMap settled?
  if current.isEmpty then expand tree root chain current (Piece.scan read content)
  else
    match (root.path.join current).location? with
    | none => .ended
    | some l => expand tree root (l :: chain) current (Piece.scan read content)

end PageTemplate.Include
