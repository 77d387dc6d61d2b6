import PageTemplate.Proofs.Place
import PageTemplate.Site.Include
set_option autoImplicit false
/-!
How deep inclusions nest. Every inclusion inside another one is of a file that is not being included yet, so
that there are at most as many inside each other as there are files below the root, however the files name
each other.
-/
namespace PageTemplate.Include

variable (tree : FileTree) (root : Location)

/-- What becomes of a directive. -/
def directive (chain : List Location) (current path : Text) : Expansion :=
  match target root current path with
  | .nowhere => .ended
  | .outside => .dropped (.includeEscapes path current)
  | .inside l =>
    if chain.contains l then .dropped (.includeCircular path current)
    else
      match tree.readText l with
      | .error f => .dropped (.includeUnreadable l.toText f)
      | .ok t => (expand tree root (l :: chain) (relative root l) (Piece.scan read t)).splice (relative root l)

theorem expand_tag (chain : List Location) (current path source : Text) (ps : List (Piece (Option Text))) :
    expand tree root chain current (.tag (some path) source :: ps) =
      (directive tree root chain current path).append (expand tree root chain current ps) := by
  rw [expand, directive]
  dsimp only
  cases target root current path with
  | nowhere => rfl
  | outside => rfl
  | inside l =>
    dsimp only
    by_cases hc : l ∈ chain
    · rw [dif_pos hc, if_pos (List.contains_iff_mem.2 hc)]
    · rw [dif_neg hc, if_neg (mt List.contains_iff_mem.1 hc)]
      split
      · next hr => rw [hr]
      · next hr => rw [hr]

/-! Expansion with a limit -/

/-- A function that expands the pieces of a text, where `chain` holds the files being included. -/
abbrev Expander := List Location → Text → List (Piece (Option Text)) → Option Expansion

/-- What becomes of a directive if the texts of files are expanded by the given function. -/
def directiveWith (nested : Expander) (chain : List Location) (current path : Text) : Option Expansion :=
  match target root current path with
  | .nowhere => some .ended
  | .outside => some (.dropped (.includeEscapes path current))
  | .inside l =>
    if chain.contains l then some (.dropped (.includeCircular path current))
    else
      match tree.readText l with
      | .error f => some (.dropped (.includeUnreadable l.toText f))
      | .ok t => (nested (l :: chain) (relative root l) (Piece.scan read t)).map (·.splice (relative root l))

/-- Expands the pieces of one text, and the texts of files by the given function. -/
def expandWith (nested : Expander) (chain : List Location) (current : Text) :
    List (Piece (Option Text)) → Option Expansion
  | [] => some (.verbatim [])
  | .char c :: ps => (expandWith nested chain current ps).map (Expansion.verbatim [c]).append
  | .tag none s :: ps => (expandWith nested chain current ps).map (Expansion.verbatim s).append
  | .tag (some path) _ :: ps => do
    let rest ← expandWith nested chain current ps
    return (← directiveWith tree root nested chain current path).append rest

/-- Expands with at most so many texts inside each other; nothing where that is not enough. -/
def expandWithin : Nat → Expander
  | 0 => fun _ _ _ => none
  | n + 1 => expandWith tree root (expandWithin n)

/-- `resolve` with at most so many texts inside each other, the given one counted. -/
def resolveWithin (n : Nat) (current : Text) (visited : List Path) (content : Text) : Option Expansion :=
  let chain := visited.filterMap settled?
  if current.isEmpty then expandWithin tree root n chain current (Piece.scan read content)
  else
    match (root.path.join current).location? with
    | none => some .ended
    | some l => expandWithin tree root n (l :: chain) current (Piece.scan read content)

/-! Files -/

/-- The places of the files at a place and below it, each one once. -/
def files : List Location :=
  (tree.entries.map (·.1)).eraseDups.filter fun l => root.isBelow l && tree.isFile l

/-- How many of the files are not being included. -/
def unread (chain : List Location) : Nat := ((files tree root).filter fun l => !chain.contains l).length

variable {tree root}

/-- A target is a plain way down from the root. -/
theorem target_eq_inside {current path : Text} {l : Location} (h : target root current path = .inside l) :
    root.isBelow l ∧ upSegment ∉ l ∧ l.path.isNameable := by
  unfold target at h
  dsimp only at h
  split at h
  · nomatch h
  · next l' hl' =>
    split at h
    · next hbelow =>
      obtain rfl := Target.inside.inj h
      obtain ⟨hname, rfl⟩ := Path.location?_eq_some_iff.1 hl'
      exact ⟨hbelow, Path.upSegment_notMem_location _, Path.isNameable_location hname⟩
    · nomatch h

theorem mem_files {l : Location} {t : Text} (hl : root.isBelow l) (h : tree.readText l = .ok t) :
    l ∈ files tree root := by
  obtain ⟨n, hn⟩ := mem_of_readText h
  have hfile : tree.isFile l := by
    unfold FileTree.readText at h
    unfold FileTree.isFile
    split at h
    · nomatch h
    · split at h
      · nomatch h
      · next hfind => rw [hfind]; rfl
      · nomatch h
      · nomatch h
  have hkey : l ∈ (tree.entries.map (·.1)).eraseDups := List.mem_eraseDups.2 (List.mem_map_of_mem hn)
  exact List.mem_filter.2 ⟨hkey, by rw [hl, hfile]; rfl⟩

/-- A file that is being included is one less to include. -/
theorem unread_cons {chain : List Location} {l : Location} {t : Text} (hl : root.isBelow l) (hc : l ∉ chain)
    (h : tree.readText l = .ok t) : unread tree root (l :: chain) < unread tree root chain :=
  filter_length_lt (a := l) (by simp_all) (mem_files hl h) (by simpa using hc) (by simp)

theorem unread_le (chain : List Location) : unread tree root chain ≤ (files tree root).length :=
  List.length_filter_le _ _

/-- A limit above the number of files that are not being included is enough. -/
theorem expandWithin_eq {n : Nat} {chain : List Location} (hn : unread tree root chain < n) (current : Text)
    (ps : List (Piece (Option Text))) :
    expandWithin tree root n chain current ps = some (expand tree root chain current ps) := by
  induction n generalizing chain current ps with
  | zero => exact absurd hn (Nat.not_lt_zero _)
  | succ n ih =>
    have hdirective (path : Text) : directiveWith tree root (expandWithin tree root n) chain current path =
        some (directive tree root chain current path) := by
      unfold directiveWith directive
      split
      · rfl
      · rfl
      · next l htarget =>
        split
        · rfl
        · next hc =>
          split
          · rfl
          · next t hr =>
            rw [ih]
            · rfl
            · have := unread_cons (target_eq_inside htarget).1 (mt List.contains_iff_mem.2 hc) hr
              omega
    rw [expandWithin]
    induction ps with
    | nil => rw [expandWith, expand]
    | cons p ps ihp =>
      cases p with
      | char c => rw [expandWith, expand, ihp]; rfl
      | tag path? source =>
        cases path? with
        | none => rw [expandWith, expand, ihp]; rfl
        | some path => rw [expandWith, expand_tag, ihp, hdirective]; rfl

theorem resolveWithin_eq {n : Nat} (hn : (files tree root).length < n) (current : Text) (visited : List Path)
    (content : Text) :
    resolveWithin tree root n current visited content = some (resolve tree root current visited content) := by
  have henough (chain : List Location) : unread tree root chain < n := Nat.lt_of_le_of_lt (unread_le chain) hn
  unfold resolveWithin resolve
  dsimp only
  split
  · exact expandWithin_eq (henough _) _ _
  · cases (root.path.join current).location? with
    | none => rfl
    | some l => exact expandWithin_eq (henough _) _ _

/-- Inclusion ends however the files name each other, and at most one text more than there are files at
the root and below lies inside another. -/
theorem resolveWithin_files (tree : FileTree) (root : Location) (current : Text) (visited : List Path)
    (content : Text) :
    resolveWithin tree root ((files tree root).length + 1) current visited content =
      some (resolve tree root current visited content) :=
  resolveWithin_eq (Nat.lt_succ_self _) current visited content

/-- Two files that include each other. The limit is reached: a text from no file includes both. -/
def mutualTree : FileTree where
  entries :=
    [([text "a"], .file (Utf8.encode (text "[include b]"))), ([text "b"], .file (Utf8.encode (text "[include a]")))]

example : (files mutualTree []).length = 2 ∧ (resolveWithin mutualTree [] 2 [] [] (text "[include a]")).isNone := by
  decide +kernel

end PageTemplate.Include
