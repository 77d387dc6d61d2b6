import PageTemplate.Proofs.Inclusion
set_option autoImplicit false
/-!
Inclusion as expansion from the left to the right. A text is put together from what its pieces come to, and
what a directive comes to depends on its path, the file it stands in and the files being included, whatever
stands beside it. The one thing that spoils the rest is a path that leads nowhere: there is no text then.
-/
namespace PageTemplate.Include

variable (tree : FileTree) (root : Location)

/-- What a piece comes to, where `chain` holds the files being included and `current` is the path of the
innermost. -/
inductive Shows : List Location → Text → Piece (Option Text) → Text → Prop where
  | char {chain : List Location} {current : Text} (c : Char) : Shows chain current (.char c) [c]
  | quoted {chain : List Location} {current : Text} (source : Text) :
      Shows chain current (.tag none source) source
  | outside {chain : List Location} {current path source : Text} (htarget : target root current path = .outside) :
      Shows chain current (.tag (some path) source) []
  | circular {chain : List Location} {current path source : Text} {l : Location}
      (htarget : target root current path = .inside l) (hc : l ∈ chain) :
      Shows chain current (.tag (some path) source) []
  | unreadable {chain : List Location} {current path source : Text} {l : Location} {f : FileFailure}
      (htarget : target root current path = .inside l) (hr : tree.readText l = .error f) :
      Shows chain current (.tag (some path) source) []
  | file {chain : List Location} {current path source t : Text} {l : Location}
      {shown : List (Piece (Option Text) × Text)}
      (htarget : target root current path = .inside l) (hc : l ∉ chain) (hr : tree.readText l = .ok t)
      (hpieces : shown.map (·.1) = Piece.scan read t)
      (hshown : ∀ e ∈ shown, Shows (l :: chain) (relative root l) e.1 e.2) :
      Shows chain current (.tag (some path) source) (shown.flatMap (·.2))

/-- The texts that pieces come to, one after another. -/
def Unfolds (chain : List Location) (current : Text) (ps : List (Piece (Option Text))) (out : Text) : Prop :=
  ∃ shown : List (Piece (Option Text) × Text), shown.map (·.1) = ps ∧
    (∀ e ∈ shown, Shows tree root chain current e.1 e.2) ∧ out = shown.flatMap (·.2)

/-- Is a path that leads nowhere reached from a piece? -/
inductive Strays : List Location → Text → Piece (Option Text) → Prop where
  | here {chain : List Location} {current path source : Text} (htarget : target root current path = .nowhere) :
      Strays chain current (.tag (some path) source)
  | inside {chain : List Location} {current path source t : Text} {l : Location} {p : Piece (Option Text)}
      (htarget : target root current path = .inside l) (hc : l ∉ chain) (hr : tree.readText l = .ok t)
      (hp : p ∈ Piece.scan read t) (hs : Strays (l :: chain) (relative root l) p) :
      Strays chain current (.tag (some path) source)

/-- The files being included when a text is resolved, unless the path of the text leads nowhere. -/
def chain? (current : Text) (visited : List Path) : Option (List Location) :=
  let chain := visited.filterMap settled?
  if current.isEmpty then some chain else (root.path.join current).location?.map (· :: chain)

/-- What becomes of a piece. -/
def piece (chain : List Location) (current : Text) : Piece (Option Text) → Expansion
  | .char c => .verbatim [c]
  | .tag none source => .verbatim source
  | .tag (some path) _ => directive tree root chain current path

variable {tree root} {chain : List Location} {current path : Text}

theorem resolve_eq (visited : List Path) (content : Text) :
    resolve tree root current visited content =
      (chain? root current visited).elim .ended fun chain =>
        expand tree root chain current (Piece.scan read content) := by
  unfold resolve chain?
  dsimp only
  split
  · rfl
  · cases (root.path.join current).location? <;> rfl

theorem expand_cons (p : Piece (Option Text)) (ps : List (Piece (Option Text))) :
    expand tree root chain current (p :: ps) =
      (piece tree root chain current p).append (expand tree root chain current ps) := by
  cases p with
  | char c => rw [expand, piece]
  | tag path? source =>
    cases path? with
    | none => rw [expand, piece]
    | some path => exact expand_tag tree root chain current path source ps

/-! What becomes of a directive, case by case -/

theorem directive_nowhere (h : target root current path = .nowhere) :
    directive tree root chain current path = .ended := by
  rw [directive, h]

theorem directive_outside (h : target root current path = .outside) :
    directive tree root chain current path = .dropped (.includeEscapes path current) := by
  rw [directive, h]

theorem directive_circular {l : Location} (h : target root current path = .inside l) (hc : l ∈ chain) :
    directive tree root chain current path = .dropped (.includeCircular path current) := by
  rw [directive, h]
  exact if_pos (List.contains_iff_mem.2 hc)

theorem directive_unreadable {l : Location} {f : FileFailure} (h : target root current path = .inside l)
    (hc : l ∉ chain) (hr : tree.readText l = .error f) :
    directive tree root chain current path = .dropped (.includeUnreadable l.toText f) := by
  rw [directive, h]
  dsimp only
  rw [if_neg (mt List.contains_iff_mem.1 hc), hr]

theorem directive_file {l : Location} {t : Text} (h : target root current path = .inside l) (hc : l ∉ chain)
    (hr : tree.readText l = .ok t) :
    directive tree root chain current path =
      (expand tree root (l :: chain) (relative root l) (Piece.scan read t)).splice (relative root l) := by
  rw [directive, h]
  dsimp only
  rw [if_neg (mt List.contains_iff_mem.1 hc), hr]

/-- Pieces one inside the other: every file that is spliced in leaves fewer to splice in. -/
theorem piece_induction (tree : FileTree) (root : Location) {P : List Location → Text → Piece (Option Text) → Prop}
    (char : ∀ chain current c, P chain current (.char c))
    (quoted : ∀ chain current source, P chain current (.tag none source))
    (nowhere : ∀ chain current path source, target root current path = .nowhere →
      P chain current (.tag (some path) source))
    (outside : ∀ chain current path source, target root current path = .outside →
      P chain current (.tag (some path) source))
    (circular : ∀ chain current path source l, target root current path = .inside l → l ∈ chain →
      P chain current (.tag (some path) source))
    (unreadable : ∀ chain current path source l f, target root current path = .inside l → l ∉ chain →
      tree.readText l = .error f → P chain current (.tag (some path) source))
    (file : ∀ chain current path source l t, target root current path = .inside l → l ∉ chain →
      tree.readText l = .ok t → (∀ p, P (l :: chain) (relative root l) p) → P chain current (.tag (some path) source))
    (chain : List Location) (current : Text) (p : Piece (Option Text)) : P chain current p := by
  induction hn : unvisited tree chain using Nat.strongRecOn generalizing chain current p with
  | ind n ih =>
    rcases p with c | ⟨_ | path, source⟩
    · exact char chain current c
    · exact quoted chain current source
    · cases htarget : target root current path with
      | nowhere => exact nowhere chain current path source htarget
      | outside => exact outside chain current path source htarget
      | inside l =>
        by_cases hc : l ∈ chain
        · exact circular chain current path source l htarget hc
        · cases hr : tree.readText l with
          | error f => exact unreadable chain current path source l f htarget hc hr
          | ok t =>
            obtain ⟨node, hnode⟩ := mem_of_readText hr
            exact file chain current path source l t htarget hc hr fun p =>
              ih _ (hn ▸ unvisited_cons hc hnode) (l :: chain) (relative root l) p rfl

/-! The text -/

theorem Expansion.text_append (first rest : Expansion) :
    (first.append rest).text = first.text.bind fun t => rest.text.map (t ++ ·) := by
  unfold append
  cases hrest : rest.text with
  | none => rw [hrest]; cases first.text <;> rfl
  | some t => cases first.text <;> rfl

theorem expand_text_eq_some_iff {ps : List (Piece (Option Text))} {out : Text} :
    (expand tree root chain current ps).text = some out ↔
      ∃ shown : List (Piece (Option Text) × Text), shown.map (·.1) = ps ∧
        (∀ e ∈ shown, (piece tree root chain current e.1).text = some e.2) ∧ out = shown.flatMap (·.2) := by
  induction ps generalizing out with
  | nil =>
    rw [expand]
    constructor
    · rintro h
      exact ⟨[], rfl, fun _ he => absurd he List.not_mem_nil, (Option.some.inj h).symm⟩
    · rintro ⟨shown, hnil, -, rfl⟩
      rw [List.map_eq_nil_iff.1 hnil]
      rfl
  | cons p ps ih =>
    simp only [expand_cons, Expansion.text_append, Option.bind_eq_some_iff, Option.map_eq_some_iff, ih]
    constructor
    · rintro ⟨t, ht, rest, ⟨shown, hps, hshown, rfl⟩, rfl⟩
      exact ⟨(p, t) :: shown, congrArg (p :: ·) hps, List.forall_mem_cons.2 ⟨ht, hshown⟩, rfl⟩
    · rintro ⟨shown, hps, hshown, rfl⟩
      obtain ⟨e, shown, rfl, rfl, rfl⟩ := List.map_eq_cons_iff.1 hps
      obtain ⟨he, hshown⟩ := List.forall_mem_cons.1 hshown
      exact ⟨e.2, he, _, ⟨shown, rfl, hshown, rfl⟩, rfl⟩

theorem expand_text_eq_none_iff {ps : List (Piece (Option Text))} :
    (expand tree root chain current ps).text = none ↔
      ∃ p ∈ ps, (piece tree root chain current p).text = none := by
  induction ps with
  | nil => simp [expand, Expansion.verbatim]
  | cons p ps ih =>
    rw [expand_cons, Expansion.text_append]
    cases hp : (piece tree root chain current p).text <;> simp [hp, ih]

theorem Shows.text_eq {p : Piece (Option Text)} {x : Text} (h : Shows tree root chain current p x) :
    (piece tree root chain current p).text = some x := by
  induction h with
  | char c => rfl
  | quoted source => rfl
  | outside htarget => rw [piece, directive_outside htarget]; rfl
  | circular htarget hc => rw [piece, directive_circular htarget hc]; rfl
  | @unreadable chain _ _ _ l _ htarget hr =>
    by_cases hc : l ∈ chain
    · rw [piece, directive_circular htarget hc]; rfl
    · rw [piece, directive_unreadable htarget hc hr]; rfl
  | file htarget hc hr hpieces _ ih =>
    rw [piece, directive_file htarget hc hr]
    exact expand_text_eq_some_iff.2 ⟨_, hpieces, ih, rfl⟩

theorem Shows.of_text {p : Piece (Option Text)} {x : Text}
    (h : (piece tree root chain current p).text = some x) : Shows tree root chain current p x := by
  induction chain, current, p using piece_induction tree root generalizing x with
  | char chain current c =>
    obtain rfl := Option.some.inj h
    exact .char c
  | quoted chain current source =>
    obtain rfl := Option.some.inj h
    exact .quoted source
  | nowhere chain current path source htarget =>
    rw [piece, directive_nowhere htarget] at h
    nomatch h
  | outside chain current path source htarget =>
    rw [piece, directive_outside htarget] at h
    obtain rfl := Option.some.inj h
    exact .outside htarget
  | circular chain current path source l htarget hc =>
    rw [piece, directive_circular htarget hc] at h
    obtain rfl := Option.some.inj h
    exact .circular htarget hc
  | unreadable chain current path source l f htarget hc hr =>
    rw [piece, directive_unreadable htarget hc hr] at h
    obtain rfl := Option.some.inj h
    exact .unreadable htarget hr
  | file chain current path source l t htarget hc hr ih =>
    rw [piece, directive_file htarget hc hr] at h
    obtain ⟨shown, hpieces, hshown, rfl⟩ := expand_text_eq_some_iff.1 h
    exact .file htarget hc hr hpieces fun e he => ih e.1 (hshown e he)

theorem shows_iff {p : Piece (Option Text)} {x : Text} :
    Shows tree root chain current p x ↔ (piece tree root chain current p).text = some x :=
  ⟨Shows.text_eq, Shows.of_text⟩

theorem strays_iff {p : Piece (Option Text)} :
    Strays tree root chain current p ↔ (piece tree root chain current p).text = none := by
  constructor
  · intro h
    induction h with
    | here htarget => rw [piece, directive_nowhere htarget]; rfl
    | inside htarget hc hr hp _ ih =>
      rw [piece, directive_file htarget hc hr]
      exact expand_text_eq_none_iff.2 ⟨_, hp, ih⟩
  · intro h
    induction chain, current, p using piece_induction tree root with
    | char chain current c => nomatch h
    | quoted chain current source => nomatch h
    | nowhere chain current path source htarget => exact .here htarget
    | outside chain current path source htarget =>
      rw [piece, directive_outside htarget] at h
      nomatch h
    | circular chain current path source l htarget hc =>
      rw [piece, directive_circular htarget hc] at h
      nomatch h
    | unreadable chain current path source l f htarget hc hr =>
      rw [piece, directive_unreadable htarget hc hr] at h
      nomatch h
    | file chain current path source l t htarget hc hr ih =>
      rw [piece, directive_file htarget hc hr] at h
      obtain ⟨p, hp, hnone⟩ := expand_text_eq_none_iff.1 h
      exact .inside htarget hc hr hp (ih p hnone)

theorem unfolds_iff {ps : List (Piece (Option Text))} {out : Text} :
    Unfolds tree root chain current ps out ↔ (expand tree root chain current ps).text = some out := by
  simp only [Unfolds, shows_iff, expand_text_eq_some_iff]

/-! The path of a file -/

/-- Where the path of a directive starts from. -/
def base (root : Location) (current path : Text) : Path :=
  if Path.isAbsolute path || current.isEmpty then root.path else (root.path.join current).parent

theorem target_eq (root : Location) (current path : Text) :
    target root current path =
      match ((base root current path).join (path.dropWhile (· == '/'))).location? with
      | none => .nowhere
      | some l => if root.isBelow l then .inside l else .outside := rfl

/-- A path starts from some of the way to the root and names below that. -/
theorem exists_base_segments (root : Location) (current path : Text) :
    ∃ above ss : Location, (base root current path).segments = above ++ ss ∧ above <+: root ∧ ss.Plain := by
  unfold base
  split
  · exact ⟨root, [], (List.append_nil root).symm, List.prefix_rfl, nofun⟩
  · have hlast : Location.Plain (Path.split current).dropLast := fun n hn =>
      Location.plain_split current n (List.dropLast_subset _ hn)
    unfold Path.join
    split
    · exact ⟨[], _, rfl, List.nil_prefix, hlast⟩
    · by_cases hsplit : Path.split current = []
      · exact ⟨root.dropLast, [], by simp [Path.parent, Location.path, hsplit], List.dropLast_prefix root, nofun⟩
      · exact ⟨root, _, List.dropLast_append_of_ne_nil hsplit, List.prefix_rfl, hlast⟩

theorem isAbsolute_dropWhile (t : Text) : Path.isAbsolute (t.dropWhile (· == '/')) = false := by
  induction t with
  | nil => rfl
  | cons c t ih =>
    rw [List.dropWhile_cons]
    split
    · exact ih
    · next hc =>
      have hne : '/' ≠ c := fun he => hc (by simp [← he])
      simp [Path.isAbsolute, after?, hne]

/-- A target lies below the root by names as paths have them. -/
theorem plain_of_target {l : Location} (h : target root current path = .inside l) :
    ∃ rest : Location, l = root ++ rest ∧ rest.Plain := by
  obtain ⟨hbelow, hup, -⟩ := target_eq_inside h
  obtain ⟨rest, rfl⟩ := Location.isBelow_iff.1 hbelow
  refine ⟨rest, rfl, ?_⟩
  obtain ⟨above, ss, hbase, ⟨left, hleft⟩, hss⟩ := exists_base_segments root current path
  have habove : upSegment ∉ above := fun hm => hup (by simp [← hleft, hm])
  have hplace : root ++ rest =
      (ss ++ Path.split (path.dropWhile (· == '/'))).foldl Path.step above := by
    rw [target_eq] at h
    split at h
    · cases h
    · next l hl =>
      split at h
      · obtain ⟨-, hl⟩ := Path.location?_eq_some_iff.1 hl
        rw [← Target.inside.inj h, ← hl, Path.join, isAbsolute_dropWhile, if_neg Bool.false_ne_true, Path.location,
          hbase, List.append_assoc, List.foldl_append, Path.foldl_step habove]
        rfl
      · cases h
  obtain ⟨k, down, hfold, hdown⟩ := Path.exists_foldl_step (ss ++ Path.split (path.dropWhile (· == '/'))) above
  rw [hfold] at hplace
  have hmem : ∀ n ∈ rest, n ∈ down := by
    obtain ⟨a, htake, rfl⟩ | ⟨a, -, rfl⟩ := List.append_eq_append_iff.1 hplace
    · -- What is kept of the way to the root is no longer than the root.
      have hlength := congrArg List.length htake
      simp only [← hleft, List.length_take, List.length_append] at hlength
      rw [List.length_eq_zero_iff.1 (show a.length = 0 by omega)]
      exact fun n hn => hn
    · exact fun n hn => List.mem_append_right a hn
  intro n hn
  obtain hn | hn := List.mem_append.1 (hdown n (hmem n hn))
  · exact hss n hn
  · exact Location.plain_split _ n hn

/-- The path of a file that was spliced in leads to it from the root. -/
theorem join_relative {l : Location} (h : target root current path = .inside l) :
    root.path.join (relative root l) = l.path := by
  obtain ⟨rest, rfl, hrest⟩ := plain_of_target h
  rw [relative, List.drop_left, hrest.join_relativeText]
  rfl

theorem location?_join_relative {l : Location} (h : target root current path = .inside l) :
    (root.path.join (relative root l)).location? = some l := by
  obtain ⟨-, hup, hname⟩ := target_eq_inside h
  rw [join_relative h]
  exact Path.location?_eq_some_iff.2 ⟨hname, Location.location_path hup⟩

theorem relative_ne_nil {l : Location} (h : target root current path = .inside l) : relative root l ≠ [] := by
  obtain ⟨rest, rfl, hrest⟩ := plain_of_target h
  rw [relative, List.drop_left]
  intro hnil
  have hsplit := hrest.split_relativeText
  rw [hnil] at hsplit
  obtain rfl : rest = [] := hsplit.symm.trans (by decide +kernel)
  nomatch hnil

theorem filterMap_settled? (hup : ∀ l ∈ chain, upSegment ∉ l) : (chain.map Location.path).filterMap settled? = chain := by
  induction chain with
  | nil => rfl
  | cons l chain ih =>
    obtain ⟨hl, hchain⟩ := List.forall_mem_cons.1 hup
    have hsettled : settled? l.path = some l := by simp [settled?, Location.location_path hl]
    rw [List.map_cons, List.filterMap_cons, hsettled, ih hchain]

/-- A directive whose file can be read comes to what the text of the file comes to by itself, resolved at
the path of the file while the same files are being included. -/
theorem shows_file_iff {l : Location} {t source x : Text} (htarget : target root current path = .inside l)
    (hc : l ∉ chain) (hr : tree.readText l = .ok t) (hup : ∀ l ∈ chain, upSegment ∉ l) :
    Shows tree root chain current (.tag (some path) source) x ↔
      (resolve tree root (relative root l) (chain.map Location.path) t).text = some x := by
  have hchain : chain? root (relative root l) (chain.map Location.path) = some (l :: chain) := by
    unfold chain?
    dsimp only
    rw [if_neg (mt List.isEmpty_iff.1 (relative_ne_nil htarget)), location?_join_relative htarget,
      filterMap_settled? hup]
    rfl
  rw [shows_iff, piece, directive_file htarget hc hr, resolve_eq, hchain]
  rfl

theorem isNameable_join_iff {base : Path} {t : Text} (ht : Path.isAbsolute t = false) :
    (base.join t).isNameable ↔ base.isNameable ∧ '\x00' ∉ t := by
  have hsplit : (∀ n ∈ Path.split t, '\x00' ∉ n) ↔ '\x00' ∉ t := by
    rw [mem_iff_mem_splitAt (c := '/') (by decide)]
    constructor
    · rintro h ⟨n, hn, hnul⟩
      refine h n (List.mem_filter.2 ⟨hn, ?_⟩) hnul
      have hdot : n ≠ ['.'] := fun he => absurd (he ▸ hnul) (by decide)
      simp [List.ne_nil_of_mem hnul, hdot]
    · exact fun h n hn hnul => h ⟨n, (List.mem_filter.1 hn).1, hnul⟩
  rw [Path.join, ht, if_neg Bool.false_ne_true]
  simp only [Path.isNameable, List.all_append, Bool.and_eq_true, List.all_eq_true, Bool.not_eq_true',
    List.contains_eq_mem, decide_eq_false_iff_not, hsplit]

/-- Where names can be names, only a NUL leads nowhere. -/
theorem target_eq_nowhere_iff (hroot : root.path.isNameable) (hcurrent : (root.path.join current).isNameable) :
    target root current path = .nowhere ↔ '\x00' ∈ path := by
  have hbase : (base root current path).isNameable := by
    unfold base
    split
    · exact hroot
    · exact List.all_eq_true.2 fun n hn => List.all_eq_true.1 hcurrent n (List.dropLast_subset _ hn)
  have hslashes : '\x00' ∉ path.takeWhile (· == '/') := fun hm =>
    absurd (List.all_eq_true.1 List.all_takeWhile _ hm) (by decide)
  calc target root current path = .nowhere
    _ ↔ ((base root current path).join (path.dropWhile (· == '/'))).location? = none := by
      rw [target_eq]
      split
      · next hl => simp [hl]
      · next l hl =>
        rw [hl]
        split <;> simp
    _ ↔ ¬((base root current path).join (path.dropWhile (· == '/'))).isNameable := by simp [Path.location?]
    _ ↔ '\x00' ∈ path.dropWhile (· == '/') := by simp [isNameable_join_iff (isAbsolute_dropWhile path), hbase]
    _ ↔ '\x00' ∈ path.takeWhile (· == '/') ++ path.dropWhile (· == '/') := by
      rw [List.mem_append, or_iff_right hslashes]
    _ ↔ '\x00' ∈ path := by rw [List.takeWhile_append_dropWhile]

/-- The text is put together from what the pieces come to, and there is none only if the path of the text or
one that is reached from it leads nowhere. What a directive comes to depends on its path, the file it stands
in and the files being included. -/
theorem resolve_unfolds (tree : FileTree) (root : Location) (current : Text) (visited : List Path)
    (content : Text) :
    (∀ out, (resolve tree root current visited content).text = some out ↔
      ∃ chain, chain? root current visited = some chain ∧
        Unfolds tree root chain current (Piece.scan read content) out) ∧
    ((resolve tree root current visited content).text = none ↔
      ∀ chain, chain? root current visited = some chain →
        ∃ p ∈ Piece.scan read content, Strays tree root chain current p) ∧
    ∀ chain current path source source' x y, Shows tree root chain current (.tag (some path) source) x →
      Shows tree root chain current (.tag (some path) source') y → x = y := by
  refine ⟨fun out => ?_, ?_, fun chain current path source source' x y hx hy => ?_⟩
  · rw [resolve_eq]
    simp only [unfolds_iff]
    cases chain? root current visited with
    | none => simp [Expansion.ended]
    | some chain => simp
  · rw [resolve_eq]
    simp only [strays_iff, ← expand_text_eq_none_iff]
    cases chain? root current visited with
    | none => simp [Expansion.ended]
    | some chain => simp
  · exact Option.some.inj (hx.text_eq.symm.trans hy.text_eq)

def letterTree : FileTree := ⟨[([text "a"], .file (Utf8.encode (text "A")))]⟩

theorem files_letterTree : (files letterTree []).length < 2 := by decide +kernel

/-- A file that is included twice is there twice. -/
theorem resolve_unfolds_letters : ∃ chain, chain? [] [] [] = some chain ∧
    Unfolds letterTree [] chain [] (Piece.scan read (text "[include a]-[include a]")) (text "A-A") := by
  have hwithin : (resolveWithin letterTree [] 2 [] [] (text "[include a]-[include a]")).map (·.text) =
      some (some (text "A-A")) := by decide +kernel
  rw [resolveWithin_eq files_letterTree] at hwithin
  exact ((resolve_unfolds letterTree [] [] [] (text "[include a]-[include a]")).1 _).1 (Option.some.inj hwithin)

/-- A file that is not there does the others no harm, but a path that leads nowhere does. -/
theorem resolve_ended :
    (resolve letterTree [] [] [] (text "[include a][include b]")).text = some (text "A") ∧
      (resolve letterTree [] [] [] (text "[include a][include \x00]")).text = none := by
  have hwithin : (resolveWithin letterTree [] 2 [] [] (text "[include a][include b]")).map (·.text) =
      some (some (text "A")) := by decide +kernel
  have hwithout : (resolveWithin letterTree [] 2 [] [] (text "[include a][include \x00]")).map (·.text) =
      some none := by decide +kernel
  rw [resolveWithin_eq files_letterTree] at hwithin hwithout
  exact ⟨Option.some.inj hwithin, Option.some.inj hwithout⟩

end PageTemplate.Include
