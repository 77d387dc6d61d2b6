import PageTemplate.Site.Tree
import PageTemplate.Proofs.Search
set_option autoImplicit false
/-!
Places in file trees. In a sound tree every entry lies in a directory and has names that files can have, so
that the way to anything that is there is open. Trees that agree at a place and below it then agree on what
any path into it meets, whatever else they hold; and if nothing is at the place, both find nothing below it.
-/
namespace PageTemplate

section Joining

variable {c : Char} {t : Text}

/-- Texts without the separator can be told apart again. -/
theorem splitAt_joinWith {ls : List Text} (hne : ls ≠ []) (h : ∀ l ∈ ls, c ∉ l) :
    splitAt [c] (joinWith [c] ls) = ls := by
  induction ls with
  | nil => exact absurd rfl hne
  | cons l ls ih =>
    obtain ⟨hl, hls⟩ := List.forall_mem_cons.1 h
    cases ls with
    | nil => exact splitAt_of_none (cut?_eq_none hl)
    | cons l' ls =>
      have hcut : cut? [c] (l ++ [c] ++ joinWith [c] (l' :: ls)) = some (l, joinWith [c] (l' :: ls)) := by
        rw [List.append_assoc]
        exact cut?_append hl _
      rw [joinWith, splitAt_of_cut? (by simp) hcut, ih (by simp) hls]

theorem notMem_of_mem_splitAt {s : Text} (h : s ∈ splitAt [c] t) : c ∉ s := by
  fun_induction splitAt [c] t with
  | case1 hay hcut =>
    rw [List.mem_singleton.1 h, ← cut?_isSome_iff, hcut]
    exact Bool.false_ne_true
  | case2 hay before rest hcut _ ih => exact (List.mem_cons.1 h).elim (· ▸ notMem_of_cut? hcut) ih
  | case3 hay before rest hcut hlength => exact absurd Nat.zero_lt_one hlength

/-- Splitting loses no other character. -/
theorem mem_iff_mem_splitAt {d : Char} (hd : d ≠ c) : d ∈ t ↔ ∃ s ∈ splitAt [c] t, d ∈ s := by
  fun_induction splitAt [c] t with
  | case1 hay hcut => simp
  | case2 hay before rest hcut _ ih =>
    rw [cut?_eq_some hcut]
    simp [hd, ih]
  | case3 hay before rest hcut hlength => simp

theorem joinWith_cons (separator t : Text) (ts : List Text) : ∃ rest, joinWith separator (t :: ts) = t ++ rest := by
  cases ts with
  | nil => exact ⟨[], (List.append_nil t).symm⟩
  | cons u us => exact ⟨separator ++ joinWith separator (u :: us), List.append_assoc ..⟩

end Joining

namespace Path

/-- The names of a place are segments of the path. -/
theorem forall_mem_location {P : Text → Prop} {p : Path} (h : ∀ s ∈ p.segments, s ≠ upSegment → P s) :
    ∀ s ∈ p.location, P s := by
  have hfold : ∀ (ss : List Text) (here : Location), (∀ s ∈ ss, s ≠ upSegment → P s) → (∀ s ∈ here, P s) →
      ∀ s ∈ ss.foldl step here, P s := by
    intro ss
    induction ss with
    | nil => exact fun here _ h => h
    | cons s ss ih =>
      intro here hss hhere
      obtain ⟨hs, hss⟩ := List.forall_mem_cons.1 hss
      refine ih _ hss fun n hn => ?_
      unfold step at hn
      split at hn
      · exact hhere n (List.dropLast_subset _ hn)
      · next hup =>
        rcases List.mem_append.1 hn with hn | hn
        · exact hhere n hn
        · exact List.mem_singleton.1 hn ▸ hs hup
  exact hfold p.segments [] h (by simp)

/-- Segments climb for a while from where they start, and the rest of the place is made of them. -/
theorem exists_foldl_step (ss : List Text) (here : Location) :
    ∃ (k : Nat) (down : Location), ss.foldl step here = here.take k ++ down ∧ ∀ n ∈ down, n ∈ ss := by
  induction ss generalizing here with
  | nil => exact ⟨here.length, [], by simp, nofun⟩
  | cons s ss ih =>
    obtain ⟨k, down, hfold, hdown⟩ := ih (step here s)
    rw [List.foldl_cons, hfold]
    unfold step
    split
    · refine ⟨min k (here.length - 1), down, ?_, fun n hn => List.mem_cons_of_mem s (hdown n hn)⟩
      rw [List.dropLast_eq_take, List.take_take]
    · refine ⟨k, [s].take (k - here.length) ++ down, ?_, fun n hn => ?_⟩
      · rw [List.take_append, List.append_assoc]
      · rcases List.mem_append.1 hn with hn | hn
        · exact List.mem_cons.2 (.inl (List.mem_singleton.1 (List.mem_of_mem_take hn)))
        · exact List.mem_cons_of_mem s (hdown n hn)

/-- A place shows no step upwards. -/
theorem upSegment_notMem_location (p : Path) : upSegment ∉ p.location := fun hm =>
  forall_mem_location (P := (· ≠ upSegment)) (fun _ _ hs => hs) _ hm rfl

theorem isNameable_location {p : Path} (h : p.isNameable) : p.location.path.isNameable := by
  simp only [isNameable, List.all_eq_true] at h ⊢
  exact forall_mem_location fun s hs _ => h s hs

theorem location?_eq_some_iff {p : Path} {l : Location} :
    p.location? = some l ↔ p.isNameable ∧ p.location = l := by
  unfold location?
  split <;> simp_all

theorem step_of_ne {here : Location} {s : Text} (h : upSegment ≠ s) : step here s = here ++ [s] := if_neg h.symm

/-- Names lead straight down. -/
theorem foldl_step {ss : List Text} (h : upSegment ∉ ss) (here : Location) : ss.foldl step here = here ++ ss := by
  induction ss generalizing here with
  | nil => simp
  | cons s ss ih =>
    obtain ⟨hs, hss⟩ := List.ne_and_not_mem_of_not_mem_cons h
    rw [List.foldl_cons, step_of_ne hs, ih hss]
    simp

end Path

namespace Location

theorem location_path {l : Location} (h : upSegment ∉ l) : l.path.location = l := Path.foldl_step h []

theorem isBelow_iff {root l : Location} : root.isBelow l ↔ ∃ rest, l = root ++ rest := by
  simp only [isBelow, Option.isSome_iff_exists, below?_eq_some_iff]

theorem isBelow_self (l : Location) : l.isBelow l := isBelow_iff.2 ⟨[], (List.append_nil l).symm⟩

theorem isBelow_append (l rest : Location) : l.isBelow (l ++ rest) := isBelow_iff.2 ⟨rest, rfl⟩

/-- Are names such as the segments of a path? -/
def Plain (l : Location) : Prop := ∀ n ∈ l, n ≠ [] ∧ n ≠ ['.'] ∧ '/' ∉ n

theorem plain_split (t : Text) : Plain (Path.split t) := by
  intro n hn
  obtain ⟨hn, hkeep⟩ := List.mem_filter.1 hn
  simp only [Bool.and_eq_true, Bool.not_eq_true', List.isEmpty_eq_false_iff, bne_iff_ne] at hkeep
  exact ⟨hkeep.1, hkeep.2, notMem_of_mem_splitAt hn⟩

namespace Plain

variable {l : Location} (h : l.Plain)

include h

theorem split_relativeText : Path.split l.relativeText = l := by
  unfold relativeText
  split
  · next he => rw [List.isEmpty_iff.1 he]; decide +kernel
  · next hne =>
    rw [List.isEmpty_iff] at hne
    rw [Path.split, splitAt_joinWith hne fun n hn => (h n hn).2.2]
    refine List.filter_eq_self.2 fun n hn => ?_
    simp [h n hn]

theorem isAbsolute_relativeText : Path.isAbsolute l.relativeText = false := by
  cases l with
  | nil => rfl
  | cons n ns =>
    obtain ⟨hn, -, hslash⟩ := h n List.mem_cons_self
    obtain ⟨rest, hrest⟩ := joinWith_cons ['/'] n ns
    cases n with
    | nil => exact absurd rfl hn
    | cons c cs =>
      have hc : '/' ≠ c := (List.ne_and_not_mem_of_not_mem_cons hslash).1
      simp [relativeText, Path.isAbsolute, hrest, after?, hc]

/-- The text of a place leads to it. -/
theorem join_relativeText (base : Path) :
    base.join l.relativeText = { base with segments := base.segments ++ l } := by
  rw [Path.join, h.isAbsolute_relativeText, h.split_relativeText]
  rfl

end Plain

/-- A name that a file can have. -/
def isName (n : Text) : Bool :=
  !n.isEmpty && n != ['.'] && n != upSegment && !n.contains '/' && !n.contains '\x00' &&
    decide ((Utf8.encode n).length ≤ FileTree.nameLimit)

/-- A place that files can be at. -/
def Proper (l : Location) : Prop := ∀ n ∈ l, isName n

instance (l : Location) : Decidable l.Proper := inferInstanceAs (Decidable (∀ n ∈ l, isName n))

namespace Proper

theorem of_append {l rest : Location} (h : Proper (l ++ rest)) : Proper rest :=
  fun n hn => h n (List.mem_append_right l hn)

variable {l : Location} (h : l.Proper)

include h

theorem notMem_up : upSegment ∉ l := fun hm => absurd (h _ hm) (by decide)

theorem length_le {n : Text} (hn : n ∈ l) : (Utf8.encode n).length ≤ FileTree.nameLimit := by
  have hname := h n hn
  simp only [isName, Bool.and_eq_true, decide_eq_true_eq] at hname
  exact hname.2

theorem plain : l.Plain := by
  intro n hn
  have hname := h n hn
  simp only [isName, Bool.and_eq_true, bne_iff_ne, Bool.not_eq_true', List.isEmpty_eq_false_iff,
    List.contains_eq_mem, decide_eq_false_iff_not] at hname
  exact ⟨hname.1.1.1.1.1, hname.1.1.1.1.2, hname.1.1.2⟩

theorem location_join_relativeText (base : Path) : (base.join l.relativeText).location = base.location ++ l := by
  rw [h.plain.join_relativeText, Path.location, List.foldl_append]
  exact Path.foldl_step h.notMem_up _

end Proper

end Location

namespace FileTree

/-- Every entry has a proper place, in a directory. -/
def Sound (t : FileTree) : Prop := ∀ e ∈ t.entries, e.1.Proper ∧ t.isDirectory e.1.dropLast

instance (t : FileTree) : Decidable t.Sound :=
  inferInstanceAs (Decidable (∀ e ∈ t.entries, e.1.Proper ∧ t.isDirectory e.1.dropLast))

variable {t t' : FileTree}

theorem isDirectory_iff {l : Location} : t.isDirectory l ↔ t.find? l = some .directory := by
  unfold isDirectory
  cases h : t.find? l with
  | none => simp
  | some n => cases n <;> simp [Node.isDirectory]

theorem mem_of_find? {l : Location} {n : Node} (h : t.find? l = some n) (hl : l ≠ []) : (l, n) ∈ t.entries := by
  rw [find?, if_neg (by simpa using hl)] at h
  obtain ⟨before, after, hsplit, -⟩ := List.lookup_eq_some_iff.1 h
  simp [hsplit]

namespace Sound

variable (hs : t.Sound)

include hs

theorem directory_above {l : Location} {name : Text} (h : t.find? (l ++ [name]) ≠ none) :
    t.find? l = some .directory := by
  obtain ⟨n, hn⟩ := Option.ne_none_iff_exists'.1 h
  have hlies := (hs _ (mem_of_find? hn (by simp))).2
  rw [List.dropLast_concat] at hlies
  exact isDirectory_iff.1 hlies

/-- Nothing lies below a place where nothing is. -/
theorem find?_append_eq_none {l : Location} (h : t.find? l = none) (rest : Location) :
    t.find? (l ++ rest) = none := by
  induction rest generalizing l with
  | nil => simpa using h
  | cons name rest ih =>
    have hnext : t.find? (l ++ [name]) = none := by
      refine Decidable.byContradiction fun hn => ?_
      rw [hs.directory_above hn] at h
      nomatch h
    simpa using ih hnext

end Sound

/-! Walks -/

theorem walk_append (here : Location) (ss rest : List Text) :
    t.walk here (ss ++ rest) = (t.walk here ss).bind fun l => t.walk l rest := by
  induction ss generalizing here with
  | nil => rfl
  | cons s ss ih =>
    simp only [List.cons_append, walk]
    split
    · split
      · rfl
      · exact ih _
    · rfl
    · rfl

/-- A walk ends where its steps lead. -/
theorem walk_eq_ok {here l : Location} {ss : List Text} (h : t.walk here ss = .ok l) : ss.foldl Path.step here = l := by
  induction ss generalizing here with
  | nil => exact Except.ok.inj h
  | cons s ss ih =>
    rw [walk] at h
    split at h
    · split at h
      · nomatch h
      · exact ih h
    · nomatch h
    · nomatch h

theorem place_eq_ok {p : Path} {l : Location} (h : t.place p = .ok l) : p.location = l := by
  unfold place at h
  split at h
  · nomatch h
  · split at h
    · nomatch h
    · exact walk_eq_ok h

theorem walk_ne_tooLong {ss : List Text} (h : ∀ n ∈ ss, (Utf8.encode n).length ≤ nameLimit) (here : Location) :
    t.walk here ss ≠ .error .tooLong := by
  induction ss generalizing here with
  | nil => simp [walk]
  | cons s ss ih =>
    obtain ⟨hs, hss⟩ := List.forall_mem_cons.1 h
    rw [walk]
    split
    · rw [if_neg (Nat.not_lt.2 hs)]
      exact ih hss _
    · simp
    · simp

/-- In a sound tree the way to what is there is open. -/
theorem Sound.walk_of_find? (hs : t.Sound) {l : Location} (hl : l.Proper) (h : t.find? l ≠ none) :
    t.walk [] l = .ok l := by
  have hwalk : ∀ rest here, here ++ rest = l → t.walk here rest = .ok l := by
    intro rest
    induction rest with
    | nil => exact fun here hh => by rw [walk, ← hh, List.append_nil]
    | cons name rest ih =>
      intro here hh
      have hproper : Location.Proper (name :: rest) := Location.Proper.of_append (hh ▸ hl)
      have hnext : t.find? (here ++ [name]) ≠ none := by
        refine fun hn => h ?_
        rw [← hh, ← List.singleton_append, ← List.append_assoc]
        exact hs.find?_append_eq_none hn rest
      have hup : upSegment ≠ name := fun he => hproper.notMem_up (he ▸ List.mem_cons_self)
      rw [walk, hs.directory_above hnext]
      dsimp only
      rw [if_neg (Nat.not_lt.2 (hproper.length_le List.mem_cons_self)), Path.step_of_ne hup]
      exact ih _ (by simpa using hh)
  exact hwalk l [] rfl

/-! Agreement -/

/-- The same at a place and below it. -/
def AgreeBelow (root : Location) (t t' : FileTree) : Prop := ∀ l, root.isBelow l → t.find? l = t'.find? l

/-- What a path into the place meets is the same. -/
structure AlikeBelow (root : Location) (t t' : FileTree) : Prop where
  find : AgreeBelow root t t'
  place : ∀ l, root.isBelow l → upSegment ∉ l → t.place l.path = t'.place l.path

theorem lookup_filter {α β : Type} [BEq α] [LawfulBEq α] {p : α → Bool} {k : α} (hk : p k) (es : List (α × β)) :
    (es.filter fun e => p e.1).lookup k = es.lookup k := by
  induction es with
  | nil => rfl
  | cons e es ih =>
    rw [List.lookup_cons, List.filter_cons]
    split
    · rw [List.lookup_cons, ih]
    · next hp =>
      rw [ih]
      split
      · next he => exact absurd hk (eq_of_beq he ▸ hp)
      · rfl

/-- Trees with the same entries from a place on agree there. -/
theorem agreeBelow_of_entries {root : Location}
    (h : (t.entries.filter fun e => root.isBelow e.1) = t'.entries.filter fun e => root.isBelow e.1) :
    AgreeBelow root t t' := by
  intro l hl
  unfold find?
  rw [← lookup_filter hl t.entries, h, lookup_filter hl]

theorem AgreeBelow.walk {root : Location} (h : AgreeBelow root t t') {here : Location} (hhere : root.isBelow here)
    {ss : List Text} (hss : upSegment ∉ ss) : t.walk here ss = t'.walk here ss := by
  induction ss generalizing here with
  | nil => rfl
  | cons s ss ih =>
    obtain ⟨hs, hss⟩ := List.ne_and_not_mem_of_not_mem_cons hss
    obtain ⟨rest, rfl⟩ := Location.isBelow_iff.1 hhere
    simp only [FileTree.walk, h _ hhere, Path.step_of_ne hs, List.append_assoc]
    rw [ih (Location.isBelow_append root _) hss]

/-- Sound trees that agree below something that is there look alike from there. -/
theorem AgreeBelow.alike {root : Location} (h : AgreeBelow root t t') (hs : t.Sound) (hs' : t'.Sound)
    (hroot : root.Proper) (hthere : t.find? root ≠ none) : AlikeBelow root t t' := by
  refine ⟨h, fun l hl hup => ?_⟩
  obtain ⟨rest, rfl⟩ := Location.isBelow_iff.1 hl
  have hthere' : t'.find? root ≠ none := h root root.isBelow_self ▸ hthere
  have hwalk : t.walk [] (root ++ rest) = t'.walk [] (root ++ rest) := by
    rw [walk_append, walk_append, hs.walk_of_find? hroot hthere, hs'.walk_of_find? hroot hthere']
    exact h.walk root.isBelow_self fun hm => hup (List.mem_append_right _ hm)
  unfold FileTree.place
  rw [show (Location.path (root ++ rest)).segments = root ++ rest from rfl, hwalk]

namespace AlikeBelow

variable {root l : Location} (h : AlikeBelow root t t') (hl : root.isBelow l) (hup : upSegment ∉ l)

include h hl hup

theorem readText : t.readText l = t'.readText l := by
  simp only [FileTree.readText, h.place l hl hup, h.find l hl]

theorem hasFile : t.hasFile l.path = t'.hasFile l.path := by
  unfold FileTree.hasFile probe
  rw [h.place l hl hup]
  split
  · next here hplace =>
    rw [← place_eq_ok hplace, Location.location_path hup, h.find l hl]
  · rfl
  · rfl

end AlikeBelow

/-- Below a place where nothing is there are no files. A path may be too long to look for all the same. -/
theorem Sound.hasFile_of_absent (hs : t.Sound) {root : Location} (hroot : root.Proper) (h : t.find? root = none)
    {l : Location} (hl : root.isBelow l) (hup : upSegment ∉ l) (hname : l.path.isNameable) :
    t.hasFile l.path =
      if pathLimit < (Utf8.encode l.path.toText).length then .error .tooLong else .ok false := by
  obtain ⟨rest, rfl⟩ := Location.isBelow_iff.1 hl
  have hshort : t.walk [] (root ++ rest) ≠ .error .tooLong := by
    rw [walk_append]
    cases hw : t.walk [] root with
    | error f => exact fun he => walk_ne_tooLong (fun n hn => hroot.length_le hn) [] (hw.trans he)
    | ok here =>
      have hhere : root = here := by simpa [Path.foldl_step hroot.notMem_up] using walk_eq_ok hw
      subst hhere
      cases rest with
      | nil => simp [Except.bind, walk]
      | cons s ss => simp [Except.bind, walk, h]
  have hnone : t.find? (root ++ rest) = none := hs.find?_append_eq_none h rest
  unfold hasFile probe place
  rw [hname, show (Location.path (root ++ rest)).segments = root ++ rest from rfl]
  simp only [Bool.not_true, Bool.false_eq_true, if_false]
  by_cases hlong : pathLimit < (Utf8.encode (Location.path (root ++ rest)).toText).length
  · simp only [hlong, if_true]
    rfl
  · simp only [hlong, if_false]
    cases hw : t.walk [] (root ++ rest) with
    | ok here =>
      rw [← walk_eq_ok hw, Path.foldl_step hup, List.nil_append]
      dsimp only
      rw [hnone]
      rfl
    | error f =>
      cases f with
      | tooLong => exact absurd hw hshort
      | _ => rfl

end FileTree

end PageTemplate
