import PageTemplate.Proofs.Action
import PageTemplate.Proofs.Place
set_option autoImplicit false
/-!
What saving a file does to the files of a tree. The file is there afterwards and every other one is as it
was; if the saving fails all of them are. Directories may appear on the way in both cases.
-/
namespace PageTemplate

variable {t : FileTree} {l : Location}

namespace FileTree

/-- The file at a place. -/
def fileAt? (t : FileTree) (l : Location) : Option Node := (t.find? l).filter Node.isFile

section Lookup

variable {α β : Type} [BEq α] [LawfulBEq α] [DecidableEq α] (k : α) (v : β) (es : List (α × β)) (k' : α)

theorem lookup_cons_eq (e : α × β) : (e :: es).lookup k' = if k' = e.1 then some e.2 else es.lookup k' := by
  rw [List.lookup_cons]
  by_cases h : k' = e.1
  · rw [if_pos h, beq_iff_eq.2 h]
  · rw [if_neg h, beq_eq_false_iff_ne.2 h]

theorem lookup_replace : (es.map fun e => if e.1 = k then (k, v) else e).lookup k' =
    (es.lookup k').map fun old => if k' = k then v else old := by
  induction es with
  | nil => rfl
  | cons e es ih =>
    rw [List.map_cons, lookup_cons_eq, lookup_cons_eq, ih]
    by_cases he : e.1 = k
    · subst he
      by_cases hk : k' = e.1 <;> simp [hk]
    · by_cases hk : k' = e.1
      · simp [he, hk]
      · simp [he, hk]

theorem lookup_concat : (es ++ [(k, v)]).lookup k' = (es.lookup k').or (if k' = k then some v else none) := by
  rw [List.lookup_append, lookup_cons_eq]
  rfl

theorem any_key : es.any (·.1 == k) = (es.lookup k).isSome := by
  induction es with
  | nil => rfl
  | cons e es ih =>
    rw [List.any_cons, lookup_cons_eq, ih]
    by_cases he : k = e.1
    · simp [he]
    · simp [he, Ne.symm he]

end Lookup

theorem find?_put (hl : l ≠ []) (n : Node) (l' : Location) :
    (t.put l n).find? l' = if l' = l then some n else t.find? l' := by
  unfold find? put
  by_cases hroot : l' = []
  · subst hroot
    simp [hl.symm]
  · simp only [List.isEmpty_iff, hroot, if_false]
    split
    · next h =>
      rw [any_key] at h
      obtain ⟨old, hold⟩ := Option.isSome_iff_exists.1 h
      rw [lookup_replace]
      by_cases hk : l' = l
      · simp [hk, hold]
      · simp [hk]
    · next h =>
      rw [any_key, Bool.not_eq_true, Option.isSome_eq_false_iff, Option.isNone_iff_eq_none] at h
      rw [lookup_concat]
      by_cases hk : l' = l
      · simp [hk, h]
      · simp [hk]

/-- The files of a tree are those of another one. -/
structure SameFiles (t' t : FileTree) : Prop where
  fileAt? : ∀ l, t'.fileAt? l = t.fileAt? l
  entries : ∀ e ∈ t'.entries, e.2.isFile → e ∈ t.entries

theorem SameFiles.refl (t : FileTree) : t.SameFiles t := ⟨fun _ => rfl, fun _ h _ => h⟩

theorem SameFiles.trans {t₁ t₂ t₃ : FileTree} (h : t₁.SameFiles t₂) (h' : t₂.SameFiles t₃) :
    t₁.SameFiles t₃ :=
  ⟨fun l => (h.fileAt? l).trans (h'.fileAt? l), fun e he hf => h'.entries e (h.entries e he hf) hf⟩

/-- A directory where nothing was hides no file. -/
theorem sameFiles_put_directory (h : t.find? l = none) : (t.put l .directory).SameFiles t := by
  have hl : l ≠ [] := fun he => by simp [he, find?] at h
  refine ⟨fun l' => ?_, fun e he hfile => ?_⟩
  · unfold FileTree.fileAt?
    rw [find?_put hl]
    split
    · next hsame => rw [hsame, h]; rfl
    · rfl
  · rw [find?, if_neg (by simpa using hl)] at h
    rw [put, any_key, h] at he
    rcases List.mem_append.1 he with he | he
    · exact he
    · obtain rfl := List.mem_singleton.1 he
      exact Bool.noConfusion hfile

theorem fileAt?_put_file (hl : l ≠ []) {n : Node} (hn : n.isFile) (l' : Location) :
    (t.put l n).fileAt? l' = if l' = l then some n else t.fileAt? l' := by
  unfold fileAt?
  rw [find?_put hl]
  split
  · simp [hn]
  · rfl

end FileTree

namespace FileAction

variable {α β : Type}

/-- Does an action leave every file as it was, whether or not it fails? -/
def KeepsFiles (a : FileAction α) : Prop := ∀ t, (a.runOn t).2.SameFiles t

theorem keepsFiles_pure (a : α) : KeepsFiles (pure a) := .refl

theorem keepsFiles_throw (f : FileFailure) : KeepsFiles (throw f : FileAction α) := .refl

theorem keepsFiles_inspect (f : FileTree → Except FileFailure α) : KeepsFiles (inspect f) := fun t => by
  rw [runOn_inspect]
  exact .refl t

theorem KeepsFiles.bind {a : FileAction α} {f : α → FileAction β} (ha : KeepsFiles a)
    (hf : ∀ x, KeepsFiles (f x)) :
    KeepsFiles (a >>= f) := by
  intro t
  have hfirst := ha t
  rw [runOn_bind]
  rcases hrun : a.runOn t with ⟨_ | x, t'⟩ <;> rw [hrun] at hfirst
  · exact hfirst
  · exact (hf x t').trans hfirst

theorem KeepsFiles.tryCatch {a : FileAction α} {handle : FileFailure → FileAction α} (ha : KeepsFiles a)
    (hh : ∀ f, KeepsFiles (handle f)) : KeepsFiles (tryCatch a handle) := by
  intro t
  have hfirst := ha t
  rw [runOn_tryCatch]
  rcases hrun : a.runOn t with ⟨f | x, t'⟩ <;> rw [hrun] at hfirst
  · exact (hh f t').trans hfirst
  · exact hfirst

theorem keepsFiles_makeDirectory (p : Path) : KeepsFiles (makeDirectory p) := by
  unfold makeDirectory
  refine (keepsFiles_inspect _).bind fun l t => ?_
  rw [runOn_bind, runOn_get]
  dsimp only
  split
  · exact .refl t
  · next h => exact FileTree.sameFiles_put_directory (by simpa using h)

theorem keepsFiles_ensureDirectory (p : Path) : KeepsFiles (ensureDirectory p) := by
  unfold ensureDirectory
  refine (keepsFiles_makeDirectory p).tryCatch fun f => (keepsFiles_inspect _).bind fun there => ?_
  split
  · exact keepsFiles_throw f
  · exact keepsFiles_pure ()

theorem keepsFiles_makeDirectories (p : Path) : KeepsFiles (makeDirectories p) := by
  induction hn : p.segments.length using Nat.strongRecOn generalizing p with
  | ind n ih =>
    rw [makeDirectories]
    refine (keepsFiles_ensureDirectory p).tryCatch fun f => ?_
    split
    · next h =>
      have hshorter : p.parent.segments.length < n := by
        have := List.length_pos_iff.2 h.2
        simp only [Path.parent, List.length_dropLast]
        omega
      exact (ih _ hshorter p.parent rfl).bind fun _ => keepsFiles_ensureDirectory p
    · exact keepsFiles_throw f

theorem runOn_writeFile (p : Path) (n : Node) (t : FileTree) :
    (writeFile p n).runOn t =
      match t.place p with
      | .error f => (.error f, t)
      | .ok l => if t.isDirectory l then (.error .directory, t) else (.ok (), t.put l n) := by
  rw [writeFile, runOn_bind, runOn_inspect]
  cases t.place p with
  | error f => rfl
  | ok l =>
    simp only [runOn_bind, runOn_get]
    split <;> rfl

/-- A file that was written is at the place of its path, and the others are as they were. -/
theorem runOn_writeFile_ok {p : Path} {n : Node} (hn : n.isFile) {t' : FileTree}
    (h : (writeFile p n).runOn t = (.ok (), t')) :
    p.isNameable ∧ ∀ l, t'.fileAt? l = if l = p.location then some n else t.fileAt? l := by
  rw [runOn_writeFile] at h
  split at h
  · nomatch h
  · next l hplace =>
    obtain rfl := FileTree.place_eq_ok hplace
    split at h
    · nomatch h
    · next hdir =>
      obtain rfl := (Prod.mk.inj h).2
      have hl : p.location ≠ [] := fun he => hdir (by rw [he]; rfl)
      refine ⟨?_, FileTree.fileAt?_put_file hl hn⟩
      unfold FileTree.place at hplace
      split at hplace
      · nomatch hplace
      · next hname => simpa using hname

/-- A file that cannot be written leaves the tree as it was. -/
theorem runOn_writeFile_error {p : Path} {n : Node} {f : FileFailure} {t' : FileTree}
    (h : (writeFile p n).runOn t = (.error f, t')) : t' = t := by
  rw [runOn_writeFile] at h
  split at h
  · exact (Prod.mk.inj h).2.symm
  · split at h
    · exact (Prod.mk.inj h).2.symm
    · nomatch h

theorem runOn_save_ok {p : Path} {n : Node} (hn : n.isFile) {t' : FileTree} (h : (save p n).runOn t = (.ok (), t')) :
    p.isNameable ∧ ∀ l, t'.fileAt? l = if l = p.location then some n else t.fileAt? l := by
  rw [save, runOn_bind] at h
  have hkeep := (keepsFiles_makeDirectories p.parent t).fileAt?
  rcases hrun : (makeDirectories p.parent).runOn t with ⟨_ | _, t₁⟩ <;> rw [hrun] at h hkeep
  · nomatch h
  · simpa only [hkeep] using runOn_writeFile_ok hn h

/-- A file that cannot be saved leaves all files as they were; directories may have been made for it. -/
theorem runOn_save_error {p : Path} {n : Node} {f : FileFailure} {t' : FileTree}
    (h : (save p n).runOn t = (.error f, t')) (l : Location) : t'.fileAt? l = t.fileAt? l := by
  rw [save, runOn_bind] at h
  have hkeep := (keepsFiles_makeDirectories p.parent t).fileAt?
  rcases hrun : (makeDirectories p.parent).runOn t with ⟨_ | _, t₁⟩ <;> rw [hrun] at h hkeep
  · exact (Prod.mk.inj h).2 ▸ hkeep l
  · exact runOn_writeFile_error h ▸ hkeep l

end FileAction

end PageTemplate
