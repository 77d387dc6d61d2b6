import Mathlib.Data.List.DropRight
import PageTemplate.Text.Blank
set_option autoImplicit false
/-!
White space at the ends of a text, and the text without it.
-/
namespace PageTemplate

theorem blankRun_append_skipBlanks (t : Text) : blankRun t ++ skipBlanks t = t :=
  List.takeWhile_append_dropWhile

theorem skipBlanks_suffix (x : Text) : skipBlanks x <:+ x := List.dropWhile_suffix _

theorem mem_of_mem_skipBlanks {c : Char} {t : Text} (h : c ∈ skipBlanks t) : c ∈ t :=
  (skipBlanks_suffix t).subset h

theorem skipBlanks_append {x : Text} (h : x.all isBlank) (y : Text) : skipBlanks (x ++ y) = skipBlanks y :=
  List.dropWhile_append_of_pos (List.all_eq_true.1 h)

theorem skipBlanks_cons {c : Char} (h : isBlank c = false) (y : Text) : skipBlanks (c :: y) = c :: y :=
  List.dropWhile_cons_of_neg (by simp [h])

theorem notMem_of_blank {t : Text} {c : Char} (h : t.all isBlank) (hc : isBlank c = false) : c ∉ t := fun hm => by
  rw [List.all_eq_true.1 h c hm] at hc
  cases hc

theorem dropEndWhile_ne_nil {p : Char → Bool} {y : Text} (h : ¬ y.all p) : dropEndWhile p y ≠ [] := by
  intro hnil
  have htake := List.takeWhile_append_dropWhile (p := p) (l := y.reverse)
  rw [dropEndWhile, List.reverse_eq_nil_iff] at hnil
  rw [hnil, List.append_nil] at htake
  have hall := List.all_takeWhile (p := p) (l := y.reverse)
  rw [htake, List.all_reverse] at hall
  exact h hall

theorem dropEndWhile_append {p : Char → Bool} {y : Text} (h : ¬ y.all p) (x : Text) :
    dropEndWhile p (x ++ y) = x ++ dropEndWhile p y := by
  have hne := dropEndWhile_ne_nil h
  rw [dropEndWhile, ne_eq, List.reverse_eq_nil_iff] at hne
  rw [dropEndWhile, List.reverse_append, List.dropWhile_append, if_neg (by simpa using hne)]
  simp [dropEndWhile]

theorem dropEndWhile_append_of_all {p : Char → Bool} {y : Text} (h : y.all p) (x : Text) :
    dropEndWhile p (x ++ y) = dropEndWhile p x := by
  rw [← List.all_reverse, List.all_eq_true] at h
  rw [dropEndWhile, List.reverse_append, List.dropWhile_append_of_pos h, dropEndWhile]

theorem dropEndWhile_append_cons {p : Char → Bool} {c : Char} (hc : p c = false) (x y : Text) :
    dropEndWhile p (x ++ c :: y) = x ++ c :: dropEndWhile p y := by
  by_cases hy : y.all p
  · have hnil : dropEndWhile p y = [] := by
      simpa [dropEndWhile, List.dropWhile_eq_nil_iff] using hy
    rw [← List.singleton_append, ← List.append_assoc, dropEndWhile_append_of_all hy, hnil, dropEndWhile,
      List.reverse_append]
    simp [hc]
  · rw [← List.singleton_append, ← List.append_assoc, dropEndWhile_append hy, List.append_assoc,
      List.singleton_append]

theorem trim_append {x : Text} (h : x.all isBlank) (y : Text) : trim (x ++ y) = trim y := by
  rw [trim, skipBlanks_append h, trim]

theorem trim_skipBlanks (x : Text) : trim (skipBlanks x) = trim x := by
  induction x with
  | nil => rfl
  | cons c cs ih =>
    by_cases hc : isBlank c
    · have hone : [c].all isBlank := by simp [hc]
      have hskip : skipBlanks (c :: cs) = skipBlanks cs := skipBlanks_append hone cs
      have htrim : trim (c :: cs) = trim cs := trim_append hone cs
      rw [hskip, ih, htrim]
    · rw [skipBlanks_cons (by simpa using hc)]

theorem trim_ne_nil {x : Text} (h : ¬ x.all isBlank) : trim x ≠ [] := by
  refine dropEndWhile_ne_nil fun hall => h ?_
  rw [← blankRun_append_skipBlanks x, List.all_append, hall, Bool.and_true]
  exact List.all_takeWhile

theorem trim_isPrefix (t : Text) : trim t <+: skipBlanks t := List.rdropWhile_prefix ..

theorem mem_of_mem_trim {c : Char} {t : Text} (h : c ∈ trim t) : c ∈ t :=
  mem_of_mem_skipBlanks ((trim_isPrefix t).subset h)

theorem skipBlanks_trim (t : Text) : skipBlanks (trim t) = trim t := by
  obtain ⟨rest, hrest⟩ := trim_isPrefix t
  cases htrim : trim t with
  | nil => rfl
  | cons c cs =>
    have hhead := List.head?_dropWhile_not isBlank t
    rw [htrim] at hrest
    rw [← skipBlanks, ← hrest] at hhead
    exact List.dropWhile_cons_of_neg (by simpa using hhead)

theorem trim_trim (t : Text) : trim (trim t) = trim t := by
  rw [trim, skipBlanks_trim]
  exact List.rdropWhile_idempotent ..

theorem trim_append_blanks {y : Text} (h : y.all isBlank) (x : Text) : trim (x ++ y) = trim x := by
  rw [trim, skipBlanks, List.dropWhile_append, trim, skipBlanks]
  split
  · next hx =>
    rw [List.isEmpty_iff.1 hx, List.dropWhile_eq_nil_iff.2 (List.all_eq_true.1 h)]
  · exact dropEndWhile_append_of_all h _

theorem trim_between {x y : Text} (hx : x.all isBlank) (hy : y.all isBlank) (t : Text) :
    trim (x ++ (t ++ y)) = trim t := by
  rw [trim_append hx, trim_append_blanks hy]

theorem trim_of_notBlank {t : Text} (h : ∀ c ∈ t, isBlank c = false) : trim t = t := by
  have hdrop (u : Text) (hu : ∀ c ∈ u, isBlank c = false) : u.dropWhile isBlank = u := by
    cases u with
    | nil => rfl
    | cons c cs => exact skipBlanks_cons (hu c List.mem_cons_self) cs
  rw [trim, skipBlanks, hdrop t h, dropEndWhile, hdrop t.reverse fun c hc => h c (List.mem_reverse.1 hc),
    List.reverse_reverse]

end PageTemplate
