import PageTemplate.Proofs.Keys
import PageTemplate.Proofs.Overriding
set_option autoImplicit false
/-!
Writes along paths, read in any letters. A write finds its way by keys in any letters and so does such a read, hence
what is written is read back, and every path that neither leads to the place nor through it reads as before. So writes
to places apart from each other give the same values in whatever order they are done, up to the order of new keys.
Mappings are values: no two places share one.
-/
namespace PageTemplate

theorem Value.not_alike_str {k : Value} {t : Text} (h : k ≠ .str t) : k.alike (.str t) = false := by
  rwa [Bool.eq_false_iff, ne_eq, alike_str]

namespace Entries

variable {es fs : Entries} {k k' t : Text} {v w : Value}

theorem mem_texts : t ∈ es.texts ↔ ∃ v, (.str t, v) ∈ es := by
  induction es with
  | nil => simp
  | cons e es ih =>
    obtain ⟨key, w⟩ := e
    obtain ⟨u, rfl⟩ | hother := key.str_or_ne
    · simp [ih, exists_or]
    · have hne : Value.str t ≠ key := (hother t).symm
      simp [texts_cons_of_ne hother, ih, hne]

theorem get?_eq_some_iff (h : es.texts.Nodup) : es.get? t = some v ↔ (.str t, v) ∈ es := by
  induction es with
  | nil => simp [get?]
  | cons e es ih =>
    obtain ⟨key, w⟩ := e
    obtain ⟨u, rfl⟩ | hother := key.str_or_ne
    · obtain ⟨hnew, hrest⟩ := List.nodup_cons.mp h
      by_cases hu : u = t
      · subst hu
        have hnone : ∀ x, (.str u, x) ∉ es := fun x hx => hnew (mem_texts.mpr ⟨x, hx⟩)
        simp [get?, hnone, eq_comm]
      · simp [get?, hu, Ne.symm hu, ih hrest]
    · have hne : Value.str t ≠ key := (hother t).symm
      rw [get?_cons_of_ne (hother t), ih (texts_cons_of_ne hother ▸ h)]
      simp [hne]

theorem put_perm (h : es.Perm fs) (hn : es.texts.Nodup) : (es.put (.str k) v).Perm (fs.put (.str k) v) := by
  induction h with
  | nil => exact .refl _
  | cons e h ih =>
    obtain ⟨key, x⟩ := e
    by_cases hkey : key = .str k
    · simpa [put, hkey, Value.alike] using h
    · have halike := Value.not_alike_str hkey
      have hrest : Entries.texts _ |>.Nodup := (List.sublist_cons_self ..).filterMap _ |>.nodup hn
      simpa [put, halike] using ih hrest
  | swap e e' es =>
    obtain ⟨key, x⟩ := e
    obtain ⟨key', x'⟩ := e'
    by_cases hkey : key = .str k
    · subst hkey
      have hne : key' ≠ .str k := by
        rintro rfl
        exact (List.nodup_cons.mp hn).1 List.mem_cons_self
      have halike := Value.not_alike_str hne
      simpa [put, halike, Value.alike] using List.Perm.swap ..
    · have halike := Value.not_alike_str hkey
      by_cases hkey' : key' = .str k
      · subst hkey'
        simpa [put, halike, Value.alike] using List.Perm.swap ..
      · have halike' := Value.not_alike_str hkey'
        simpa [put, halike, halike'] using List.Perm.swap ..
  | trans h h' ih ih' => exact (ih hn).trans (ih' ((h.filterMap _).nodup hn))

end Entries

namespace Config.Override

/-- What is read at a path of names in small letters, and the path as it is spelled there. -/
inductive Read : List Text → Value → List Text → Value → Prop
  | here (v : Value) : Read [] v [] v
  | within {es : Entries} {s t : Text} {ss ts : List Text} {v w : Value} (entry : (.str t, w) ∈ es)
      (spelled : toLower t = s) (rest : Read ss w ts v) : Read (s :: ss) (.map es) (t :: ts) v

/-- No mapping on the way along a path has two keys that differ in the case of letters only. -/
def Unmistakable : List Text → Value → Prop
  | s :: ss, .map es =>
    (Entries.texts es |>.map toLower).Nodup ∧ ∀ t w, (.str t, w) ∈ es → toLower t = s → Unmistakable ss w
  | _, _ => True

/-- What stands under a key once a value is written along a path from there. -/
def write (v : Value) : List Text → Option Value → Value
  | [], _ => v
  | s :: ss, o =>
    let key := spelling s (inside o)
    .map ((inside o).put (.str key) (write v ss ((inside o).get? key)))

/-- A path as the keys spell it. -/
def spelled : List Text → Option Value → List Text
  | [], _ => []
  | s :: ss, o =>
    let key := spelling s (inside o)
    key :: spelled ss ((inside o).get? key)

variable {es fs : Entries} {s s' t : Text} {p q ts : List Text} {o : Option Value} {u v w x : Value}

theorem spelling_of_mem (h : (es.texts.map toLower).Nodup) (ht : t ∈ es.texts) : spelling (toLower t) es = t := by
  rw [spelling_eq]
  cases hfind : es.texts.reverse.find? fun u => toLower u = toLower t with
  | none => exact absurd (List.find?_eq_none.mp hfind t (List.mem_reverse.mpr ht)) (by simp)
  | some u =>
    have hlower : toLower u = toLower t := by simpa using List.find?_some hfind
    exact List.inj_on_of_nodup_map h (List.mem_reverse.mp (List.mem_of_find?_eq_some hfind)) ht hlower

/-- The one entry that a name can mean is the one under its spelling. -/
theorem mem_and_toLower (hs : toLower s = s) (h : (es.texts.map toLower).Nodup) :
    (.str t, v) ∈ es ∧ toLower t = s ↔ t = spelling s es ∧ es.get? (spelling s es) = some v := by
  have hget := Entries.get?_eq_some_iff (t := spelling s es) (v := v) (List.Nodup.of_map toLower h)
  constructor
  · rintro ⟨hmem, rfl⟩
    have hspelling := spelling_of_mem h (Entries.mem_texts.mpr ⟨v, hmem⟩)
    rw [hget, hspelling]
    exact ⟨rfl, hmem⟩
  · rintro ⟨rfl, hsome⟩
    exact ⟨hget.mp hsome, toLower_spelling hs es⟩

/-! ### Reading -/

theorem unmistakable_inside : (∀ u ∈ o, Unmistakable (s :: p) u) ↔ Unmistakable (s :: p) (.map (inside o)) := by
  have hnil : Unmistakable (s :: p) (.map []) := ⟨.nil, nofun⟩
  obtain _ | u := o
  · exact iff_of_true nofun hnil
  · cases u with
    | map es => simp [inside]
    | _ => exact iff_of_true (by rintro _ ⟨⟩; trivial) hnil

theorem unmistakable_cons (hs : toLower s = s) : Unmistakable (s :: p) (.map es) ↔
    (es.texts.map toLower).Nodup ∧ ∀ w ∈ es.get? (spelling s es), Unmistakable p w := by
  refine and_congr_right fun h => ⟨fun hall w hw => ?_, fun hall t w hmem hlower => ?_⟩
  · obtain ⟨hentry, hspelled⟩ := (mem_and_toLower hs h).mpr ⟨rfl, hw⟩
    exact hall _ w hentry hspelled
  · obtain ⟨rfl, hget⟩ := (mem_and_toLower hs h).mp ⟨hmem, hlower⟩
    exact hall w hget

/-- What stands where a path begins is one mapping, in which the first name means one entry. -/
theorem unmistakable_step (hs : toLower s = s) : (∀ u ∈ o, Unmistakable (s :: p) u) ↔
    ((inside o).texts.map toLower).Nodup ∧ ∀ w ∈ (inside o).get? (spelling s (inside o)), Unmistakable p w := by
  rw [unmistakable_inside, unmistakable_cons hs]

/-! ### Writing -/

theorem apart_cons : Apart (s :: p) (s :: q) ↔ Apart p q := by simp [Apart]

theorem nodup_put (hs : toLower s = s) (h : (es.texts.map toLower).Nodup) :
    ((es.put (.str (spelling s es)) v).texts.map toLower).Nodup := by
  rw [Entries.texts_put]
  split
  · exact h
  · next hnew =>
    rw [List.map_append, List.nodup_append]
    refine ⟨h, List.nodup_singleton _, ?_⟩
    rintro _ ht _ hk rfl
    obtain ⟨t, ht, hlower⟩ := List.mem_map.mp ht
    rw [List.map_singleton, List.mem_singleton, toLower_spelling hs] at hk
    rw [← hk, ← hlower, spelling_of_mem h ht] at hnew
    exact hnew ht

theorem unmistakable_write (hp : ∀ s ∈ p, toLower s = s) (hq : ∀ s ∈ q, toLower s = s)
    (h : ∀ u ∈ o, Unmistakable p u) (h' : ∀ u ∈ o, Unmistakable q u) (hapart : Apart p q) :
    Unmistakable q (write v p o) := by
  induction p generalizing q o with
  | nil => exact absurd List.nil_prefix hapart.1
  | cons s p ih =>
    cases q with
    | nil => trivial
    | cons s' q =>
      obtain ⟨hs, hrest⟩ := List.forall_mem_cons.mp hp
      obtain ⟨hs', hrest'⟩ := List.forall_mem_cons.mp hq
      obtain ⟨hnodup, hbelow⟩ := (unmistakable_step hs).mp h
      obtain ⟨-, hbelow'⟩ := (unmistakable_step hs').mp h'
      rw [write, unmistakable_cons hs', spelling_put hs]
      refine ⟨nodup_put hs hnodup, fun x hx => ?_⟩
      rw [Entries.get?_put] at hx
      split at hx
      · next hkey =>
        obtain rfl : s' = s := by rw [← toLower_spelling hs' (inside o), hkey, toLower_spelling hs]
        obtain rfl := Option.some.inj hx
        exact ih hrest hrest' hbelow hbelow' (apart_cons.mp hapart)
      · exact hbelow' x hx

end Config.Override

end PageTemplate
