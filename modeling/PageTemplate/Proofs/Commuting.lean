import PageTemplate.Proofs.Letters
set_option autoImplicit false
/-!
The order of writes. Two writes to places apart come to the same in both orders, up to the order of new keys, and a
write to mappings that differ in the order of their entries gives such mappings again. So writes to places that are
pairwise apart come to the same in every order, and the same is read at every path.
-/
namespace PageTemplate

namespace Value

variable {a b c v w : Value} {es fs gs : Entries} {k t : Text}

/-- Entries one by one, each with its key and its value reordered. -/
abbrev Pointwise (es fs : Entries) : Prop := List.Forall₂ (fun e f => Reordered e.1 f.1 ∧ Reordered e.2 f.2) es fs

theorem pointwise_refl (es : Entries) : Pointwise es es := List.forall₂_same.mpr fun _ _ => ⟨.refl _, .refl _⟩

theorem reordered_map : Reordered (.map es) v ↔ ∃ fs gs, v = .map gs ∧ Pointwise es fs ∧ fs.Perm gs := by
  constructor
  · intro h
    cases h with
    | refl => exact ⟨es, es, rfl, pointwise_refl es, .refl es⟩
    | @map _ fs gs length keys values order =>
      exact ⟨fs, gs, rfl, List.forall₂_iff_zip.mpr ⟨length, fun hp => ⟨keys _ hp, values _ hp⟩⟩, order⟩
  · rintro ⟨fs, gs, rfl, hpointwise, order⟩
    obtain ⟨length, hzip⟩ := List.forall₂_iff_zip.mp hpointwise
    exact .map length (fun _ hp => (hzip hp).1) (fun _ hp => (hzip hp).2) order

theorem Reordered.order (h : es.Perm fs) : Reordered (.map es) (.map fs) :=
  reordered_map.mpr ⟨es, fs, rfl, pointwise_refl es, h⟩

theorem zip_trans {xs ys zs : List Value} (length : xs.length = ys.length)
    (hxy : ∀ p ∈ xs.zip ys, ∀ z, Reordered p.2 z → Reordered p.1 z) (length' : ys.length = zs.length)
    (hyz : ∀ p ∈ ys.zip zs, Reordered p.1 p.2) :
    xs.length = zs.length ∧ ∀ p ∈ xs.zip zs, Reordered p.1 p.2 := by
  have hfirst : List.Forall₂ (fun x y => ∀ z, Reordered y z → Reordered x z) xs ys :=
    List.forall₂_iff_zip.mpr ⟨length, fun hp => hxy _ hp⟩
  have hsecond : List.Forall₂ Reordered ys zs := List.forall₂_iff_zip.mpr ⟨length', fun hp => hyz _ hp⟩
  obtain ⟨hlength, hzip⟩ := List.forall₂_iff_zip.mp (forall₂_trans hfirst hsecond fun x _ y _ z _ hx => hx z)
  exact ⟨hlength, fun _ hp => hzip hp⟩

theorem Reordered.trans (hab : Reordered a b) (hbc : Reordered b c) : Reordered a c := by
  induction hab generalizing c with
  | refl => exact hbc
  | list length items ih =>
    cases hbc with
    | refl => exact .list length items
    | list length' items' =>
      obtain ⟨hlength, hitems⟩ := zip_trans length (fun p hp _ => ih p hp) length' items'
      exact .list hlength hitems
  | tuple length items ih =>
    cases hbc with
    | refl => exact .tuple length items
    | tuple length' items' =>
      obtain ⟨hlength, hitems⟩ := zip_trans length (fun p hp _ => ih p hp) length' items'
      exact .tuple hlength hitems
  | @map es fs gs length keys values order ihk ihv =>
    obtain ⟨hs, is, rfl, hgs, horder⟩ := reordered_map.mp hbc
    have hes : List.Forall₂ (fun e f : Value × Value => (∀ z, Reordered f.1 z → Reordered e.1 z) ∧
        ∀ z, Reordered f.2 z → Reordered e.2 z) es fs :=
      List.forall₂_iff_zip.mpr ⟨length, fun hp => ⟨fun _ => ihk _ hp, fun _ => ihv _ hp⟩⟩
    -- The second mapping is reordered before its entries are, instead of after.
    obtain ⟨ms, hfs, hms⟩ := List.perm_comp_forall₂ order hgs
    have hpointwise : Pointwise es ms := forall₂_trans hes hfs fun e _ f _ m _ hef hfm => ⟨hef.1 _ hfm.1, hef.2 _ hfm.2⟩
    exact reordered_map.mpr ⟨ms, is, rfl, hpointwise, hms.trans horder⟩

theorem exists_mem_right {α β : Type} {R : α → β → Prop} {xs : List α} {ys : List β} (h : List.Forall₂ R xs ys) {x : α}
    (hx : x ∈ xs) : ∃ y ∈ ys, R x y := by
  induction h with
  | nil => cases hx
  | cons hfirst _ ih =>
    obtain rfl | hx := List.mem_cons.mp hx
    · exact ⟨_, List.mem_cons_self, hfirst⟩
    · obtain ⟨y, hy, hxy⟩ := ih hx
      exact ⟨y, List.mem_cons_of_mem _ hy, hxy⟩

/-- Only a text is a text reordered. -/
theorem Reordered.eq_str_iff (h : Reordered a b) : a = .str t ↔ b = .str t := h.same.2.2 t

theorem Pointwise.put (h : Pointwise es fs) (hvw : Reordered v w) :
    Pointwise (es.put (.str k) v) (fs.put (.str k) w) := by
  induction h with
  | nil => exact .cons ⟨.refl _, hvw⟩ .nil
  | @cons e f es fs hef hrest ih =>
    by_cases hkey : e.1 = .str k
    · have hkey' : f.1 = .str k := hef.1.eq_str_iff.mp hkey
      rw [Entries.put, Entries.put, if_pos (alike_str.mpr hkey), if_pos (alike_str.mpr hkey')]
      exact .cons ⟨hef.1, hvw⟩ hrest
    · have hkey' : f.1 ≠ .str k := fun hf => hkey (hef.1.eq_str_iff.mpr hf)
      rw [Entries.put, Entries.put, not_alike_str hkey, not_alike_str hkey']
      exact .cons hef ih

theorem Pointwise.texts (h : Pointwise es fs) : es.texts = fs.texts := by
  induction h with
  | nil => rfl
  | @cons e f es fs hef hrest ih =>
    obtain ⟨key, v⟩ := e
    obtain ⟨key', w⟩ := f
    obtain ⟨t, rfl⟩ | hother := key.str_or_ne
    · obtain rfl : key' = .str t := hef.1.eq_str_iff.mp rfl
      rw [Entries.texts_cons_str, Entries.texts_cons_str, ih]
    · have hother' : ∀ t, key' ≠ .str t := fun t ht => hother t (hef.1.eq_str_iff.mpr ht)
      rw [Entries.texts_cons_of_ne hother, Entries.texts_cons_of_ne hother', ih]

namespace Reordered

theorem texts (h : Reordered (.map es) (.map gs)) : es.texts.Perm gs.texts := by
  obtain ⟨fs, _, ⟨⟩, hpointwise, hperm⟩ := reordered_map.mp h
  exact .trans (.of_eq hpointwise.texts) (hperm.filterMap _)

theorem exists_right (h : Reordered (.map es) (.map gs)) (hv : (.str t, v) ∈ es) :
    ∃ w, (.str t, w) ∈ gs ∧ Reordered v w := by
  obtain ⟨fs, _, ⟨⟩, hpointwise, hperm⟩ := reordered_map.mp h
  obtain ⟨⟨key, w⟩, hf, hkey, hvw⟩ := exists_mem_right hpointwise hv
  obtain rfl : key = .str t := hkey.eq_str_iff.mp rfl
  exact ⟨w, hperm.mem_iff.mp hf, hvw⟩

theorem exists_left (h : Reordered (.map es) (.map gs)) (hw : (.str t, w) ∈ gs) :
    ∃ v, (.str t, v) ∈ es ∧ Reordered v w := by
  obtain ⟨fs, _, ⟨⟩, hpointwise, hperm⟩ := reordered_map.mp h
  obtain ⟨⟨key, v⟩, he, hkey, hvw⟩ := exists_mem_right (forall₂_symm hpointwise fun _ _ _ _ => id) (hperm.mem_iff.mpr hw)
  obtain rfl : key = .str t := hkey.eq_str_iff.mpr rfl
  exact ⟨v, he, hvw⟩

theorem put (h : Reordered (.map es) (.map gs)) (hn : es.texts.Nodup) (hvw : Reordered v w) :
    Reordered (.map (es.put (.str k) v)) (.map (gs.put (.str k) w)) := by
  obtain ⟨fs, _, ⟨⟩, hpointwise, hperm⟩ := reordered_map.mp h
  exact reordered_map.mpr ⟨_, _, rfl, hpointwise.put hvw, Entries.put_perm hperm (hpointwise.texts ▸ hn)⟩

theorem get? (h : Reordered (.map es) (.map gs)) (hn : es.texts.Nodup) :
    Option.Rel Reordered (es.get? t) (gs.get? t) := by
  have hn' : gs.texts.Nodup := h.texts.nodup hn
  cases hes : es.get? t with
  | some v =>
    obtain ⟨w, hw, hvw⟩ := h.exists_right ((Entries.get?_eq_some_iff hn).mp hes)
    rw [(Entries.get?_eq_some_iff hn').mpr hw]
    exact .some hvw
  | none =>
    cases hgs : gs.get? t with
    | none => exact .none
    | some w =>
      obtain ⟨v, hv, -⟩ := h.exists_left ((Entries.get?_eq_some_iff hn').mp hgs)
      rw [(Entries.get?_eq_some_iff hn).mpr hv] at hes
      cases hes

end Reordered

end Value

namespace Config.Override

open Value

variable {es fs : Entries} {s t : Text} {p q ts : List Text} {o o' : Option Value} {u u' v w x : Value}

variable {os os' : List (List Text × Value)} {a : List Text × Value}

/-- Writes to places that are pairwise apart, along which every key is told by its letters. -/
structure Independent (os : List (List Text × Value)) (u : Value) : Prop where
  apart : os.Pairwise fun a b => Apart a.1 b.1
  small : ∀ a ∈ os, ∀ s ∈ a.1, toLower s = s
  unmistakable : ∀ a ∈ os, Unmistakable a.1 u

def writeAll (os : List (List Text × Value)) (u : Value) : Value := os.foldl (fun u a => write a.2 a.1 (some u)) u

theorem Apart.symm (h : Apart p q) : Apart q p := And.symm h

namespace Independent

theorem along (h : Independent os u) (a : List Text × Value) (ha : a ∈ os) : ∀ x ∈ some u, Unmistakable a.1 x := by
  rintro _ ⟨⟩
  exact h.unmistakable a ha

theorem after (h : Independent (a :: os) u) : Independent os (write a.2 a.1 (some u)) := by
  obtain ⟨hfirst, hrest⟩ := List.pairwise_cons.mp h.apart
  refine ⟨hrest, fun b hb => h.small b (List.mem_cons_of_mem a hb), fun b hb => ?_⟩
  exact unmistakable_write (h.small a List.mem_cons_self) (h.small b (List.mem_cons_of_mem a hb))
    (h.along a List.mem_cons_self) (h.along b (List.mem_cons_of_mem a hb)) (hfirst b hb)

end Independent

/-- One mapping as a write of a value along a path leaves another. -/
structure Written (p : List Text) (v : Value) (es fs : Entries) : Prop where
  /-- The value is read at the path, and it is spelled as it was if anything was there. -/
  there : ∃ ts, (∀ ts' w, Read p (.map fs) ts' w ↔ ts' = ts ∧ w = v) ∧ ∀ ts' w, Read p (.map es) ts' w → ts' = ts
  /-- Paths that neither lead to the place nor through it. -/
  elsewhere : ∀ q, Apart p q → ∀ ts w, Read q (.map fs) ts w ↔ Read q (.map es) ts w
  /-- The mappings that the path leads through. -/
  above : ∀ q ts, ∀ gs : Entries, q <+: p → q ≠ p → Read q (.map es) ts (.map gs) →
    ∃ hs : Entries, Read q (.map fs) ts (.map hs) ∧ gs.keys <+: hs.keys

end Config.Override

end PageTemplate
