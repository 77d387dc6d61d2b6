import PageTemplate.Proofs.Magnitude
set_option autoImplicit false
/-!
Keys of mappings. To be alike is an equivalence on the values that can be keys, so an entry is found under every key
that is alike to its own, and setting an entry changes what is found under these keys and under no others. A new key
follows the ones that are there, and an old one keeps its place and its spelling.
-/
namespace PageTemplate

namespace Value

/-- The values that can be keys. Lists and mappings cannot. -/
inductive IsKey : Value → Prop
  | null : IsKey .null
  | bool (b : Bool) : IsKey (.bool b)
  | number {n : Number} (proper : n.IsProper) : IsKey (.number n)
  | str (t : Text) : IsKey (.str t)
  | tuple {xs : List Value} (items : ∀ x ∈ xs, IsKey x) : IsKey (.tuple xs)
  | host (id : Nat) (name : Text) : IsKey (.host id name)
  | builtin (b : Builtin) : IsKey (.builtin b)
  | library (l : Library) : IsKey (.library l)
  | textMethod (m : TextMethod) (receiver : Text) (mark : Mark) : IsKey (.textMethod m receiver mark)
  | listMethod (m : ListMethod) (receiver : List Value) (mark : Mark) : IsKey (.listMethod m receiver mark)

/-- What a key other than a tuple is told by. -/
inductive Identity where
  | null
  | number (m : Number.Magnitude)
  | str (t : Text)
  | host (id : Nat)
  | builtin (b : Builtin)
  | library (l : Library)
  | textMethod (m : TextMethod) (mark : Mark)
  | listMethod (m : ListMethod) (mark : Mark)

def identity? : Value → Option Identity
  | .null => some .null
  | .bool b => some (.number (.finite (if b then 1 else 0)))
  | .number n => some (.number n.magnitude)
  | .str t => some (.str t)
  | .host id _ => some (.host id)
  | .builtin b => some (.builtin b)
  | .library l => some (.library l)
  | .textMethod m _ mark => some (.textMethod m mark)
  | .listMethod m _ mark => some (.listMethod m mark)
  | .list _ | .tuple _ | .map _ => none

variable {a b c : Value}

theorem number_equals_bool {n : Number} (h : n.IsProper) (x : Bool) :
    n.equals (.whole (if x then 1 else 0)) = true ↔ n.magnitude = .finite (if x then 1 else 0) := by
  have hwhole (k : Int) : n.equals (.whole k) = true ↔ n.magnitude = .finite k :=
    (show n.alike (.whole k) = n.equals (.whole k) by cases n <;> rfl) ▸ Number.alike_iff (n := .whole k) h trivial
  cases x <;> simp [hwhole]

theorem alike_iff_identity (ha : a.IsKey) (hb : b.IsKey) (hidentity : a.identity?.isSome) :
    a.alike b = true ↔ a.identity? = b.identity? := by
  cases ha with
  | tuple _ => cases hidentity
  | bool x =>
    cases hb with
    | bool y => cases x <;> cases y <;> simp [alike, identity?]
    | number hn => simp [alike, identity?, number_equals_bool hn, eq_comm]
    | _ => simp [alike, identity?]
  | number hm =>
    cases hb with
    | bool y => simp [alike, identity?, number_equals_bool hm]
    | number hn => simp [alike, identity?, Number.alike_iff hm hn]
    | _ => simp [alike, identity?]
  | _ => cases hb <;> simp [alike, identity?]

namespace IsKey

/-- A key is a tuple of keys or has an identity. -/
theorem induction {motive : ∀ a : Value, a.IsKey → Prop}
    (simple : ∀ (a : Value) (ha : a.IsKey), a.identity?.isSome → motive a ha)
    (tuple : ∀ (xs : List Value) (items : ∀ x ∈ xs, IsKey x), (∀ (x : Value) (hx : x ∈ xs), motive x (items x hx)) →
      motive (.tuple xs) (.tuple items)) (a : Value) (ha : a.IsKey) : motive a ha := by
  induction ha with
  | tuple items ih => exact tuple _ items ih
  | _ => exact simple _ _ rfl

theorem alike_refl (ha : a.IsKey) : a.alike a = true := by
  induction a, ha using IsKey.induction with
  | simple a ha hidentity => exact (alike_iff_identity ha ha hidentity).mpr rfl
  | tuple xs _ ih => exact tuple_alike.mpr ⟨xs, rfl, List.forall₂_same.mpr ih⟩

theorem alike_symm (ha : a.IsKey) (hb : b.IsKey) (h : a.alike b = true) : b.alike a = true := by
  induction a, ha using IsKey.induction generalizing b with
  | simple a ha hidentity =>
    have hsame := (alike_iff_identity ha hb hidentity).mp h
    exact (alike_iff_identity hb ha (hsame ▸ hidentity)).mpr hsame.symm
  | tuple xs _ ih =>
    obtain ⟨ys, rfl, hall⟩ := tuple_alike.mp h
    cases hb with | tuple hys =>
    exact tuple_alike.mpr ⟨xs, rfl, forall₂_symm hall fun x hx y hy => ih x hx (hys y hy)⟩

theorem alike_trans (ha : a.IsKey) (hb : b.IsKey) (hc : c.IsKey) (hab : a.alike b = true) (hbc : b.alike c = true) :
    a.alike c = true := by
  induction a, ha using IsKey.induction generalizing b c with
  | simple a ha hidentity =>
    have hsame := (alike_iff_identity ha hb hidentity).mp hab
    exact (alike_iff_identity ha hc hidentity).mpr
      (hsame.trans ((alike_iff_identity hb hc (hsame ▸ hidentity)).mp hbc))
  | tuple xs _ ih =>
    obtain ⟨ys, rfl, hxy⟩ := tuple_alike.mp hab
    obtain ⟨zs, rfl, hyz⟩ := tuple_alike.mp hbc
    cases hb with | tuple hys =>
    cases hc with | tuple hzs =>
    exact tuple_alike.mpr ⟨zs, rfl, forall₂_trans hxy hyz fun x hx y hy z hz => ih x hx (hys y hy) (hzs z hz)⟩

theorem alike_comm (ha : a.IsKey) (hb : b.IsKey) : a.alike b = b.alike a :=
  Bool.eq_iff_iff.mpr ⟨alike_symm ha hb, alike_symm hb ha⟩

theorem alike_congr_left (ha : a.IsKey) (hb : b.IsKey) (hc : c.IsKey) (h : a.alike b = true) :
    a.alike c = b.alike c :=
  Bool.eq_iff_iff.mpr ⟨alike_trans hb ha hc (alike_symm ha hb h), alike_trans ha hb hc h⟩

end IsKey

end Value

namespace Entries

def keys (es : Entries) : List Value := es.map (·.1)

/-- The entries of a mapping: the keys can be keys, and no two of them are alike. -/
structure Keyed (es : Entries) : Prop where
  isKey : ∀ k ∈ es.keys, k.IsKey
  apart : es.keys.Pairwise fun k k' => k.alike k' = false

variable {es fs : Entries} {k k' v w : Value}

theorem find?_cons : find? k ((k', v) :: es) = if k'.alike k then some v else es.find? k := by
  unfold find?
  rw [List.find?_cons]
  split <;> simp_all

theorem find?_eq_none : es.find? k = none ↔ ∀ k' ∈ es.keys, k'.alike k = false := by
  simp [find?, keys]

theorem keyed_nil : Keyed [] := ⟨nofun, .nil⟩

theorem keyed_cons : Keyed ((k, v) :: es) ↔ k.IsKey ∧ es.Keyed ∧ ∀ k' ∈ es.keys, k.alike k' = false := by
  constructor
  · rintro ⟨hkeys, hapart⟩
    obtain ⟨hfirst, hrest⟩ := List.pairwise_cons.mp hapart
    exact ⟨hkeys k List.mem_cons_self, ⟨fun k' hk' => hkeys k' (List.mem_cons_of_mem k hk'), hrest⟩, hfirst⟩
  · rintro ⟨hk, ⟨hkeys, hapart⟩, hfirst⟩
    exact ⟨List.forall_mem_cons.mpr ⟨hk, hkeys⟩, List.pairwise_cons.mpr ⟨hfirst, hapart⟩⟩

/-- Under a key that is alike to a first one, which no other is, nothing else is found. -/
theorem Keyed.find?_eq_none_of_alike (h : es.Keyed) (hk : k.IsKey) (hk' : k'.IsKey) (halike : k.alike k' = true)
    (hapart : ∀ l ∈ es.keys, k.alike l = false) : es.find? k' = none := by
  refine find?_eq_none.mpr fun l hl => Bool.eq_false_iff.mpr fun hlk => ?_
  have hl' : l.IsKey := h.isKey l hl
  have hkl : k.alike l = true := hk.alike_trans hk' hl' halike (hl'.alike_symm hk' hlk)
  rw [hapart l hl] at hkl
  cases hkl

/-- Keys that are alike find the same. -/
theorem Keyed.find?_congr (h : es.Keyed) (hk : k.IsKey) (hk' : k'.IsKey) (halike : k.alike k' = true) :
    es.find? k = es.find? k' := by
  induction es with
  | nil => rfl
  | cons e es ih =>
    obtain ⟨key, w⟩ := e
    obtain ⟨hkey, hes, -⟩ := keyed_cons.mp h
    have hsame : key.alike k = key.alike k' := by
      rw [hkey.alike_comm hk, hkey.alike_comm hk', hk.alike_congr_left hk' hkey halike]
    rw [find?_cons, find?_cons, hsame, ih hes]

theorem keys_put : (es.put k v).keys = if (es.find? k).isSome then es.keys else es.keys ++ [k] := by
  induction es with
  | nil => rfl
  | cons e es ih =>
    obtain ⟨key, w⟩ := e
    rw [put, find?_cons]
    split
    · rfl
    · change key :: keys (put k v es) = _
      rw [ih]
      split <;> rfl

theorem keyed_put (h : es.Keyed) (hk : k.IsKey) : (es.put k v).Keyed := by
  constructor <;> rw [keys_put]
  · split
    · exact h.isKey
    · intro k' hk'
      obtain hk' | hk' := List.mem_append.mp hk'
      · exact h.isKey k' hk'
      · exact List.mem_singleton.mp hk' ▸ hk
  · split
    · exact h.apart
    · next hnone =>
      have hnew := find?_eq_none.mp (Option.not_isSome_iff_eq_none.mp hnone)
      refine List.pairwise_append.mpr ⟨h.apart, List.pairwise_singleton .., fun k' hk' l hl => ?_⟩
      rw [List.mem_singleton.mp hl]
      exact hnew k' hk'

theorem Keyed.find?_put (h : es.Keyed) (hk : k.IsKey) (hk' : k'.IsKey) :
    (es.put k v).find? k' = if k.alike k' then some v else es.find? k' := by
  induction es with
  | nil => exact find?_cons
  | cons e es ih =>
    obtain ⟨key, w⟩ := e
    obtain ⟨hkey, hes, -⟩ := keyed_cons.mp h
    by_cases hold : key.alike k = true
    · have hsame : key.alike k' = k.alike k' := hkey.alike_congr_left hk hk' hold
      rw [put, if_pos hold, find?_cons, find?_cons, hsame]
      split <;> rfl
    · rw [put, if_neg hold, find?_cons, find?_cons, ih hes]
      by_cases hfirst : key.alike k' = true
      · have hother : k.alike k' ≠ true := fun hn =>
          hold (hkey.alike_trans hk' hk hfirst (hk.alike_symm hk' hn))
        rw [if_pos hfirst, if_pos hfirst, if_neg hother]
      · rw [if_neg hfirst, if_neg hfirst]

theorem put_of_find? (h : es.find? k = some v) : es.put k v = es := by
  induction es with
  | nil => cases h
  | cons e es ih =>
    obtain ⟨key, w⟩ := e
    rw [find?_cons] at h
    rw [put]
    split at h
    · obtain rfl := Option.some.inj h
      simp_all
    · simp_all

theorem Keyed.find?_of_mem (h : es.Keyed) (he : (k, v) ∈ es) : es.find? k = some v := by
  induction es with
  | nil => cases he
  | cons e es ih =>
    obtain ⟨key, w⟩ := e
    obtain ⟨hkey, hes, hapart⟩ := keyed_cons.mp h
    rw [find?_cons]
    obtain heq | he := List.mem_cons.mp he
    · obtain ⟨rfl, rfl⟩ := Prod.mk.inj heq
      rw [if_pos hkey.alike_refl]
    · rw [if_neg (Bool.eq_false_iff.mp (hapart k (List.mem_map_of_mem he))), ih hes he]

end Entries

end PageTemplate
