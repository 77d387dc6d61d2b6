import PageTemplate.Config.Merge
import PageTemplate.Proofs.Keys
import PageTemplate.Proofs.Overriding
set_option autoImplicit false
/-!
One mapping laid over another, read along paths of keys. Where the upper one has something, the merge has it too, merged
with what the lower one has there; where the upper one lacks a key of a mapping, the lower one is seen; and below a value
of the upper one that is no mapping there is nothing. Laying a mapping over what it was laid over already changes nothing.
-/
namespace PageTemplate

namespace Value

open Config.Override (inside)

/-- What stands at a path of keys. -/
def under? : List Value → Value → Option Value
  | [], v => some v
  | k :: ks, .map es => (Entries.find? k es).bind (under? ks)
  | _ :: _, _ => none

def IsMap (v : Value) : Prop := ∃ es, v = .map es

/-- No two keys of one mapping are alike, in mappings of mappings at any depth. -/
inductive Nested : Value → Prop
  | map {es : Entries} (keyed : es.Keyed) (values : ∀ e ∈ es, Nested e.2) : Nested (.map es)
  | other {v : Value} (h : ¬ v.IsMap) : Nested v

variable {v w : Value} {o : Option Value} {es : Entries} {k : Value} {p q : List Value}

theorem under?_append : under? (p ++ q) v = (under? p v).bind (under? q) := by
  induction p generalizing v with
  | nil => rfl
  | cons k p ih =>
    cases v with
    | map es =>
      rw [List.cons_append, under?, under?, Option.bind_assoc]
      exact congrArg _ (funext fun w => ih)
    | _ => rfl

theorem under?_of_not_isMap (hv : ¬ v.IsMap) (hp : p ≠ []) : under? p v = none := by
  cases p with
  | nil => exact absurd rfl hp
  | cons k p =>
    cases v with
    | map es => exact absurd ⟨es, rfl⟩ hv
    | _ => rfl

theorem bind_under?_cons : o.bind (under? (k :: p)) = ((inside o).find? k).bind (under? p) := by
  obtain _ | v := o
  · rfl
  · cases v <;> rfl

theorem nested_nil : Nested (.map []) := .map Entries.keyed_nil nofun

theorem Nested.keyed (h : Nested (.map es)) : es.Keyed := by
  cases h with
  | map keyed _ => exact keyed
  | other hother => exact absurd ⟨es, rfl⟩ hother

theorem Nested.of_mem (h : Nested (.map es)) (hmem : (k, v) ∈ es) : Nested v := by
  cases h with
  | map _ values => exact values _ hmem
  | other hother => exact absurd ⟨es, rfl⟩ hother

theorem Nested.cons (hk : k.IsKey) (hv : Nested v) (hnew : ∀ k' ∈ es.keys, k.alike k' = false)
    (h : Nested (.map es)) : Nested (.map ((k, v) :: es)) :=
  .map (Entries.keyed_cons.mpr ⟨hk, h.keyed, hnew⟩) (List.forall_mem_cons.mpr ⟨hv, fun _ he => h.of_mem he⟩)

theorem nested_of_find? (h : Nested (.map es)) (hfind : es.find? k = some v) : Nested v := by
  obtain ⟨e, he, rfl⟩ := Option.map_eq_some_iff.mp hfind
  exact h.of_mem (List.mem_of_find?_eq_some he)

theorem nested_of_under? (h : Nested v) (hat : under? p v = some w) : Nested w := by
  induction p generalizing v with
  | nil => exact Option.some.inj hat ▸ h
  | cons k p ih =>
    cases v with
    | map es =>
      obtain ⟨u, hfind, hu⟩ := Option.bind_eq_some_iff.mp hat
      exact ih (nested_of_find? h hfind) hu
    | _ => cases hat

theorem nested_inside (h : ∀ v ∈ o, Nested v) : Nested (.map (inside o)) := by
  obtain _ | v := o
  · exact nested_nil
  · cases v with
    | map es => exact h _ rfl
    | _ => exact nested_nil

/-- A path at which a value has nothing comes to a value that is no mapping, or to a mapping that lacks a key. -/
theorem under?_eq_none (h : under? p v = none) :
    (∃ q w, q <+: p ∧ q ≠ p ∧ ¬ w.IsMap ∧ under? q v = some w) ∨
      ∃ q k, ∃ es : Entries, q ++ [k] <+: p ∧ under? q v = some (.map es) ∧ es.find? k = none := by
  induction p generalizing v with
  | nil => cases h
  | cons k p ih =>
    by_cases hv : v.IsMap
    · obtain ⟨es, rfl⟩ := hv
      cases hfind : Entries.find? k es with
      | none => exact .inr ⟨[], k, es, ⟨p, rfl⟩, rfl, hfind⟩
      | some w =>
        have hunder (q : List Value) : under? (k :: q) (.map es) = under? q w := by rw [under?, hfind, Option.bind_some]
        rw [hunder] at h
        obtain ⟨q, u, hq, hne, hu, hat⟩ | ⟨q, l, fs, hq, hat, hmissing⟩ := ih h
        · refine .inl ⟨k :: q, u, (List.prefix_cons_inj k).mpr hq, ?_, hu, (hunder q).trans hat⟩
          exact fun hsame => hne (List.cons.inj hsame).2
        · exact .inr ⟨k :: q, l, fs, (List.prefix_cons_inj k).mpr hq, (hunder q).trans hat, hmissing⟩
    · exact .inl ⟨[], v, List.nil_prefix, (List.cons_ne_nil k p).symm, hv, rfl⟩

end Value

namespace Entries

variable {es : Entries} {k v : Value}

theorem put_of_find?_eq_none (h : es.find? k = none) : es.put k v = es ++ [(k, v)] := by
  induction es with
  | nil => rfl
  | cons e es ih =>
    obtain ⟨key, w⟩ := e
    rw [find?_cons] at h
    split at h
    · cases h
    · next hkey => rw [put, if_neg hkey, ih h, List.cons_append]

end Entries

namespace Config

open Value Override

variable {a b es fs : Entries} {o : Option Value} {k v w : Value} {p q : List Value}

theorem mergeValue_of_not_isMap (h : ¬ v.IsMap) : mergeValue o v = v := by
  cases v with
  | map fs => exact absurd ⟨fs, rfl⟩ h
  | _ => rfl

theorem mergeValue_none : mergeValue none v = v := by cases v <;> rfl

theorem find?_mergeEntries (h : es.Keyed) (hf : fs.Keyed) (hk : k.IsKey) :
    (mergeEntries es fs).find? k = (fs.find? k).elim (es.find? k) fun v => some (mergeValue (es.find? k) v) := by
  induction fs generalizing es with
  | nil => rfl
  | cons e fs ih =>
    obtain ⟨key, v⟩ := e
    obtain ⟨hkey, hfs, hapart⟩ := Entries.keyed_cons.mp hf
    rw [mergeEntries, ih (Entries.keyed_put h hkey) hfs, h.find?_put hkey hk, Entries.find?_cons]
    by_cases hfirst : key.alike k = true
    · have hrest : Entries.find? k fs = none := hfs.find?_eq_none_of_alike hkey hk hfirst hapart
      rw [if_pos hfirst, if_pos hfirst, hrest, h.find?_congr hkey hk hfirst]
      rfl
    · rw [if_neg hfirst, if_neg hfirst]

/-- The keys of the lower mapping keep their order, and those that only the upper one has follow in theirs. -/
theorem keys_mergeEntries (h : es.Keyed) (hf : fs.Keyed) :
    (mergeEntries es fs).keys = es.keys ++ fs.keys.filter fun k => (es.find? k).isNone := by
  induction fs generalizing es with
  | nil => exact (List.append_nil _).symm
  | cons e fs ih =>
    obtain ⟨k, v⟩ := e
    obtain ⟨hk, hfs, hapart⟩ := Entries.keyed_cons.mp hf
    have hkept : (Entries.keys fs).filter (fun l => ((es.put k (mergeValue (es.find? k) v)).find? l).isNone) =
        (Entries.keys fs).filter fun l => (es.find? l).isNone := by
      refine List.filter_congr fun l hl => ?_
      rw [h.find?_put hk (hfs.isKey l hl), if_neg (Bool.eq_false_iff.mp (hapart l hl))]
    have hkeys : Entries.keys ((k, v) :: fs) = k :: Entries.keys fs := rfl
    rw [mergeEntries, ih (Entries.keyed_put h hk) hfs, hkept, Entries.keys_put, hkeys, List.filter_cons]
    cases es.find? k <;> simp

/-- Entries that are all new follow as they are. -/
theorem mergeEntries_of_new (h : es.Keyed) (hf : fs.Keyed) (hnew : ∀ k ∈ fs.keys, es.find? k = none) :
    mergeEntries es fs = es ++ fs := by
  induction fs generalizing es with
  | nil => exact (List.append_nil es).symm
  | cons e fs ih =>
    obtain ⟨k, v⟩ := e
    obtain ⟨hk, hfs, hapart⟩ := Entries.keyed_cons.mp hf
    obtain ⟨hhere, hrest⟩ := List.forall_mem_cons.mp hnew
    have hput : es.put k v = es ++ [(k, v)] := Entries.put_of_find?_eq_none hhere
    rw [mergeEntries, hhere, mergeValue_none, ih (Entries.keyed_put h hk) hfs, hput, List.append_assoc,
      List.singleton_append]
    intro l hl
    rw [h.find?_put hk (hfs.isKey l hl), if_neg (Bool.eq_false_iff.mp (hapart l hl)), hrest l hl]

theorem mergeEntries_nil (hf : fs.Keyed) : mergeEntries [] fs = fs :=
  mergeEntries_of_new Entries.keyed_nil hf fun _ _ => rfl

theorem mergeValue_map (hf : fs.Keyed) : mergeValue o (.map fs) = .map (mergeEntries (inside o) fs) := by
  obtain _ | v := o
  · exact congrArg Value.map (mergeEntries_nil hf).symm
  · cases v with
    | map es => rfl
    | _ => exact congrArg Value.map (mergeEntries_nil hf).symm

/-! ### Paths -/

/-- Where the upper mapping has a value, it lies over what the lower one has there. -/
theorem under?_mergeValue (ho : ∀ v ∈ o, Nested v) (hb : Nested v) (hp : ∀ k ∈ p, k.IsKey)
    (h : under? p v = some w) : under? p (mergeValue o v) = some (mergeValue (o.bind (under? p)) w) := by
  induction p generalizing o v with
  | nil =>
    obtain rfl := Option.some.inj h
    cases o <;> rfl
  | cons k p ih =>
    obtain ⟨hk, hp⟩ := List.forall_mem_cons.mp hp
    by_cases hv : v.IsMap
    · obtain ⟨fs, rfl⟩ := hv
      obtain ⟨u, hfind, hu⟩ := Option.bind_eq_some_iff.mp h
      have hinside : Nested (.map (inside o)) := nested_inside ho
      rw [mergeValue_map hb.keyed, under?, find?_mergeEntries hinside.keyed hb.keyed hk, hfind, Option.elim_some,
        Option.bind_some, bind_under?_cons]
      exact ih (fun x hx => nested_of_find? hinside hx) (nested_of_find? hb hfind) hp hu
    · rw [under?_of_not_isMap hv (List.cons_ne_nil k p)] at h
      cases h

theorem under?_deepMerge (ha : Nested (.map a)) (hb : Nested (.map b)) (hp : ∀ k ∈ p, k.IsKey)
    (h : under? p (.map b) = some w) :
    under? p (.map (deepMerge a b)) = some (mergeValue (under? p (.map a)) w) :=
  under?_mergeValue (o := some (.map a)) (by rintro _ ⟨⟩; exact ha) hb hp h

theorem under?_deepMerge_of_plain (ha : Nested (.map a)) (hb : Nested (.map b)) (hp : ∀ k ∈ p, k.IsKey)
    (hv : ¬ v.IsMap) (h : under? p (.map b) = some v) : under? p (.map (deepMerge a b)) = some v := by
  rw [under?_deepMerge ha hb hp h, mergeValue_of_not_isMap hv]

theorem under?_deepMerge_of_mapping (ha : Nested (.map a)) (hb : Nested (.map b)) (hp : ∀ k ∈ p, k.IsKey)
    (h : under? p (.map b) = some (.map fs)) :
    under? p (.map (deepMerge a b)) = some (.map (mergeEntries (inside (under? p (.map a))) fs)) := by
  rw [under?_deepMerge ha hb hp h, mergeValue_map (nested_of_under? hb h).keyed]

theorem under?_deepMerge_of_blocked (ha : Nested (.map a)) (hb : Nested (.map b)) (hp : ∀ k ∈ p, k.IsKey)
    (hq : q ≠ []) (hv : ¬ v.IsMap) (h : under? p (.map b) = some v) : under? (p ++ q) (.map (deepMerge a b)) = none := by
  rw [under?_append, under?_deepMerge_of_plain ha hb hp hv h, Option.bind_some, under?_of_not_isMap hv hq]

theorem nested_inside_under? (ha : Nested (.map a)) : Nested (.map (inside (under? p (.map a)))) :=
  nested_inside fun _ hv => nested_of_under? ha hv

theorem under?_deepMerge_of_missing (ha : Nested (.map a)) (hb : Nested (.map b)) (hp : ∀ k ∈ p, k.IsKey)
    (hk : k.IsKey) (h : under? p (.map b) = some (.map fs)) (hmissing : fs.find? k = none) :
    under? (p ++ k :: q) (.map (deepMerge a b)) = under? (p ++ k :: q) (.map a) := by
  have hfind := find?_mergeEntries (nested_inside_under? (p := p) ha).keyed (nested_of_under? hb h).keyed hk
  rw [under?_append, under?_append, under?_deepMerge_of_mapping ha hb hp h, Option.bind_some, under?, hfind, hmissing,
    bind_under?_cons, Option.elim_none]

/-- The keys at every level. -/
theorem keys_under?_deepMerge (ha : Nested (.map a)) (hb : Nested (.map b)) (hp : ∀ k ∈ p, k.IsKey)
    (h : under? p (.map (deepMerge a b)) = some (.map es)) :
    es.keys = (inside (under? p (.map a))).keys ++
      (inside (under? p (.map b))).keys.filter fun k => ((inside (under? p (.map a))).find? k).isNone := by
  cases hat : under? p (.map b) with
  | some w =>
    by_cases hw : w.IsMap
    · obtain ⟨fs, rfl⟩ := hw
      rw [under?_deepMerge_of_mapping ha hb hp hat] at h
      obtain rfl : mergeEntries (inside (under? p (.map a))) fs = es := by simpa using h
      exact keys_mergeEntries (nested_inside_under? ha).keyed (nested_of_under? hb hat).keyed
    · rw [under?_deepMerge_of_plain ha hb hp hw hat] at h
      exact absurd ⟨es, Option.some.inj h⟩ hw
  | none =>
    obtain ⟨q, w, ⟨r, rfl⟩, hne, hw, hq⟩ | ⟨q, k, fs, ⟨r, rfl⟩, hq, hmissing⟩ := under?_eq_none hat
    · have hr : r ≠ [] := fun hr => hne (by rw [hr, List.append_nil])
      rw [under?_deepMerge_of_blocked ha hb (fun k hk => hp k (by simp [hk])) hr hw hq] at h
      cases h
    · rw [List.append_assoc, List.singleton_append] at hp h ⊢
      rw [under?_deepMerge_of_missing ha hb (fun l hl => hp l (by simp [hl])) (hp k (by simp)) hq hmissing] at h
      rw [h]
      exact (List.append_nil es.keys).symm

/-! ### Merging again -/

/-- Entries that change nothing one by one change nothing. -/
theorem mergeEntries_of_settled (h : ∀ e ∈ fs, ∃ w, es.find? e.1 = some w ∧ mergeValue (some w) e.2 = w) :
    mergeEntries es fs = es := by
  induction fs with
  | nil => rfl
  | cons e fs ih =>
    obtain ⟨k, v⟩ := e
    obtain ⟨⟨w, hfind, hsettled⟩, hrest⟩ := List.forall_mem_cons.mp h
    rw [mergeEntries, hfind, hsettled, Entries.put_of_find? hfind, ih hrest]

theorem mergeValue_again (ho : ∀ v ∈ o, Nested v) (hv : Nested v) :
    mergeValue (some (mergeValue o v)) v = mergeValue o v := by
  induction hv generalizing o with
  | other h => rw [mergeValue_of_not_isMap h, mergeValue_of_not_isMap h]
  | @map fs keyed values ih =>
    have hinside : Nested (.map (inside o)) := nested_inside ho
    rw [mergeValue_map keyed, mergeValue_map keyed]
    refine congrArg Value.map (mergeEntries_of_settled fun e he => ?_)
    have hfind : Entries.find? e.1 fs = some e.2 := keyed.find?_of_mem he
    have hkey : e.1.IsKey := keyed.isKey e.1 (List.mem_map_of_mem he)
    refine ⟨mergeValue ((inside o).find? e.1) e.2, ?_, ih e he fun x hx => nested_of_find? hinside hx⟩
    rw [inside, find?_mergeEntries hinside.keyed keyed hkey, hfind, Option.elim_some]

/-- One mapping as it looks when another is laid over it. -/
structure LaidOver (a b m : Entries) (p : List Value) : Prop where
  /-- The upper one has a value that is no mapping. -/
  plain : ∀ v, ¬ v.IsMap → under? p (.map b) = some v → under? p (.map m) = some v
  /-- On the way there, the upper one has a value that is no mapping. -/
  blocked : ∀ q v, q <+: p → q ≠ p → ¬ v.IsMap → under? q (.map b) = some v → under? p (.map m) = none
  /-- On the way there, a mapping of the upper one lacks a key. -/
  missing : ∀ q k, ∀ fs : Entries, q ++ [k] <+: p → under? q (.map b) = some (.map fs) → fs.find? k = none →
    under? p (.map m) = under? p (.map a)
  mapping : ∀ fs, under? p (.map b) = some (.map fs) → ∃ es, under? p (.map m) = some (.map es)
  keys : ∀ es : Entries, under? p (.map m) = some (.map es) →
    es.keys = (inside (under? p (.map a))).keys ++
      (inside (under? p (.map b))).keys.filter fun k => ((inside (under? p (.map a))).find? k).isNone

/-- Every path is laid over, at every depth, and to lay a mapping over what it lies over already changes nothing. -/
theorem deepMerge_laidOver (ha : Nested (.map a)) (hb : Nested (.map b)) :
    (∀ p, (∀ k ∈ p, k.IsKey) → LaidOver a b (deepMerge a b) p) ∧
      deepMerge (deepMerge a b) b = deepMerge a b ∧ deepMerge a [] = a ∧ deepMerge a a = a := by
  refine ⟨fun p hp => ⟨?plain, ?blocked, ?missing, ?mapping, ?keys⟩, ?again, rfl, ?self⟩
  case plain => exact fun v hv h => under?_deepMerge_of_plain ha hb hp hv h
  case blocked =>
    rintro q v ⟨r, rfl⟩ hne hv h
    have hr : r ≠ [] := fun hr => hne (by rw [hr, List.append_nil])
    exact under?_deepMerge_of_blocked ha hb (fun k hk => hp k (by simp [hk])) hr hv h
  case missing =>
    rintro q k fs ⟨r, rfl⟩ h hmissing
    rw [List.append_assoc, List.singleton_append] at hp ⊢
    exact under?_deepMerge_of_missing ha hb (fun l hl => hp l (by simp [hl])) (hp k (by simp)) h hmissing
  case mapping => exact fun fs h => ⟨_, under?_deepMerge_of_mapping ha hb hp h⟩
  case keys => exact fun es h => keys_under?_deepMerge ha hb hp h
  case again => exact Value.map.inj (mergeValue_again (o := some (.map a)) (by rintro _ ⟨⟩; exact ha) hb)
  case self => exact Value.map.inj (mergeValue_again (o := none) nofun ha)

theorem deepMerge_laidOver_sections :
    let lower : Entries := [
      (.str (text "site"), .map [(.str (text "host"), .str (text "h")), (.str (text "port"), .int 80)]),
      (.int 1, .str (text "one")), (.str (text "mode"), .map [(.str (text "deep"), .int 1)])]
    let upper : Entries := [
      (.str (text "mode"), .str (text "flat")), (.bool true, .str (text "yes")), (.str (text "new"), .map []),
      (.str (text "site"), .map [(.str (text "port"), .map [(.str (text "low"), .int 1)])])]
    let merged : Entries := [
      (.str (text "site"), .map [(.str (text "host"), .str (text "h")),
        (.str (text "port"), .map [(.str (text "low"), .int 1)])]),
      (.int 1, .str (text "yes")), (.str (text "mode"), .str (text "flat")), (.str (text "new"), .map [])]
    Nested (.map lower) ∧ Nested (.map upper) ∧ deepMerge lower upper = merged ∧
      LaidOver lower upper merged [.str (text "site"), .str (text "port")] ∧
      LaidOver lower upper merged [.str (text "mode"), .str (text "deep")] ∧
      deepMerge merged upper = merged := by
  intro lower upper merged
  have hplain (t : Text) : Nested (.str t) := .other nofun
  have hlower : Nested (.map lower) := by
    refine .cons (.str _) (.cons (.str _) (hplain _) (by decide) (.cons (.str _) (.other nofun) nofun nested_nil))
      (by decide) (.cons (.number trivial) (hplain _) (by decide) (.cons (.str _) ?_ nofun nested_nil))
    exact .cons (.str _) (.other nofun) nofun nested_nil
  have hupper : Nested (.map upper) := by
    refine .cons (.str _) (hplain _) (by decide) (.cons (.bool _) (hplain _) (by decide) (.cons (.str _) nested_nil
      (by decide) (.cons (.str _) (.cons (.str _) ?_ nofun nested_nil) nofun nested_nil)))
    exact .cons (.str _) (.other nofun) nofun nested_nil
  have hmerged : deepMerge lower upper = merged := by rfl
  obtain ⟨hpaths, hagain, -, -⟩ := deepMerge_laidOver hlower hupper
  rw [hmerged] at hpaths hagain
  have hkeys (s t : Text) : ∀ k ∈ [Value.str s, .str t], k.IsKey :=
    List.forall_mem_cons.mpr ⟨.str s, List.forall_mem_singleton.mpr (.str t)⟩
  exact ⟨hlower, hupper, hmerged, hpaths _ (hkeys _ _), hpaths _ (hkeys _ _), hagain⟩

end Config

end PageTemplate
